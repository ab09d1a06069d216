import ContentDecryption.Sample.Info

/-!
# Packed sub-sample maps

Media pipelines hand over the map of a sample packed: six bytes an entry, the
clear count in two and the encrypted count in four, highest byte first. A
`Subsample.Reader` is a cursor over such a map.

An entry is read in two halves, so a map that ends inside an entry is noticed
after the first half and leaves the cursor between the halves.

A pass over the map reads one entry after the other and does something with each:
`Subsample.Reader.walk`. It ends when an entry cannot be read, or is refused.

Main statements:

* `Subsample.length_encode`: a packed map has six bytes an entry;
* `Subsample.Reader.next_encode`: the entry packed first is the one read first;
* `Subsample.Reader.next_eq_ok_iff`: an entry is read exactly where six bytes remain;
* `Subsample.Reader.walk_succ`: a walk reads the entry at the cursor and goes on from there.
-/

namespace ContentDecryption

namespace Subsample

/-- The bytes of one packed entry (`SUBSAMPLE_ENTRY_SIZE`). -/
def entrySize : Nat := 6

/-- One packed entry. -/
def encodeEntry (s : SubSample) : Bytes :=
  Bytes.ofHalfBE s.clearBytes ++ Bytes.ofWordBE s.encryptedBytes

/-- The packed form of a map (`encode_subsamples`). -/
def encode (entries : List SubSample) : Bytes := entries.flatMap encodeEntry

/-- The entry at the front of a map, if there is a whole one, and how far reading it moves a cursor
(`read_u16_be`, then `read_u32_be`). The two halves of an entry are read one after the other. -/
def front : Bytes → Option SubSample × Nat
  | a :: b :: c :: d :: e :: f :: _ =>
    (some ⟨Bytes.toHalfBE a b, Bytes.toWordBE c d e f⟩, entrySize)
  | _ :: _ :: _ => (none, 2)
  | _ => (none, 0)

/-- A cursor over a packed map (`SubsampleReader`). -/
structure Reader where
  map : Bytes
  pos : Nat := 0
  deriving Repr, DecidableEq

namespace Reader

/-- The number of whole entries in the map (`capacity`). -/
def capacity (r : Reader) : Nat := r.map.length / entrySize

/-- Moves the cursor, which may stand at the end of the map but not past it (`set_pos`). -/
def setPos (r : Reader) (pos : Nat) : Except Error Unit × Reader :=
  if pos ≤ r.map.length then (.ok (), { r with pos := pos })
  else (.error .invalidDecryptBuffer, r)

/-- The cursor at the start of the map. -/
def rewind (r : Reader) : Reader := { r with pos := 0 }

/-- Reads the entry at the cursor (`next_entry`). -/
def next (r : Reader) : Except Error SubSample × Reader :=
  match front (r.map.drop r.pos) with
  | (some s, moved) => (.ok s, { r with pos := r.pos + moved })
  | (none, moved) => (.error .invalidDecryptBuffer, { r with pos := r.pos + moved })

/-- A loop over the next `count` entries. `body` is given what was made so far and the next entry,
which it may refuse. -/
def walk {σ : Type} (body : σ → SubSample → Option σ) (count : Nat) (x : σ) (r : Reader) :
    Except Error Unit × σ × Reader :=
  let (result, x, pos) := go count x (r.map.drop r.pos) r.pos
  (result, x, { r with pos })
where
  /-- The loop, with the bytes from the cursor on at hand. -/
  go : Nat → σ → Bytes → Nat → Except Error Unit × σ × Nat
  | 0, x, _, pos => (.ok (), x, pos)
  | count + 1, x, rest, pos =>
    match front rest with
    | (none, moved) => (.error .invalidDecryptBuffer, x, pos + moved)
    | (some s, moved) =>
      match body x s with
      | none => (.error .invalidDecryptBuffer, x, pos + moved)
      | some y => go count y (rest.drop moved) (pos + moved)

end Reader

/-! ## Laws -/

@[simp] theorem length_encodeEntry (s : SubSample) : (encodeEntry s).length = entrySize := rfl

@[simp] theorem length_encode (entries : List SubSample) :
    (encode entries).length = entrySize * entries.length := by
  induction entries with
  | nil => rfl
  | cons s rest ih =>
    have : encode (s :: rest) = encodeEntry s ++ encode rest := rfl
    rw [this, List.length_append, ih, length_encodeEntry, List.length_cons]
    simp [entrySize]
    omega

theorem front_encodeEntry (s : SubSample) (rest : Bytes) :
    front (encodeEntry s ++ rest) = (some s, entrySize) := by
  obtain ⟨a, b, hab, hs⟩ := Bytes.exists_ofHalfBE s.clearBytes
  obtain ⟨c, d, e, f, hcf, hw⟩ := Bytes.exists_ofWordBE s.encryptedBytes
  rw [encodeEntry, hab, hcf]
  simp only [List.cons_append, List.nil_append, front, hs, hw]

namespace Reader

@[simp] theorem map_rewind (r : Reader) : r.rewind.map = r.map := rfl

@[simp] theorem pos_rewind (r : Reader) : r.rewind.pos = 0 := rfl

theorem next_encode {r : Reader} {s : SubSample} {rest : Bytes}
    (h : r.map.drop r.pos = encodeEntry s ++ rest) :
    r.next = (.ok s, { r with pos := r.pos + entrySize }) := by
  rw [next, h, front_encodeEntry]

theorem next_eq_ok_iff (r : Reader) :
    (∃ s, r.next.1 = .ok s) ↔ r.pos + entrySize ≤ r.map.length := by
  have hl : (r.map.drop r.pos).length = r.map.length - r.pos := List.length_drop
  unfold next front entrySize
  generalize r.map.drop r.pos = l at hl
  match l, hl with
  | _ :: _ :: _ :: _ :: _ :: _ :: _, hl => simp at hl ⊢; omega
  | [_, _, _, _, _], hl => simp at hl ⊢; omega
  | [_, _, _, _], hl => simp at hl ⊢; omega
  | [_, _, _], hl => simp at hl ⊢; omega
  | [_, _], hl => simp at hl ⊢; omega
  | [_], hl => simp at hl ⊢; omega
  | [], hl => simp at hl ⊢; omega

section Walk

variable {σ : Type} (body : σ → SubSample → Option σ)

/-- A walk reads the entry at the cursor and goes on from there. -/
theorem walk_succ (count : Nat) (x : σ) (r : Reader) :
    r.walk body (count + 1) x =
      match r.next with
      | (.error e, r') => (.error e, x, r')
      | (.ok s, r') =>
        match body x s with
        | none => (.error .invalidDecryptBuffer, x, r')
        | some y => r'.walk body count y := by
  rw [walk, walk.go, next]
  rcases front (r.map.drop r.pos) with ⟨_ | s, moved⟩
  · rfl
  · dsimp only
    cases body x s with
    | none => rfl
    | some y =>
      dsimp only
      rw [List.drop_drop, walk]

end Walk

end Reader

end Subsample

end ContentDecryption

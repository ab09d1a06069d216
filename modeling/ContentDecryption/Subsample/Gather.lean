import ContentDecryption.Subsample.Map

/-!
# Gathering and scattering a divided sample

A service that wants the encrypted bytes of a divided sample in one piece gets
them in three passes over the packed map: `encryptedTotal` adds up the encrypted
counts, `gather` copies the encrypted runs into one buffer, and `scatter` writes
the decrypted bytes back to where they were read. Every pass starts at the first
entry, wherever the cursor stands.

A pass that fails leaves the cursor behind the last entry it looked at.
-/

namespace ContentDecryption

namespace Subsample

/-- The encrypted bytes of the first `count` entries (`encrypted_total`). -/
def encryptedTotal (r : Reader) (count : Nat) : Except Error Nat × Reader :=
  match r.rewind.walk (fun total s => some (total + s.encrypted)) count 0 with
  | (result, total, r) => (result.map fun _ => total, r)

/-- The encrypted runs of a sample in one buffer (`GatheredSample`). -/
structure Gathered where
  /-- The encrypted bytes, then the bytes kept free for the service. -/
  data : Bytes
  /-- How many bytes of `data` are encrypted ones. -/
  encryptedLength : Nat
  /-- One entry without clear bytes for each run. -/
  regions : List SubSample
  deriving Repr, DecidableEq

namespace Gathered

/-- The encrypted bytes alone (`payload`). -/
def payload (g : Gathered) : Bytes := g.data.take g.encryptedLength

end Gathered

/-- What `gather` has made: what it has left of the sample, and the runs and regions it has taken
out, the last ones first. -/
structure Copying where
  rest : Bytes
  runs : List Bytes
  regions : List SubSample

/-- Takes one run out of the sample. -/
def takeRun (x : Copying) (s : SubSample) : Option Copying :=
  match (x.rest.split? s.clear).bind fun p => Bytes.split? p.2 s.encrypted with
  | none => none
  | some (run, rest) => some ⟨rest, run :: x.runs, ⟨0, s.encryptedBytes⟩ :: x.regions⟩

/-- Copies the encrypted runs of `sample` into one buffer and adds `reserved` zero bytes
(`gather`). -/
def gather (sample : Bytes) (r : Reader) (count reserved : Nat) :
    Except Error Gathered × Reader :=
  match encryptedTotal r count with
  | (.error e, r) => (.error e, r)
  | (.ok total, r) =>
    match r.rewind.walk takeRun count ⟨sample, [], []⟩ with
    | (.error e, _, r) => (.error e, r)
    | (.ok _, x, r) =>
      (.ok ⟨Bytes.fit (total + reserved) x.runs.reverse.flatten, total, x.regions.reverse⟩,
        r.rewind)

/-- What `scatter` has made: what it has left of the decrypted bytes and of the sample, and what is
behind it in the sample, the last part first. -/
structure Pasting where
  decrypted : Bytes
  rest : Bytes
  written : List Bytes

/-- The sample, as it is by now. -/
def Pasting.sample (x : Pasting) : Bytes := x.written.reverse.flatten ++ x.rest

/-- Writes one run into the sample. -/
def pasteRun (x : Pasting) (s : SubSample) : Option Pasting :=
  match x.decrypted.split? s.encrypted, x.rest.split? s.length with
  | some (run, decrypted), some (divided, rest) =>
    some ⟨decrypted, rest, (divided.take s.clear ++ run) :: x.written⟩
  | _, _ => none

/-- Writes `decrypted` back into the encrypted runs of `sample` (`scatter`). Bytes of `decrypted`
past the runs are left over. -/
def scatter (decrypted : Bytes) (r : Reader) (count : Nat) (sample : Bytes) :
    Except Error Unit × Reader × Bytes :=
  match r.rewind.walk pasteRun count ⟨decrypted, sample, []⟩ with
  | (.error e, x, r) => (.error e, r, x.sample)
  | (.ok _, x, r) => (.ok (), r.rewind, x.sample)

end Subsample

end ContentDecryption

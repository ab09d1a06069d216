import ContentDecryption.Sample.KeyId
import ContentDecryption.Sample.KeyStatus

/-!
# Key ledgers

What a session knows of its keys: for each key the last status reported, under the
key ID of the first report, in the order of first reports. A key is found under its
ID in either byte order.

Main statements:

* `KeyLedger.find?_report`: a report is what is found under the same ID;
* `KeyLedger.find?_report_eq`: and under every ID that names the same key, and under no other.
-/

namespace ContentDecryption

/-- The key statuses reported so far (the table `keys` of `SessionEvents`). -/
abbrev KeyLedger := List (KeyId × KeyStatus)

namespace KeyLedger

/-- The last status reported for a key (`status` of `SessionEvents`). -/
def find? (l : KeyLedger) (id : Bytes) : Option KeyStatus :=
  let second := KeyId.swapped id
  (List.find? (fun entry => KeyId.isEither id second entry.1) l).map Prod.snd

/-- Takes a report for a key with these two spellings. -/
def reportUnder (first second : KeyId) (status : KeyStatus) : KeyLedger → KeyLedger
  | [] => [(first, status)]
  | entry :: rest =>
    if KeyId.isEither first second entry.1 then (entry.1, status) :: rest
    else entry :: reportUnder first second status rest

/-- Takes a report (`on_key_status_update`). -/
def report (l : KeyLedger) (id : Bytes) (status : KeyStatus) : KeyLedger :=
  reportUnder id (KeyId.swapped id) status l

/-- The status of a key (`status`). A key that was never reported is pending. -/
def status (l : KeyLedger) (id : Bytes) : KeyStatus := (l.find? id).getD .statusPending

/-- Whether the key was ever reported (`has_key_id`). -/
def contains (l : KeyLedger) (id : Bytes) : Bool := (l.find? id).isSome

/-- The error value of a key, if it was ever reported (`key_error`). -/
def errorValue? (l : KeyLedger) (id : Bytes) : Option UInt32 :=
  (l.find? id).map KeyStatus.errorValue

theorem find?_report (l : KeyLedger) (id : Bytes) (status : KeyStatus) :
    (l.report id status).find? id = some status := by
  unfold report
  induction l with
  | nil => simp [reportUnder, find?, KeyId.isEither]
  | cons entry rest ih =>
    simp only [reportUnder]
    split
    · next h => simp [find?, h]
    · next h => simpa [find?, h] using ih

/-- A key is found under every ID that names it. -/
theorem find?_congr (l : KeyLedger) {id other : KeyId} (h : id.agrees other = true) :
    l.find? id = l.find? other := by
  have hentry (k : KeyId) : k.agrees id = k.agrees other := by
    rw [KeyId.agrees_comm, KeyId.agrees_congr h, KeyId.agrees_comm]
  show (List.find? (fun entry => KeyId.agrees entry.1 id) l).map Prod.snd = _
  simp only [hentry]
  rfl

/-- A report is found under the IDs that name its key. Under others nothing changes. -/
theorem find?_report_eq (l : KeyLedger) (id : Bytes) (status : KeyStatus) (k : KeyId) :
    (l.report id status).find? k = if KeyId.agrees id k then some status else l.find? k := by
  by_cases hid : KeyId.agrees id k = true
  · rw [if_pos hid, ← find?_congr _ hid, find?_report]
  rw [if_neg hid]
  rw [Bool.not_eq_true] at hid
  have hcons (entry : KeyId × KeyStatus) (rest : KeyLedger) : find? (entry :: rest) k =
      if entry.1.agrees k then some entry.2 else find? rest k := by
    show (List.find? (fun entry => KeyId.agrees entry.1 k) (entry :: rest)).map Prod.snd = _
    rw [List.find?_cons]
    cases KeyId.agrees entry.1 k <;> rfl
  unfold report
  induction l with
  | nil => rw [reportUnder, hcons, hid]; rfl
  | cons entry rest ih =>
    rw [reportUnder]
    split
    · next hentry =>
      have hother : entry.1.agrees k = false := (KeyId.agrees_congr hentry k).trans hid
      rw [hcons, hcons, hother]
      rfl
    · rw [hcons, hcons, ih]

end KeyLedger

end ContentDecryption

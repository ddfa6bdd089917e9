import LcsSystem.Finance.Periods

/-!
# Number sequences

`upsert_sequence` (`src/backend/app/modules/finance/service.py:419-447`), and what the text of a number
says about its sequence: `DocumentSequence.number` is a head (prefix and year), a dash and a counter
whose padding is cosmetic. Two numbers are equal exactly when heads and counters are.

The status of a sequence is left out: no service reads it.
-/

namespace LcsSystem
open Relational Checks

/-! ## Numbers as text -/

/-- What comes before the dash of a number. -/
def DocumentSequence.head (s : DocumentSequence) : String := s.sequencePrefix ++ toString s.periodYear

theorem toList_toString (n : ℕ) : (toString n).toList = Nat.toDigits 10 n := by
  rw [Nat.toString_eq_ofList_toDigits, String.toList_ofList]

/-- The characters of a counter are digits. -/
theorem dash_notMem_zfill (n width : ℕ) : '-' ∉ (zfill n width).toList := by
  simp only [zfill, String.toList_append, String.toList_ofList, toList_toString, List.mem_append, not_or]
  constructor
  · intro h
    cases List.eq_of_mem_replicate h
  · intro h
    have hdigit := Nat.isDigit_of_mem_toDigits (by decide) (by decide) h
    cases hdigit

/-- A counter is read off its text, whatever its padding. -/
theorem ofDigitChars_zfill (n width : ℕ) : Nat.ofDigitChars 10 (zfill n width).toList 0 = n := by
  simp only [zfill, String.toList_append, String.toList_ofList, toList_toString, Nat.ofDigitChars_append,
    Nat.ofDigitChars_replicate_zero, Nat.mul_zero, Nat.ofDigitChars_ten_toDigits]

/-- The last dash splits a number. -/
theorem append_dash_inj {x : Char} {as bs cs ds : List Char} (hb : x ∉ bs) (hd : x ∉ ds)
    (h : as ++ x :: bs = cs ++ x :: ds) : as = cs ∧ bs = ds := by
  induction as generalizing cs with
  | nil =>
    cases cs with
    | nil => exact ⟨rfl, (List.cons.inj h).2⟩
    | cons c cs =>
      obtain ⟨rfl, rfl⟩ := List.cons.inj h
      exact absurd (List.mem_append_right _ List.mem_cons_self) hb
  | cons a as ih =>
    cases cs with
    | nil =>
      obtain ⟨rfl, hrest⟩ := List.cons.inj h
      exact absurd (hrest ▸ List.mem_append_right _ List.mem_cons_self) hd
    | cons c cs =>
      obtain ⟨rfl, hrest⟩ := List.cons.inj h
      obtain ⟨rfl, rfl⟩ := ih hrest
      exact ⟨rfl, rfl⟩

/-- **Numbers** are equal only when their heads and their counters are. -/
theorem numberText_inj {head head' : String} {value value' width width' : ℕ}
    (h : head ++ "-" ++ zfill value width = head' ++ "-" ++ zfill value' width') : head = head' ∧ value = value' := by
  have hlist := congrArg String.toList h
  simp only [String.toList_append, List.append_assoc] at hlist
  obtain ⟨hhead, hcounter⟩ := append_dash_inj (dash_notMem_zfill value width) (dash_notMem_zfill value' width') hlist
  refine ⟨String.toList_injective hhead, ?_⟩
  rw [← ofDigitChars_zfill value width, hcounter, ofDigitChars_zfill]

/-! ## Rows -/

deriving instance DecidableEq for DocumentSequence

/-- The unique key of a sequence. -/
def DocumentSequence.key (s : DocumentSequence) : String × ℕ := (s.documentType, s.periodYear)

def sequenceOf (sequences : Table DocumentSequence) (key : String × ℕ) : Option (ℕ × DocumentSequence) :=
  sequences.rows.find? fun r => r.2.documentType == key.1 && r.2.periodYear == key.2

theorem sequenceOf_eq_some {sequences : Table DocumentSequence} {key : String × ℕ} {r : ℕ × DocumentSequence}
    (h : sequenceOf sequences key = some r) : sequences.get? r.1 = some r.2 ∧ r.2.key = key := by
  have hkey := List.find?_some h
  simp only [Bool.and_eq_true, beq_iff_eq] at hkey
  exact ⟨Table.get?_eq_some.2 (List.mem_of_find?_eq_some h), Prod.ext hkey.1 hkey.2⟩

theorem sequenceOf_eq_none {sequences : Table DocumentSequence} {key : String × ℕ}
    (h : sequenceOf sequences key = none) {id : ℕ} {s : DocumentSequence} (hs : sequences.get? id = some s) :
    s.key ≠ key := by
  rintro rfl
  have hno := List.find?_eq_none.1 h _ (Table.get?_eq_some.1 hs)
  simp [DocumentSequence.key] at hno

/-- The row that `allocate_number` creates on first use. -/
def firstSequence (documentType : String) (year : ℕ) (sequencePrefix : Option String) : DocumentSequence where
  documentType := documentType
  periodYear := year
  sequencePrefix := (sequencePrefix.filter fun p => p != "").getD (defaultPrefix documentType)
  lastValue := 0
  paddingLength := 6

/-! ## upsert_sequence -/

structure SequencePayload where
  documentType : Field String
  year : Field ℚ
  sequencePrefix : Field String
  lastValue : Field ℚ
  paddingLength : Field ℚ
  status : Field String

/-- `SEQUENCE_WRITE_SCHEMA`. -/
def sequenceWriteSchema (p : SequencePayload) : List FieldErrorItem :=
  checkRequired "documentType" (TextSpec.check { key := "documentType", minLength := some 1, maxLength := some 64 })
    p.documentType.text ++
  DecimalSpec.checkInteger { key := "year", minimum := some ⟨2000, "2000"⟩, maximum := some ⟨2200, "2200"⟩ } p.year ++
  TextSpec.check { key := "prefix", maxLength := some 16 } p.sequencePrefix ++
  DecimalSpec.checkInteger { key := "lastValue", minimum := some ⟨0, "0"⟩ } p.lastValue ++
  DecimalSpec.checkInteger { key := "paddingLength", minimum := some ⟨1, "1"⟩, maximum := some ⟨12, "12"⟩ }
    p.paddingLength ++
  TextSpec.checkChoice { key := "status", maxLength := some 20 } ["ACTIVE", "INACTIVE"] p.status

/-- The whole number of an accepted integer field. -/
def Field.whole (f : Field ℚ) : Option ℕ := f.get?.map fun q => q.num.toNat

namespace SequencePayload

/-- The key of the sequence a body names, the year being the current one unless it was sent. -/
def key (p : SequencePayload) (utcYear : ℕ) : String × ℕ :=
  (upper (p.documentType.text.get?.getD ""), p.year.whole.getD utcYear)

/-- The row of a new sequence. -/
def newRow (p : SequencePayload) (utcYear : ℕ) : DocumentSequence where
  documentType := (p.key utcYear).1
  periodYear := (p.key utcYear).2
  sequencePrefix := p.sequencePrefix.text.get?.getD (String.ofList ((p.key utcYear).1.toList.take 2))
  lastValue := p.lastValue.whole.getD 0
  paddingLength := p.paddingLength.whole.getD 6

/-- A stored sequence after the body; what was not sent stays. -/
def apply (p : SequencePayload) (s : DocumentSequence) : DocumentSequence :=
  { s with
    sequencePrefix := p.sequencePrefix.text.get?.getD s.sequencePrefix
    lastValue := p.lastValue.whole.getD s.lastValue
    paddingLength := p.paddingLength.whole.getD s.paddingLength }

@[simp] theorem newRow_key (p : SequencePayload) (utcYear : ℕ) : (p.newRow utcYear).key = p.key utcYear := rfl

@[simp] theorem apply_key (p : SequencePayload) (s : DocumentSequence) : (p.apply s).key = s.key := rfl

end SequencePayload

def upsertSequence (env : Env) (sequences : Table DocumentSequence) (p : SequencePayload) :
    Result (Table DocumentSequence) := do
  RecordSchema.validate (sequenceWriteSchema p)
  match sequenceOf sequences (p.key env.utcYear) with
  | some r => return sequences.modify r.1 p.apply
  | none => return sequences.insert (p.newRow env.utcYear)

/-- The `UPDATE` of an edit: the columns that differ from what was read. -/
def DocumentSequence.writeChanged (read new stored : DocumentSequence) : DocumentSequence :=
  { stored with
    sequencePrefix := if new.sequencePrefix = read.sequencePrefix then stored.sequencePrefix else new.sequencePrefix
    lastValue := if new.lastValue = read.lastValue then stored.lastValue else new.lastValue
    paddingLength := if new.paddingLength = read.paddingLength then stored.paddingLength else new.paddingLength }

@[simp] theorem DocumentSequence.writeChanged_key (read new stored : DocumentSequence) :
    (writeChanged read new stored).key = stored.key := rfl

/-- On the row that was read, it writes the edit. -/
theorem SequencePayload.writeChanged_self (p : SequencePayload) (s : DocumentSequence) :
    DocumentSequence.writeChanged s (p.apply s) s = p.apply s := by
  have hkeep {α : Type} [DecidableEq α] (new read : α) : (if new = read then read else new) = new := by
    split
    · next h => exact h.symm
    · rfl
  simp only [DocumentSequence.writeChanged, hkeep]
  rfl

end LcsSystem

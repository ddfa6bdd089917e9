import LcsSystem.Core.Validation
import LcsSystem.Quotations.Models

/-!
# References to master data

A form submits a reference as an id or as a code or name. `_reference` (`src/backend/app/core/validation.py`)
says what is one; the services resolve it against the table they mean.

| here | there |
|---|---|
| `Reference` | a value of kind `reference`: `int`, or stripped text |
| `Reference.check` | `_reference` of one `FieldSpec` |
| `resolveReferenceId` | `resolve_reference_id` of a fee type (`modules/master_data/service.py:161`) |
| `resolveOrCreateContainerType` | `resolve_or_create_container_type` (`modules/master_data/service.py:179`) |
| `resolveTransportBy` | `_resolve_transport_by` (`modules/quotations/service.py:239`) |

`int(text)` reads plain digits only.
-/

namespace LcsSystem
open Relational Checks

inductive Reference
  | id (n : ℕ)
  | text (s : String)
  deriving DecidableEq

namespace Reference

/-- `int(value)`. -/
def number : Reference → Option ℕ
  | id n => some n
  | text s => digits? (strip s)

/-- `str(value).strip()`. -/
def asText : Reference → String
  | id n => toString n
  | text s => strip s

/-- `_as_int`: a positive number. -/
def asInt (r : Reference) : Option ℕ := r.number.filter fun n => decide (0 < n)

/-- An id that was rendered as text. -/
theorem number_toString (n : ℕ) : (text (toString n)).number = some n := by
  obtain ⟨hstrip, hdigits⟩ := digits?_toString n
  rw [number, hstrip, hdigits]

/-- The items of a reference field. -/
def check (key : String) (maxLength : Option ℕ := none) : Field Reference → List FieldErrorItem
  | .malformed => [⟨key, "INVALID_TYPE", "Choose a valid record."⟩]
  | .value (.text s) =>
    match maxLength.filter fun n => decide (n < (strip s).length) with
    | some n => [⟨key, "TOO_LONG", "Use at most " ++ toString n ++ " characters."⟩]
    | none => []
  | _ => []

end Reference

/-- The reference that a schema hands on. -/
def Field.reference? : Field Reference → Option Reference
  | .value (.text s) => if strip s = "" then none else some (.text (strip s))
  | .value r => some r
  | _ => none

/-- `text[:n]`. -/
def clip (n : ℕ) (text : String) : String := String.ofList (text.toList.take n)

/-! ## Texts -/

theorem text_get?_eq_some {f : Field String} {text : String} (h : f.text.get? = some text) :
    strip text = text ∧ text ≠ "" := by
  cases f with
  | value s =>
    by_cases hblank : strip s = ""
    · simp [Field.text, hblank, Field.get?] at h
    · simp only [Field.text, hblank, if_false, Field.get?, Option.some.injEq] at h
      subst h
      exact ⟨strip_strip s, hblank⟩
  | _ => simp [Field.text, Field.get?] at h

theorem TextSpec.check_value_eq_nil {key s : String} {n : ℕ} :
    TextSpec.check { key := key, maxLength := some n } (.value s) = [] ↔ (strip s).length ≤ n := by
  by_cases hblank : strip s = ""
  · simp [TextSpec.check, Field.text, hblank]
  · by_cases hlong : n < (strip s).length
    · simp [TextSpec.check, Field.text, hblank, Option.filter, hlong]
    · simp [TextSpec.check, Field.text, hblank, Option.filter, hlong, not_lt.1 hlong]

theorem TextSpec.length_le {key : String} {n : ℕ} {f : Field String}
    (h : TextSpec.check { key := key, maxLength := some n } f = []) : ∀ text ∈ f.text.get?, text.length ≤ n := by
  intro text htext
  cases f with
  | value s =>
    rw [TextSpec.check_value_eq_nil] at h
    by_cases hblank : strip s = ""
    · simp [Field.text, hblank, Field.get?] at htext
    · simp only [Field.text, hblank, if_false, Field.get?, Option.mem_some_iff] at htext
      exact htext ▸ h
  | _ => simp [Field.text, Field.get?] at htext

/-! ## Lookups -/

/-- The first record of this code or name that is not deleted. -/
def findRecord (records : Table NamedRecord) (text : String) : Option ℕ :=
  (records.rows.find? fun r => (r.2.code == text || r.2.name == text) && !r.2.deleted).map Prod.fst

/-- An id wins; a text that is none falls back to the value, which is an id, a name or a code. -/
def resolveReferenceId (feeTypes : Table FeeType) (rawId value : Option Reference) : Option ℕ :=
  match rawId.bind Reference.number with
  | some id => some id
  | none => value.bind fun reference =>
    match reference.number with
    | some id => some id
    | none =>
      (feeTypes.rows.find? fun r => (r.2.name == reference.asText || r.2.code == reference.asText) && !r.2.deleted).map
        Prod.fst

/-- The container type of an id, a code or a name; an unknown text becomes a new type. -/
def resolveOrCreateContainerType (types : Table ContainerType) : Option Reference → Table ContainerType × Option ℕ
  | none => (types, none)
  | some (.id n) => (types, (types.get? n).map fun _ => n)
  | some (.text s) =>
    let text := strip s
    if text = "" then (types, none)
    else
      match (digits? text).filter fun n => (types.get? n).isSome with
      | some n => (types, some n)
      | none =>
        match types.rows.find? fun r => r.2.code == text || r.2.name == text with
        | some r => (types, some r.1)
        | none => (types.insert ⟨clip 50 text, clip 255 text⟩, some types.nextId)

/-- The id of a transport type as text; the text itself where no record has it. -/
def resolveTransportBy (types : Table NamedRecord) : Option Reference → Option String
  | none => none
  | some reference =>
    match digits? reference.asText with
    | some n => (types.get? n).map fun _ => toString n
    | none => some (((findRecord types reference.asText).map toString).getD reference.asText)

end LcsSystem

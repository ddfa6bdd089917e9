import LcsSystem.Operations.ComponentValues
import LcsSystem.Lib.Entries

/-!
# Stored values, submitted again

`_coerce_value` and `_validate_values` of `src/backend/app/modules/operations/component_tabs.py:163-261` read what they
wrote: a stored value is coerced to itself, and the values of a row that passed pass as they are.
-/

namespace LcsSystem
open Relational DecimalArith Checks Entries

/-! ## Numbers, dates and texts -/

theorem floatOf_floatOf (q : ℚ) : floatOf (floatOf q) = floatOf q := by
  rcases lt_or_ge q 0 with hneg | hpos
  · have hread : 0 < jsonNumber (-q) := jsonNumber_pos (by linarith)
    have hfloat : floatOf q = -jsonNumber (-q) := if_pos hneg
    rw [hfloat, floatOf, if_pos (by linarith), neg_neg, jsonNumber_jsonNumber (by linarith)]
  · have hfloat : floatOf q = jsonNumber q := if_neg (not_lt.2 hpos)
    rw [hfloat, floatOf, if_neg, jsonNumber_jsonNumber hpos]
    rcases hpos.eq_or_lt with rfl | hpos
    · simp
    · exact not_lt.2 (jsonNumber_pos hpos).le

theorem decimalOfJson_floatOf (q : ℚ) : decimalOfJson (.num (floatOf q)) = some (floatOf q) := by
  have hfloat := floatOf_floatOf q
  rw [decimalOfJson]
  split
  · rfl
  · exact congrArg some hfloat

theorem zuluOffset_zuluOffset (s : String) : zuluOffset (zuluOffset s) = zuluOffset s := by
  have hnone : ∀ c ∈ (zuluOffset s).toList, c ≠ 'Z' := by
    intro c hc
    rw [zuluOffset, String.toList_ofList, List.mem_flatMap] at hc
    obtain ⟨d, _, hc⟩ := hc
    split at hc
    · rintro rfl
      exact absurd hc (by decide)
    · next hd => exact List.mem_singleton.1 hc ▸ hd
  rw [zuluOffset]
  conv_rhs => rw [← String.ofList_toList (s := zuluOffset s)]
  congr 1
  rw [List.flatMap_congr fun c hc => if_neg (hnone c hc)]
  simp

theorem zuluOffset_ne {s : String} (h : s ≠ "") : zuluOffset s ≠ "" := by
  obtain ⟨c, cs, hs⟩ := List.exists_cons_of_ne_nil (fun hnil => h (String.toList_eq_nil_iff.1 hnil))
  intro hempty
  have hlist := congrArg String.toList hempty
  rw [zuluOffset, String.toList_ofList, hs, List.flatMap_cons] at hlist
  split at hlist <;> simp at hlist

theorem append_ne {a b : String} (h : a ≠ "" ∨ b ≠ "") : a ++ b ≠ "" := by
  intro hempty
  have hlist := congrArg String.toList hempty
  rw [String.toList_append] at hlist
  obtain ⟨ha, hb⟩ := List.append_eq_nil_iff.1 hlist
  exact h.elim (fun h => h (String.toList_eq_nil_iff.1 ha)) fun h => h (String.toList_eq_nil_iff.1 hb)

theorem toString_int_ne (z : ℤ) : toString z ≠ "" := by
  intro hempty
  have hlist := toList_toString_int z
  rw [hempty] at hlist
  exact toString_ne_nil z.natAbs (List.append_eq_nil_iff.1 hlist.symm).2

theorem strOf_ne {value : Json} (h : isEmptyValue value = false) : strOf value ≠ "" := by
  have hpoint : ("." : String) ≠ "" := by decide
  cases value with
  | null => cases h
  | bool b => cases b <;> decide
  | num q =>
    change numberText q ≠ ""
    have hfraction : ∀ x : ℚ, fractionText x ≠ "" := by
      intro x
      unfold fractionText
      split
      · exact append_ne (.inl (append_ne (.inl (append_ne (.inr (by decide))))))
      · exact append_ne (.inl (append_ne (.inr hpoint)))
    have hshown : ∀ x : ℚ, (if x.den = 1 then toString x.num
        else if x < 0 then "-" ++ fractionText (-x) else fractionText x) ≠ "" := by
      intro x
      split
      · exact toString_int_ne _
      · split
        · exact append_ne (.inl (by decide))
        · exact hfraction x
    exact hshown _
  | str s =>
    have hne : s ≠ "" := by simpa [isEmptyValue] using h
    exact hne
  | list items => exact append_ne (.inl (append_ne (.inl (by decide))))
  | dict entries => exact append_ne (.inl (append_ne (.inl (by decide))))

/-- A date in the form that is stored. -/
def dateText (y m d : ℕ) : List Char := padded 4 y ++ '-' :: padded 2 m ++ '-' :: padded 2 d

theorem splitOn_dateText (y m d : ℕ) : (dateText y m d).splitOn '-' = [padded 4 y, padded 2 m, padded 2 d] := by
  have hdash : ∀ w n, '-' ∉ padded w n := by
    intro w n hmem
    have hdigit := (lt_of_digits? (digits?_padded w n)).1 '-' hmem
    exact absurd hdigit (by decide)
  have hjoin : dateText y m d = ['-'].intercalate [padded 4 y, padded 2 m, padded 2 d] := by
    simp [dateText, List.intercalate]
  rw [hjoin]
  exact List.splitOn_intercalate '-' (by simp [hdash]) (List.cons_ne_nil _ _)

theorem isoDate_dateText {y m d : ℕ} (hy : 1 ≤ y ∧ y < 10 ^ 4) (hm : 1 ≤ m ∧ m ≤ 12)
    (hd : 1 ≤ d ∧ d ≤ Calendar.daysInMonth y m) :
    (dateText y m d).length = 10 ∧ isoDate (dateText y m d) = some (String.ofList (dateText y m d)) := by
  have hdays : d < 10 ^ 2 := by
    have := hd.2.trans (Calendar.daysInMonth_le y m)
    omega
  have hyear : (padded 4 y).length = 4 := length_padded (by decide) hy.2
  have hmonth : (padded 2 m).length = 2 := length_padded (by decide) (by omega)
  have hday : (padded 2 d).length = 2 := length_padded (by decide) hdays
  have hspaces : (padded 2 d).dropWhile (· == ' ') = padded 2 d := by
    refine List.dropWhile_eq_self_iff.2 fun hpos hspace => ?_
    have hdigit := (lt_of_digits? (digits?_padded 2 d)).1 _ (List.getElem_mem hpos)
    rw [eq_of_beq hspace] at hdigit
    exact absurd hdigit (by decide)
  constructor
  · simp only [dateText, List.length_append, List.length_cons]
    omega
  · simp only [isoDate, splitOn_dateText, hspaces, digits?_padded]
    rw [if_pos ⟨hyear, hmonth.le, hday.le, hy.1, hm.1, hm.2, hd.1, hd.2⟩]
    rfl

theorem isoDate_isoDate {text : List Char} {date : String} (h : isoDate text = some date) :
    isoDate (date.toList.take 10) = some date ∧ date ≠ "" := by
  obtain ⟨y, m, d, hy, hm, hd, rfl⟩ : ∃ y m d, (1 ≤ y ∧ y < 10 ^ 4) ∧ (1 ≤ m ∧ m ≤ 12) ∧
      (1 ≤ d ∧ d ≤ Calendar.daysInMonth y m) ∧ String.ofList (dateText y m d) = date := by
    unfold isoDate at h
    split at h
    · next year month day _ =>
      split at h
      · next y m d hy _ _ =>
        split at h
        · next hvalid =>
          obtain ⟨hyear, _, _, hy1, hm1, hm12, hd1, hdays⟩ := hvalid
          exact ⟨y, m, d, ⟨hy1, hyear ▸ (lt_of_digits? hy).2⟩, ⟨hm1, hm12⟩, ⟨hd1, hdays⟩, Option.some.inj h⟩
        · cases h
      · cases h
    · cases h
  obtain ⟨hlength, hread⟩ := isoDate_dateText hy hm hd
  refine ⟨?_, fun hempty => ?_⟩
  · rw [String.toList_ofList, List.take_of_length_le hlength.le, hread]
  · have hlist := congrArg String.toList hempty
    rw [String.toList_ofList] at hlist
    rw [hlist] at hlength
    cases hlength

/-! ## A coerced value -/

section
variable {fromIsoFormat : String → Bool}

/-- **A stored value is stored as itself.** -/
theorem coerceValue_coerced {type : DataType} {value coerced : Json} (hvalue : isEmptyValue value = false)
    (h : coerceValue fromIsoFormat type value = .ok coerced) :
    coerceValue fromIsoFormat type coerced = .ok coerced ∧ isEmptyValue coerced = false := by
  cases type with
  | integer =>
    simp only [coerceValue] at h
    split at h
    · next q _ =>
      split at h
      · next hq =>
        cases h
        simp [coerceValue, decimalOfJson, hq, isEmptyValue]
      · cases h
    · cases h
  | number =>
    simp only [coerceValue] at h
    split at h
    · next q _ =>
      cases h
      by_cases hq : q.den = 1
      · simp [coerceValue, decimalOfJson, hq, isEmptyValue]
      · refine ⟨?_, rfl⟩
        simp only [coerceValue, if_neg hq, decimalOfJson_floatOf, floatOf_floatOf, ite_self]
    · cases h
  | decimal | money =>
    simp only [coerceValue] at h
    split at h
    · cases h
      exact ⟨by simp only [coerceValue, decimalOfJson_floatOf, floatOf_floatOf], rfl⟩
    · cases h
  | date =>
    simp only [coerceValue] at h
    split at h
    · next date hdate =>
      cases h
      obtain ⟨hagain, hne⟩ := isoDate_isoDate hdate
      refine ⟨?_, by simpa [isEmptyValue] using hne⟩
      simp only [coerceValue, strOf, hagain]
    · cases h
  | datetime =>
    simp only [coerceValue] at h
    split at h
    · next hread =>
      cases h
      refine ⟨?_, by simpa [isEmptyValue] using zuluOffset_ne (strOf_ne hvalue)⟩
      have hagain : coerceValue fromIsoFormat .datetime (.str (zuluOffset (strOf value))) =
          if fromIsoFormat (zuluOffset (zuluOffset (strOf value))) then .ok (.str (zuluOffset (zuluOffset (strOf value))))
          else .error "Must be a valid date/time" := rfl
      rw [hagain, zuluOffset_zuluOffset, if_pos hread]
    · cases h
  | checkbox | boolean =>
    simp only [coerceValue] at h
    split at h <;> cases h <;> exact ⟨rfl, rfl⟩
  | multiSelect =>
    simp only [coerceValue] at h
    split at h
    · cases h
      exact ⟨rfl, hvalue⟩
    · cases h
      exact ⟨rfl, rfl⟩
  | reference =>
    simp only [coerceValue] at h
    split at h
    · next n _ =>
      cases h
      refine ⟨?_, rfl⟩
      have hread : integerOfJson (.num (n : ℚ)) = some n := by
        simp only [integerOfJson]
        split
        · rw [← Int.cast_neg, Int.floor_intCast, neg_neg]
        · rw [Int.floor_intCast]
      simp only [coerceValue, hread]
    · cases h
  | text | textarea | currency | select =>
    cases h
    exact ⟨rfl, by simpa [isEmptyValue] using strOf_ne hvalue⟩

/-! ## The values of a row, submitted as they are stored -/

/-- A member of a group, with its attribute. -/
abbrev FieldMember := ComponentGroupAttribute × (ℕ × ComponentAttribute)

variable {referenceIds : String → List ℤ} {members : List FieldMember}

theorem fieldValue_stored {member : FieldMember} {value : Json} {stored : Option Json}
    (h : fieldValue fromIsoFormat referenceIds member value = .ok stored) :
    fieldValue fromIsoFormat referenceIds member (stored.getD .null) = .ok stored := by
  rw [fieldValue] at h
  by_cases hempty : isEmptyValue value = true
  · rw [if_pos hempty] at h
    split at h
    · cases h
    · next hrequired =>
      cases h
      have hnull : isEmptyValue .null = true := rfl
      rw [Option.getD_none, fieldValue, if_pos hnull, if_neg hrequired]
  · rw [if_neg hempty, bind_eq_ok] at h
    obtain ⟨coerced, hcoerced, h⟩ := h
    split at h
    · cases h
    · next hoption =>
      cases h
      obtain ⟨hagain, hfull⟩ := coerceValue_coerced (Bool.not_eq_true _ ▸ hempty) hcoerced
      rw [Option.getD_some, fieldValue, if_neg (by simp [hfull]), hagain, ok_bind, hoption]

/-- What a row stores: the values of other fields, and what the fields of the group store. -/
def storedValues (members : List FieldMember) (existing : List (String × Json)) (stored : FieldMember → Option Json) :
    List (String × Json) :=
  (existing.filter fun entry => !members.any fun member => member.2.2.code == entry.1) ++
    members.filterMap fun member => (stored member).map fun value => (member.2.2.code, value)

theorem validateValues_of_fields {provided existing : List (String × Json)} {stored : FieldMember → Option Json}
    (h : ∀ member ∈ members, fieldValue fromIsoFormat referenceIds member
      (submittedOr provided existing member.2.2.code) = .ok (stored member)) :
    validateValues fromIsoFormat referenceIds members provided existing = .ok (storedValues members existing stored) := by
  have hfields : (members.map fun member => (member.2.2.code, fieldValue fromIsoFormat referenceIds member
      (submittedOr provided existing member.2.2.code))) =
      members.map fun member => (member.2.2.code, (.ok (stored member) : Except String (Option Json))) :=
    List.map_congr_left fun member hmember => by rw [h member hmember]
  rw [validateValues]
  simp only [hfields, List.filterMap_map, Function.comp_def, List.any_map]
  rw [if_pos (by simp)]
  refine congrArg Except.ok (congrArg _ (List.filterMap_congr fun member _ => ?_))
  cases stored member <;> rfl

/-- The fields of a row that passed. -/
theorem fields_of_validateValues {provided existing values : List (String × Json)}
    (h : validateValues fromIsoFormat referenceIds members provided existing = .ok values) :
    ∃ stored : FieldMember → Option Json, (∀ member ∈ members, fieldValue fromIsoFormat referenceIds member
        (submittedOr provided existing member.2.2.code) = .ok (stored member)) ∧
      values = storedValues members existing stored := by
  have hok : ∀ member ∈ members, ∃ stored, fieldValue fromIsoFormat referenceIds member
      (submittedOr provided existing member.2.2.code) = .ok stored := by
    intro member hmember
    cases hfield : fieldValue fromIsoFormat referenceIds member (submittedOr provided existing member.2.2.code) with
    | ok stored => exact ⟨stored, rfl⟩
    | error message =>
      rw [validateValues] at h
      split at h
      · next hnone =>
        rw [List.filterMap_map, List.filterMap_eq_nil_iff] at hnone
        have hmessage := hnone member hmember
        simp [hfield] at hmessage
      · cases h
  choose! stored hstored using hok
  refine ⟨stored, hstored, ?_⟩
  rw [validateValues_of_fields hstored] at h
  exact (Except.ok.inj h).symm

theorem lookup_storedValues (hcodes : (members.map fun member => member.2.2.code).Nodup) {existing : List (String × Json)}
    {stored : FieldMember → Option Json} {member : FieldMember} (hmember : member ∈ members) :
    (storedValues members existing stored).lookup member.2.2.code = stored member := by
  have hold : (existing.filter fun entry => !members.any fun other => other.2.2.code == entry.1).lookup
      member.2.2.code = none := by
    rw [lookup_filter_key fun key => !members.any fun other => other.2.2.code == key, if_neg]
    simp only [Bool.not_eq_true, Bool.not_eq_false', List.any_eq_true, beq_iff_eq]
    exact ⟨member, hmember, rfl⟩
  have hkeys : ((members.filterMap fun other => (stored other).map fun value => (other.2.2.code, value)).map
      Prod.fst).Nodup :=
    hcodes.sublist (keys_filterMap_sublist members (fun other => other.2.2.code) stored)
  rw [storedValues, List.lookup_append, hold, Option.none_or]
  cases hvalue : stored member with
  | some value =>
    exact Entries.lookup_of_mem hkeys (List.mem_filterMap.2 ⟨member, hmember, by rw [hvalue]; rfl⟩)
  | none =>
    rw [lookup_eq_none]
    intro hkey
    obtain ⟨entry, hentry, hcode⟩ := List.mem_map.1 hkey
    obtain ⟨other, hother, hsome⟩ := List.mem_filterMap.1 hentry
    obtain ⟨value, hstored, rfl⟩ := Option.map_eq_some_iff.1 hsome
    obtain rfl := List.inj_on_of_nodup_map hcodes hother hmember hcode
    rw [hvalue] at hstored
    cases hstored

/-- **The stored values pass as they are.** -/
theorem validateValues_stored (hcodes : (members.map fun member => member.2.2.code).Nodup)
    {provided existing values : List (String × Json)}
    (h : validateValues fromIsoFormat referenceIds members provided existing = .ok values) :
    validateValues fromIsoFormat referenceIds members values values = .ok values := by
  obtain ⟨stored, hfields, rfl⟩ := fields_of_validateValues h
  have hagain : ∀ member ∈ members, fieldValue fromIsoFormat referenceIds member
      (submittedOr (storedValues members existing stored) (storedValues members existing stored) member.2.2.code) =
        .ok (stored member) := by
    intro member hmember
    rw [submittedOr, lookup_storedValues hcodes hmember, Option.or_self]
    exact fieldValue_stored (hfields member hmember)
  rw [validateValues_of_fields hagain]
  congr 1
  have hfront : ((existing.filter fun entry => !members.any fun member => member.2.2.code == entry.1).filter
      fun entry => !members.any fun member => member.2.2.code == entry.1) =
      existing.filter fun entry => !members.any fun member => member.2.2.code == entry.1 :=
    List.filter_eq_self.2 fun entry hentry => (List.mem_filter.1 hentry).2
  have hback : ((members.filterMap fun member => (stored member).map fun value => (member.2.2.code, value)).filter
      fun entry => !members.any fun member => member.2.2.code == entry.1) = [] := by
    rw [List.filter_eq_nil_iff]
    intro entry hentry
    obtain ⟨member, hmember, hsome⟩ := List.mem_filterMap.1 hentry
    obtain ⟨value, _, rfl⟩ := Option.map_eq_some_iff.1 hsome
    simp only [Bool.not_eq_true, Bool.not_eq_false', List.any_eq_true, beq_iff_eq]
    exact ⟨member, hmember, rfl⟩
  rw [storedValues, storedValues, List.filter_append, hfront, hback, List.append_nil]

end

end LcsSystem

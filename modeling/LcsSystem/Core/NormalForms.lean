import LcsSystem.Core.RecordSchemas

/-!
# What a schema accepts is in normal form

Where the fields of a schema do not name each other's keys, the payload that `validate` returns has the keys of the
payload it was given, every alias it used replaced by the key, and is accepted again unchanged: `validate_normalForm`.

* `normalize_normalize`: each normaliser takes its own results as they are; an integer of more than 4300 digits is the
  exception, since `str` refuses it.
* `lookup_normalized_key`, `lookup_normalized_source` and `lookup_normalized_other`: what the loop over the fields leaves
  under each key.
-/

namespace LcsSystem.Schemas
open Calendar Checks Entries

/-! ## Normalisers -/

/-- Of an integer field, that `str` takes its value again. -/
def ShortInteger (spec : FieldSpec) (value : PyValue) : Prop :=
  spec.kind = .integer → ∀ q, decimalOf value = some q → |q| < 10 ^ maxStrDigits

section
variable {readers : Readers} {spec : FieldSpec} {value v : PyValue}

theorem isBlank_strip {s : String} : isBlank (.text (LcsSystem.strip s)) = isBlank (.text s) := by
  simp [isBlank]

theorem blankValue_blankValue (h : blankValue spec value = .ok v) (hblank : isBlank value = true) :
    isBlank v = true ∧ blankValue spec v = .ok v := by
  simp only [blankValue, bind_eq_ok, check_eq_ok, pure_eq_ok] at h ⊢
  obtain ⟨⟨⟩, hoptional, rfl⟩ := h
  by_cases hjson : spec.kind = .json
  · simp [hjson, hblank, hoptional]
  · simp [hjson, isBlank, hoptional]

theorem text_of_stringValue (h : stringValue readers spec value = .ok v) :
    ∃ s, value = .text s ∧ v = .text (if spec.strip then LcsSystem.strip s else s) := by
  cases value with
  | text s =>
    simp only [stringValue, bind_eq_ok, pure_eq_ok] at h
    obtain ⟨-, -, -, -, -, -, -, -, -, -, -, -, -, -, -, -, rfl⟩ := h
    exact ⟨s, rfl, rfl⟩
  | _ => simp [stringValue] at h

theorem stringValue_stringValue (h : stringValue readers spec value = .ok v) (hblank : isBlank value = false) :
    isBlank v = false ∧ stringValue readers spec v = .ok v := by
  obtain ⟨s, rfl, rfl⟩ := text_of_stringValue h
  have hstrip : ∃ text, (if spec.strip then LcsSystem.strip s else s) = text ∧
      (if spec.strip then LcsSystem.strip text else text) = text ∧ isBlank (.text text) = false := by
    cases hs : spec.strip with
    | true => exact ⟨LcsSystem.strip s, rfl, strip_strip s, isBlank_strip.trans hblank⟩
    | false => exact ⟨s, rfl, rfl, hblank⟩
  obtain ⟨text, htext, hagain, hkept⟩ := hstrip
  rw [htext] at h ⊢
  refine ⟨hkept, ?_⟩
  simp only [stringValue, htext, hagain] at h ⊢
  exact h

theorem toDecimal_eq_ok {q : ℚ} : toDecimal value = .ok q ↔ decimalOf value = some q := by
  simp [toDecimal]

theorem integerValue_integerValue (h : integerValue spec value = .ok v) (hkind : spec.kind = .integer)
    (hshort : ShortInteger spec value) : isBlank v = false ∧ integerValue spec v = .ok v := by
  simp only [integerValue, bind_eq_ok, check_eq_ok, pure_eq_ok, toDecimal_eq_ok] at h
  obtain ⟨q, hq, -, hwhole, ⟨⟩, hrange, rfl⟩ := h
  have hnum : (q.num : ℚ) = q := Rat.den_eq_one_iff q |>.1 hwhole
  have hnat : q.num.natAbs < 10 ^ maxStrDigits := by
    have := hshort hkind q hq
    rw [← hnum, ← Int.cast_abs, Int.abs_eq_natAbs] at this
    exact_mod_cast this
  have hagain : decimalOf (.int q.num) = some q := by
    simp only [decimalOf, if_pos hnat, hnum]
  refine ⟨rfl, ?_⟩
  simp only [integerValue, bind_eq_ok, check_eq_ok, pure_eq_ok, toDecimal_eq_ok]
  exact ⟨q, hagain, ⟨⟩, hwhole, ⟨⟩, hrange, rfl⟩

theorem decimalValue_decimalValue (h : decimalValue spec value = .ok v) :
    isBlank v = false ∧ decimalValue spec v = .ok v := by
  simp only [decimalValue, bind_eq_ok, check_eq_ok, pure_eq_ok, toDecimal_eq_ok] at h
  obtain ⟨q, -, ⟨⟩, hrange, ⟨⟩, hplaces, rfl⟩ := h
  refine ⟨rfl, ?_⟩
  simp only [decimalValue, bind_eq_ok, check_eq_ok, pure_eq_ok, toDecimal_eq_ok]
  exact ⟨q, rfl, ⟨⟩, hrange, ⟨⟩, hplaces, rfl⟩

theorem booleanValue_booleanValue (h : booleanValue value = .ok v) : isBlank v = false ∧ booleanValue v = .ok v := by
  have hbool : ∃ b, v = .bool b := by
    unfold booleanValue at h
    split at h
    case h_4 =>
      split at h
      · exact ⟨true, (Except.ok.inj h).symm⟩
      · split at h
        · exact ⟨false, (Except.ok.inj h).symm⟩
        · cases h
    case h_5 => cases h
    all_goals exact ⟨_, (Except.ok.inj h).symm⟩
  obtain ⟨b, rfl⟩ := hbool
  exact ⟨rfl, rfl⟩

theorem dateValue_dateValue (h : dateValue value = .ok v) : isBlank v = false ∧ dateValue v = .ok v := by
  have hdate : ∃ d, v = .date d := by
    unfold dateValue at h
    split at h
    case h_3 =>
      simp only [bind_eq_ok, pure_eq_ok] at h
      obtain ⟨d, -, rfl⟩ := h
      exact ⟨d, rfl⟩
    case h_4 => cases h
    all_goals exact ⟨_, (Except.ok.inj h).symm⟩
  obtain ⟨d, rfl⟩ := hdate
  exact ⟨rfl, rfl⟩

theorem datetimeValue_datetimeValue (h : datetimeValue readers value = .ok v) :
    isBlank v = false ∧ datetimeValue readers v = .ok v := by
  have hdatetime : ∃ t, v = .datetime t := by
    unfold datetimeValue at h
    split at h
    case h_3 =>
      simp only [bind_eq_ok, pure_eq_ok] at h
      obtain ⟨t, -, rfl⟩ := h
      exact ⟨t, rfl⟩
    case h_4 => cases h
    all_goals exact ⟨_, (Except.ok.inj h).symm⟩
  obtain ⟨t, rfl⟩ := hdatetime
  exact ⟨rfl, rfl⟩

theorem referenceValue_referenceValue (h : referenceValue spec value = .ok v) (hblank : isBlank value = false) :
    isBlank v = false ∧ referenceValue spec v = .ok v := by
  cases value with
  | int n =>
    have hv := h
    simp only [referenceValue, bind_eq_ok, check_eq_ok, pure_eq_ok] at hv
    obtain ⟨⟨⟩, hpos, rfl⟩ := hv
    exact ⟨rfl, h⟩
  | float x printed =>
    simp only [referenceValue, bind_eq_ok, check_eq_ok, pure_eq_ok] at h
    obtain ⟨⟨⟩, ⟨hwhole, hpos⟩, rfl⟩ := h
    simp only [referenceValue, bind_eq_ok, check_eq_ok, pure_eq_ok]
    exact ⟨rfl, ⟨⟩, Rat.num_pos.2 hpos, trivial⟩
  | text s =>
    simp only [referenceValue, bind_eq_ok, check_eq_ok, pure_eq_ok] at h
    obtain ⟨⟨⟩, hlength, rfl⟩ := h
    refine ⟨isBlank_strip.trans hblank, ?_⟩
    simp only [referenceValue, bind_eq_ok, check_eq_ok, pure_eq_ok, strip_strip]
    exact ⟨⟨⟩, hlength, trivial⟩
  | _ => simp [referenceValue] at h

theorem jsonValue_jsonValue (h : jsonValue value = .ok v) : v = value := by
  unfold jsonValue at h
  split at h
  case h_5 => exact (Except.ok.inj h).symm
  all_goals cases h

/-- A normaliser takes its results as they are. -/
theorem normalize_normalize (h : normalize readers spec value = .ok v) (hshort : ShortInteger spec value) :
    normalize readers spec v = .ok v := by
  have hstays {normaliser : PyValue → Except Invalid PyValue}
      (hsame : isBlank v = false ∧ normaliser v = .ok v) :
      (if isBlank v then blankValue spec v else normaliser v) = .ok v := by
    rw [hsame.1]
    exact hsame.2
  unfold normalize at h
  split at h
  next hblank =>
    have := blankValue_blankValue h hblank
    rw [normalize, if_pos this.1]
    exact this.2
  next hblank =>
    rw [Bool.not_eq_true] at hblank
    unfold normalize
    cases hkind : spec.kind with
    | string | email | phone | url =>
      simp only [hkind] at h ⊢
      exact hstays (stringValue_stringValue h hblank)
    | integer =>
      simp only [hkind] at h ⊢
      exact hstays (integerValue_integerValue h hkind hshort)
    | decimal =>
      simp only [hkind] at h ⊢
      exact hstays (decimalValue_decimalValue h)
    | boolean =>
      simp only [hkind] at h ⊢
      exact hstays (booleanValue_booleanValue h)
    | date =>
      simp only [hkind] at h ⊢
      exact hstays (dateValue_dateValue h)
    | datetime =>
      simp only [hkind] at h ⊢
      exact hstays (datetimeValue_datetimeValue h)
    | reference =>
      simp only [hkind] at h ⊢
      exact hstays (referenceValue_referenceValue h hblank)
    | json =>
      simp only [hkind] at h ⊢
      obtain rfl := jsonValue_jsonValue h
      exact hstays ⟨hblank, h⟩

end

/-! ## Fields of a sound schema -/

/-- The fields name each other's keys nowhere, and no rule sees whether a value came under an alias. -/
structure RecordSchema.Sound (schema : RecordSchema) : Prop where
  keys : (schema.fields.map FieldSpec.key).Nodup
  aliases : ∀ s ∈ schema.fields, ∀ t ∈ schema.fields, t.key ∈ s.aliases → t.key = s.key
  apart : ∀ s ∈ schema.fields, ∀ t ∈ schema.fields, ∀ a ∈ s.aliases, a ∈ t.aliases → s.key = t.key
  rules : ∀ rule ∈ schema.crossField, ∀ a b : Payload,
    (∀ k, (∀ s ∈ schema.fields, k ∉ s.aliases) → a.lookup k = b.lookup k) → rule a = rule b

/-- What `str` takes, under the keys of the integer fields. -/
def RecordSchema.ShortIntegers (schema : RecordSchema) (payload : Payload) : Prop :=
  ∀ spec ∈ schema.fields, ∀ source, spec.source payload = some source →
    ShortInteger spec ((payload.lookup source).getD .none)

section
variable {readers : Readers} {schema : RecordSchema} {payload : Payload} {partially : Bool} {s t : FieldSpec}
  {source k : String} {v : PyValue}

theorem mem_of_source (h : s.source payload = some source) : source = s.key ∨ source ∈ s.aliases := by
  unfold FieldSpec.source at h
  split at h
  · exact .inl (Option.some.inj h).symm
  · exact .inr (List.mem_of_find?_eq_some h)

theorem lookup_of_source (h : s.source payload = some source) : (payload.lookup source).isSome = true := by
  unfold FieldSpec.source at h
  split at h
  next hkey => exact Option.some.inj h ▸ hkey
  · exact List.find?_some (p := fun a => (payload.lookup a).isSome) h

theorem source_eq_none : s.source payload = none ↔
    payload.lookup s.key = none ∧ ∀ a ∈ s.aliases, payload.lookup a = none := by
  unfold FieldSpec.source
  split
  next hkey =>
    simp only [reduceCtorEq, false_iff, not_and]
    intro h
    rw [h] at hkey
    cases hkey
  next hkey =>
    rw [Bool.not_eq_true, Option.isSome_eq_false_iff, Option.isNone_iff_eq_none] at hkey
    simp only [hkey, true_and, List.find?_eq_none, Bool.not_eq_true, Option.isSome_eq_false_iff,
      Option.isNone_iff_eq_none]

/-- A key stands for one field. -/
theorem RecordSchema.Sound.field_eq (sound : schema.Sound) (hs : s ∈ schema.fields) (ht : t ∈ schema.fields)
    (hkey : s.key = t.key) : s = t :=
  List.inj_on_of_nodup_map sound.keys hs ht hkey

theorem RecordSchema.Sound.source_ne_key (sound : schema.Sound) (hs : s ∈ schema.fields) (ht : t ∈ schema.fields)
    (hne : s.key ≠ t.key) (h : t.source payload = some source) : source ≠ s.key := by
  rintro rfl
  rcases mem_of_source h with hkey | halias
  · exact hne hkey
  · exact hne (sound.aliases t ht s hs halias)

theorem RecordSchema.Sound.source_unique (sound : schema.Sound) (hs : s ∈ schema.fields) (ht : t ∈ schema.fields)
    (h : s.source payload = some source) (h' : t.source payload = some source) : s = t := by
  by_contra hne
  have hkeys : s.key ≠ t.key := fun hkey => hne (sound.field_eq hs ht hkey)
  rcases mem_of_source h with hkey | halias
  · exact sound.source_ne_key hs ht hkeys h' hkey
  · rcases mem_of_source h' with hkey' | halias'
    · exact sound.source_ne_key ht hs hkeys.symm h hkey'
    · exact hkeys (sound.apart s hs t ht source halias halias')

theorem read_eq_some : s.read readers payload partially = .ok (some (source, v)) ↔
    s.source payload = some source ∧ normalize readers s ((payload.lookup source).getD .none) = .ok v := by
  unfold FieldSpec.read
  cases h : s.source payload with
  | none => simp only; split <;> simp
  | some key =>
    simp only [Option.some.injEq]
    constructor
    · intro hread
      split at hread
      next value hvalue =>
        obtain ⟨rfl, rfl⟩ := Prod.mk.inj (Option.some.inj (Except.ok.inj hread))
        exact ⟨rfl, hvalue⟩
      · cases hread
    · rintro ⟨rfl, hvalue⟩
      rw [hvalue]

theorem read_eq_none : s.read readers payload partially = .ok none ↔
    s.source payload = none ∧ ¬(s.required = true ∧ partially = false) := by
  unfold FieldSpec.read
  cases h : s.source payload with
  | none => simp only; split <;> simp_all
  | some key =>
    simp only [reduceCtorEq, false_and, iff_false]
    split <;> simp

/-! ## What the loop over the fields leaves -/

theorem lookup_write (normalized : Payload) : (s.write normalized (some (source, v))).lookup k =
    if k = s.key then some v else if k = source then none else normalized.lookup k := by
  have hover : (overlay normalized [(s.key, v)]).lookup k = if k = s.key then some v else normalized.lookup k := by
    rw [lookup_overlay]
    by_cases hk : k = s.key
    · simp [hk]
    · rw [if_neg hk, List.lookup_cons, beq_eq_false_iff_ne.2 hk]
      rfl
  simp only [FieldSpec.write]
  split
  next hsource =>
    rw [hover]
    by_cases hk : k = s.key
    · simp [hk]
    · rw [if_neg hk, if_neg hk, if_neg (hsource ▸ hk)]
  next hsource =>
    rw [lookup_filter_key fun key => key != source, hover]
    by_cases hk : k = source
    · subst hk
      simp [hsource]
    · simp [hk]

theorem lookup_writeField_other {normalized : Payload}
    (h : ∀ source v, s.read readers payload partially = .ok (some (source, v)) → k ≠ s.key ∧ k ≠ source) :
    (RecordSchema.writeField readers payload partially normalized s).lookup k = normalized.lookup k := by
  unfold RecordSchema.writeField
  cases hread : s.read readers payload partially with
  | error item => rfl
  | ok found =>
    cases found with
    | none => rfl
    | some entry =>
      obtain ⟨hkey, hsource⟩ := h _ _ hread
      exact (lookup_write normalized).trans ((if_neg hkey).trans (if_neg hsource))

theorem lookup_foldl_other {specs : List FieldSpec} {normalized : Payload} (h : ∀ s ∈ specs, ∀ source v,
    s.read readers payload partially = .ok (some (source, v)) → k ≠ s.key ∧ k ≠ source) :
    (specs.foldl (RecordSchema.writeField readers payload partially) normalized).lookup k = normalized.lookup k := by
  induction specs generalizing normalized with
  | nil => rfl
  | cons s specs ih =>
    rw [List.foldl_cons, ih fun t ht => h t (List.mem_cons_of_mem _ ht)]
    exact lookup_writeField_other (h s List.mem_cons_self)

/-- A key that no field reads or writes keeps its value. -/
theorem lookup_normalized_other (h : ∀ s ∈ schema.fields, ∀ source v,
    s.read readers payload partially = .ok (some (source, v)) → k ≠ s.key ∧ k ≠ source) :
    (schema.normalized readers payload partially).lookup k = payload.lookup k :=
  lookup_foldl_other h

/-- A key that the fields after `s` leave alone has what `s` leaves there. -/
theorem lookup_normalized_field (sound : schema.Sound) (hs : s ∈ schema.fields)
    (hread : s.read readers payload partially = .ok (some (source, v))) (hk : k = s.key ∨ k = source) :
    (schema.normalized readers payload partially).lookup k = if k = s.key then some v else none := by
  obtain ⟨front, back, hsplit⟩ := List.append_of_mem hs
  have hback : ∀ t ∈ back, ∀ source' v', t.read readers payload partially = .ok (some (source', v')) →
      k ≠ t.key ∧ k ≠ source' := by
    intro t ht source' v' hread'
    have hmem : t ∈ schema.fields := by
      rw [hsplit]
      exact List.mem_append_right _ (List.mem_cons_of_mem _ ht)
    have hne : s.key ≠ t.key := by
      have hnodup := sound.keys
      rw [hsplit, List.map_append, List.map_cons] at hnodup
      have := (List.nodup_cons.1 (List.nodup_append.1 hnodup).2.1).1
      exact fun hkey => this (hkey ▸ List.mem_map.2 ⟨t, ht, rfl⟩)
    obtain ⟨hsource, -⟩ := read_eq_some.1 hread
    obtain ⟨hsource', -⟩ := read_eq_some.1 hread'
    rcases hk with rfl | rfl
    · exact ⟨hne, (sound.source_ne_key hs hmem hne hsource').symm⟩
    · refine ⟨sound.source_ne_key hmem hs hne.symm hsource, ?_⟩
      rintro rfl
      exact hne (congrArg FieldSpec.key (sound.source_unique hs hmem hsource hsource'))
  rw [RecordSchema.normalized, hsplit, List.foldl_append, List.foldl_cons, lookup_foldl_other hback,
    RecordSchema.writeField, hread]
  rcases hk with rfl | rfl
  · simp [lookup_write]
  · simp [lookup_write]

theorem lookup_normalized_key (sound : schema.Sound) (hs : s ∈ schema.fields)
    (hread : s.read readers payload partially = .ok (some (source, v))) :
    (schema.normalized readers payload partially).lookup s.key = some v :=
  (lookup_normalized_field sound hs hread (.inl rfl)).trans (if_pos rfl)

/-- An alias that was used is gone. -/
theorem lookup_normalized_source (sound : schema.Sound) (hs : s ∈ schema.fields)
    (hread : s.read readers payload partially = .ok (some (source, v))) (hne : source ≠ s.key) :
    (schema.normalized readers payload partially).lookup source = none :=
  (lookup_normalized_field sound hs hread (.inr rfl)).trans (if_neg hne)

/-- What the payload does not have under a field's key or aliases, the result does not have. -/
theorem lookup_normalized_absent (sound : schema.Sound) (hs : s ∈ schema.fields) (h : s.source payload = none)
    (hk : k = s.key ∨ k ∈ s.aliases) : (schema.normalized readers payload partially).lookup k = none := by
  rw [source_eq_none] at h
  have hnone : payload.lookup k = none := by
    rcases hk with rfl | halias
    · exact h.1
    · exact h.2 k halias
  rw [lookup_normalized_other, hnone]
  intro t ht source v hread
  obtain ⟨hsource, -⟩ := read_eq_some.1 hread
  have hfound := lookup_of_source hsource
  constructor
  · rintro rfl
    have hkey : t.key = s.key := by
      rcases hk with hk | halias
      · exact hk
      · exact sound.aliases s hs t ht halias
    obtain rfl := sound.field_eq ht hs hkey
    rw [source_eq_none.2 h] at hsource
    cases hsource
  · rintro rfl
    rw [hnone] at hfound
    cases hfound

/-- A value of the result is a field's, or the payload's under a key that no field reads or writes. -/
theorem lookup_normalized_cases (sound : schema.Sound)
    (h : (schema.normalized readers payload partially).lookup k = some v) :
    (∃ s ∈ schema.fields, ∃ source, s.read readers payload partially = .ok (some (source, v)) ∧ k = s.key) ∨
      payload.lookup k = some v ∧ ∀ s ∈ schema.fields, ∀ source v',
        s.read readers payload partially = .ok (some (source, v')) → k ≠ s.key ∧ k ≠ source := by
  by_cases hother : ∀ s ∈ schema.fields, ∀ source v', s.read readers payload partially = .ok (some (source, v')) →
      k ≠ s.key ∧ k ≠ source
  · rw [lookup_normalized_other hother] at h
    exact .inr ⟨h, hother⟩
  · left
    simp only [not_forall, not_and_or, not_not] at hother
    obtain ⟨s, hs, source, v', hread, hk⟩ := hother
    rw [lookup_normalized_field sound hs hread hk] at h
    split at h
    next hkey =>
      obtain rfl := Option.some.inj h
      exact ⟨s, hs, source, hread, hkey⟩
    · cases h

/-! ## Acceptance -/

theorem unknownErrors_eq_nil : schema.unknownErrors payload = [] ↔
    (schema.rejectUnknown = true → ∀ e ∈ payload, schema.allows e.1 = true) := by
  unfold RecordSchema.unknownErrors
  split
  next hreject => simp [hreject]
  next hreject => simp [hreject]

theorem fieldErrors_eq_nil : schema.fieldErrors readers payload partially = [] ↔
    ∀ s ∈ schema.fields, ∃ found, s.read readers payload partially = .ok found := by
  rw [RecordSchema.fieldErrors, List.filterMap_eq_nil_iff]
  refine forall₂_congr fun s _ => ?_
  cases s.read readers payload partially <;> simp

theorem crossErrors_eq_nil {normalized : Payload} : schema.crossErrors payload normalized = [] ↔
    ∀ rule ∈ schema.crossField, rule (overlay payload normalized) = none := by
  rw [RecordSchema.crossErrors, List.filterMap_eq_nil_iff]

theorem errors_eq_nil : schema.errors readers payload partially = [] ↔
    schema.unknownErrors payload = [] ∧ schema.fieldErrors readers payload partially = [] ∧
      schema.crossErrors payload (schema.normalized readers payload partially) = [] := by
  simp only [RecordSchema.errors]
  split
  next hitems =>
    rw [List.append_eq_nil_iff] at hitems
    simp [hitems]
  next hitems =>
    rw [List.append_eq_nil_iff, not_and] at hitems
    simp only [List.append_eq_nil_iff]
    exact ⟨fun h => absurd h.2 (hitems h.1), fun h => ⟨h.1, h.2.1⟩⟩

theorem validate_ok_iff {out : Payload} : schema.validate readers payload partially = .ok out ↔
    schema.errors readers payload partially = [] ∧ schema.normalized readers payload partially = out := by
  simp [RecordSchema.validate]

theorem validate_error_iff {e : Error} : schema.validate readers payload partially = .error e ↔
    schema.errors readers payload partially ≠ [] ∧ e = .validationFailed "Please correct the highlighted fields."
      ((schema.errors readers payload partially).map fun i => (i.field, i.message))
      (schema.errors readers payload partially) := by
  simp only [RecordSchema.validate, bind_eq_error, check_eq_error, pure, Except.pure, reduceCtorEq, and_false,
    exists_false, or_false]
  exact and_congr_right fun _ => eq_comm

/-! ## The result, validated again -/

theorem read_normalized_some (sound : schema.Sound) (short : schema.ShortIntegers payload) (hs : s ∈ schema.fields)
    (hread : s.read readers payload partially = .ok (some (source, v))) :
    s.read readers (schema.normalized readers payload partially) partially = .ok (some (s.key, v)) := by
  have hlookup := lookup_normalized_key sound hs hread
  obtain ⟨hsource, hvalue⟩ := read_eq_some.1 hread
  refine read_eq_some.2 ⟨?_, ?_⟩
  · rw [FieldSpec.source, hlookup]
    rfl
  · rw [hlookup]
    exact normalize_normalize hvalue (short s hs source hsource)

theorem read_normalized_none (sound : schema.Sound) (hs : s ∈ schema.fields)
    (hread : s.read readers payload partially = .ok none) :
    s.read readers (schema.normalized readers payload partially) partially = .ok none := by
  obtain ⟨hsource, hoptional⟩ := read_eq_none.1 hread
  have hnone : s.source (schema.normalized readers payload partially) = none :=
    source_eq_none.2 ⟨lookup_normalized_absent sound hs hsource (.inl rfl),
      fun a ha => lookup_normalized_absent sound hs hsource (.inr ha)⟩
  exact read_eq_none.2 ⟨hnone, hoptional⟩

/-- Fields that hold their values already change nothing. -/
theorem lookup_foldl_same {specs : List FieldSpec} {out normalized : Payload} (h : ∀ s ∈ specs, ∀ source v,
      s.read readers payload partially = .ok (some (source, v)) → source = s.key ∧ out.lookup s.key = some v)
    (hsame : ∀ k, normalized.lookup k = out.lookup k) (k : String) :
    (specs.foldl (RecordSchema.writeField readers payload partially) normalized).lookup k = out.lookup k := by
  induction specs generalizing normalized with
  | nil => exact hsame k
  | cons s specs ih =>
    refine ih (fun t ht => h t (List.mem_cons_of_mem _ ht)) fun j => ?_
    unfold RecordSchema.writeField
    cases hread : s.read readers payload partially with
    | error item => exact hsame j
    | ok found =>
      cases found with
      | none => exact hsame j
      | some entry =>
        obtain ⟨source, v⟩ := entry
        obtain ⟨rfl, hvalue⟩ := h s List.mem_cons_self source v hread
        rw [lookup_write]
        by_cases hj : j = s.key
        · rw [if_pos hj, hj, hvalue]
        · rw [if_neg hj, if_neg hj, hsame j]

section
variable (sound : schema.Sound) (short : schema.ShortIntegers payload)
  (accepted : ∀ s ∈ schema.fields, ∃ found, s.read readers payload partially = .ok found)
include sound short accepted

theorem lookup_normalized_again (k : String) :
    (schema.normalized readers (schema.normalized readers payload partially) partially).lookup k =
      (schema.normalized readers payload partially).lookup k := by
  refine lookup_foldl_same (fun s hs source v hread => ?_) (fun _ => rfl) k
  obtain ⟨found, hfound⟩ := accepted s hs
  cases found with
  | none =>
    rw [read_normalized_none sound hs hfound] at hread
    cases hread
  | some entry =>
    obtain ⟨source', v'⟩ := entry
    rw [read_normalized_some sound short hs hfound] at hread
    obtain ⟨rfl, rfl⟩ := Prod.mk.inj (Option.some.inj (Except.ok.inj hread))
    exact ⟨rfl, lookup_normalized_key sound hs hfound⟩

theorem fieldErrors_normalized :
    schema.fieldErrors readers (schema.normalized readers payload partially) partially = [] := by
  rw [fieldErrors_eq_nil]
  intro s hs
  obtain ⟨found, hfound⟩ := accepted s hs
  cases found with
  | none => exact ⟨none, read_normalized_none sound hs hfound⟩
  | some entry => exact ⟨_, read_normalized_some sound short hs hfound⟩

omit short accepted in
theorem unknownErrors_normalized (h : schema.unknownErrors payload = []) :
    schema.unknownErrors (schema.normalized readers payload partially) = [] := by
  rw [unknownErrors_eq_nil] at h ⊢
  intro hreject e he
  have hkey : (schema.normalized readers payload partially).lookup e.1 ≠ none := fun hnone =>
    lookup_eq_none.1 hnone (List.mem_map.2 ⟨e, he, rfl⟩)
  obtain ⟨v, hv⟩ := Option.ne_none_iff_exists'.1 hkey
  rcases lookup_normalized_cases sound hv with ⟨s, hs, source, -, hk⟩ | ⟨hpayload, -⟩
  · have hfield : schema.fields.any (fun spec => spec.key == e.1) = true :=
      List.any_eq_true.2 ⟨s, hs, beq_iff_eq.2 hk.symm⟩
    rw [RecordSchema.allows, hfield]
    rfl
  · exact h hreject (e.1, v) (Entries.mem_of_lookup hpayload)

/-- The rules see the same values, aliases apart. -/
theorem crossErrors_normalized
    (h : schema.crossErrors payload (schema.normalized readers payload partially) = []) :
    schema.crossErrors (schema.normalized readers payload partially)
      (schema.normalized readers (schema.normalized readers payload partially) partially) = [] := by
  rw [crossErrors_eq_nil] at h ⊢
  intro rule hrule
  rw [← h rule hrule]
  refine sound.rules rule hrule _ _ fun k halias => ?_
  rw [lookup_overlay, lookup_overlay, lookup_normalized_again sound short accepted]
  cases hk : (schema.normalized readers payload partially).lookup k with
  | some v => rfl
  | none =>
    have hnone : payload.lookup k = none := by
      rw [← hk]
      refine (lookup_normalized_other fun s hs source v hread => ?_).symm
      have hne : k ≠ s.key := by
        rintro rfl
        rw [lookup_normalized_key sound hs hread] at hk
        cases hk
      refine ⟨hne, ?_⟩
      rintro rfl
      exact (mem_of_source (read_eq_some.1 hread).1).elim hne (halias s hs)
    rw [hnone]

end
end

/-! ## Normal form -/

/-- The field whose value the payload has under `key`, or `key` itself. -/
def RecordSchema.canonical (schema : RecordSchema) (payload : Payload) (key : String) : String :=
  ((schema.fields.find? fun spec => spec.source payload == some key).map FieldSpec.key).getD key

structure NormalForm (readers : Readers) (schema : RecordSchema) (payload : Payload) (partially : Bool) (out : Payload) :
    Prop where
  keys : ∀ k, (out.lookup k).isSome = true ↔
    ∃ key, (payload.lookup key).isSome = true ∧ schema.canonical payload key = k
  absent : ∀ spec ∈ schema.fields, spec.source payload = none → out.lookup spec.key = none
  again : ∃ out', schema.validate readers out partially = .ok out' ∧ ∀ k, out'.lookup k = out.lookup k

section
variable {readers : Readers} {schema : RecordSchema} {payload out : Payload} {partially : Bool} {s : FieldSpec}
  {source k : String}

theorem canonical_source (sound : schema.Sound) (hs : s ∈ schema.fields) (h : s.source payload = some source) :
    schema.canonical payload source = s.key := by
  have hfound : (schema.fields.find? fun spec => spec.source payload == some source) = some s := by
    cases hfind : schema.fields.find? fun spec => spec.source payload == some source with
    | none => simpa [h] using List.find?_eq_none.1 hfind s hs
    | some t =>
      have ht : t.source payload = some source := by simpa using List.find?_some hfind
      rw [sound.source_unique (List.mem_of_find?_eq_some hfind) hs ht h]
  rw [RecordSchema.canonical, hfound]
  rfl

theorem canonical_other (h : ∀ s ∈ schema.fields, s.source payload ≠ some k) : schema.canonical payload k = k := by
  have hnone : (schema.fields.find? fun spec => spec.source payload == some k) = none := by
    simpa [List.find?_eq_none] using h
  rw [RecordSchema.canonical, hnone]
  rfl

theorem keys_normalized (sound : schema.Sound)
    (accepted : ∀ s ∈ schema.fields, ∃ found, s.read readers payload partially = .ok found) :
    ((schema.normalized readers payload partially).lookup k).isSome = true ↔
      ∃ key, (payload.lookup key).isSome = true ∧ schema.canonical payload key = k := by
  have hreads : ∀ s ∈ schema.fields, ∀ key, s.source payload = some key →
      ∃ v, s.read readers payload partially = .ok (some (key, v)) := by
    intro s hs key hkey
    obtain ⟨found, hfound⟩ := accepted s hs
    cases found with
    | none => exact absurd (read_eq_none.1 hfound).1 (by simp [hkey])
    | some entry =>
      obtain ⟨source, v⟩ := entry
      obtain rfl : key = source := Option.some.inj (hkey.symm.trans (read_eq_some.1 hfound).1)
      exact ⟨v, hfound⟩
  constructor
  · intro h
    obtain ⟨v, hv⟩ := Option.isSome_iff_exists.1 h
    rcases lookup_normalized_cases sound hv with ⟨s, hs, source, hread, rfl⟩ | ⟨hpayload, hother⟩
    · have hsource := (read_eq_some.1 hread).1
      exact ⟨source, lookup_of_source hsource, canonical_source sound hs hsource⟩
    · refine ⟨k, by rw [hpayload]; rfl, canonical_other fun s hs hsource => ?_⟩
      obtain ⟨v', hread⟩ := hreads s hs k hsource
      exact (hother s hs k v' hread).2 rfl
  · rintro ⟨key, hkey, rfl⟩
    by_cases hfield : ∃ s ∈ schema.fields, s.source payload = some key
    · obtain ⟨s, hs, hsource⟩ := hfield
      obtain ⟨v, hread⟩ := hreads s hs key hsource
      rw [canonical_source sound hs hsource, lookup_normalized_key sound hs hread]
      rfl
    · have hother : ∀ s ∈ schema.fields, s.source payload ≠ some key := fun s hs h => hfield ⟨s, hs, h⟩
      rw [canonical_other hother, lookup_normalized_other, hkey]
      intro s hs source v hread
      constructor
      · rintro rfl
        exact hother s hs (if_pos hkey)
      · rintro rfl
        exact hother s hs (read_eq_some.1 hread).1

/-- What a sound schema accepts is in normal form. -/
theorem normalForm_of_validate (sound : schema.Sound) (short : schema.ShortIntegers payload)
    (h : schema.validate readers payload partially = .ok out) : NormalForm readers schema payload partially out := by
  obtain ⟨hnone, rfl⟩ := validate_ok_iff.1 h
  obtain ⟨hunknown, hfields, hcross⟩ := errors_eq_nil.1 hnone
  have accepted := fieldErrors_eq_nil.1 hfields
  have hagain : schema.errors readers (schema.normalized readers payload partially) partially = [] :=
    errors_eq_nil.2 ⟨unknownErrors_normalized sound hunknown, fieldErrors_normalized sound short accepted,
      crossErrors_normalized sound short accepted hcross⟩
  exact
    { keys := fun k => keys_normalized sound accepted
      absent := fun spec hspec hsource => lookup_normalized_absent sound hspec hsource (.inl rfl)
      again := ⟨_, validate_ok_iff.2 ⟨hagain, rfl⟩, lookup_normalized_again sound short accepted⟩ }

/-! ## Refusal -/

theorem item_of_read {item : FieldErrorItem} (h : s.read readers payload partially = .error item) :
    item.field = s.key := by
  unfold FieldSpec.read at h
  split at h
  · split at h
    · exact Except.error.inj h ▸ rfl
    · cases h
  · split at h
    · cases h
    · exact Except.error.inj h ▸ rfl

theorem errors_ne_nil : schema.errors readers payload partially ≠ [] ↔
    (schema.rejectUnknown = true ∧ ∃ e ∈ payload, schema.allows e.1 = false) ∨
      (∃ spec ∈ schema.fields, ∃ item, spec.read readers payload partially = .error item) ∨
        ∃ rule ∈ schema.crossField, ∃ item,
          rule (overlay payload (schema.normalized readers payload partially)) = some item := by
  have hread : ∀ spec : FieldSpec, (¬∃ found, spec.read readers payload partially = .ok found) ↔
      ∃ item, spec.read readers payload partially = .error item := by
    intro spec
    cases spec.read readers payload partially <;> simp
  rw [Ne, errors_eq_nil, unknownErrors_eq_nil, fieldErrors_eq_nil, crossErrors_eq_nil]
  simp only [not_and_or, not_forall, hread, exists_prop, Bool.not_eq_true, ← Ne.eq_def, Option.ne_none_iff_exists']

/-- Every field that fails is reported. -/
theorem mem_errors {item : FieldErrorItem} (hs : s ∈ schema.fields)
    (h : s.read readers payload partially = .error item) : item ∈ schema.errors readers payload partially := by
  have hmem : item ∈ schema.fieldErrors readers payload partially := by
    rw [RecordSchema.fieldErrors, List.mem_filterMap]
    exact ⟨s, hs, by rw [h]⟩
  have hitems : item ∈ schema.unknownErrors payload ++ schema.fieldErrors readers payload partially :=
    List.mem_append_right _ hmem
  simp only [RecordSchema.errors]
  rw [if_neg (List.ne_nil_of_mem hitems)]
  exact hitems

end

/-- No pattern and no datetime is looked at. -/
def plainReaders : Readers := ⟨fun _ _ => true, fun _ => none⟩

def lineSchema : RecordSchema where
  fields := [{ key := "description", required := true, maxLength := some 255 },
    { key := "unitPrice", kind := .decimal, aliases := ["unitAmount"] }]
  crossField := []
  readonly := ["id"]
  rejectUnknown := true

theorem lineSchema_sound : lineSchema.Sound where
  keys := by decide
  aliases := by decide
  apart := by decide
  rules := by simp [lineSchema]

/-- The alias of `amount` is the key of a field that is required. -/
def takenAlias : RecordSchema where
  fields := [{ key := "price", required := true }, { key := "amount", aliases := ["price"] }]
  crossField := []
  readonly := []
  rejectUnknown := false

def repeatedKey : RecordSchema where
  fields := [{ key := "due" }, { key := "due", kind := .date }]
  crossField := []
  readonly := []
  rejectUnknown := false

def sharedAlias : RecordSchema where
  fields := [{ key := "price", aliases := ["cost"] }, { key := "amount", aliases := ["cost"] }]
  crossField := []
  readonly := []
  rejectUnknown := false

def countSchema : RecordSchema where
  fields := [{ key := "count", kind := .integer }]
  crossField := []
  readonly := []
  rejectUnknown := false

theorem integerValue_long {spec : FieldSpec} (hminimum : spec.minimum = none) (hmaximum : spec.maximum = none) (n : ℕ)
    (h : 10 ^ maxStrDigits ≤ n) : integerValue spec (.decimal n) = .ok (.int n) ∧
      ∃ invalid, integerValue spec (.int n) = .error invalid := by
  constructor
  · simp only [integerValue, bind_eq_ok, check_eq_ok, pure_eq_ok, toDecimal_eq_ok]
    refine ⟨n, rfl, ⟨⟩, rfl, ⟨⟩, ?_, rfl⟩
    simp [enforceRange, hminimum, hmaximum]
  · have hrefused : decimalOf (.int n) = none := by
      simp only [decimalOf, Int.natAbs_natCast, if_neg h.not_gt]
    refine ⟨⟨"INVALID_TYPE", "Enter a number."⟩, ?_⟩
    simp only [integerValue, toDecimal, hrefused]
    rfl

/-- A count of more than 4300 digits, given as a `Decimal`. -/
theorem countSchema_long (n : ℕ) (h : 10 ^ maxStrDigits ≤ n) :
    ∃ out, countSchema.validate plainReaders [("count", .decimal n)] false = .ok out ∧
      ¬NormalForm plainReaders countSchema [("count", .decimal n)] false out := by
  let spec : FieldSpec := { key := "count", kind := .integer }
  have hlong : integerValue spec (.decimal n) = .ok (.int n) ∧ ∃ invalid, integerValue spec (.int n) = .error invalid :=
    integerValue_long rfl rfl n h
  obtain ⟨haccepted, invalid, hrefused⟩ := hlong
  have hread : spec.read plainReaders [("count", .decimal n)] false = .ok (some ("count", .int n)) :=
    read_eq_some.2 ⟨rfl, haccepted⟩
  have hnormalized : countSchema.normalized plainReaders [("count", .decimal n)] false = [("count", .int n)] := by
    have hfold : countSchema.normalized plainReaders [("count", .decimal n)] false =
        RecordSchema.writeField plainReaders [("count", .decimal n)] false [("count", .decimal n)] spec := rfl
    rw [hfold, RecordSchema.writeField, hread]
    rfl
  have hfields : countSchema.fieldErrors plainReaders [("count", .decimal n)] false = [] := by
    rw [fieldErrors_eq_nil]
    intro s hs
    obtain rfl := List.mem_singleton.1 hs
    exact ⟨_, hread⟩
  refine ⟨[("count", .int n)], validate_ok_iff.2 ⟨errors_eq_nil.2 ⟨rfl, hfields, rfl⟩, hnormalized⟩, ?_⟩
  intro hform
  obtain ⟨out', hagain, -⟩ := hform.again
  have hfields' := (errors_eq_nil.1 (validate_ok_iff.1 hagain).1).2.1
  obtain ⟨found, hfound⟩ := fieldErrors_eq_nil.1 hfields' spec List.mem_cons_self
  have herror : spec.read plainReaders [("count", .int n)] false =
      .error ⟨"count", invalid.code, invalid.message⟩ := by
    have hsource : spec.source [("count", .int n)] = some "count" := rfl
    have hnormalize : normalize plainReaders spec (.int n) = .error invalid := hrefused
    simp only [FieldSpec.read, hsource]
    rw [show ([("count", .int n)] : Payload).lookup "count" = some (.int n) from rfl, Option.getD_some, hnormalize]
  rw [herror] at hfound
  cases hfound

end LcsSystem.Schemas

import Mathlib

/-!
# Association lists

Objects as lists of their entries, read by `List.lookup`. `overlay a b` is `a` with the entries of `b` over it.
-/

namespace Entries
universe u v
variable {α : Type u} {β : Type v}

/-- Keys, and after them those of selected entries that are not among them. -/
theorem nodup_append_absent {a : List α} {b : List (α × β)} (ha : a.Nodup) (hb : (b.map Prod.fst).Nodup) {p : α × β → Bool}
    (habsent : ∀ e ∈ b, p e = true → e.1 ∉ a) : (a ++ (b.filter p).map Prod.fst).Nodup := by
  refine List.nodup_append.2 ⟨ha, hb.sublist (List.filter_sublist.map _), ?_⟩
  rintro k hk j hj rfl
  obtain ⟨e, he, rfl⟩ := List.mem_map.1 hj
  obtain ⟨hmem, hp⟩ := List.mem_filter.1 he
  exact habsent e hmem hp hk

theorem keys_filterMap_sublist {γ : Type*} (cs : List γ) (key : γ → α) (value : γ → Option β) :
    ((cs.filterMap fun c => (value c).map fun v => (key c, v)).map Prod.fst).Sublist (cs.map key) := by
  induction cs with
  | nil => exact List.Sublist.refl _
  | cons c cs ih =>
    cases hvalue : value c with
    | none =>
      simp only [List.filterMap_cons, hvalue, Option.map_none, List.map_cons]
      exact ih.cons _
    | some v =>
      simp only [List.filterMap_cons, hvalue, Option.map_some, List.map_cons]
      exact ih.cons_cons _

variable [DecidableEq α]

theorem mem_of_lookup {es : List (α × β)} {k : α} {v : β} (h : es.lookup k = some v) : (k, v) ∈ es := by
  induction es with
  | nil => cases h
  | cons e es ih =>
    rw [List.lookup_cons] at h
    split at h
    next heq =>
      rw [beq_iff_eq] at heq
      obtain rfl := Option.some.inj h
      exact heq ▸ List.mem_cons_self
    · exact List.mem_cons_of_mem _ (ih h)

theorem lookup_eq_none {es : List (α × β)} {k : α} : es.lookup k = none ↔ k ∉ es.map Prod.fst := by
  simp only [List.lookup_eq_none_iff, List.mem_map, not_exists, not_and, bne_iff_ne]
  exact ⟨fun h e he heq => h e he heq.symm, fun h e he heq => h e he heq.symm⟩

theorem lookup_of_mem {es : List (α × β)} {k : α} {v : β} (hkeys : (es.map Prod.fst).Nodup) (h : (k, v) ∈ es) :
    es.lookup k = some v := by
  induction es with
  | nil => cases h
  | cons e es ih =>
    rw [List.map_cons, List.nodup_cons] at hkeys
    rcases List.mem_cons.1 h with rfl | h
    · exact List.lookup_cons_self
    · have hne : (k == e.1) = false := by
        rw [beq_eq_false_iff_ne]
        rintro rfl
        exact hkeys.1 (List.mem_map.2 ⟨_, h, rfl⟩)
      rw [List.lookup_cons, hne]
      exact ih hkeys.2 h

/-- Entries selected by their keys. -/
theorem lookup_filter_key (p : α → Bool) (es : List (α × β)) (k : α) :
    (es.filter fun e => p e.1).lookup k = if p k then es.lookup k else none := by
  induction es with
  | nil => simp
  | cons e es ih =>
    rw [List.filter_cons]
    by_cases hk : k = e.1
    · subst hk
      by_cases hp : p e.1 = true
      · rw [if_pos hp, List.lookup_cons, List.lookup_cons, beq_self_eq_true]
        simp [hp]
      · simp only [hp] at ih ⊢
        simpa using ih
    · have hne : (k == e.1) = false := by simpa using hk
      split
      · rw [List.lookup_cons, List.lookup_cons, hne]
        exact ih
      · rw [List.lookup_cons, hne]
        exact ih

/-- Selected entries, where no key stands twice. -/
theorem lookup_filter {es : List (α × β)} (hkeys : (es.map Prod.fst).Nodup) (p : α × β → Bool) (k : α) :
    (es.filter p).lookup k = (es.lookup k).filter fun v => p (k, v) := by
  cases h : es.lookup k with
  | none =>
    rw [Option.filter_none, lookup_eq_none]
    intro hmem
    obtain ⟨e, he, rfl⟩ := List.mem_map.1 hmem
    exact lookup_eq_none.1 h (List.mem_map.2 ⟨e, (List.mem_filter.1 he).1, rfl⟩)
  | some v =>
    have hmem := mem_of_lookup h
    by_cases hp : p (k, v) = true
    · rw [Option.filter_some, if_pos hp]
      exact lookup_of_mem (hkeys.sublist (List.filter_sublist.map _)) (List.mem_filter.2 ⟨hmem, hp⟩)
    · rw [Option.filter_some, if_neg hp, lookup_eq_none]
      intro hk
      obtain ⟨⟨_, w⟩, he, rfl⟩ := List.mem_map.1 hk
      obtain ⟨hw, hpw⟩ := List.mem_filter.1 he
      have := (lookup_of_mem hkeys hw).symm.trans h
      cases this
      exact hp hpw

theorem lookup_map_value (es : List (α × β)) (f : α → β → β) (k : α) :
    (es.map fun e => (e.1, f e.1 e.2)).lookup k = (es.lookup k).map (f k) := by
  induction es with
  | nil => rfl
  | cons e es ih =>
    rw [List.map_cons, List.lookup_cons, List.lookup_cons]
    by_cases h : k = e.1
    · subst h
      simp
    · have hne : (k == e.1) = false := by simpa using h
      rw [hne]
      exact ih

/-- Entries worked out from their keys. -/
theorem lookup_map_self (keys : List α) (f : α → β) (k : α) :
    (keys.map fun key => (key, f key)).lookup k = if k ∈ keys then some (f k) else none := by
  induction keys with
  | nil => rfl
  | cons key keys ih =>
    rw [List.map_cons, List.lookup_cons]
    by_cases h : k = key
    · simp [h]
    · have hne : (k == key) = false := by simpa using h
      rw [hne]
      simp [ih, h]

/-- `{**a, **b}`. -/
def overlay (a b : List (α × β)) : List (α × β) :=
  (a.map fun e => (e.1, (b.lookup e.1).getD e.2)) ++ b.filter fun e => (a.lookup e.1).isNone

theorem lookup_overlay (a b : List (α × β)) (k : α) : (overlay a b).lookup k = (b.lookup k).or (a.lookup k) := by
  rw [overlay, List.lookup_append, lookup_map_value a fun k v => (b.lookup k).getD v,
    lookup_filter_key fun k => (a.lookup k).isNone]
  cases a.lookup k <;> cases b.lookup k <;> rfl

/-- The keys of `a`, then those that only `b` has. -/
theorem keys_overlay (a b : List (α × β)) :
    (overlay a b).map Prod.fst = a.map Prod.fst ++ (b.filter fun e => (a.lookup e.1).isNone).map Prod.fst := by
  rw [overlay, List.map_append, List.map_map]
  rfl

theorem nodup_overlay {a b : List (α × β)} (ha : (a.map Prod.fst).Nodup) (hb : (b.map Prod.fst).Nodup) :
    ((overlay a b).map Prod.fst).Nodup := by
  rw [keys_overlay]
  refine nodup_append_absent ha hb fun e _ he => ?_
  rw [← lookup_eq_none]
  exact Option.isNone_iff_eq_none.1 he

/-- Nothing is added to entries that start with the keys of `a`. -/
theorem overlay_eq {a b : List (α × β)} (hb : (b.map Prod.fst).Nodup) {rest : List α}
    (hkeys : b.map Prod.fst = a.map Prod.fst ++ rest) : overlay a b = b := by
  obtain ⟨front, back, rfl, hfront, hback⟩ := List.map_eq_append_iff.1 hkeys
  have ha : ∀ e ∈ front ++ back, (a.lookup e.1).isNone = true ↔ e ∉ front := by
    intro e he
    rw [Option.isNone_iff_eq_none, lookup_eq_none, ← hfront]
    refine ⟨fun h hmem => h (List.mem_map.2 ⟨e, hmem, rfl⟩), fun h hmem => ?_⟩
    rw [List.map_append] at hb
    have hmem' : e ∈ back := (List.mem_append.1 he).resolve_left h
    exact (List.nodup_append.1 hb).2.2 _ hmem _ (List.mem_map.2 ⟨e, hmem', rfl⟩) rfl
  have hleft : (a.map fun e => (e.1, ((front ++ back).lookup e.1).getD e.2)) = front := by
    have hlength : a.length = front.length := by simpa using (congrArg List.length hfront).symm
    refine List.ext_getElem (by rw [List.length_map, hlength]) ?_
    intro i hi hj
    have hi' : i < a.length := by simpa using hi
    have hkey : a[i].1 = front[i].1 := by
      have := List.getElem_of_eq hfront.symm (by simpa using hi')
      simpa using this
    have hvalue : (front ++ back).lookup front[i].1 = some front[i].2 :=
      lookup_of_mem hb (List.mem_append_left back (List.getElem_mem hj))
    rw [List.getElem_map, hkey, hvalue]
    rfl
  rw [overlay, hleft]
  refine congrArg _ ?_
  rw [List.filter_append]
  have hnone : front.filter (fun e => (a.lookup e.1).isNone) = [] := by
    rw [List.filter_eq_nil_iff]
    intro e he h
    exact (ha e (List.mem_append_left _ he)).1 h he
  have hall : back.filter (fun e => (a.lookup e.1).isNone) = back := by
    rw [List.filter_eq_self]
    intro e he
    refine (ha e (List.mem_append_right _ he)).2 fun hmem => ?_
    rw [List.map_append] at hb
    exact (List.nodup_append.1 hb).2.2 _ (List.mem_map.2 ⟨e, hmem, rfl⟩) _ (List.mem_map.2 ⟨e, he, rfl⟩) rfl
  rw [hnone, hall, List.nil_append]

end Entries

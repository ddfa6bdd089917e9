import LcsSystem.Lib.Table

/-!
# Rows that a condition selects

`select` is `SELECT … WHERE`: the rows with their keys, oldest first. A child collection is the selection
of its parent's key, so a statement on rows of one parent leaves the collections of the others alone:
`insert`, `modify` and `erase` each have one such lemma, and so has a series of inserts.

`map` sees every row through a function, `modifyAll` is one update of several rows.
-/

namespace Relational
universe u
variable {α : Type u}

namespace Table

def select (t : Table α) (p : α → Bool) : List (ℕ × α) := t.rows.filter fun r => p r.2

theorem mem_select {t : Table α} {p : α → Bool} {id : ℕ} {a : α} :
    (id, a) ∈ t.select p ↔ t.get? id = some a ∧ p a = true := by
  rw [select, List.mem_filter, get?_eq_some]

/-- One `INSERT` after the other. -/
def insertAll (t : Table α) (rows : List α) : Table α := rows.foldl insert t

@[simp] theorem insertAll_nil (t : Table α) : t.insertAll [] = t := rfl

@[simp] theorem insertAll_cons (t : Table α) (a : α) (rows : List α) :
    t.insertAll (a :: rows) = (t.insert a).insertAll rows := rfl

/-! ## What a selection does not see -/

theorem select_insert (t : Table α) (a : α) (p : α → Bool) :
    (t.insert a).select p = t.select p ++ if p a then [(t.nextId, a)] else [] := by
  simp only [select, insert, List.filter_append]
  cases h : p a <;> simp [h]

theorem select_insert_of_not {a : α} {p : α → Bool} (t : Table α) (h : p a = false) :
    (t.insert a).select p = t.select p := by
  simp [select_insert, h]

theorem select_insertAll_of_not {rows : List α} {p : α → Bool} (t : Table α) (h : ∀ a ∈ rows, p a = false) :
    (t.insertAll rows).select p = t.select p := by
  induction rows generalizing t with
  | nil => rfl
  | cons a rows ih =>
    rw [List.forall_mem_cons] at h
    rw [insertAll_cons, ih _ h.2, select_insert_of_not t h.1]

/-- An update of a row that is not selected before or after. -/
theorem select_modify_of_not {t : Table α} {id : ℕ} {f : α → α} {p : α → Bool}
    (h : ∀ a, t.get? id = some a → p a = false ∧ p (f a) = false) : (t.modify id f).select p = t.select p := by
  have hrow : ∀ r ∈ t.rows, p (modifyRow id f r).2 = p r.2 ∧ (p r.2 = true → modifyRow id f r = r) := by
    intro r hr
    unfold modifyRow
    split
    · next hid =>
      obtain ⟨hold, hnew⟩ := h r.2 (get?_eq_some.2 (hid ▸ hr))
      simp [hold, hnew]
    · simp
  simp only [select, modify]
  generalize t.rows = rows at hrow
  induction rows with
  | nil => rfl
  | cons r rows ih =>
    rw [List.forall_mem_cons] at hrow
    obtain ⟨⟨hsame, hkeep⟩, hrows⟩ := hrow
    rw [List.map_cons, List.filter_cons, List.filter_cons, hsame, ih hrows]
    split
    · next hp => rw [hkeep hp]
    · rfl

/-- An update that the condition does not see. -/
theorem select_modify {f : α → α} {p : α → Bool} (h : ∀ a, p (f a) = p a) (t : Table α) (id : ℕ) :
    (t.modify id f).select p = (t.select p).map (modifyRow id f) := by
  simp only [select, modify, List.filter_map]
  refine congrArg _ (List.filter_congr fun r _ => ?_)
  simp only [Function.comp, modifyRow]
  split <;> simp [h]

theorem select_erase_of_not {t : Table α} {p : α → Bool} {q : ℕ → α → Bool}
    (h : ∀ id a, t.get? id = some a → p a = true → q id a = false) : (t.erase q).select p = t.select p := by
  simp only [select, erase, List.filter_filter]
  refine List.filter_congr fun r hr => ?_
  cases hp : p r.2
  · rfl
  · simp [h r.1 r.2 (get?_eq_some.2 hr) hp]

/-! ## Rows under their keys -/

theorem get?_insertAll_of_some {t : Table α} {id : ℕ} {a : α} (rows : List α) (h : t.get? id = some a) :
    (t.insertAll rows).get? id = some a := by
  induction rows generalizing t with
  | nil => exact h
  | cons b rows ih => exact ih (get?_insert_of_some h)

@[simp] theorem nextId_insertAll (t : Table α) (rows : List α) : (t.insertAll rows).nextId = t.nextId + rows.length := by
  induction rows generalizing t with
  | nil => rfl
  | cons a rows ih =>
    rw [insertAll_cons, ih, List.length_cons]
    simp only [insert]
    omega

@[simp] theorem values_insertAll (t : Table α) (rows : List α) : (t.insertAll rows).values = t.values ++ rows := by
  induction rows generalizing t with
  | nil => rw [insertAll_nil, List.append_nil]
  | cons a rows ih =>
    rw [insertAll_cons, ih, values_insert, List.append_assoc]
    rfl

/-- Rows that are selected come last, under the keys that follow. -/
theorem select_insertAll {rows : List α} {p : α → Bool} (t : Table α) (h : ∀ a ∈ rows, p a = true) :
    (t.insertAll rows).select p = t.select p ++ (rows.zipIdx t.nextId).map Prod.swap := by
  induction rows generalizing t with
  | nil => simp
  | cons a rows ih =>
    rw [List.forall_mem_cons] at h
    rw [insertAll_cons, ih _ h.2, select_insert, if_pos h.1, List.append_assoc]
    rfl

theorem values_erase {t : Table α} {p : ℕ → α → Bool} {a : α} (h : a ∈ (t.erase p).values) : a ∈ t.values :=
  ((List.filter_sublist.map Prod.snd).subset h)

theorem modify_modify (t : Table α) (id : ℕ) (f g : α → α) :
    (t.modify id f).modify id g = t.modify id fun a => g (f a) := by
  refine ext ?_ rfl
  simp only [modify, List.map_map]
  refine List.map_congr_left fun r _ => ?_
  by_cases hr : r.1 = id <;> simp [modifyRow, hr]

/-- What holds of the rows that an update passes by, and of the updated one. -/
theorem forall_modify_of_ne {t : Table α} {id : ℕ} {a : α} {f : α → α} {P : ℕ → α → Prop} (ha : t.get? id = some a)
    (old : ∀ i b, i ≠ id → t.get? i = some b → P i b) (new : P id (f a)) :
    ∀ i b, (t.modify id f).get? i = some b → P i b := by
  intro i b hb
  by_cases hi : i = id
  · subst hi
    rw [get?_modify_self, ha, Option.map_some, Option.some.injEq] at hb
    exact hb ▸ new
  · rw [get?_modify_of_ne _ hi] at hb
    exact old i b hi hb

/-! ## References to another table -/

/-- The rows refer to keys that were handed out: the ones below `n`. -/
def KeysBelow (t : Table α) (key : α → Option ℕ) (n : ℕ) : Prop := ∀ a ∈ t.values, ∀ k ∈ key a, k < n

namespace KeysBelow
variable {t : Table α} {key : α → Option ℕ} {m n : ℕ}

theorem empty (key : α → Option ℕ) (n : ℕ) : (Table.empty : Table α).KeysBelow key n := by
  intro a ha
  cases ha

theorem mono (h : t.KeysBelow key m) (hmn : m ≤ n) : t.KeysBelow key n :=
  fun a ha k hk => (h a ha k hk).trans_le hmn

theorem insertAll (h : t.KeysBelow key n) {rows : List α} (hrows : ∀ a ∈ rows, ∀ k ∈ key a, k < n) :
    (t.insertAll rows).KeysBelow key n := by
  intro a ha
  rw [values_insertAll] at ha
  rcases List.mem_append.1 ha with ha | ha
  · exact h a ha
  · exact hrows a ha

theorem insert (h : t.KeysBelow key n) {a : α} (ha : ∀ k ∈ key a, k < n) : (t.insert a).KeysBelow key n :=
  @insertAll _ _ _ _ h [a] (by simpa using ha)

theorem erase (h : t.KeysBelow key n) (p : ℕ → α → Bool) : (t.erase p).KeysBelow key n :=
  fun a ha => h a (values_erase ha)

/-- No row refers to the key that comes next. -/
theorem select_eq_nil (h : t.KeysBelow key n) {p : α → Bool} (hp : ∀ a, p a = true → key a = some n) :
    t.select p = [] := by
  rw [select, List.filter_eq_nil_iff]
  intro r hr hpr
  exact (h r.2 (List.mem_map_of_mem hr) n (hp r.2 hpr)).false

end KeysBelow

/-! ## Several updates -/

/-- The same `UPDATE` of one row after the other. -/
def modifyAll (t : Table α) (ids : List ℕ) (f : α → α) : Table α := ids.foldl (fun t id => t.modify id f) t

theorem get?_modifyAll {f : α → α} (hf : ∀ a, f (f a) = f a) (t : Table α) (ids : List ℕ) (id : ℕ) :
    (t.modifyAll ids f).get? id = if id ∈ ids then (t.get? id).map f else t.get? id := by
  induction ids generalizing t with
  | nil => simp [modifyAll]
  | cons i ids ih =>
    have hstep : t.modifyAll (i :: ids) f = (t.modify i f).modifyAll ids f := rfl
    rw [hstep, ih, get?_modify]
    by_cases hi : id = i
    · by_cases hids : id ∈ ids <;> simp [hi, hi ▸ hids, Function.comp_def, hf]
    · simp [hi]

/-! ## Rows seen through a function -/

variable {β : Type u}

def map (f : α → β) (t : Table α) : Table β where
  rows := t.rows.map fun r => (r.1, f r.2)
  nextId := t.nextId
  bound := by
    intro r hr
    obtain ⟨q, hq, rfl⟩ := List.mem_map.1 hr
    exact t.bound q hq
  nodup := by
    rw [List.map_map]
    exact t.nodup

@[simp] theorem nextId_map (f : α → β) (t : Table α) : (t.map f).nextId = t.nextId := rfl

@[simp] theorem get?_map (f : α → β) (t : Table α) (id : ℕ) : (t.map f).get? id = (t.get? id).map f := by
  simp only [get?, map]
  induction t.rows with
  | nil => rfl
  | cons r rows ih =>
    simp only [List.map_cons, find, ih]
    split <;> rfl

@[simp] theorem values_map (f : α → β) (t : Table α) : (t.map f).values = t.values.map f := by
  simp [values, map, Function.comp_def]

theorem map_insert (f : α → β) (t : Table α) (a : α) : (t.insert a).map f = (t.map f).insert (f a) := by
  refine ext ?_ rfl
  simp [map, insert]

/-- An update of the row is one of what is seen of it. -/
theorem map_modify {f : α → β} {g : α → α} {h : β → β} (hgh : ∀ a, f (g a) = h (f a)) (t : Table α) (id : ℕ) :
    (t.modify id g).map f = (t.map f).modify id h := by
  refine ext ?_ rfl
  simp only [map, modify, List.map_map]
  refine List.map_congr_left fun r _ => ?_
  simp only [Function.comp, modifyRow]
  split <;> simp [hgh]

/-- An update that is not seen. -/
theorem map_modify_of_same {f : α → β} {g : α → α} (h : ∀ a, f (g a) = f a) (t : Table α) (id : ℕ) :
    (t.modify id g).map f = t.map f := by
  refine ext ?_ rfl
  simp only [map, modify, List.map_map]
  refine List.map_congr_left fun r _ => ?_
  simp only [Function.comp, modifyRow]
  split <;> simp [h]

/-- A deletion by what is seen of the rows. -/
theorem map_erase {f : α → β} {p : ℕ → α → Bool} {q : ℕ → β → Bool} (h : ∀ id a, p id a = q id (f a)) (t : Table α) :
    (t.erase p).map f = (t.map f).erase q := by
  refine ext ?_ rfl
  simp only [map, erase, List.filter_map]
  refine congrArg _ (List.filter_congr fun r _ => ?_)
  simp [h]

theorem select_map (f : α → β) (t : Table α) (p : β → Bool) :
    (t.map f).select p = (t.select fun a => p (f a)).map fun r => (r.1, f r.2) := by
  simp only [select, map, List.filter_map]
  rfl

end Table
end Relational

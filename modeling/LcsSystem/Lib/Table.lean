import Mathlib

/-!
# Database tables with an auto-increment key

A table is the list of its rows in the order they were inserted, each with its primary key, and the
next key to hand out. That keys are distinct and below the next one is part of the structure, so
`insert` never reuses a key and a lookup is never ambiguous.

`insert`, `modify` and `erase` are the three statements (`INSERT`, `UPDATE … WHERE id =`,
`DELETE … WHERE`); each has one equation for `get?` and one for `values`.
-/

namespace Relational
universe u
variable {α : Type u}

structure Table (α : Type u) where
  rows : List (ℕ × α)
  nextId : ℕ
  bound : ∀ r ∈ rows, r.1 < nextId
  nodup : (rows.map Prod.fst).Nodup

namespace Table

@[ext] theorem ext {t u : Table α} (hr : t.rows = u.rows) (hn : t.nextId = u.nextId) : t = u := by
  cases t; cases u; cases hr; cases hn; rfl

/-- The first row with key `id`. -/
def find (id : ℕ) : List (ℕ × α) → Option α
  | [] => none
  | r :: rs => if r.1 = id then some r.2 else find id rs

def get? (t : Table α) (id : ℕ) : Option α := find id t.rows

/-- The rows without their keys, oldest first. -/
def values (t : Table α) : List α := t.rows.map Prod.snd

def empty : Table α := ⟨[], 1, by simp, by simp⟩

/-- `INSERT`: the new row gets key `t.nextId`. -/
def insert (t : Table α) (a : α) : Table α where
  rows := t.rows ++ [(t.nextId, a)]
  nextId := t.nextId + 1
  bound := by
    intro r hr
    rcases List.mem_append.1 hr with hr | hr
    · exact (t.bound r hr).trans (Nat.lt_succ_self _)
    · rw [List.mem_singleton.1 hr]; exact Nat.lt_succ_self _
  nodup := by
    rw [List.map_append]
    refine List.nodup_append.2 ⟨t.nodup, by simp, ?_⟩
    intro a ha b hb
    obtain ⟨r, hr, rfl⟩ := List.mem_map.1 ha
    simp only [List.map_cons, List.map_nil, List.mem_singleton] at hb
    exact hb ▸ (t.bound r hr).ne

def modifyRow (id : ℕ) (f : α → α) (r : ℕ × α) : ℕ × α := if r.1 = id then (r.1, f r.2) else r

@[simp] theorem modifyRow_fst (id : ℕ) (f : α → α) (r : ℕ × α) : (modifyRow id f r).1 = r.1 := by
  unfold modifyRow; split <;> rfl

/-- `UPDATE … WHERE id = …`. -/
def modify (t : Table α) (id : ℕ) (f : α → α) : Table α where
  rows := t.rows.map (modifyRow id f)
  nextId := t.nextId
  bound := by
    intro r hr
    obtain ⟨q, hq, rfl⟩ := List.mem_map.1 hr
    rw [modifyRow_fst]; exact t.bound q hq
  nodup := by
    have : (t.rows.map (modifyRow id f)).map Prod.fst = t.rows.map Prod.fst := by simp [Function.comp_def]
    rw [this]; exact t.nodup

/-- `DELETE` of the rows that `p` selects. -/
def erase (t : Table α) (p : ℕ → α → Bool) : Table α where
  rows := t.rows.filter fun r => !p r.1 r.2
  nextId := t.nextId
  bound := fun r hr => t.bound r (List.mem_filter.1 hr).1
  nodup := t.nodup.sublist (List.filter_sublist.map _)

/-! ## Lookups -/

theorem find_append (id : ℕ) (l m : List (ℕ × α)) : find id (l ++ m) = (find id l).or (find id m) := by
  induction l with
  | nil => rfl
  | cons r rs ih =>
    simp only [List.cons_append, find, ih]
    split <;> rfl

theorem find_eq_none {id : ℕ} {l : List (ℕ × α)} : find id l = none ↔ ∀ r ∈ l, r.1 ≠ id := by
  induction l with
  | nil => simp [find]
  | cons r rs ih =>
    by_cases h : r.1 = id
    · simp [find, h]
    · simp [find, h, ih]

theorem mem_of_find {id : ℕ} {a : α} {l : List (ℕ × α)} (h : find id l = some a) : (id, a) ∈ l := by
  induction l with
  | nil => cases h
  | cons r rs ih =>
    by_cases hr : r.1 = id
    · simp only [find, hr, if_true, Option.some.injEq] at h
      subst h hr
      exact List.mem_cons_self
    · simp only [find, hr, if_false] at h
      exact List.mem_cons_of_mem _ (ih h)

theorem find_of_mem {id : ℕ} {a : α} : ∀ {l : List (ℕ × α)}, (l.map Prod.fst).Nodup → (id, a) ∈ l → find id l = some a
  | r :: rs, hn, h => by
    rw [List.map_cons, List.nodup_cons] at hn
    rcases List.mem_cons.1 h with rfl | h
    · simp [find]
    · have hne : r.1 ≠ id := fun he => hn.1 (he ▸ List.mem_map.2 ⟨_, h, rfl⟩)
      rw [find, if_neg hne]
      exact find_of_mem hn.2 h

/-- A row is found under its key, and only its own row is found there. -/
theorem get?_eq_some {t : Table α} {id : ℕ} {a : α} : t.get? id = some a ↔ (id, a) ∈ t.rows :=
  ⟨mem_of_find, find_of_mem t.nodup⟩

theorem lt_nextId {t : Table α} {id : ℕ} {a : α} (h : t.get? id = some a) : id < t.nextId :=
  t.bound _ (get?_eq_some.1 h)

@[simp] theorem get?_nextId (t : Table α) : t.get? t.nextId = none :=
  find_eq_none.2 fun r hr => (t.bound r hr).ne

theorem mem_values {t : Table α} {a : α} : a ∈ t.values ↔ ∃ id, t.get? id = some a := by
  simp [values, get?_eq_some]

/-- A row looked up under a key that may be missing, with its key. -/
theorem bind_get?_eq_some {t : Table α} {key : Option ℕ} {id : ℕ} {a : α} :
    (key.bind fun i => (t.get? i).map fun b => (i, b)) = some (id, a) ↔ key = some id ∧ t.get? id = some a := by
  simp only [Option.bind_eq_some_iff, Option.map_eq_some_iff, Prod.mk.injEq]
  constructor
  · rintro ⟨i, hi, b, hb, rfl, rfl⟩
    exact ⟨hi, hb⟩
  · rintro ⟨hi, ha⟩
    exact ⟨id, hi, a, ha, rfl, rfl⟩

/-! ## The three statements -/

theorem get?_insert (t : Table α) (a : α) (id : ℕ) :
    (t.insert a).get? id = if id = t.nextId then some a else t.get? id := by
  unfold get? insert
  rw [find_append]
  by_cases h : id = t.nextId
  · subst h
    have : find t.nextId t.rows = none := get?_nextId t
    simp [this, find]
  · simp [find, h, Ne.symm h]

@[simp] theorem get?_insert_self (t : Table α) (a : α) : (t.insert a).get? t.nextId = some a := by
  simp [get?_insert]

theorem get?_insert_of_some {t : Table α} {a b : α} {id : ℕ} (h : t.get? id = some b) :
    (t.insert a).get? id = some b := by
  rw [get?_insert, if_neg (lt_nextId h).ne, h]

/-- What holds of every row, and of a new one. -/
theorem forall_insert {t : Table α} {a : α} {P : ℕ → α → Prop} (old : ∀ i b, t.get? i = some b → P i b)
    (new : P t.nextId a) : ∀ i b, (t.insert a).get? i = some b → P i b := by
  intro i b hb
  rw [get?_insert] at hb
  split at hb
  · next hi =>
    cases hb
    exact hi ▸ new
  · exact old i b hb

@[simp] theorem values_insert (t : Table α) (a : α) : (t.insert a).values = t.values ++ [a] := by
  simp [values, insert]

theorem find_modifyRow (id i : ℕ) (f : α → α) (l : List (ℕ × α)) :
    find i (l.map (modifyRow id f)) = if i = id then (find i l).map f else find i l := by
  induction l with
  | nil => simp [find]
  | cons r rs ih =>
    rw [List.map_cons, find, modifyRow_fst, ih, find]
    by_cases hr : r.1 = i
    · subst hr
      by_cases hi : r.1 = id <;> simp [modifyRow, hi]
    · simp [hr]

theorem get?_modify (t : Table α) (id i : ℕ) (f : α → α) :
    (t.modify id f).get? i = if i = id then (t.get? i).map f else t.get? i :=
  find_modifyRow id i f t.rows

@[simp] theorem get?_modify_self (t : Table α) (id : ℕ) (f : α → α) :
    (t.modify id f).get? id = (t.get? id).map f := by
  simp [get?_modify]

theorem get?_modify_of_ne {t : Table α} {id i : ℕ} (f : α → α) (h : i ≠ id) :
    (t.modify id f).get? i = t.get? i := by
  simp [get?_modify, h]

/-- Only the row that is there matters to an update. -/
theorem modify_congr {t : Table α} {id : ℕ} {a : α} {f g : α → α} (ha : t.get? id = some a) (h : f a = g a) :
    t.modify id f = t.modify id g := by
  refine ext (List.map_congr_left fun r hr => ?_) rfl
  unfold modifyRow
  split
  · next hid =>
    have hr' : t.get? id = some r.2 := get?_eq_some.2 (hid ▸ hr)
    rw [ha, Option.some.injEq] at hr'
    rw [← hr', h]
  · rfl

/-- An update that changes nothing. -/
theorem modify_eq_self {t : Table α} {id : ℕ} {a : α} {f : α → α} (ha : t.get? id = some a) (h : f a = a) :
    t.modify id f = t := by
  rw [modify_congr ha (g := fun b => b) h]
  refine ext ((List.map_congr_left fun r _ => ?_).trans (List.map_id _)) rfl
  simp [modifyRow]

/-- What holds of every row, and of an updated one. -/
theorem forall_modify {t : Table α} {id : ℕ} {a : α} {f : α → α} {P : ℕ → α → Prop} (ha : t.get? id = some a)
    (old : ∀ i b, t.get? i = some b → P i b) (new : P id (f a)) :
    ∀ i b, (t.modify id f).get? i = some b → P i b := by
  intro i b hb
  rw [get?_modify] at hb
  split at hb
  · next hi =>
    subst hi
    rw [ha, Option.map_some, Option.some.injEq] at hb
    exact hb ▸ new
  · exact old i b hb

theorem map_modifyRow_of_absent {id : ℕ} (f : α → α) {l : List (ℕ × α)} (h : ∀ r ∈ l, r.1 ≠ id) :
    l.map (modifyRow id f) = l := by
  induction l with
  | nil => rfl
  | cons r rs ih =>
    have hr : modifyRow id f r = r := by simp [modifyRow, h r List.mem_cons_self]
    rw [List.map_cons, hr, ih fun q hq => h q (List.mem_cons_of_mem _ hq)]

/-- Updating the row just inserted is inserting the updated row. -/
@[simp] theorem modify_insert_self (t : Table α) (a : α) (f : α → α) :
    (t.insert a).modify t.nextId f = t.insert (f a) := by
  refine ext ?_ rfl
  have hold : t.rows.map (modifyRow t.nextId f) = t.rows :=
    map_modifyRow_of_absent f fun r hr => (t.bound r hr).ne
  simp [modify, insert, hold, modifyRow]

theorem find_filter (p : ℕ → α → Bool) (id : ℕ) : ∀ {l : List (ℕ × α)}, (l.map Prod.fst).Nodup →
    find id (l.filter fun r => !p r.1 r.2) = (find id l).filter fun a => !p id a
  | [], _ => rfl
  | r :: rs, hn => by
    rw [List.map_cons, List.nodup_cons] at hn
    have ih := find_filter p id hn.2
    by_cases hr : r.1 = id
    · subst hr
      have hrest : find r.1 rs = none :=
        find_eq_none.2 fun q hq he => hn.1 (List.mem_map.2 ⟨q, hq, he⟩)
      cases hp : p r.1 r.2 <;> simp [hp, find, ih, hrest, Option.filter]
    · cases hp : p r.1 r.2 <;> simp [hp, find, hr, ih]

theorem get?_erase (t : Table α) (p : ℕ → α → Bool) (id : ℕ) :
    (t.erase p).get? id = (t.get? id).filter fun a => !p id a :=
  find_filter p id t.nodup

end Table
end Relational

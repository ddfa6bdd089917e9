import LcsSystem.Lib.Table
import LcsSystem.Lib.Transition

/-!
# Unique indexes

A partial unique index gives some rows a key and lets no two rows share one. `UniqueBy` says that it holds of a table,
`Free` that it takes a row; `uniqueBy_write` is the `INSERT` or `UPDATE` of a row that it takes. `find?_values_insert` and
`find?_values_modify` say when a search through a table passes a write by.

`Served` is what one request does to a table whose key the service checks: it deletes, adds a row under a free key, or changes
the row that it names. The rules for it are the index, what holds of every row, and the rows that it does not name.
-/

namespace Relational.Table
universe u v
variable {α : Type u} {β : Type v} {key : α → Option β} {t t' : Table α} {id : ℕ} {a : α} {f : α → α} {p : α → Bool}

def UniqueBy (key : α → Option β) (t : Table α) : Prop :=
  ∀ i j a b k, t.get? i = some a → t.get? j = some b → key a = some k → key b = some k → i = j

/-- No row but the one with this id has the key of `a`. -/
def Free (key : α → Option β) (t : Table α) (id : ℕ) (a : α) : Prop :=
  ∀ i b k, t.get? i = some b → key a = some k → key b = some k → i = id

theorem uniqueBy_empty : UniqueBy key (empty : Table α) := by
  intro i j a b k hi
  cases hi

theorem uniqueBy_write (hwrite : ∀ i, t'.get? i = if i = id then some a else t.get? i) (h : UniqueBy key t)
    (hfree : Free key t id a) : UniqueBy key t' := by
  intro i j b c k hi hj hb hc
  rw [hwrite] at hi hj
  by_cases hid : i = id <;> by_cases hjd : j = id
  · rw [hid, hjd]
  · rw [if_pos hid, Option.some.injEq] at hi
    rw [if_neg hjd] at hj
    exact hid.trans (hfree j c k hj (hi ▸ hb) hc).symm
  · rw [if_neg hid] at hi
    rw [if_pos hjd, Option.some.injEq] at hj
    exact (hfree i b k hi (hj ▸ hc) hb).trans hjd.symm
  · rw [if_neg hid] at hi
    rw [if_neg hjd] at hj
    exact h i j b c k hi hj hb hc

theorem uniqueBy_insert (h : UniqueBy key t) (hfree : Free key t t.nextId a) : UniqueBy key (t.insert a) :=
  uniqueBy_write (get?_insert t a) h hfree

theorem get?_replace (ha : t.get? id = some a) (i : ℕ) :
    (t.modify id f).get? i = if i = id then some (f a) else t.get? i := by
  rw [get?_modify]
  split
  next hi => rw [hi, ha, Option.map_some]
  next => rfl

theorem uniqueBy_modify (ha : t.get? id = some a) (h : UniqueBy key t) (hfree : Free key t id (f a)) :
    UniqueBy key (t.modify id f) :=
  uniqueBy_write (get?_replace ha) h hfree

/-- A row without a key is always taken. -/
theorem free_of_none (h : key a = none) : Free key t id a := by
  intro i b k _ hk
  rw [h] at hk
  cases hk

/-- The check that a service or the database makes over the rows. -/
theorem free_of_forall (h : ∀ e ∈ t.rows, e.1 = id ∨ ∀ k ∈ key a, key e.2 ≠ some k) : Free key t id a := by
  intro i b k hi hk hb
  exact (h (i, b) (get?_eq_some.1 hi)).resolve_right fun hne => hne k hk hb

/-- The row that the index holds bars every other row with its key. -/
theorem UniqueBy.forall_rows (h : UniqueBy key t) (ha : t.get? id = some a) :
    ∀ e ∈ t.rows, e.1 = id ∨ ∀ k ∈ key a, key e.2 ≠ some k := by
  intro e he
  by_cases hid : e.1 = id
  · exact .inl hid
  · exact .inr fun k hk hsame => hid (h e.1 id e.2 a k (get?_eq_some.2 he) ha hsame hk)

/-! ## Searches -/

theorem find?_values_insert (h : p a = false) : (t.insert a).values.find? p = t.values.find? p := by
  simp [List.find?_append, h]

theorem find?_values_modify (ha : t.get? id = some a) (h : p a = false) (h' : p (f a) = false) :
    (t.modify id f).values.find? p = t.values.find? p := by
  have hrows : ∀ r ∈ t.rows, r.1 = id → r.2 = a := by
    intro r hr hid
    have hget : t.get? r.1 = some r.2 := get?_eq_some.2 hr
    rw [hid, ha] at hget
    exact (Option.some.inj hget).symm
  simp only [values, modify]
  generalize t.rows = rows at hrows
  induction rows with
  | nil => rfl
  | cons r rows ih =>
    have hrest := ih fun r hr => hrows r (List.mem_cons_of_mem _ hr)
    simp only [List.map_cons, List.find?_cons, hrest]
    by_cases hid : r.1 = id
    · have hr := hrows r List.mem_cons_self hid
      simp [modifyRow, hid, hr, h, h']
    · simp [modifyRow, hid]

/-! ## Requests -/

/-- What one request does to a table; `created` is what it puts in and `updated` what it makes of the row it names. -/
inductive Served (key : α → Option β) (created : α → Prop) (updated : α → α → Prop) (named : Option ℕ) (t : Table α) :
    Table α → Prop
  | kept : Served key created updated named t t
  | erased (p : ℕ → α → Bool) : Served key created updated named t (t.erase p)
  | added (a : α) (free : Free key t t.nextId a) (new : created a) : Served key created updated named t (t.insert a)
  | changed (id : ℕ) (old a : α) (isNamed : named = some id) (stands : t.get? id = some old)
      (free : key a = key old ∨ Free key t id a) (becomes : updated old a) :
      Served key created updated named t (t.modify id fun _ => a)

namespace Served
variable {created : α → Prop} {updated : α → α → Prop} {named : Option ℕ}

theorem uniqueBy (h : Served key created updated named t t') (hunique : UniqueBy key t) : UniqueBy key t' := by
  cases h with
  | kept => exact hunique
  | erased p =>
    intro i j a b k ha hb
    rw [get?_erase, Option.filter_eq_some_iff] at ha hb
    exact hunique i j a b k ha.1 hb.1
  | added a free => exact uniqueBy_insert hunique free
  | changed id old a _ stands free =>
    refine uniqueBy_modify stands hunique ?_
    rcases free with hsame | hfree
    · intro i b k hb hk hbk
      exact hunique i id b old k hb stands hbk (hsame ▸ hk)
    · exact hfree

/-- What holds of the rows that are put in and is kept by an update holds of every row. -/
theorem forall_rows (h : Served key created updated named t t') {P : α → Prop} (new : ∀ a, created a → P a)
    (keep : ∀ a b, updated a b → P a → P b) (old : ∀ i a, t.get? i = some a → P a) : ∀ i a, t'.get? i = some a → P a := by
  cases h with
  | kept => exact old
  | erased p =>
    intro i a ha
    rw [get?_erase, Option.filter_eq_some_iff] at ha
    exact old i a ha.1
  | added a _ hnew => exact forall_insert old (new a hnew)
  | changed id b a _ stands _ becomes => exact forall_modify stands old (keep b a becomes (old id b stands))

/-- Keys are handed out once. -/
theorem nextId_le (h : Served key created updated named t t') : t.nextId ≤ t'.nextId := by
  cases h with
  | added a => exact Nat.le_succ _
  | _ => exact le_rfl

/-- A row under a key that had been handed out was there before, and as it was or as the request that names it made it. -/
theorem of_lt (h : Served key created updated named t t') {i : ℕ} {b : α} (hi : i < t.nextId) (hb : t'.get? i = some b) :
    ∃ a, t.get? i = some a ∧ (b = a ∨ named = some i ∧ updated a b) := by
  cases h with
  | kept => exact ⟨b, hb, .inl rfl⟩
  | erased p =>
    rw [get?_erase, Option.filter_eq_some_iff] at hb
    exact ⟨b, hb.1, .inl rfl⟩
  | added a =>
    rw [get?_insert, if_neg hi.ne] at hb
    exact ⟨b, hb, .inl rfl⟩
  | changed id old a isNamed stands _ becomes =>
    by_cases hid : i = id
    · subst hid
      rw [get?_modify_self, stands, Option.map_some, Option.some.injEq] at hb
      exact ⟨old, stands, .inr ⟨isNamed, hb ▸ becomes⟩⟩
    · rw [get?_modify_of_ne _ hid] at hb
      exact ⟨b, hb, .inl rfl⟩

/-- Over a run of requests: a row under a key that had been handed out was there before; what the updates keep of it is kept,
and it is as it was unless a request named it. -/
theorem run_of_lt {σ ρ : Type*} {step : σ → ρ → σ} {table : σ → Table α} {named : ρ → Option ℕ}
    (served : ∀ s r, Served key created updated (named r) (table s) (table (step s r))) (R : α → α → Prop)
    (refl : ∀ a, R a a) (trans : ∀ a b c, R a b → R b c → R a c) (keep : ∀ a b, updated a b → R a b) (rs : List ρ) (s : σ)
    {i : ℕ} {b : α} (hi : i < (table s).nextId) (hb : (table (Transition.run step s rs)).get? i = some b) :
    ∃ a, (table s).get? i = some a ∧ R a b ∧ ((∀ r ∈ rs, named r ≠ some i) → b = a) := by
  induction rs generalizing s with
  | nil => exact ⟨b, hb, refl b, fun _ => rfl⟩
  | cons r rs ih =>
    obtain ⟨c, hc, hcb, hrest⟩ := ih (step s r) (hi.trans_le (served s r).nextId_le) hb
    obtain ⟨a, ha, hca⟩ := (served s r).of_lt hi hc
    refine ⟨a, ha, ?_, ?_⟩
    · rcases hca with rfl | ⟨-, hupdated⟩
      · exact hcb
      · exact trans a c b (keep a c hupdated) hcb
    · intro hunnamed
      rw [List.forall_mem_cons] at hunnamed
      rcases hca with rfl | ⟨hnamed, -⟩
      · exact hrest hunnamed.2
      · exact absurd hnamed hunnamed.1

end Served

end Relational.Table

import Mathlib

/-!
# Grouped sums and running totals

Rows with an amount that fall into groups (`GROUP BY` with `SUM`), and the running total of a group in the order of a
key (`SUM … OVER (PARTITION BY … ORDER BY …)`, whose frame ends at the last row with the key of the current one).
-/

namespace Grouping
universe u v w
variable {α : Type u} {γ : Type v} {M : Type w} [DecidableEq γ] [AddCommMonoid M]

/-- `SUM(amount)` of the rows of a group. -/
def groupSum (group : α → γ) (amount : α → M) (rows : List α) (g : γ) : M :=
  ((rows.filter fun r => group r = g).map amount).sum

section
variable {group : α → γ} {amount : α → M}

@[simp] theorem groupSum_nil (g : γ) : groupSum group amount [] g = 0 := rfl

theorem groupSum_cons (r : α) (rows : List α) (g : γ) :
    groupSum group amount (r :: rows) g = (if group r = g then amount r else 0) + groupSum group amount rows g := by
  unfold groupSum
  by_cases h : group r = g <;> simp [h]

theorem groupSum_append (rows rows' : List α) (g : γ) :
    groupSum group amount (rows ++ rows') g = groupSum group amount rows g + groupSum group amount rows' g := by
  simp [groupSum]

theorem groupSum_perm {rows rows' : List α} (h : rows.Perm rows') (g : γ) :
    groupSum group amount rows g = groupSum group amount rows' g :=
  ((h.filter _).map _).sum_eq

theorem groupSum_eq_zero {rows : List α} {g : γ} (h : ∀ r ∈ rows, group r ≠ g) : groupSum group amount rows g = 0 := by
  have hnone : rows.filter (fun r => group r = g) = [] := by simpa [List.filter_eq_nil_iff] using h
  simp [groupSum, hnone]

theorem groupSum_add {amount' : α → M} (rows : List α) (g : γ) :
    groupSum group (fun r => amount r + amount' r) rows g =
      groupSum group amount rows g + groupSum group amount' rows g := List.sum_map_add

theorem sum_map_ite_eq_of_nodup {gs : List γ} (hgs : gs.Nodup) {g : γ} (hg : g ∈ gs) (x : M) :
    (gs.map fun g' => if g = g' then x else 0).sum = x := by
  induction gs with
  | nil => cases hg
  | cons k gs ih =>
    rw [List.nodup_cons] at hgs
    rw [List.map_cons, List.sum_cons]
    by_cases h : g = k
    · subst h
      have hrest : ∀ y ∈ gs.map (fun g' => if g = g' then x else 0), y = 0 := by
        intro y hy
        obtain ⟨g', hg', rfl⟩ := List.mem_map.1 hy
        exact if_neg fun he => hgs.1 (by rw [he]; exact hg')
      rw [if_pos rfl, List.sum_eq_zero hrest, add_zero]
    · rw [if_neg h, zero_add]
      exact ih hgs.2 ((List.mem_cons.1 hg).resolve_left h)

/-- **The groups add up** to the whole, whichever distinct groups are summed that have all the rows. -/
theorem sum_groupSum (group : α → γ) (amount : α → M) {gs : List γ} (hgs : gs.Nodup) {rows : List α} (hrows : ∀ r ∈ rows, group r ∈ gs) :
    (gs.map (groupSum group amount rows)).sum = (rows.map amount).sum := by
  induction rows with
  | nil =>
    refine List.sum_eq_zero fun x hx => ?_
    obtain ⟨g, -, rfl⟩ := List.mem_map.1 hx
    exact groupSum_nil g
  | cons r rows ih =>
    have hsplit : groupSum group amount (r :: rows) =
        fun g => (if group r = g then amount r else 0) + groupSum group amount rows g := funext (groupSum_cons r rows)
    have hhead := sum_map_ite_eq_of_nodup hgs (hrows r List.mem_cons_self) (amount r)
    have htail := ih fun q hq => hrows q (List.mem_cons_of_mem _ hq)
    rw [hsplit, List.sum_map_add, hhead, htail, List.map_cons, List.sum_cons]

end

/-! ## Running totals -/

section
variable {κ : Type*} [LinearOrder κ]

/-- `SUM(amount) OVER (PARTITION BY group ORDER BY key)` at row `r`. -/
def runningSum (group : α → γ) (key : α → κ) (amount : α → M) (rows : List α) (r : α) : M :=
  groupSum group amount (rows.filter fun q => key q ≤ key r) (group r)

variable {group : α → γ} {key : α → κ} {amount : α → M}

theorem runningSum_perm (group : α → γ) (key : α → κ) (amount : α → M) {rows rows' : List α} (h : rows.Perm rows') (r : α) :
    runningSum group key amount rows r = runningSum group key amount rows' r := groupSum_perm (h.filter _) _

/-- In key order a running total is what its group has up to the row. -/
theorem runningSum_of_sorted (group : α → γ) (amount : α → M) {before after : List α} {r : α}
    (h : (before ++ r :: after).Pairwise fun a b => key a < key b) :
    runningSum group key amount (before ++ r :: after) r = groupSum group amount before (group r) + amount r := by
  obtain ⟨-, hafter, hbefore⟩ := List.pairwise_append.1 h
  have hb : before.filter (fun q => key q ≤ key r) = before :=
    List.filter_eq_self.2 fun q hq => by simpa using (hbefore q hq r List.mem_cons_self).le
  have ha : after.filter (fun q => key q ≤ key r) = [] :=
    List.filter_eq_nil_iff.2 fun q hq => by simpa using (List.pairwise_cons.1 hafter).1 q hq
  have hsame : (r :: after).filter (fun q => key q ≤ key r) = [r] := by simp [ha]
  unfold runningSum
  rw [List.filter_append, hb, hsame, groupSum_append, groupSum_cons, groupSum_nil, if_pos rfl, add_zero]

/-- What is shown of the last row of a group. -/
def lastShown {β : Type*} (group : α → γ) (shown : α → β) (rows : List α) (g : γ) : Option β :=
  (rows.filter fun r => group r = g).getLast?.map shown

theorem lastShown_map {β δ : Type*} (f : δ → α) (shown : α → β) (rows : List δ) (g : γ) :
    lastShown group shown (rows.map f) g = lastShown (fun x => group (f x)) (fun x => shown (f x)) rows g := by
  simp [lastShown, List.filter_map, Function.comp_def]

/-- What is shown may depend on the group. -/
theorem lastShown_group {β δ : Type*} (group : α → γ) (change : γ → β → δ) (shown : α → β) (rows : List α) (g : γ) :
    lastShown group (fun r => change (group r) (shown r)) rows g = (lastShown group shown rows g).map (change g) := by
  unfold lastShown
  cases hlast : (rows.filter fun r => group r = g).getLast? with
  | none => rfl
  | some r =>
    have hr : group r = g := by simpa using (List.mem_filter.1 (List.mem_of_getLast? hlast)).2
    simp [hr]

/-- **The last running total of a group is its sum**, of the rows so far. -/
theorem lastShown_runningSum (group : α → γ) (amount : α → M) {before after : List α} (h : (before ++ after).Pairwise fun a b => key a < key b) (g : γ) :
    (lastShown group (runningSum group key amount (before ++ after)) before g).getD 0 = groupSum group amount before g := by
  unfold lastShown
  cases hlast : (before.filter fun r => group r = g).getLast? with
  | none =>
    have hnone := List.filter_eq_nil_iff.1 (List.getLast?_eq_none_iff.1 hlast)
    exact (groupSum_eq_zero fun r hr he => hnone r hr (by simpa using he)).symm
  | some r =>
    obtain ⟨others, hothers⟩ := List.getLast?_eq_some_iff.1 hlast
    obtain ⟨pre, rest, rfl, -, hrest⟩ := List.filter_eq_append_iff.1 hothers
    obtain ⟨skip, post, rfl, hskip, hr, hpost⟩ := List.filter_eq_cons_iff.1 hrest
    have hr : group r = g := by simpa using hr
    have hnone := List.filter_eq_nil_iff.1 hpost
    have hzero : groupSum group amount post g = 0 :=
      groupSum_eq_zero fun q hq he => hnone q hq (by simpa using he)
    have hsplit : pre ++ (skip ++ r :: post) ++ after = (pre ++ skip) ++ r :: (post ++ after) := by simp
    rw [hsplit] at h ⊢
    rw [Option.map_some, Option.getD_some, runningSum_of_sorted group amount h, hr]
    simp only [groupSum_append, groupSum_cons, if_pos hr, hzero, add_zero, add_assoc]

/-- A running total is the one before it in its group and the amount of the row. -/
theorem runningSum_step {before after : List α} {r : α}
    (h : (before ++ r :: after).Pairwise fun a b => key a < key b) :
    runningSum group key amount (before ++ r :: after) r =
      (lastShown group (runningSum group key amount (before ++ r :: after)) before (group r)).getD 0 + amount r := by
  rw [lastShown_runningSum group amount h, runningSum_of_sorted group amount h]

end

/-! ## Pages -/

/-- `OFFSET offset LIMIT limit` of page `page`, the first page being 1. -/
def pageOf (page pageSize : ℕ) (rows : List α) : List α := (rows.drop ((page - 1) * pageSize)).take pageSize

/-- **The pages make up the rows**, as many as it takes. -/
theorem flatMap_pageOf {pageSize pages : ℕ} {rows : List α} (h : rows.length ≤ pages * pageSize) :
    (List.range pages).flatMap (fun i => pageOf (i + 1) pageSize rows) = rows := by
  have htaken : ∀ n, (List.range n).flatMap (fun i => pageOf (i + 1) pageSize rows) = rows.take (n * pageSize) := by
    intro n
    induction n with
    | zero => simp
    | succ n ih =>
      rw [List.range_succ, List.flatMap_append, ih, Nat.succ_mul, List.take_add]
      simp [pageOf]
  rw [htaken, List.take_of_length_le h]

end Grouping

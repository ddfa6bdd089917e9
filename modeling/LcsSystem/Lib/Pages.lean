import Mathlib

/-!
# Pages of an ordered list

A list is read page by page, and every page is cut from an ordering of its own: elements that the order does not tell apart
may change places between two pages. `pagesPartition_iff` says when the pages hold every element once, whatever the
orderings: the elements that tie stand on one page.
-/

namespace Pages
universe u
variable {α : Type u} {le : α → α → Bool} {xs sorted : List α} {size : ℕ} {a : α}

/-- An ordering of the elements. -/
structure Sorting (le : α → α → Bool) (xs sorted : List α) : Prop where
  perm : sorted.Perm xs
  pairwise : sorted.Pairwise fun a b => le a b = true

/-- The pages count from zero. -/
def page (size k : ℕ) (sorted : List α) : List α := (sorted.drop (k * size)).take size

def pageCount (size total : ℕ) : ℕ := (total + size - 1) / size

/-- The pages hold every element once, whatever ordering each is cut from. -/
def PagesPartition (le : α → α → Bool) (xs : List α) (size : ℕ) : Prop :=
  ∀ orderings : ℕ → List α, (∀ k, Sorting le xs (orderings k)) →
    ((List.range (pageCount size xs.length)).flatMap fun k => page size k (orderings k)).Perm xs

/-- How many elements stand before this one in every ordering. -/
def before (le : α → α → Bool) (xs : List α) (a : α) : ℕ := xs.countP fun x => !le a x

/-- How many elements may stand before this one, itself included. -/
def upTo (le : α → α → Bool) (xs : List α) (a : α) : ℕ := xs.countP fun x => le x a

/-- Those that tie with an element stand on one page. -/
def TiesOnOnePage (le : α → α → Bool) (xs : List α) (size : ℕ) : Prop :=
  ∀ a ∈ xs, before le xs a / size = (upTo le xs a - 1) / size

/-! ## Places in an ordering -/

theorem mem_page (hsize : 0 < size) {k : ℕ} :
    a ∈ page size k sorted ↔ ∃ i, ∃ h : i < sorted.length, sorted[i] = a ∧ i / size = k := by
  rw [page, List.mem_iff_getElem]
  constructor
  · rintro ⟨j, hj, rfl⟩
    rw [List.length_take, List.length_drop] at hj
    refine ⟨k * size + j, by omega, by rw [List.getElem_take, List.getElem_drop], ?_⟩
    rw [mul_comm, Nat.mul_add_div hsize, Nat.div_eq_of_lt (by omega), add_zero]
  · rintro ⟨i, hi, rfl, rfl⟩
    have hdiv := Nat.div_add_mod i size
    have hmod := Nat.mod_lt i hsize
    rw [mul_comm] at hdiv
    refine ⟨i % size, by rw [List.length_take, List.length_drop]; omega, ?_⟩
    rw [List.getElem_take, List.getElem_drop]
    simp only [hdiv]

/-- The elements of a downward closed set stand in front. -/
theorem getElem_iff_lt_countP {q : α → Bool} (hsorted : sorted.Pairwise fun a b => le a b = true)
    (hq : ∀ x y, le x y = true → q y = true → q x = true) {i : ℕ} (hi : i < sorted.length) :
    q sorted[i] = true ↔ i < sorted.countP q := by
  induction sorted generalizing i with
  | nil => cases hi
  | cons x sorted ih =>
    rw [List.pairwise_cons] at hsorted
    rw [List.countP_cons]
    by_cases hx : q x = true
    · rw [if_pos hx]
      cases i with
      | zero => simpa using hx
      | succ i =>
        have hi' : i < sorted.length := by simpa using hi
        rw [List.getElem_cons_succ, ih hsorted.2 hi']
        omega
    · have hnone : ∀ y ∈ sorted, ¬q y = true := fun y hy hqy => hx (hq x y (hsorted.1 y hy) hqy)
      rw [if_neg hx, List.countP_eq_zero.2 hnone]
      refine iff_of_false ?_ (by omega)
      cases i with
      | zero => exact hx
      | succ i => exact hnone _ (List.getElem_mem _)

/-- Two neighbours that tie may change places. -/
theorem Sorting.swap {front back : List α} {x y : α} (h : Sorting le xs (front ++ x :: y :: back)) (hyx : le y x = true) :
    Sorting le xs (front ++ y :: x :: back) := by
  refine ⟨((List.Perm.swap x y back).append_left front).trans h.perm, ?_⟩
  have hpairwise := h.pairwise
  rw [List.pairwise_append, List.pairwise_cons, List.pairwise_cons] at hpairwise ⊢
  obtain ⟨hfront, ⟨hx, hy, hback⟩, hacross⟩ := hpairwise
  refine ⟨hfront, ⟨?_, ?_, hback⟩, ?_⟩
  · intro z hz
    rcases List.mem_cons.1 hz with rfl | hz
    · exact hyx
    · exact hy z hz
  · exact fun z hz => hx z (List.mem_cons_of_mem _ hz)
  · intro z hz w hw
    refine hacross z hz w ?_
    simp only [List.mem_cons] at hw ⊢
    exact or_left_comm.1 hw

section
variable (htrans : ∀ a b c, le a b = true → le b c = true → le a c = true) (htotal : ∀ a b, (le a b || le b a) = true)
include htrans

theorem not_le_iff_lt_before (h : Sorting le xs sorted) {i : ℕ} (hi : i < sorted.length) :
    le a sorted[i] = false ↔ i < before le xs a := by
  have hq := getElem_iff_lt_countP (q := fun x => !le a x) h.pairwise (fun x y hxy hy => ?_) hi
  · rw [before, ← h.perm.countP_eq]
    simpa using hq
  · rw [Bool.not_eq_true'] at hy ⊢
    by_contra hx
    rw [Bool.not_eq_false] at hx
    rw [htrans a x y hx hxy] at hy
    cases hy

theorem le_iff_lt_upTo (h : Sorting le xs sorted) {i : ℕ} (hi : i < sorted.length) :
    le sorted[i] a = true ↔ i < upTo le xs a := by
  rw [upTo, ← h.perm.countP_eq]
  exact getElem_iff_lt_countP h.pairwise (fun x y hxy hy => htrans x y a hxy hy) hi

include htotal

/-- An element stands within the places of those that tie with it. -/
theorem place_bounds (h : Sorting le xs sorted) {i : ℕ} (hi : i < sorted.length) :
    before le xs sorted[i] ≤ i ∧ i < upTo le xs sorted[i] := by
  have hself : le sorted[i] sorted[i] = true := by simpa using htotal sorted[i] sorted[i]
  refine ⟨not_lt.1 fun hlt => ?_, (le_iff_lt_upTo htrans h hi).1 hself⟩
  rw [(not_le_iff_lt_before htrans h hi).2 hlt] at hself
  cases hself

theorem page_of_mem (hsize : 0 < size) (hties : TiesOnOnePage le xs size) (h : Sorting le xs sorted) {k : ℕ} :
    a ∈ page size k sorted ↔ a ∈ xs ∧ before le xs a / size = k := by
  rw [mem_page hsize]
  constructor
  · rintro ⟨i, hi, rfl, rfl⟩
    have hmem : sorted[i] ∈ xs := h.perm.mem_iff.1 (List.getElem_mem hi)
    obtain ⟨hlow, hhigh⟩ := place_bounds htrans htotal h hi
    refine ⟨hmem, le_antisymm (Nat.div_le_div_right hlow) ?_⟩
    rw [hties _ hmem]
    exact Nat.div_le_div_right (by omega)
  · rintro ⟨hmem, rfl⟩
    obtain ⟨i, hi, rfl⟩ := List.getElem_of_mem (h.perm.mem_iff.2 hmem)
    obtain ⟨hlow, hhigh⟩ := place_bounds htrans htotal h hi
    refine ⟨i, hi, rfl, le_antisymm ?_ (Nat.div_le_div_right hlow)⟩
    rw [hties _ hmem]
    exact Nat.div_le_div_right (by omega)

theorem partition_of_ties (hsize : 0 < size) (hnodup : xs.Nodup) (hties : TiesOnOnePage le xs size) :
    PagesPartition le xs size := by
  intro orderings horderings
  refine (List.perm_ext_iff_of_nodup (List.nodup_flatMap.2 ⟨fun k _ => ?_, ?_⟩) hnodup).2 fun a => ?_
  · exact ((horderings k).perm.nodup_iff.2 hnodup).sublist ((List.take_sublist _ _).trans (List.drop_sublist _ _))
  · refine List.nodup_range.imp fun {k j} hne => ?_
    intro a hk hj
    rw [page_of_mem htrans htotal hsize hties (horderings _)] at hk hj
    exact hne (hk.2.symm.trans hj.2)
  · simp only [List.mem_flatMap, List.mem_range, page_of_mem htrans htotal hsize hties (horderings _)]
    constructor
    · rintro ⟨k, -, hmem, -⟩
      exact hmem
    · intro hmem
      refine ⟨_, ?_, hmem, rfl⟩
      -- An element stands after all that are counted before it.
      obtain ⟨i, hi, rfl⟩ := List.getElem_of_mem ((horderings 0).perm.mem_iff.2 hmem)
      have hlow := (place_bounds htrans htotal (horderings 0) hi).1
      rw [(horderings 0).perm.length_eq] at hi
      rw [pageCount, Nat.lt_iff_add_one_le, Nat.le_div_iff_mul_le hsize, add_mul, one_mul]
      have := Nat.div_mul_le_self (before le xs (orderings 0)[i]) size
      omega

theorem sorting_mergeSort (xs : List α) : Sorting le xs (xs.mergeSort le) :=
  ⟨List.mergeSort_perm xs le, List.pairwise_mergeSort htrans htotal xs⟩

/-- Two that tie across the end of a page may both be read, or neither. -/
theorem ties_of_partition (hsize : 0 < size) (hnodup : xs.Nodup) (h : PagesPartition le xs size) :
    TiesOnOnePage le xs size := by
  intro a ha
  by_contra hne
  have hsorting := sorting_mergeSort htrans htotal xs
  set sorted := xs.mergeSort le
  obtain ⟨i, hi, rfl⟩ := List.getElem_of_mem (hsorting.perm.mem_iff.2 ha)
  obtain ⟨hlow, hhigh⟩ := place_bounds htrans htotal hsorting hi
  set low := before le xs sorted[i]
  set high := upTo le xs sorted[i] with hhigh_eq
  have hlength : high ≤ sorted.length := by
    rw [hsorting.perm.length_eq]
    exact List.countP_le_length
  -- The page of the last one that ties starts after the first one that ties.
  set k := (high - 1) / size with hk
  have hlow_k : low / size < k := lt_of_le_of_ne (Nat.div_le_div_right (by omega)) hne
  have hk_pos : 0 < k := (Nat.zero_le _).trans_lt hlow_k
  have hmul : (k - 1) * size + size = k * size := by
    rw [← Nat.succ_mul, Nat.succ_eq_add_one, Nat.sub_add_cancel hk_pos]
  have hstart : low < k * size := (Nat.div_lt_iff_lt_mul hsize).1 hlow_k
  have hend : k * size ≤ high - 1 := Nat.div_mul_le_self _ _
  have hb : k * size < sorted.length := by omega
  have hb' : k * size - 1 < sorted.length := by omega
  have htie : le sorted[k * size] sorted[k * size - 1] = true := by
    refine htrans _ sorted[i] _ ((le_iff_lt_upTo htrans hsorting hb).2 (by omega)) ?_
    by_contra hnot
    rw [Bool.not_eq_true, not_le_iff_lt_before htrans hsorting hb'] at hnot
    omega
  have hsplit : sorted = sorted.take (k * size - 1) ++ sorted[k * size - 1] :: sorted[k * size] :: sorted.drop (k * size + 1) := by
    have hnext : k * size - 1 + 1 = k * size := by omega
    conv_lhs => rw [← List.take_append_drop (k * size - 1) sorted, List.drop_eq_getElem_cons hb']
    simp only [hnext]
    rw [List.drop_eq_getElem_cons hb]
  have hswapped := Sorting.swap (hsplit ▸ hsorting) htie
  set swapped := sorted.take (k * size - 1) ++ sorted[k * size] :: sorted[k * size - 1] :: sorted.drop (k * size + 1)
    with hswapped_eq
  have hperm := h (fun j => if j = k then swapped else sorted) fun j => by
    split
    · exact hswapped
    · exact hsorting
  have hpages := (List.nodup_flatMap.1 (hperm.nodup_iff.2 hnodup)).2
  have hcount : k < pageCount size xs.length := by
    rw [hsorting.perm.length_eq] at hb
    rw [pageCount, Nat.lt_iff_add_one_le, Nat.le_div_iff_mul_le hsize, add_mul, one_mul]
    omega
  have hprevious : k - 1 < pageCount size xs.length := by omega
  have hdisjoint := List.pairwise_iff_getElem.1 hpages (k - 1) k (by rwa [List.length_range]) (by rwa [List.length_range])
    (Nat.sub_lt hk_pos Nat.one_pos)
  rw [List.getElem_range, List.getElem_range] at hdisjoint
  refine hdisjoint (a := sorted[k * size - 1]) ?_ ?_
  · simp only [if_neg (Nat.sub_lt hk_pos Nat.one_pos).ne]
    refine (mem_page hsize).2 ⟨k * size - 1, hb', rfl, Nat.div_eq_of_lt_le (by omega) ?_⟩
    rw [Nat.succ_mul]
    omega
  · simp only [if_true]
    have hplace : swapped[k * size]? = some sorted[k * size - 1] := by
      have hone : k * size - min (k * size - 1) sorted.length = 1 := by omega
      rw [hswapped_eq, List.getElem?_append_right (by rw [List.length_take]; omega), List.length_take, hone]
      rfl
    obtain ⟨hlt, hplace⟩ := List.getElem?_eq_some_iff.1 hplace
    exact (mem_page hsize).2 ⟨k * size, hlt, hplace, Nat.mul_div_cancel _ hsize⟩

/-- **The pages hold every element once**, whatever orderings they are cut from, exactly where those that tie stand on one
page. -/
theorem pagesPartition_iff (hsize : 0 < size) (hnodup : xs.Nodup) :
    PagesPartition le xs size ↔ TiesOnOnePage le xs size :=
  ⟨ties_of_partition htrans htotal hsize hnodup, partition_of_ties htrans htotal hsize hnodup⟩

/-- Nothing ties in an order of distinct elements. -/
theorem ties_of_antisymm (hnodup : xs.Nodup)
    (hantisymm : ∀ a ∈ xs, ∀ b ∈ xs, le a b = true → le b a = true → a = b) : TiesOnOnePage le xs size := by
  intro a ha
  have hsorting := sorting_mergeSort htrans htotal xs
  set sorted := xs.mergeSort le
  obtain ⟨i, hi, rfl⟩ := List.getElem_of_mem (hsorting.perm.mem_iff.2 ha)
  obtain ⟨hlow, hhigh⟩ := place_bounds htrans htotal hsorting hi
  have hlength : upTo le xs sorted[i] ≤ sorted.length := by
    rw [hsorting.perm.length_eq]
    exact List.countP_le_length
  -- Whoever stands within its places is the element itself.
  have hplace : ∀ j (hj : j < sorted.length), before le xs sorted[i] ≤ j → j < upTo le xs sorted[i] → j = i := by
    intro j hj hlow' hhigh'
    refine (hsorting.perm.nodup_iff.2 hnodup).getElem_inj_iff.1 (hantisymm _ (hsorting.perm.mem_iff.1 (List.getElem_mem hj))
      _ ha ((le_iff_lt_upTo htrans hsorting hj).2 hhigh') ?_)
    by_contra hnot
    rw [Bool.not_eq_true, not_le_iff_lt_before htrans hsorting hj] at hnot
    omega
  have hfirst := hplace (before le xs sorted[i]) (by omega) le_rfl (by omega)
  have hlast := hplace (upTo le xs sorted[i] - 1) (by omega) (by omega) (by omega)
  rw [hlast]
  exact congrArg (· / size) hfirst

end
end Pages

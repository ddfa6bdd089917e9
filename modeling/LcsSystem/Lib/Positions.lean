import Mathlib

/-!
# Positions in a filtered list

An entry that a filter keeps moves to the number of kept entries before it. `countP_take_eq` says when it does not
move.
-/

namespace Positions
universe u
variable {α : Type u} {p q : α → Bool} {l : List α} {a : α} {n k : ℕ}

/-- Where a kept entry goes. -/
theorem getElem?_filter (h : l[n]? = some a) (hp : p a = true) : (l.filter p)[(l.take n).countP p]? = some a := by
  induction l generalizing n with
  | nil => cases h
  | cons x l ih =>
    cases n with
    | zero =>
      cases h
      simp [hp]
    | succ n =>
      have htail := ih h
      cases hx : p x with
      | true => simpa [hx, List.take_succ_cons, List.countP_cons] using htail
      | false => simpa [hx, List.take_succ_cons, List.countP_cons] using htail

/-- Where a kept entry comes from. -/
theorem exists_of_getElem?_filter (h : (l.filter p)[k]? = some a) :
    ∃ n, l[n]? = some a ∧ p a = true ∧ (l.take n).countP p = k := by
  induction l generalizing k with
  | nil => cases h
  | cons x l ih =>
    cases hx : p x with
    | false =>
      rw [List.filter_cons_of_neg (by simp [hx])] at h
      obtain ⟨n, hn, hpa, hcount⟩ := ih h
      exact ⟨n + 1, hn, hpa, by simpa [List.take_succ_cons, hx] using hcount⟩
    | true =>
      rw [List.filter_cons_of_pos hx] at h
      cases k with
      | zero =>
        cases h
        exact ⟨0, rfl, hx, rfl⟩
      | succ k =>
        obtain ⟨n, hn, hpa, hcount⟩ := ih h
        exact ⟨n + 1, hn, hpa, by simpa [List.take_succ_cons, hx] using hcount⟩

/-- The last kept entry has all the others before it. -/
theorem exists_last (h : ∃ a ∈ l, p a = true) :
    ∃ n a, l[n]? = some a ∧ p a = true ∧ (l.take n).countP p + 1 = l.countP p := by
  have hpos : 0 < (l.filter p).length := by
    obtain ⟨a, ha, hpa⟩ := h
    exact List.length_pos_of_mem (List.mem_filter.2 ⟨ha, hpa⟩)
  obtain ⟨n, hn, hpa, hcount⟩ := exists_of_getElem?_filter
    (List.getElem?_eq_getElem (show (l.filter p).length - 1 < (l.filter p).length by omega))
  refine ⟨n, _, hn, hpa, ?_⟩
  rw [hcount, List.countP_eq_length_filter]
  omega

/-- Two filters that keep equally many entries, one within the other. -/
theorem forall_of_countP_le (hpq : ∀ a ∈ l, p a = true → q a = true) (h : l.countP q ≤ l.countP p) :
    ∀ a ∈ l, q a = true → p a = true := by
  induction l with
  | nil => simp
  | cons x l ih =>
    rw [List.forall_mem_cons] at hpq
    have hle : l.countP p ≤ l.countP q := List.countP_mono_left hpq.2
    rw [List.countP_cons, List.countP_cons] at h
    have hx : q x = true → p x = true := by
      intro hqx
      by_contra hpx
      simp only [hqx, hpx, if_true, if_false] at h
      omega
    refine List.forall_mem_cons.2 ⟨hx, ih hpq.2 ?_⟩
    cases hqx : q x with
    | true =>
      simp only [hqx, hx hqx, if_true] at h
      omega
    | false =>
      have hpx : ¬p x = true := by
        intro hpx
        rw [hpq.1 hpx] at hqx
        cases hqx
      simp only [hqx, hpx, Bool.false_eq_true, if_false] at h
      omega

/-- An entry stays where it is exactly if everything before it is kept. -/
theorem countP_take_eq (hn : n ≤ l.length) : (l.take n).countP p = n ↔ ∀ a ∈ l.take n, p a = true := by
  have hlength : (l.take n).length = n := List.length_take_of_le hn
  rw [← List.countP_eq_length, hlength]

theorem countP_take_le : (l.take n).countP p ≤ n :=
  List.countP_le_length.trans (List.length_take_le n l)

end Positions

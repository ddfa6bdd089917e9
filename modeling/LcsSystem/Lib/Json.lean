import Mathlib

/-!
# JSON values

Values as a JSON column stores them. The entries of an object stand in one order, as `jsonb` keeps them, so equal
objects are equal values.
-/

inductive Json
  | null
  | bool (b : Bool)
  | num (q : ℚ)
  | str (s : String)
  | list (items : List Json)
  | dict (entries : List (String × Json))

namespace Json

mutual

/-- Equality of values, item by item. -/
def beq : Json → Json → Bool
  | null, null => true
  | bool a, bool b => a == b
  | num a, num b => a == b
  | str a, str b => a == b
  | list a, list b => beqItems a b
  | dict a, dict b => beqEntries a b
  | _, _ => false

def beqItems : List Json → List Json → Bool
  | [], [] => true
  | a :: as, b :: bs => beq a b && beqItems as bs
  | _, _ => false

def beqEntries : List (String × Json) → List (String × Json) → Bool
  | [], [] => true
  | (k, a) :: as, (l, b) :: bs => k == l && beq a b && beqEntries as bs
  | _, _ => false

end

mutual

theorem eq_of_beq : ∀ {a b : Json}, beq a b = true → a = b
  | null, b, h => by cases b <;> simp_all [beq]
  | bool _, b, h => by cases b <;> simp_all [beq]
  | num _, b, h => by cases b <;> simp_all [beq]
  | str _, b, h => by cases b <;> simp_all [beq]
  | list _, b, h => by
    cases b with
    | list items =>
      simp only [beq] at h
      rw [eq_of_beqItems h]
    | _ => simp [beq] at h
  | dict _, b, h => by
    cases b with
    | dict entries =>
      simp only [beq] at h
      rw [eq_of_beqEntries h]
    | _ => simp [beq] at h

theorem eq_of_beqItems : ∀ {as bs : List Json}, beqItems as bs = true → as = bs
  | [], bs, h => by cases bs <;> simp_all [beqItems]
  | a :: as, bs, h => by
    cases bs with
    | nil => simp [beqItems] at h
    | cons b bs =>
      simp only [beqItems, Bool.and_eq_true] at h
      rw [eq_of_beq h.1, eq_of_beqItems h.2]

theorem eq_of_beqEntries : ∀ {as bs : List (String × Json)}, beqEntries as bs = true → as = bs
  | [], bs, h => by cases bs <;> simp_all [beqEntries]
  | (k, a) :: as, bs, h => by
    cases bs with
    | nil => simp [beqEntries] at h
    | cons b bs =>
      obtain ⟨l, b⟩ := b
      simp only [beqEntries, Bool.and_eq_true, beq_iff_eq] at h
      rw [h.1.1, eq_of_beq h.1.2, eq_of_beqEntries h.2]

end

mutual

theorem beq_refl : ∀ a : Json, beq a a = true
  | null => rfl
  | bool _ | num _ | str _ => by simp [beq]
  | list items => by
    rw [beq]
    exact beqItems_refl items
  | dict entries => by
    rw [beq]
    exact beqEntries_refl entries

theorem beqItems_refl : ∀ as : List Json, beqItems as as = true
  | [] => rfl
  | a :: as => by rw [beqItems, beq_refl a, beqItems_refl as, Bool.and_self]

theorem beqEntries_refl : ∀ as : List (String × Json), beqEntries as as = true
  | [] => rfl
  | (_, a) :: as => by rw [beqEntries, beq_refl a, beqEntries_refl as, beq_self_eq_true, Bool.and_self, Bool.and_self]

end

instance : DecidableEq Json := fun a b =>
  decidable_of_iff (beq a b = true) ⟨eq_of_beq, fun h => h ▸ beq_refl a⟩

end Json

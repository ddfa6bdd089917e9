import Mathlib

/-!
# Texts of the client

What JavaScript takes off the ends of a text.
-/

namespace LcsSystem.Frontend

/-- White space and line terminators of ECMAScript. -/
def isWhiteSpace (n : ℕ) : Bool :=
  decide (9 ≤ n ∧ n ≤ 13) || decide (0x2000 ≤ n ∧ n ≤ 0x200A) ||
    [0x20, 0xA0, 0x1680, 0x2028, 0x2029, 0x202F, 0x205F, 0x3000, 0xFEFF].contains n

section
variable {α : Type} (white : α → Bool)

def trimWhere (s : List α) : List α := ((s.dropWhile white).reverse.dropWhile white).reverse

variable {white}

/-- A text without white space stays. -/
theorem trimWhere_of_forall {s : List α} (h : ∀ c ∈ s, white c = false) : trimWhere white s = s := by
  have hself : ∀ t : List α, (∀ c ∈ t, white c = false) → t.dropWhile white = t := by
    intro t ht
    rw [List.dropWhile_eq_self_iff]
    intro hpos
    rw [ht _ (List.getElem_mem hpos)]
    exact Bool.false_ne_true
  rw [trimWhere, hself s h, hself _ fun c hc => h c (List.mem_reverse.1 hc), List.reverse_reverse]

end

/-- `String.prototype.trim`. -/
def trim (s : String) : String := String.ofList (trimWhere (fun c => isWhiteSpace c.toNat) s.toList)

end LcsSystem.Frontend

import LcsSystem.Core.Validation

/-!
# Keys of the cache

`src/backend/app/core/cache.py:43-46`: the parts of a key are joined with `|` and hashed. The namespace version is the
first part. The prefix of the environment is the same in every key and left out.
-/

namespace LcsSystem

/-- `"|".join`. -/
def joinedParts : List String → String
  | [] => ""
  | [part] => part
  | part :: next :: parts => part ++ "|" ++ joinedParts (next :: parts)

/-- `key`, with the hash as a parameter. -/
def cacheKey {δ : Type} (digest : String → δ) (namespace' : String) (parts : List String) : String × δ :=
  (namespace', digest (joinedParts parts))

/-- The key of `get_json` and `set_json`. -/
def versionedKey {δ : Type} (digest : String → δ) (namespace' : String) (version : ℕ) (parts : List String) :
    String × δ := cacheKey digest namespace' (toString version :: parts)

theorem takeWhile_separator {a : List Char} (ha : '|' ∉ a) (as : List Char) :
    (a ++ ('|' :: as)).takeWhile (· != '|') = a := by
  have hall : ∀ c ∈ a, (c != '|') = true := by
    intro c hc
    have hne : c ≠ '|' := fun h => ha (h ▸ hc)
    simpa using hne
  rw [List.takeWhile_append_of_pos hall, List.takeWhile_cons_of_neg (by simp), List.append_nil]

/-- A part that has no separator can be told from the ones that follow it. -/
theorem joinedParts_cons {a b c d : String} {as bs : List String} (ha : '|' ∉ a.toList) (hb : '|' ∉ b.toList)
    (h : joinedParts (a :: c :: as) = joinedParts (b :: d :: bs)) :
    a = b ∧ joinedParts (c :: as) = joinedParts (d :: bs) := by
  have hlist : a.toList ++ ('|' :: (joinedParts (c :: as)).toList) =
      b.toList ++ ('|' :: (joinedParts (d :: bs)).toList) := by
    simpa [joinedParts, String.toList_append] using congrArg String.toList h
  have hfirst : a.toList = b.toList := by
    rw [← takeWhile_separator ha (joinedParts (c :: as)).toList, hlist, takeWhile_separator hb]
  rw [hfirst] at hlist
  exact ⟨String.toList_inj.1 hfirst, String.toList_inj.1 (List.cons.inj (List.append_cancel_left hlist)).2⟩

theorem separator_notMem_toString (n : ℕ) : '|' ∉ (toString n).toList := by
  have hlist : (toString n).toList = Nat.toDigits 10 n := Nat.toList_repr
  rw [hlist]
  intro h
  have := Nat.isDigit_of_mem_toDigits (by decide) (by decide) h
  exact absurd this (by decide)

theorem toString_nat_injective {m n : ℕ} (h : toString m = toString n) : m = n := by
  have hm := (digits?_toString m).2
  rw [h, (digits?_toString n).2] at hm
  exact (Option.some.inj hm).symm

/-- Under one key, versions are equal. -/
theorem versionedKey_injective {δ : Type} {digest : String → δ} (hdigest : Function.Injective digest)
    {namespace' : String} {v w : ℕ} {p q : String} {ps qs : List String}
    (h : versionedKey digest namespace' v (p :: ps) = versionedKey digest namespace' w (q :: qs)) :
    v = w ∧ joinedParts (p :: ps) = joinedParts (q :: qs) := by
  obtain ⟨hversion, hparts⟩ :=
    joinedParts_cons (separator_notMem_toString v) (separator_notMem_toString w) (hdigest (Prod.mk.inj h).2)
  exact ⟨toString_nat_injective hversion, hparts⟩

end LcsSystem

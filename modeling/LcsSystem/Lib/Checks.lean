import Mathlib

/-!
# Fallible requests as `Except`

A request reads, checks and writes in sequence and is abandoned at the first check that fails.
`check` and `require` are the two ways to fail; the lemmas take a successful request apart into the
facts its checks established, so a proof about it never unfolds the monad.
-/

namespace Checks
universe u v w
variable {ε : Type u} {α : Type v} {β : Type v}

instance decidableEq [DecidableEq ε] [DecidableEq α] : DecidableEq (Except ε α)
  | .ok a, .ok b => decidable_of_iff (a = b) (by simp)
  | .error a, .error b => decidable_of_iff (a = b) (by simp)
  | .ok _, .error _ => .isFalse nofun
  | .error _, .ok _ => .isFalse nofun

/-- Fail with `e` unless `p`. -/
def check (p : Prop) [Decidable p] (e : ε) : Except ε PUnit := if p then .ok ⟨⟩ else .error e

/-- The value, or fail with `e`. -/
def require (o : Option α) (e : ε) : Except ε α := match o with
  | some a => .ok a
  | none => .error e

@[simp] theorem bind_eq_ok {x : Except ε α} {f : α → Except ε β} {b : β} :
    (x >>= f) = .ok b ↔ ∃ a, x = .ok a ∧ f a = .ok b := by
  cases x with
  | error e => simp [bind, Except.bind]
  | ok a => simp [bind, Except.bind]

@[simp] theorem check_eq_ok {p : Prop} [Decidable p] {e : ε} {a : PUnit} : check p e = .ok a ↔ p := by
  unfold check
  split <;> simp_all

@[simp] theorem require_eq_ok {o : Option α} {e : ε} {a : α} : require o e = .ok a ↔ o = some a := by
  cases o <;> simp [require]

@[simp] theorem pure_eq_ok {a b : α} : (pure a : Except ε α) = .ok b ↔ a = b := by
  simp [pure, Except.pure]

@[simp] theorem map_eq_ok {x : Except ε α} {f : α → β} {b : β} :
    f <$> x = .ok b ↔ ∃ a, x = .ok a ∧ f a = b := by
  cases x <;> simp [Functor.map, Except.map]

theorem bind_eq_error {x : Except ε α} {f : α → Except ε β} {e : ε} :
    (x >>= f) = .error e ↔ x = .error e ∨ ∃ a, x = .ok a ∧ f a = .error e := by
  cases x <;> simp [bind, Except.bind]

theorem map_eq_error {x : Except ε α} {f : α → β} {e : ε} : f <$> x = .error e ↔ x = .error e := by
  cases x <;> simp [Functor.map, Except.map]

theorem check_eq_error {p : Prop} [Decidable p] {e e' : ε} : check p e = .error e' ↔ ¬p ∧ e = e' := by
  unfold check
  split <;> simp_all

@[simp] theorem ok_bind (a : α) (f : α → Except ε β) : (Except.ok a >>= f) = f a := rfl

theorem check_pos {p : Prop} [Decidable p] (h : p) (e : ε) : check p e = .ok ⟨⟩ := if_pos h

theorem check_neg {p : Prop} [Decidable p] (h : ¬p) (e : ε) : check p e = .error e := if_neg h

/-- A loop of checks passes if each of them does. -/
theorem forM_eq_ok {f : α → Except ε PUnit} {xs : List α} {u : PUnit} :
    xs.forM f = .ok u ↔ ∀ x ∈ xs, f x = .ok ⟨⟩ := by
  induction xs with
  | nil => simp [List.forM, pure, Except.pure]
  | cons x xs ih =>
    have hcons : (x :: xs).forM f = f x >>= fun _ => xs.forM f := rfl
    rw [hcons, bind_eq_ok, List.forall_mem_cons]
    constructor
    · rintro ⟨⟨⟩, hx, hxs⟩
      exact ⟨hx, ih.1 hxs⟩
    · rintro ⟨hx, hxs⟩
      exact ⟨⟨⟩, hx, ih.2 hxs⟩

/-- A preorder that every turn of a loop is in relates both ends of the loop. -/
theorem foldlM_relation {γ : Type w} {f : α → γ → Except ε α} (R : α → α → Prop) (refl : ∀ a, R a a)
    (trans : ∀ {a b c}, R a b → R b c → R a c) (turn : ∀ {a x b}, f a x = .ok b → R a b) {xs : List γ} {a b : α}
    (h : xs.foldlM f a = .ok b) : R a b := by
  induction xs generalizing a with
  | nil =>
    cases h
    exact refl _
  | cons x xs ih =>
    rw [List.foldlM_cons, bind_eq_ok] at h
    obtain ⟨c, hc, hrest⟩ := h
    exact trans (turn hc) (ih hrest)

/-- A refused request is rolled back. -/
def orKeep (s : α) : Except ε α → α
  | .ok s' => s'
  | .error _ => s

/-- `x` succeeds with a value that satisfies `P`. -/
def okAnd (x : Except ε α) (P : α → Prop) [DecidablePred P] : Bool := match x with
  | .ok a => decide (P a)
  | .error _ => false

theorem okAnd_eq_true {x : Except ε α} {P : α → Prop} [DecidablePred P] :
    okAnd x P = true ↔ ∃ a, x = .ok a ∧ P a := by
  cases x <;> simp [okAnd]

theorem isOk_eq_true {x : Except ε α} : x.isOk = true ↔ ∃ a, x = .ok a := by
  cases x <;> simp [Except.isOk, Except.toBool]

end Checks

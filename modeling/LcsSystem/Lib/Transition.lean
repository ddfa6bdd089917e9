import Mathlib

/-!
# Runs of a deterministic step function

A run is a list of actions taken one after the other. A refused or blocked action is a step that
leaves the state alone, so every list of actions is a run and "every reachable state" is
"the end of every run".

`Meets P s as` says that every action of the run satisfies `P` in the state it is taken from: it is
how a condition on steps is put on a whole run.

A history is the list of what happened, oldest first. `Explained P` says that every entry is allowed by what stands
before it; a history grows at its end, so the new entry is all there is to check.
-/

namespace Transition
universe u v
variable {σ : Type u} {α : Type v}

def run (step : σ → α → σ) (s : σ) (as : List α) : σ := as.foldl step s

def Meets (step : σ → α → σ) (P : σ → α → Prop) : σ → List α → Prop
  | _, [] => True
  | s, a :: as => P s a ∧ Meets step P (step s a) as

instance Meets.decidable (step : σ → α → σ) (P : σ → α → Prop) [h : ∀ s a, Decidable (P s a)] :
    ∀ (s : σ) (as : List α), Decidable (Meets step P s as)
  | _, [] => .isTrue trivial
  | s, a :: as =>
    have := Meets.decidable step P (step s a) as
    inferInstanceAs (Decidable (_ ∧ _))

section
variable {step : σ → α → σ} {P : σ → α → Prop}

/-- What holds first and is kept by every step that meets `P` holds after every run that meets `P`. -/
theorem run_invariant_of_meets (I : σ → Prop) (keep : ∀ s a, I s → P s a → I (step s a)) {s : σ}
    {as : List α} (hs : I s) (hm : Meets step P s as) : I (run step s as) := by
  induction as generalizing s with
  | nil => exact hs
  | cons a as ih => exact ih (keep s a hs hm.1) hm.2

/-- A preorder that every step of an invariant state meeting `P` is in relates both ends of the run. -/
theorem run_relation_of_meets (I : σ → Prop) (R : σ → σ → Prop) (refl : ∀ s, R s s)
    (trans : ∀ {s t u}, R s t → R t u → R s u) (keep : ∀ s a, I s → P s a → I (step s a))
    (step_rel : ∀ s a, I s → P s a → R s (step s a)) {s : σ} {as : List α} (hs : I s) (hm : Meets step P s as) :
    R s (run step s as) := by
  induction as generalizing s with
  | nil => exact refl s
  | cons a as ih => exact trans (step_rel s a hs hm.1) (ih (keep s a hs hm.1) hm.2)

/-- Where `P` keeps the invariant and implies `Q`, a run that meets `P` meets `Q`. -/
theorem meets_of_invariant {Q : σ → α → Prop} (I : σ → Prop) (keep : ∀ s a, I s → P s a → I (step s a))
    (imp : ∀ s a, I s → P s a → Q s a) {s : σ} {as : List α} (hs : I s) (hm : Meets step P s as) :
    Meets step Q s as := by
  induction as generalizing s with
  | nil => trivial
  | cons a as ih => exact ⟨imp s a hs hm.1, ih (keep s a hs hm.1) hm.2⟩

theorem run_append (s : σ) (as bs : List α) : run step s (as ++ bs) = run step (run step s as) bs :=
  List.foldl_append

theorem meets_append {s : σ} {as bs : List α} :
    Meets step P s (as ++ bs) ↔ Meets step P s as ∧ Meets step P (run step s as) bs := by
  induction as generalizing s with
  | nil => simp [Meets, run]
  | cons a as ih =>
    rw [List.cons_append, Meets, Meets, ih, and_assoc]
    rfl

theorem meets_of_forall_mem {s : σ} {as : List α} (h : ∀ s, ∀ a ∈ as, P s a) : Meets step P s as := by
  induction as generalizing s with
  | nil => trivial
  | cons a as ih => exact ⟨h s a List.mem_cons_self, ih fun s b hb => h s b (List.mem_cons_of_mem _ hb)⟩

theorem run_invariant (I : σ → Prop) (keep : ∀ s a, I s → I (step s a)) {s : σ} (as : List α) (hs : I s) :
    I (run step s as) := by
  induction as generalizing s with
  | nil => exact hs
  | cons a as ih => exact ih (keep s a hs)

/-- A preorder that every step of an invariant state is in relates both ends of every run. -/
theorem run_relation (R : σ → σ → Prop) (refl : ∀ s, R s s) (trans : ∀ {s t u}, R s t → R t u → R s u)
    (step_rel : ∀ s a, R s (step s a)) (s : σ) (as : List α) : R s (run step s as) := by
  induction as generalizing s with
  | nil => exact refl s
  | cons a as ih => exact trans (step_rel s a) (ih _)

end
end Transition

/-! ## Histories -/

namespace History
variable {ε : Type*} {P Q : List ε → ε → Prop} {log : List ε} {e : ε}

/-- Every entry satisfies `P` with the entries before it. -/
def Explained (P : List ε → ε → Prop) (log : List ε) : Prop := ∀ before e after, log = before ++ e :: after → P before e

theorem explained_nil : Explained P [] := by
  intro before e after h
  exact absurd h.symm (by simp)

theorem explained_concat : Explained P (log ++ [e]) ↔ Explained P log ∧ P log e := by
  constructor
  · intro h
    refine ⟨fun before x after hx => ?_, h log e [] rfl⟩
    exact h before x (after ++ [e]) (by rw [hx]; simp)
  · rintro ⟨h, he⟩ before x after hx
    rcases List.eq_nil_or_concat after with rfl | ⟨init, last, rfl⟩
    · obtain ⟨rfl, hlast⟩ := List.append_inj' hx rfl
      exact List.singleton_inj.1 hlast ▸ he
    · have hlog : log ++ [e] = (before ++ x :: init) ++ [last] := by rw [hx]; simp
      exact h before x init (List.append_inj' hlog rfl).1

/-- An entry of a grown history is the new one, or an older one with the new one among those after it. -/
theorem concat_eq_append_cons {before after : List ε} {x : ε} (h : log ++ [e] = before ++ x :: after) :
    (x = e ∧ after = []) ∨ ∃ rest, after = rest ++ [e] ∧ log = before ++ x :: rest := by
  rcases List.eq_nil_or_concat after with rfl | ⟨rest, last, rfl⟩
  · obtain ⟨-, hlast⟩ := List.append_inj' h rfl
    exact .inl ⟨(List.singleton_inj.1 hlast).symm, rfl⟩
  · have hlog : log ++ [e] = (before ++ x :: rest) ++ [last] := by rw [h]; simp
    obtain ⟨hrest, hlast⟩ := List.append_inj' hlog rfl
    exact .inr ⟨rest, by rw [List.concat_eq_append, List.singleton_inj.1 hlast], hrest⟩

end History

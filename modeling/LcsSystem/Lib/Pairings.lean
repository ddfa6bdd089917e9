import Mathlib

/-!
# Lists that go together entry by entry
-/

namespace Pairings
universe u v w
variable {α : Type u} {β : Type v} {γ : Type w} {R : α → β → Prop}

theorem exists_of_forall₂ {as : List α} {bs : List β} (h : List.Forall₂ R as bs) {b : β} (hb : b ∈ bs) :
    ∃ a ∈ as, R a b := by
  induction h with
  | nil => cases hb
  | cons hab _ ih =>
    rcases List.mem_cons.1 hb with rfl | hb
    · exact ⟨_, List.mem_cons_self, hab⟩
    · obtain ⟨a, ha, hR⟩ := ih hb
      exact ⟨a, List.mem_cons_of_mem _ ha, hR⟩

/-- Two pairings over one middle list. -/
theorem forall₂_zip {S : β → γ → Prop} {as : List α} {bs : List β} {cs : List γ} (h : List.Forall₂ R as bs)
    (h' : List.Forall₂ S bs cs) : List.Forall₂ (fun a e => R a e.1 ∧ S e.1 e.2) as (bs.zip cs) := by
  induction h generalizing cs with
  | nil =>
    cases h'
    exact .nil
  | cons hab _ ih =>
    cases h' with
    | cons hbc htail => exact .cons ⟨hab, hbc⟩ (ih htail)

/-- What is read off both sides alike. -/
theorem map_eq_of_forall₂ {f : α → γ} {g : β → γ} {as : List α} {bs : List β} (h : List.Forall₂ R as bs)
    (hR : ∀ a b, R a b → f a = g b) : as.map f = bs.map g := by
  induction h with
  | nil => rfl
  | cons hab _ ih => rw [List.map_cons, List.map_cons, hR _ _ hab, ih]

end Pairings

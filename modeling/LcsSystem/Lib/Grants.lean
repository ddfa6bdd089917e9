import Mathlib

/-!
# Selections over a graph of grants

A code may grant other codes, and some codes are pages. `reach` is a selection with what it declares, and what the
pages it declares declare in turn. `implied` adds, for each other code, the first page that grants it and nothing
that is not there yet. `close` is both, once.

`close` is monotone and idempotent only where pages do not get in each other's way: the lemmas name what has to be
known of a graph.
-/

namespace Grants
universe u
variable {α : Type u} [DecidableEq α]

structure Graph (α : Type u) where
  grants : α → List α
  isPage : α → Bool
  /-- The pages that grant a code, in their order. -/
  pagesOf : α → List α

namespace Graph
variable (G : Graph α)

def declared (S : Finset α) : Finset α := S.biUnion fun a => (G.grants a).toFinset

def reach (S : Finset α) : Finset α := S ∪ (G.declared S ∪ G.declared ((G.declared S).filter fun a => G.isPage a))

/-- All that `p` grants is in `K`. -/
def Covers (K : Finset α) (p : α) : Prop := ∀ x ∈ G.grants p, x ∈ K

instance (K : Finset α) (p : α) : Decidable (G.Covers K p) := inferInstanceAs (Decidable (∀ x ∈ G.grants p, x ∈ K))

def firstPage (K : Finset α) (c : α) : Option α := (G.pagesOf c).find? fun p => G.Covers K p

def implied (K : Finset α) : Finset α := (K.filter fun c => !G.isPage c).biUnion fun c => (G.firstPage K c).toFinset

def close (S : Finset α) : Finset α := G.reach S ∪ G.implied (G.reach S)

/-- The pages before `p` that grant `c`. -/
def earlier (c p : α) : List α := (G.pagesOf c).takeWhile fun q => q ≠ p

/-- A selected code grants `x`, or grants a page that grants it. -/
def Declares (S : Finset α) (x : α) : Prop :=
  ∃ a ∈ S, x ∈ G.grants a ∨ ∃ b ∈ G.grants a, G.isPage b = true ∧ x ∈ G.grants b

instance (S : Finset α) (x : α) : Decidable (G.Declares S x) :=
  inferInstanceAs (Decidable (∃ a ∈ S, _ ∨ ∃ b ∈ G.grants a, _))

variable {G} {S T K L : Finset α} {a b c p q x : α}

/-! ## Reach -/

theorem mem_declared : x ∈ G.declared S ↔ ∃ a ∈ S, x ∈ G.grants a := by
  simp [declared]

theorem mem_reach : x ∈ G.reach S ↔ x ∈ S ∨ G.Declares S x := by
  simp only [reach, Finset.mem_union, mem_declared, Finset.mem_filter, Declares]
  constructor
  · rintro (h | ⟨a, ha, hx⟩ | ⟨b, ⟨⟨a, ha, hb⟩, hpage⟩, hx⟩)
    · exact .inl h
    · exact .inr ⟨a, ha, .inl hx⟩
    · exact .inr ⟨a, ha, .inr ⟨b, hb, hpage, hx⟩⟩
  · rintro (h | ⟨a, ha, hx | ⟨b, hb, hpage, hx⟩⟩)
    · exact .inl h
    · exact .inr (.inl ⟨a, ha, hx⟩)
    · exact .inr (.inr ⟨b, ⟨⟨a, ha, hb⟩, hpage⟩, hx⟩)

theorem subset_reach : S ⊆ G.reach S := fun _ h => mem_reach.2 (.inl h)

theorem reach_mono (h : S ⊆ T) : G.reach S ⊆ G.reach T := by
  intro x hx
  rcases mem_reach.1 hx with hx | ⟨a, ha, hx⟩
  · exact subset_reach (h hx)
  · exact mem_reach.2 (.inr ⟨a, h ha, hx⟩)

/-- A set that covers what is in it reaches nothing else. -/
theorem reach_subset (h : S ⊆ K) (hS : ∀ a ∈ S, G.Covers K a)
    (hK : ∀ a ∈ S, ∀ b ∈ G.grants a, G.isPage b = true → G.Covers K b) : G.reach S ⊆ K := by
  intro x hx
  rcases mem_reach.1 hx with hx | ⟨a, ha, hx | ⟨b, hb, hpage, hx⟩⟩
  · exact h hx
  · exact hS a ha x hx
  · exact hK a ha b hb hpage x hx

/-! ## Implied pages -/

omit [DecidableEq α] in
theorem Covers.mono (h : G.Covers K p) (hKL : K ⊆ L) : G.Covers L p := fun x hx => hKL (h x hx)

theorem firstPage_eq_some :
    G.firstPage K c = some p ↔ p ∈ G.pagesOf c ∧ G.Covers K p ∧ ∀ q ∈ G.earlier c p, ¬G.Covers K q := by
  unfold firstPage earlier
  induction G.pagesOf c with
  | nil => simp
  | cons q l ih =>
    by_cases hq : G.Covers K q
    · rw [List.find?_cons_of_pos (by simpa using hq), Option.some.injEq]
      constructor
      · rintro rfl
        simp [hq]
      · rintro ⟨-, -, hnone⟩
        by_contra hne
        rw [List.takeWhile_cons_of_pos (by simpa using hne)] at hnone
        exact hnone q List.mem_cons_self hq
    · rw [List.find?_cons_of_neg (by simpa using hq), ih]
      by_cases hp : q = p
      · subst hp
        simp [hq]
      · rw [List.takeWhile_cons_of_pos (by simpa using hp)]
        simp [hq, Ne.symm hp]

theorem mem_implied : p ∈ G.implied K ↔ ∃ c ∈ K, G.isPage c = false ∧ G.firstPage K c = some p := by
  simp [implied, and_assoc]

theorem covers_of_implied (h : p ∈ G.implied K) : G.Covers K p := by
  obtain ⟨c, -, -, hfirst⟩ := mem_implied.1 h
  exact (firstPage_eq_some.1 hfirst).2.1

/-- A page that grants a code and has no covered page before it is implied. -/
theorem mem_implied_of_first (hc : c ∈ K) (hpage : G.isPage c = false) (hp : p ∈ G.pagesOf c) (hcovers : G.Covers K p)
    (hfirst : ∀ q ∈ G.earlier c p, ¬G.Covers K q) : p ∈ G.implied K :=
  mem_implied.2 ⟨c, hc, hpage, firstPage_eq_some.2 ⟨hp, hcovers, hfirst⟩⟩

/-- A page before `p` grants no more than `p` does, so `p` is never the first. -/
def Dominated (G : Graph α) (c p : α) : Prop := ∃ q ∈ G.earlier c p, ∀ x ∈ G.grants q, x ∈ G.grants p

instance (c p : α) : Decidable (G.Dominated c p) := inferInstanceAs (Decidable (∃ q ∈ G.earlier c p, _))

theorem not_dominated_of_first (h : G.firstPage K c = some p) : ¬G.Dominated c p := by
  rintro ⟨q, hq, hgrants⟩
  obtain ⟨-, hcovers, hfirst⟩ := firstPage_eq_some.1 h
  exact hfirst q hq fun x hx => hcovers x (hgrants x hx)

theorem subset_close : S ⊆ G.close S := fun _ h => Finset.mem_union_left _ (subset_reach h)

theorem reach_subset_close : G.reach S ⊆ G.close S := Finset.subset_union_left

/-! ## Closed selections -/

/-- Two steps reach all there is to reach, except from a code `e` that is no page and grants codes by itself. -/
structure TwoStep (G : Graph α) (e : α) : Prop where
  ofPage : ∀ a, ∀ b ∈ G.grants a, G.isPage b = true → ∀ x ∈ G.grants b, G.isPage x = true → ∀ y ∈ G.grants x,
    y ∈ G.grants a ∨ y ∈ G.grants b
  ofCode : ∀ a, ∀ x ∈ G.grants a, G.isPage x = false → x = e ∨ ∀ y ∈ G.grants x, y = a ∨ y ∈ G.grants a

theorem TwoStep.covers_reach {e : α} (h : G.TwoStep e) (hx : x ∈ G.reach S) (hne : x ≠ e) :
    G.Covers (G.reach S) x := by
  intro y hy
  rcases mem_reach.1 hx with hS | ⟨a, ha, hxa | ⟨b, hb, hpage, hxb⟩⟩
  · exact mem_reach.2 (.inr ⟨x, hS, .inl hy⟩)
  · cases hp : G.isPage x with
    | true => exact mem_reach.2 (.inr ⟨a, ha, .inr ⟨x, hxa, hp, hy⟩⟩)
    | false =>
      rcases (h.ofCode a x hxa hp).resolve_left hne y hy with rfl | hya
      · exact subset_reach ha
      · exact mem_reach.2 (.inr ⟨a, ha, .inl hya⟩)
  · have hreach : ∀ z ∈ G.grants b, z ∈ G.reach S := fun z hz =>
      mem_reach.2 (.inr ⟨a, ha, .inr ⟨b, hb, hpage, hz⟩⟩)
    cases hp : G.isPage x with
    | true =>
      rcases h.ofPage a b hb hpage x hxb hp y hy with hya | hyb
      · exact mem_reach.2 (.inr ⟨a, ha, .inl hya⟩)
      · exact hreach y hyb
    | false =>
      rcases (h.ofCode b x hxb hp).resolve_left hne y hy with rfl | hyb
      · exact mem_reach.2 (.inr ⟨a, ha, .inl hb⟩)
      · exact hreach y hyb

section
variable (hpages : ∀ p c, p ∈ G.pagesOf c ↔ c ∈ G.grants p)
include hpages

/-- The implied pages of a closed selection are in it, once the one page `e` that grants codes of its own to a page
that grants it is not implied. -/
theorem implied_union_subset {e : α}
    (hkeys : ∀ p, ∀ c ∈ G.grants p, G.isPage c = false → G.isPage p = true ∨ p = c)
    (hnested : ∀ p, ∀ c ∈ G.grants p, G.isPage c = false →
      G.Dominated c p ∨ ∀ x ∈ G.grants p, G.isPage x = true → x = e ∨ ∀ y ∈ G.grants x, G.isPage y = true)
    (he : e ∈ G.implied K → e ∈ K) : G.implied (K ∪ G.implied K) ⊆ K ∪ G.implied K := by
  have hcode : ∀ x, G.isPage x = false → x ∈ K ∪ G.implied K → x ∈ K := by
    intro x hx hmem
    rcases Finset.mem_union.1 hmem with h | h
    · exact h
    · obtain ⟨c, hcK, hc, hfirst⟩ := mem_implied.1 h
      rcases hkeys x c ((hpages x c).1 (firstPage_eq_some.1 hfirst).1) hc with hpage | rfl
      · rw [hx] at hpage
        cases hpage
      · exact hcK
  intro p hp
  obtain ⟨c, hcC, hc, hfirst⟩ := mem_implied.1 hp
  obtain ⟨hpc, hcovers, hearlier⟩ := firstPage_eq_some.1 hfirst
  have hK : G.Covers K p := by
    intro x hx
    cases hpage : G.isPage x with
    | false => exact hcode x hpage (hcovers x hx)
    | true =>
      rcases Finset.mem_union.1 (hcovers x hx) with h | h
      · exact h
      · have hfree := (hnested p c ((hpages p c).1 hpc) hc).resolve_left (not_dominated_of_first hfirst)
        rcases hfree x hx hpage with rfl | hall
        · exact he h
        · obtain ⟨d, -, hd, hx'⟩ := mem_implied.1 h
          have := hall d ((hpages x d).1 (firstPage_eq_some.1 hx').1)
          rw [hd] at this
          cases this
  refine Finset.mem_union_right _ (mem_implied_of_first (hcode c hc hcC) hc hpc hK ?_)
  exact fun q hq h => hearlier q hq (h.mono Finset.subset_union_left)

/-! ## Larger selections -/

/-- A page that no page gets in the way of stays implied in a larger selection, or is selected there. -/
theorem implied_grows
    (hfree : ∀ c ∈ G.grants p, G.isPage c = false → G.Dominated c p ∨
      (∃ d ∈ G.grants p, G.isPage d = false ∧ G.earlier d p = []) ∨ ∀ q ∈ G.earlier c p, p ∈ G.grants q)
    (hKL : K ⊆ L) (hp : p ∈ G.implied K) : p ∈ L ∪ G.implied L := by
  obtain ⟨c, hcK, hc, hfirst⟩ := mem_implied.1 hp
  obtain ⟨hpc, hcovers, -⟩ := firstPage_eq_some.1 hfirst
  have hcases := (hfree c ((hpages p c).1 hpc) hc).resolve_left (not_dominated_of_first hfirst)
  rcases hcases with ⟨d, hd, hdc, hnone⟩ | hall
  · have hnot : ∀ q ∈ G.earlier d p, ¬G.Covers L q := by simp [hnone]
    have hdp := (hpages p d).2 hd
    exact Finset.mem_union_right _ (mem_implied_of_first (hKL (hcovers d hd)) hdc hdp (hcovers.mono hKL) hnot)
  · by_cases hq : ∃ q ∈ G.earlier c p, G.Covers L q
    · obtain ⟨q, hq, hcovers'⟩ := hq
      exact Finset.mem_union_left _ (hcovers' p (hall q hq))
    · push Not at hq
      exact Finset.mem_union_right _ (mem_implied_of_first (hKL hcK) hc hpc (hcovers.mono hKL) hq)

/-- A page that another page takes the place of once `extra` is selected too. -/
structure Shadowed (G : Graph α) (p : α) (extra : List α) : Prop where
  hides : ∀ c ∈ G.grants p, G.isPage c = false → ∃ q ∈ G.earlier c p, ∀ x ∈ G.grants q, x ∈ G.grants p ∨ x ∈ extra
  needs : ∀ x ∈ extra, ∃ c ∈ G.grants p, G.isPage c = false ∧ ∀ q ∈ G.earlier c p, x ∈ G.grants q

theorem Shadowed.mem_implied_iff {extra : List α} (h : G.Shadowed p extra) :
    p ∈ G.implied K ↔ G.Covers K p ∧ ∃ x ∈ extra, x ∉ K := by
  constructor
  · intro hp
    obtain ⟨c, -, hc, hfirst⟩ := mem_implied.1 hp
    obtain ⟨hpc, hcovers, hearlier⟩ := firstPage_eq_some.1 hfirst
    refine ⟨hcovers, ?_⟩
    obtain ⟨q, hq, hgrants⟩ := h.hides c ((hpages p c).1 hpc) hc
    by_contra hall
    push Not at hall
    refine hearlier q hq fun x hx => ?_
    rcases hgrants x hx with hxp | hxe
    · exact hcovers x hxp
    · exact hall x hxe
  · rintro ⟨hcovers, x, hx, hxK⟩
    obtain ⟨c, hcp, hc, hall⟩ := h.needs x hx
    exact mem_implied_of_first (hcovers c hcp) hc ((hpages p c).2 hcp) hcovers fun q hq h => hxK (h x (hall q hq))

end

end Graph
end Grants

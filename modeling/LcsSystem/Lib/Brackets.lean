import Mathlib

/-!
# Marked groups

Texts in which a closing bracket may be followed by a mark. `scan` looks for a marked group with a mark inside, in one
pass with a stack that says of every open group whether it holds a mark; it gives up at a bracket that closes nothing.
`scan_iff` says what it finds.
-/

namespace Brackets

inductive Token
  | opening | closing | mark | other
  deriving DecidableEq

/-- The innermost open group holds a mark. -/
def note : List Bool → List Bool
  | [] => []
  | _ :: stack => true :: stack

def scan : List Token → List Bool → Bool
  | [], _ => false
  | .opening :: ts, stack => scan ts (false :: stack)
  | .mark :: ts, stack => scan ts (note stack)
  | .other :: ts, stack => scan ts stack
  | .closing :: _, [] => false
  | .closing :: ts, inside :: stack =>
    let next := ts.head? == some .mark
    if next && inside then true else scan ts (if next || inside then note stack else stack)

/-- How many groups are open after the tokens, unless one of them closes nothing. -/
def depth : ℕ → List Token → Option ℕ
  | d, [] => some d
  | d, .opening :: ts => depth (d + 1) ts
  | 0, .closing :: _ => none
  | d + 1, .closing :: ts => depth d ts
  | d, .mark :: ts => depth d ts
  | d, .other :: ts => depth d ts

def Balanced (ts : List Token) : Prop := depth 0 ts = some 0

/-- A marked group holds a mark, and every bracket before it closes a group. -/
def Nests (ts : List Token) : Prop :=
  ∃ front body back, ts = front ++ .opening :: body ++ .closing :: .mark :: back ∧ (depth 0 front).isSome = true ∧
    Balanced body ∧ .mark ∈ body

variable {ts front body : List Token} {stack inner : List Bool} {inside : Bool} {d e : ℕ}

/-! ## Depth -/

theorem depth_append (a b : List Token) : depth d (a ++ b) = (depth d a).bind fun e => depth e b := by
  induction a generalizing d with
  | nil => rfl
  | cons t a ih =>
    cases t with
    | closing =>
      cases d with
      | zero => rfl
      | succ d => exact ih
    | _ => exact ih

theorem depth_add (k : ℕ) (h : depth d ts = some e) : depth (d + k) ts = some (e + k) := by
  induction ts generalizing d with
  | nil => exact congrArg (Option.map (· + k)) h
  | cons t ts ih =>
    cases t with
    | opening =>
      have := ih h
      rwa [add_right_comm] at this
    | closing =>
      cases d with
      | zero => cases h
      | succ d =>
        rw [add_right_comm]
        exact ih h
    | mark => exact ih h
    | other => exact ih h

theorem Balanced.depth (h : Balanced ts) (d : ℕ) : depth d ts = some d := by
  have := depth_add d h
  rwa [zero_add] at this

theorem balanced_nil : Balanced [] := rfl

theorem Balanced.append {other : List Token} (h : Balanced ts) (h' : Balanced other) : Balanced (ts ++ other) := by
  rw [Balanced, depth_append, h]
  exact h'

theorem Balanced.group (h : Balanced body) : Balanced (.opening :: body ++ [.closing]) := by
  rw [Balanced, List.cons_append]
  simp only [Brackets.depth]
  rw [depth_append, h.depth]
  rfl

/-! ## What it finds is there -/

/-- Before the rest: the open groups, with what is closed around and inside of them. -/
inductive Open : List Token → List Bool → Prop
  | nil {front : List Token} (h : Balanced front) : Open front []
  | cons {front body : List Token} {stack : List Bool} {inside : Bool} (h : Open front stack) (hbody : Balanced body)
      (hinside : inside = true → .mark ∈ body) : Open (front ++ .opening :: body) (inside :: stack)

theorem Open.depth_eq (h : Open front stack) : depth 0 front = some stack.length := by
  induction h with
  | nil h => exact h
  | cons h hbody _ ih =>
    rw [depth_append, ih]
    exact hbody.depth _

/-- The innermost open group goes on. -/
theorem Open.append {more : List Token} (h : Open front stack) (hmore : Balanced more) : Open (front ++ more) stack := by
  cases h with
  | nil h => exact .nil (h.append hmore)
  | cons h hbody hinside =>
    rw [List.append_assoc, List.cons_append]
    exact .cons h (hbody.append hmore) fun hin => List.mem_append_left _ (hinside hin)

theorem Open.note {more : List Token} (h : Open front stack) (hmore : Balanced more) (hmark : .mark ∈ more) :
    Open (front ++ more) (note stack) := by
  cases h with
  | nil h => exact .nil (h.append hmore)
  | cons h hbody _ =>
    rw [List.append_assoc, List.cons_append]
    exact .cons h (hbody.append hmore) fun _ => List.mem_append_right _ hmark

/-- A mark that follows notes itself. -/
theorem scan_note (h : ts.head? = some .mark) : scan ts (note stack) = scan ts stack := by
  cases ts with
  | nil => cases h
  | cons t ts =>
    obtain rfl := Option.some.inj h
    cases stack <;> rfl

theorem nests_of_scan (hopen : Open front stack) (h : scan ts stack = true) : Nests (front ++ ts) := by
  induction ts generalizing front stack with
  | nil => cases h
  | cons t ts ih =>
    rw [List.append_cons]
    cases t with
    | opening => exact ih (.cons hopen balanced_nil fun hin => absurd hin Bool.false_ne_true) h
    | mark => exact ih (hopen.note rfl (List.mem_singleton_self _)) h
    | other => exact ih (hopen.append rfl) h
    | closing =>
      cases hopen with
      | nil _ => cases h
      | @cons front body stack inside hopen hbody hinside =>
        simp only [scan] at h
        split at h
        next hfound =>
          rw [Bool.and_eq_true, beq_iff_eq] at hfound
          cases ts with
          | nil => cases hfound.1
          | cons t ts =>
            obtain rfl := Option.some.inj hfound.1
            refine ⟨front, body, ts, by simp, ?_, hbody, hinside hfound.2⟩
            rw [hopen.depth_eq]
            rfl
        next =>
          have hrest : scan ts (if inside then Brackets.note stack else stack) = true := by
            cases hnext : ts.head? == some Token.mark with
            | false => simpa [hnext] using h
            | true =>
              simp only [hnext, Bool.true_or, if_true] at h
              cases inside with
              | true => exact h
              | false => rwa [scan_note (beq_iff_eq.1 hnext)] at h
          have hgroup : front ++ .opening :: body ++ [.closing] = front ++ (.opening :: body ++ [.closing]) :=
            List.append_assoc _ _ _
          rw [hgroup]
          refine ih ?_ hrest
          split
          next hin =>
            exact hopen.note hbody.group (List.mem_append_left _ (List.mem_cons_of_mem _ (hinside hin)))
          next => exact hopen.append hbody.group

/-! ## What is there is found -/

/-- Tokens that only close open groups are passed, unless something is found in them. -/
theorem scan_front (ts : List Token) (stack : List Bool) (h : (depth stack.length front).isSome = true) :
    scan (front ++ ts) stack = true ∨ ∃ stack', scan (front ++ ts) stack = scan ts stack' := by
  induction front generalizing stack with
  | nil => exact .inr ⟨stack, rfl⟩
  | cons t front ih =>
    cases t with
    | opening => exact ih (false :: stack) h
    | mark =>
      refine ih (note stack) ?_
      cases stack <;> exact h
    | other => exact ih stack h
    | closing =>
      cases stack with
      | nil => cases h
      | cons inside stack =>
        rw [List.cons_append]
        simp only [scan]
        split
        · exact .inl rfl
        · split
          · refine ih (note stack) ?_
            cases stack <;> exact h
          · exact ih stack h

/-- A group that holds a mark is left with that said, unless something is found in it. -/
theorem scan_body (ts : List Token) (inner : List Bool) (inside : Bool) (stack : List Bool) (h : depth inner.length body = some 0) :
    scan (body ++ ts) (inner ++ inside :: stack) = true ∨
      ∃ inside', scan (body ++ ts) (inner ++ inside :: stack) = scan ts (inside' :: stack) ∧
        (inside = true ∨ true ∈ inner ∨ .mark ∈ body → inside' = true) := by
  induction body generalizing inner inside with
  | nil =>
    obtain rfl := List.length_eq_zero_iff.1 (Option.some.inj h)
    exact .inr ⟨inside, rfl, by simp⟩
  | cons t body ih =>
    -- Noting a mark leaves one said, in the group or inside of it.
    have hnote : ∀ inner : List Bool, depth inner.length body = some 0 →
        scan (body ++ ts) (note (inner ++ inside :: stack)) = true ∨
          ∃ inside', scan (body ++ ts) (note (inner ++ inside :: stack)) = scan ts (inside' :: stack) ∧ inside' = true := by
      intro inner hinner
      cases inner with
      | nil =>
        refine (ih [] true hinner).imp_right ?_
        rintro ⟨inside', hscan, hinside'⟩
        exact ⟨inside', hscan, hinside' (.inl rfl)⟩
      | cons first inner =>
        refine (ih (true :: inner) inside hinner).imp_right ?_
        rintro ⟨inside', hscan, hinside'⟩
        exact ⟨inside', hscan, hinside' (.inr (.inl List.mem_cons_self))⟩
    cases t with
    | opening =>
      refine (ih (false :: inner) inside h).imp_right ?_
      rintro ⟨inside', hscan, hinside'⟩
      refine ⟨inside', hscan, fun hsaid => hinside' ?_⟩
      simpa using hsaid
    | other =>
      refine (ih inner inside h).imp_right ?_
      rintro ⟨inside', hscan, hinside'⟩
      refine ⟨inside', hscan, fun hsaid => hinside' ?_⟩
      simpa using hsaid
    | mark =>
      refine (hnote inner h).imp_right ?_
      rintro ⟨inside', hscan, hinside'⟩
      exact ⟨inside', hscan, fun _ => hinside'⟩
    | closing =>
      cases inner with
      | nil => cases h
      | cons first inner =>
        rw [List.cons_append, List.cons_append]
        simp only [scan]
        split
        · exact .inl rfl
        · split
          · refine (hnote inner h).imp_right ?_
            rintro ⟨inside', hscan, hinside'⟩
            exact ⟨inside', hscan, fun _ => hinside'⟩
          next hnot =>
            refine (ih inner inside h).imp_right ?_
            rintro ⟨inside', hscan, hinside'⟩
            refine ⟨inside', hscan, fun hsaid => hinside' ?_⟩
            have hfirst : first = false := by
              rw [Bool.or_eq_true, not_or, Bool.not_eq_true] at hnot
              simpa using hnot.2
            simpa [hfirst] using hsaid

theorem scan_of_nests (h : Nests ts) : scan ts [] = true := by
  obtain ⟨front, body, back, rfl, hfront, hbody, hmark⟩ := h
  rw [List.append_assoc]
  rcases scan_front (.opening :: body ++ .closing :: .mark :: back) [] hfront with hfound | ⟨stack, hstack⟩
  · exact hfound
  · rw [hstack]
    rcases scan_body (.closing :: .mark :: back) [] false stack hbody with
      hfound | ⟨inside, hinside, hsaid⟩
    · exact hfound
    · obtain rfl := hsaid (.inr (.inr hmark))
      exact hinside

/-- **The scan finds a marked group with a mark inside**, before any bracket that closes nothing. -/
theorem scan_iff : scan ts [] = true ↔ Nests ts :=
  ⟨nests_of_scan (.nil balanced_nil), scan_of_nests⟩

end Brackets

import LcsSystem.MasterData.PatternSyntax

/-!
# What the scan for nested quantifiers finds

* `scanAt_eq`: the loop is one pass over the brackets and quantifiers that it reads, on every text;
* `read_text`: what it reads of an expression. A counted quantifier is no quantifier to it, and a class that starts with a
  bracket ends there;
* `scan_tokens`: on an expression without such a class, the groups that it finds.
-/

namespace LcsSystem.Patterns
open Brackets

/-! ## Reading -/

/-- The brackets and quantifiers of a text, as the loop takes them; `true` inside of a class. -/
def read : Bool → List Char → List Token
  | _, [] => []
  | true, '\\' :: _ :: cs => read true cs
  | true, ['\\'] => []
  | true, c :: cs => if c = ']' then read false cs else read true cs
  | false, '\\' :: _ :: cs => .other :: read false cs
  | false, ['\\'] => [.other]
  | false, '(' :: '?' :: cs => .opening :: read false cs
  | false, c :: cs =>
    if c = '[' then .other :: read true cs
    else if c = '(' then .opening :: read false cs
    else if c = ')' then .closing :: read false cs
    else if quantifierChars.contains c then .mark :: read false cs
    else .other :: read false cs

variable {c : Char} {cs source : List Char} {stack : List Bool}

theorem read_class (h : c ≠ '\\') : read true (c :: cs) = if c = ']' then read false cs else read true cs := by
  cases cs <;> simp [read, h]

theorem read_cons (h : c ≠ '\\') (hquestion : c = '(' → cs.head? ≠ some '?') : read false (c :: cs) =
    if c = '[' then .other :: read true cs
    else if c = '(' then .opening :: read false cs
    else if c = ')' then .closing :: read false cs
    else if quantifierChars.contains c then .mark :: read false cs
    else .other :: read false cs := by
  have hopening : ∀ ds, c = '(' → cs = '?' :: ds → False := by
    rintro ds hc rfl
    exact hquestion hc rfl
  rw [read]
  · exact fun d ds hc _ => h hc
  · exact fun hc _ => h hc
  · exact hopening

theorem head_read : (read false cs).head? = some .mark ↔ ∃ c, cs.head? = some c ∧ quantifierChars.contains c = true := by
  cases cs with
  | nil => simp [read]
  | cons c cs =>
    simp only [List.head?_cons, Option.some.injEq, exists_eq_left']
    by_cases hescape : c = '\\'
    · subst hescape
      refine iff_of_false ?_ (by decide)
      cases cs <;> simp [read]
    by_cases hquestion : c = '(' ∧ cs.head? = some '?'
    · obtain ⟨rfl, hhead⟩ := hquestion
      obtain ⟨ds, rfl⟩ := List.head?_eq_some_iff.1 hhead
      exact iff_of_false (by simp [read]) (by decide)
    · rw [read_cons hescape fun hc hhead => hquestion ⟨hc, hhead⟩]
      split_ifs with h1 h2 h3 h4
      · exact iff_of_false (by simp) (by rw [h1]; decide)
      · exact iff_of_false (by simp) (by rw [h2]; decide)
      · exact iff_of_false (by simp) (by rw [h3]; decide)
      · exact iff_of_true rfl h4
      · exact iff_of_false (by simp) h4

/-! ## The loops -/

theorem charAt_of_lt {i : ℕ} (h : i < source.length) : charAt source i = .ok source[i] := by
  rw [charAt, List.getElem?_eq_getElem h]

theorem drop_add_two (source : List Char) (i : ℕ) : source.drop (i + 2) = (source.drop (i + 1)).drop 1 := by
  rw [List.drop_drop]

theorem classEnd_eq (source : List Char) (i : ℕ) :
    ∃ j, ∃ hj, classEnd source i = .ok ⟨j, hj⟩ ∧ read true (source.drop i) = read false (source.drop (j + 1)) := by
  induction hn : source.length - i using Nat.strong_induction_on generalizing i with
  | _ n ih =>
    rw [classEnd]
    by_cases hi : i < source.length
    · rw [if_pos hi, charAt_of_lt hi, List.drop_eq_getElem_cons hi]
      simp only [bind, Except.bind]
      by_cases hend : source[i] = ']'
      · rw [if_pos hend, hend]
        refine ⟨i, le_rfl, rfl, ?_⟩
        rw [read_class (by decide), if_pos rfl]
      · rw [if_neg hend]
        have hnext : (if source[i] = '\\' then i + 2 else i + 1) = i + 1 ∨
            (if source[i] = '\\' then i + 2 else i + 1) = i + 2 := by
          split <;> simp
        obtain ⟨j, hj, hclass, hread⟩ := ih _ (by omega) (if source[i] = '\\' then i + 2 else i + 1) rfl
        simp only [hclass]
        refine ⟨j, by omega, rfl, ?_⟩
        rw [← hread]
        by_cases hescape : source[i] = '\\'
        · rw [if_pos hescape, hescape]
          rw [drop_add_two]
          cases source.drop (i + 1) <;> simp [read]
        · rw [if_neg hescape, read_class hescape, if_neg hend]
    · rw [if_neg hi]
      refine ⟨i, le_rfl, rfl, ?_⟩
      rw [List.drop_eq_nil_iff.2 (by omega), List.drop_eq_nil_iff.2 (by omega)]
      simp [read]

/-- **The loop is one pass** over the brackets and quantifiers that it reads; no index is out of range. -/
theorem scanAt_eq (source : List Char) (i : ℕ) (stack : List Bool) :
    scanAt source i stack = .ok (scan (read false (source.drop i)) stack) := by
  induction hn : source.length - i using Nat.strong_induction_on generalizing i stack with
  | _ n ih =>
    rw [scanAt.eq_def]
    by_cases hi : i < source.length
    · rw [if_pos hi, charAt_of_lt hi, List.drop_eq_getElem_cons hi]
      simp only [bind, Except.bind]
      set char := source[i]
      by_cases hescape : char = '\\'
      · rw [if_pos hescape, ih _ (by omega) (i + 2) stack rfl, hescape, drop_add_two]
        cases source.drop (i + 1) <;> simp [read, scan]
      rw [if_neg hescape]
      by_cases hclass : char = '['
      · obtain ⟨j, hj, hend, hread⟩ := classEnd_eq source (i + 1)
        rw [if_pos hclass, hend]
        simp only
        rw [ih _ (by omega) (j + 1) stack rfl, ← hread, read_cons hescape fun h => absurd (hclass.symm.trans h) (by decide),
          if_pos hclass]
        rfl
      rw [if_neg hclass]
      by_cases hopening : char = '('
      · rw [if_pos hopening, ← List.head?_drop]
        by_cases hquestion : (source.drop (i + 1)).head? = some '?'
        · obtain ⟨ds, hds⟩ := List.head?_eq_some_iff.1 hquestion
          rw [if_pos hquestion, ih _ (by omega) (i + 2) _ rfl, hopening, drop_add_two, hds]
          simp [read, scan]
        · rw [if_neg hquestion, ih _ (by omega) (i + 1) _ rfl, read_cons hescape fun _ => hquestion, if_neg hclass,
            if_pos hopening]
          rfl
      rw [if_neg hopening, read_cons hescape fun h => absurd h hopening, if_neg hclass, if_neg hopening]
      by_cases hclosing : char = ')'
      · rw [if_pos hclosing, if_pos hclosing]
        cases stack with
        | nil => rfl
        | cons inside stack =>
          have hnext : (source[i + 1]?.any fun c => quantifierChars.contains c) =
              ((read false (source.drop (i + 1))).head? == some .mark) := by
            rw [Bool.eq_iff_iff, beq_iff_eq, head_read, List.head?_drop, Option.any_eq_true]
          simp only [scan, hnext]
          split
          · rfl
          · exact ih _ (by omega) (i + 1) _ rfl
      rw [if_neg hclosing, if_neg hclosing]
      split
      · exact ih _ (by omega) (i + 1) _ rfl
      · exact ih _ (by omega) (i + 1) _ rfl
    · rw [if_neg hi, List.drop_eq_nil_iff.2 (by omega)]
      simp [read, scan]

/-! ## What is read of an expression -/

/-- A character that the loop steps over. -/
def inert (c : Char) : Bool := !(['\\', '[', '(', ')', '*', '+', '?'].contains c)

def repeatTokens : Option Repeat → List Token
  | none => []
  | some r =>
    (match r.quantifier with
      | .counted _ _ => r.quantifier.text.map fun _ => .other
      | _ => [.mark]) ++ if r.isLazy then [.mark] else []

/-- A class that starts with a bracket ends there, and its other members are read like the rest. -/
def CharClass.tokens (k : CharClass) : List Token :=
  .other :: if k.bracketFirst then read false (itemsText k.items ++ [']']) else []

def Single.tokens : Single → List Token
  | .literal _ _ => [.other]
  | .escape _ => [.other]
  | .charClass k => k.tokens

/-- What follows the opening parenthesis, of which the loop skips a question mark. -/
def GroupKind.tokens (kind : GroupKind) : List Token := (kind.text.drop 1).map fun _ => .other

def Regex.tokens : Regex → List Token
  | .empty => []
  | .item single repeated rest => single.tokens ++ repeatTokens repeated ++ rest.tokens
  | .group kind body repeated rest =>
    .opening :: kind.tokens ++ body.tokens ++ .closing :: repeatTokens repeated ++ rest.tokens
  | .bar rest => .other :: rest.tokens

theorem read_inert (h : inert c = true) : read false (c :: cs) = .other :: read false cs := by
  simp only [inert, Bool.not_eq_true', List.contains_eq_mem, decide_eq_false_iff_not, List.mem_cons, List.not_mem_nil, or_false,
    not_or] at h
  obtain ⟨hescape, hclass, hopening, hclosing, hstar, hplus, hoptional⟩ := h
  rw [read_cons hescape fun hc => absurd hc hopening, if_neg hclass, if_neg hopening, if_neg hclosing, if_neg]
  simp [quantifierChars, hstar, hplus, hoptional]

theorem read_inerts {text : List Char} (h : ∀ c ∈ text, inert c = true) :
    read false (text ++ cs) = (text.map fun _ => Token.other) ++ read false cs := by
  induction text with
  | nil => rfl
  | cons c text ih =>
    rw [List.cons_append, read_inert (h c List.mem_cons_self), ih fun d hd => h d (List.mem_cons_of_mem _ hd)]
    rfl

theorem read_mark (h : quantifierChars.contains c = true) : read false (c :: cs) = .mark :: read false cs := by
  have hc : c = '*' ∨ c = '+' ∨ c = '?' := by simpa [quantifierChars] using h
  rcases hc with rfl | rfl | rfl <;> simp [read, quantifierChars]

theorem inert_of_isDigit (h : c.isDigit = true) : inert c = true := by
  simp only [inert, Bool.not_eq_true', List.contains_eq_mem, decide_eq_false_iff_not, List.mem_cons, List.not_mem_nil, or_false,
    not_or]
  refine ⟨?_, ?_, ?_, ?_, ?_, ?_, ?_⟩
  all_goals
    rintro rfl
    exact absurd h (by decide)

theorem inert_of_identifier (h : isIdentifierChar c = true) : inert c = true := by
  simp only [inert, Bool.not_eq_true', List.contains_eq_mem, decide_eq_false_iff_not, List.mem_cons, List.not_mem_nil, or_false,
    not_or]
  refine ⟨?_, ?_, ?_, ?_, ?_, ?_, ?_⟩
  all_goals
    rintro rfl
    exact absurd h (by decide)

theorem read_repeat (repeated : Option Repeat) :
    read false (repeatText repeated ++ cs) = repeatTokens repeated ++ read false cs := by
  cases repeated with
  | none => rfl
  | some r =>
    obtain ⟨quantifier, isLazy⟩ := r
    have hlazy : read false ((if isLazy then ['?'] else []) ++ cs) =
        (if isLazy then [Token.mark] else []) ++ read false cs := by
      cases isLazy with
      | false => rfl
      | true => exact read_mark (by decide)
    simp only [repeatText, repeatTokens, List.append_assoc]
    cases quantifier with
    | star => exact (read_mark (by decide)).trans (congrArg _ hlazy)
    | plus => exact (read_mark (by decide)).trans (congrArg _ hlazy)
    | optional => exact (read_mark (by decide)).trans (congrArg _ hlazy)
    | counted lower upper =>
      have hdigits : ∀ (n : ℕ), ∀ c ∈ Nat.toDigits 10 n, inert c = true :=
        fun n c hc => inert_of_isDigit (Nat.isDigit_of_mem_toDigits (by decide) (by decide) hc)
      rw [read_inerts, hlazy]
      intro c hc
      simp only [Quantifier.text, List.mem_cons, List.mem_append, List.not_mem_nil, or_false] at hc
      rcases hc with ((rfl | hc) | rfl | hc) | rfl
      · decide
      · exact hdigits _ c hc
      · decide
      · exact hdigits _ c hc
      · decide

/-! ## Classes -/

theorem read_true_items (items : List ClassItem) : read true (itemsText items ++ ']' :: cs) = read false cs := by
  induction items with
  | nil => rw [itemsText, List.flatMap_nil, List.nil_append, read_class (by decide), if_pos rfl]
  | cons item items ih =>
    rw [itemsText, List.flatMap_cons, List.append_assoc, ← itemsText]
    cases item with
    | char c h => rw [ClassItem.text, List.singleton_append, read_class h.2, if_neg h.1, ih]
    | escape c =>
      rw [ClassItem.text]
      simp only [List.cons_append, List.nil_append, read]
      exact ih

/-- The members behind a bracket, up to the one that ends the class. -/
theorem read_false_items (items : List ClassItem) :
    read false (itemsText items ++ ']' :: cs) = read false (itemsText items ++ [']']) ++ read false cs := by
  induction hn : items.length using Nat.strong_induction_on generalizing items with
  | _ n ih =>
    cases items with
    | nil =>
      have hend : ∀ cs, read false (']' :: cs) = .other :: read false cs := fun cs => read_inert (by decide)
      rw [itemsText, List.flatMap_nil, List.nil_append, List.nil_append, hend, hend]
      simp [read]
    | cons item items =>
      have hrest := ih items.length (by rw [← hn]; exact Nat.lt_succ_self _) items rfl
      rw [itemsText, List.flatMap_cons, List.append_assoc, List.append_assoc, ← itemsText]
      cases item with
      | escape c =>
        simp only [ClassItem.text, List.cons_append, List.nil_append, read]
        rw [hrest]
      | char c h =>
        rw [ClassItem.text, List.singleton_append, List.singleton_append]
        by_cases hquestion : c = '(' ∧ ∃ h' items', items = .char '?' h' :: items'
        · -- A member that the loop takes for a group prefix.
          obtain ⟨rfl, h', items', rfl⟩ := hquestion
          have hrest' := ih items'.length (by rw [← hn]; simp) items' rfl
          simp only [itemsText, List.flatMap_cons, ClassItem.text, List.cons_append, List.nil_append, read]
          rw [← itemsText, hrest']
        · have hhead : ∀ cs, c = '(' → (itemsText items ++ ']' :: cs).head? ≠ some '?' := by
            intro cs hc
            cases items with
            | nil => simp [itemsText]
            | cons item items =>
              cases item with
              | escape d => simp [itemsText, ClassItem.text]
              | char d h' =>
                simp only [itemsText, List.flatMap_cons, ClassItem.text, List.cons_append, List.nil_append, List.head?_cons,
                  ne_eq, Option.some.injEq]
                rintro rfl
                exact hquestion ⟨hc, h', items, rfl⟩
          rw [read_cons h.2 (hhead cs), read_cons h.2 (hhead []), read_true_items, read_true_items, hrest]
          split_ifs <;> simp [read]

theorem read_charClass (k : CharClass) : read false (k.text ++ cs) = k.tokens ++ read false cs := by
  have hcaret : ∀ ds, read true ((if k.negated then ['^'] else []) ++ ds) = read true ds := by
    intro ds
    split
    · rw [List.singleton_append, read_class (by decide), if_neg (by decide)]
    · rfl
  rw [CharClass.text]
  simp only [List.cons_append, List.append_assoc, List.nil_append]
  rw [read_cons (by decide) (fun h => absurd h (by decide)), if_pos rfl, hcaret, CharClass.tokens]
  cases k.bracketFirst with
  | false =>
    simp only [Bool.false_eq_true, if_false, List.nil_append, List.cons_append]
    rw [read_true_items]
  | true =>
    simp only [if_true, List.cons_append, List.nil_append]
    rw [read_class (by decide), if_pos rfl, read_false_items]

/-! ## Expressions -/

theorem inert_of_literal (h : c ∉ specialChars) : inert c = true := by
  simp only [specialChars, List.mem_cons, List.not_mem_nil, or_false, not_or] at h
  simp only [inert, Bool.not_eq_true', List.contains_eq_mem, decide_eq_false_iff_not, List.mem_cons, List.not_mem_nil, or_false,
    not_or]
  exact ⟨h.1, h.2.1, h.2.2.1, h.2.2.2.1, h.2.2.2.2.2.2.1, h.2.2.2.2.2.2.2.1, h.2.2.2.2.2.2.2.2.1⟩

theorem read_single (single : Single) : read false (single.text ++ cs) = single.tokens ++ read false cs := by
  cases single with
  | literal c h => exact read_inert (inert_of_literal h)
  | escape c => simp [Single.text, Single.tokens, read]
  | charClass k => exact read_charClass k

theorem read_group (kind : GroupKind) {cs : List Char} (h : cs.head? ≠ some '?') :
    read false ('(' :: kind.text ++ cs) = .opening :: kind.tokens ++ read false cs := by
  have hquestion : ∀ text : List Char, text.all inert = true →
      read false ('(' :: '?' :: text ++ cs) = .opening :: (text.map fun _ => Token.other) ++ read false cs := by
    intro text htext
    simp only [List.cons_append, read]
    rw [read_inerts (List.all_eq_true.1 htext)]
  cases kind with
  | plain =>
    simp only [GroupKind.text, GroupKind.tokens, List.drop_nil, List.map_nil, List.cons_append, List.nil_append]
    rw [read_cons (by decide) fun _ => h, if_neg (by decide), if_pos rfl]
  | named name hname =>
    refine hquestion ('P' :: '<' :: name ++ ['>']) (List.all_eq_true.2 fun c hc => ?_)
    simp only [List.cons_append, List.mem_cons, List.mem_append, List.not_mem_nil, or_false] at hc
    rcases hc with rfl | rfl | hc | rfl
    · decide
    · decide
    · exact inert_of_identifier (hname c hc)
    · decide
  | nonCapturing => exact hquestion [':'] (by decide)
  | lookahead => exact hquestion ['='] (by decide)
  | negativeLookahead => exact hquestion ['!'] (by decide)
  | lookbehind => exact hquestion ['<', '='] (by decide)
  | negativeLookbehind => exact hquestion ['<', '!'] (by decide)

/-- No expression starts with a question mark. -/
theorem head_text (r : Regex) (h : cs.head? ≠ some '?') : (r.text ++ cs).head? ≠ some '?' := by
  cases r with
  | empty => exact h
  | item single repeated rest =>
    cases single with
    | literal c hc =>
      simp only [Regex.text, Single.text, List.cons_append, List.nil_append, List.head?_cons, ne_eq, Option.some.injEq]
      rintro rfl
      exact hc (by decide)
    | escape c => simp [Regex.text, Single.text]
    | charClass k => simp [Regex.text, Single.text, CharClass.text]
  | group kind body repeated rest => simp [Regex.text]
  | bar rest => simp [Regex.text]

theorem read_text (r : Regex) (cs : List Char) : read false (r.text ++ cs) = r.tokens ++ read false cs := by
  induction r generalizing cs with
  | empty => rfl
  | item single repeated rest ih =>
    simp only [Regex.text, Regex.tokens, List.append_assoc]
    rw [read_single, read_repeat, ih]
  | group kind body repeated rest ihbody ihrest =>
    simp only [Regex.text, Regex.tokens, List.append_assoc, List.cons_append]
    rw [← List.cons_append, read_group kind (head_text body (by simp)), ihbody,
      read_cons (by decide) (fun h => absurd h (by decide)), if_neg (by decide), if_neg (by decide), if_pos rfl, read_repeat,
      ihrest]
    simp
  | bar rest ih =>
    simp only [Regex.text, Regex.tokens, List.cons_append]
    rw [read_inert (by decide), ih]

/-! ## Groups that are seen -/

/-- The item is followed by one of the quantifier characters. -/
def shows (repeated : Option Repeat) : Bool :=
  repeated.any fun r => match r.quantifier with
    | .counted _ _ => false
    | _ => true

/-- One of the quantifier characters stands in the quantifier: a lazy counted one ends with a question mark. -/
def holdsMark (repeated : Option Repeat) : Bool := shows repeated || repeated.any Repeat.isLazy

namespace Regex

def marked : Regex → Bool
  | empty => false
  | item _ repeated rest => holdsMark repeated || rest.marked
  | group _ body repeated rest => holdsMark repeated || body.marked || rest.marked
  | bar rest => rest.marked

/-- A group that shows its quantifier, with a quantifier character inside. -/
def visiblyNested : Regex → Bool
  | empty => false
  | item _ _ rest => rest.visiblyNested
  | group _ body repeated rest => shows repeated && body.marked || body.visiblyNested || rest.visiblyNested
  | bar rest => rest.visiblyNested

end Regex

/-- A class that starts with a bracket has no other member that means something outside of a class. -/
def CharClass.Plain (k : CharClass) : Prop :=
  k.bracketFirst = true → ∀ item ∈ k.items, match item with
    | .char c _ => inert c = true
    | .escape _ => True

def Single.Plain : Single → Prop
  | .charClass k => k.Plain
  | _ => True

def Regex.PlainClasses : Regex → Prop
  | .empty => True
  | .item single _ rest => single.Plain ∧ rest.PlainClasses
  | .group _ body _ rest => body.PlainClasses ∧ rest.PlainClasses
  | .bar rest => rest.PlainClasses

variable {ts : List Token}

theorem tokens_of_plain {single : Single} (h : single.Plain) : ∀ t ∈ single.tokens, t = .other := by
  cases single with
  | literal c _ => simp [Single.tokens]
  | escape c => simp [Single.tokens]
  | charClass k =>
    have hitems : ∀ items : List ClassItem, (∀ item ∈ items, match item with
        | .char c _ => inert c = true
        | .escape _ => True) → ∀ t ∈ read false (itemsText items ++ [']']), t = .other := by
      intro items
      induction items with
      | nil =>
        intro _ t ht
        rw [itemsText, List.flatMap_nil, List.nil_append, read_inert (by decide)] at ht
        simpa [read] using ht
      | cons item items ih =>
        intro hplain t ht
        have hrest := ih fun item hitem => hplain item (List.mem_cons_of_mem _ hitem)
        have hitem := hplain item List.mem_cons_self
        rw [itemsText, List.flatMap_cons, List.append_assoc, ← itemsText] at ht
        cases item with
        | char c _ =>
          rw [ClassItem.text, List.singleton_append, read_inert hitem, List.mem_cons] at ht
          exact ht.elim id (hrest t)
        | escape c =>
          simp only [ClassItem.text, List.cons_append, List.nil_append, read, List.mem_cons] at ht
          exact ht.elim id (hrest t)
    intro t ht
    rw [Single.tokens, CharClass.tokens, List.mem_cons] at ht
    rcases ht with rfl | ht
    · rfl
    · split at ht
      next hfirst => exact hitems k.items (h hfirst) t ht
      · cases ht

theorem note_note (stack : List Bool) : note (note stack) = note stack := by
  cases stack <;> rfl

theorem scan_others {others : List Token} (h : ∀ t ∈ others, t = .other) (stack : List Bool) :
    scan (others ++ ts) stack = scan ts stack := by
  induction others with
  | nil => rfl
  | cons t others ih =>
    obtain rfl := h t List.mem_cons_self
    exact ih fun u hu => h u (List.mem_cons_of_mem _ hu)

theorem scan_repeat (repeated : Option Repeat) (stack : List Bool) :
    scan (repeatTokens repeated ++ ts) stack = scan ts (if holdsMark repeated then note stack else stack) := by
  cases repeated with
  | none => rfl
  | some r =>
    obtain ⟨quantifier, isLazy⟩ := r
    cases quantifier with
    | counted lower upper =>
      rw [repeatTokens, List.append_assoc, scan_others (by simp)]
      cases isLazy <;> rfl
    | _ => cases isLazy <;> simp [repeatTokens, scan, holdsMark, shows, note_note]

theorem head_repeat (repeated : Option Repeat) (h : ts.head? ≠ some .mark) :
    ((repeatTokens repeated ++ ts).head? == some .mark) = shows repeated := by
  cases repeated with
  | none => simpa [repeatTokens, shows] using h
  | some r =>
    obtain ⟨quantifier, isLazy⟩ := r
    cases quantifier with
    | counted lower upper => simp [repeatTokens, shows, Quantifier.text]
    | _ => simp [repeatTokens, shows]

theorem head_tokens (r : Regex) (h : ts.head? ≠ some .mark) : (r.tokens ++ ts).head? ≠ some .mark := by
  cases r with
  | empty => exact h
  | item single repeated rest => cases single <;> simp [Regex.tokens, Single.tokens, CharClass.tokens]
  | group kind body repeated rest => simp [Regex.tokens]
  | bar rest => simp [Regex.tokens]

/-- The scan of an expression finds its visibly nested groups, and leaves the quantifiers noted. -/
theorem scan_tokens (r : Regex) (hplain : r.PlainClasses) {ts : List Token} (h : ts.head? ≠ some .mark) (stack : List Bool) :
    scan (r.tokens ++ ts) stack =
      if r.visiblyNested then true else scan ts (if r.marked then note stack else stack) := by
  induction r generalizing ts stack with
  | empty => rfl
  | bar rest ih => exact ih hplain h stack
  | item single repeated rest ih =>
    rw [Regex.tokens, List.append_assoc, List.append_assoc, scan_others (tokens_of_plain hplain.1), scan_repeat,
      ih hplain.2 h]
    cases hmark : holdsMark repeated <;> cases hmarked : rest.marked <;>
      simp [Regex.visiblyNested, Regex.marked, hmark, hmarked, note_note]
  | group kind body repeated rest ihbody ihrest =>
    have hkind : ∀ t ∈ kind.tokens, t = .other := by simp [GroupKind.tokens]
    have hnext := head_repeat repeated (head_tokens rest h)
    have hshows : shows repeated = true → holdsMark repeated = true := fun hs => by simp [holdsMark, hs]
    simp only [Regex.tokens, List.append_assoc, List.cons_append, scan]
    rw [scan_others hkind, ihbody hplain.1 (by simp)]
    have hinside : (if body.marked then note (false :: stack) else false :: stack) = body.marked :: stack := by
      cases body.marked <;> rfl
    simp only [hinside, scan, hnext, scan_repeat, ihrest hplain.2 h, Regex.visiblyNested, Regex.marked]
    by_cases hnested : body.visiblyNested = true
    · simp [hnested]
    by_cases hvisible : rest.visiblyNested = true
    · simp [hnested, hvisible]
    by_cases hshow : shows repeated = true
    · have hmark := hshows hshow
      by_cases hmarked : body.marked = true <;> simp [hnested, hvisible, hshow, hmark, hmarked, note_note]
    · by_cases hmark : holdsMark repeated = true <;> by_cases hmarked : body.marked = true <;>
        simp [hnested, hvisible, hshow, hmark, hmarked, note_note]

theorem isSome_of_holdsMark {repeated : Option Repeat} (h : holdsMark repeated = true) : repeated.isSome = true := by
  cases repeated with
  | none => cases h
  | some r => rfl

theorem quantified_of_marked {r : Regex} (h : r.marked = true) : r.quantified = true := by
  induction r with
  | empty => cases h
  | bar rest ih => exact ih h
  | item single repeated rest ih =>
    simp only [Regex.marked, Regex.quantified, Bool.or_eq_true] at h ⊢
    exact h.imp isSome_of_holdsMark ih
  | group kind body repeated rest ihbody ihrest =>
    simp only [Regex.marked, Regex.quantified, Bool.or_eq_true] at h ⊢
    exact h.imp (Or.imp isSome_of_holdsMark ihbody) ihrest

theorem nested_of_visiblyNested {r : Regex} (h : r.visiblyNested = true) : r.nested = true := by
  induction r with
  | empty => cases h
  | bar rest ih => exact ih h
  | item single repeated rest ih => exact ih h
  | group kind body repeated rest ihbody ihrest =>
    simp only [Regex.visiblyNested, Regex.nested, Bool.or_eq_true, Bool.and_eq_true] at h ⊢
    refine h.imp (Or.imp (fun hgroup => ⟨isSome_of_holdsMark ?_, quantified_of_marked hgroup.2⟩) ihbody) ihrest
    rw [holdsMark, hgroup.1, Bool.true_or]

/-! ## When the scan agrees with the tree -/

theorem patternIsRedosRisk_text (r : Regex) : patternIsRedosRisk (String.ofList r.text) = .ok (scan r.tokens []) := by
  have hread : read false r.text = r.tokens := by
    have := read_text r []
    rwa [List.append_nil, read, List.append_nil] at this
  rw [patternIsRedosRisk, scanAt_eq, String.toList_ofList, List.drop_zero, hread]

theorem scan_plain {r : Regex} (h : r.PlainClasses) : scan r.tokens [] = r.visiblyNested := by
  have hscan : scan (r.tokens ++ []) [] = if r.visiblyNested then true else scan [] (if r.marked then note [] else []) :=
    scan_tokens r h (by simp) []
  rw [List.append_nil] at hscan
  rw [hscan]
  cases r.visiblyNested <;> simp [scan]

/-- The scan of a printed expression says whether a quantified group contains a quantified item. -/
def Agrees (r : Regex) : Prop := patternIsRedosRisk (String.ofList r.text) = .ok true ↔ r.nested = true

/-- **The scan ends without an index error on every text**, and agrees with the expression a text was printed from exactly
when what is read of it nests as the expression does: where no class that starts with a bracket has another member that means
something outside of a class, when the expression is visibly nested if it is nested at all. -/
theorem patternIsRedosRisk_iff (source : String) (r : Regex) : (∃ b, patternIsRedosRisk source = .ok b) ∧
    (Agrees r ↔ (Nests r.tokens ↔ r.nested = true)) ∧
      (r.PlainClasses → (Agrees r ↔ (r.nested = true → r.visiblyNested = true))) := by
  have hagrees : Agrees r ↔ (scan r.tokens [] = true ↔ r.nested = true) := by
    rw [Agrees, patternIsRedosRisk_text, Except.ok.injEq]
  refine ⟨⟨_, scanAt_eq _ _ _⟩, ?_, fun hplain => ?_⟩
  · rw [hagrees, scan_iff]
  · rw [hagrees, scan_plain hplain]
    exact ⟨Iff.mpr, fun h => ⟨nested_of_visiblyNested, h⟩⟩

/-- `(a{1,2})+`. -/
def countedInside : Regex :=
  .group .plain (.item (.literal 'a' (by decide)) (some ⟨.counted 1 2, false⟩) .empty) (some ⟨.plus, false⟩) .empty

/-- `([]*])+`. -/
def starInClass : Regex :=
  .group .plain (.item (.charClass ⟨false, true, [.char '*' (by decide)], .inl rfl, .inr (.inl rfl)⟩) none .empty)
    (some ⟨.plus, false⟩) .empty

/-- A counted quantifier is not seen, and a member of a class is taken for a quantifier. -/
theorem nesting_misjudged : ¬ Agrees countedInside ∧ ¬ Agrees starInClass := by
  constructor
  · rw [Agrees, patternIsRedosRisk_text]
    decide +kernel
  · rw [Agrees, patternIsRedosRisk_text]
    decide +kernel

end LcsSystem.Patterns

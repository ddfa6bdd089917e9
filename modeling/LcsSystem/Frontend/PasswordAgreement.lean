import LcsSystem.Frontend.PasswordPolicy
import LcsSystem.Lib.Entries

/-!
# What both sides accept

The same password passes on the client and on the server, except where the two lengths of a text lie on different sides of
a limit or where only `casefold` makes it a common password: `passwordPolicy_iff`. The generator writes a password of the
length it is asked for, and of six characters at least.
-/

namespace LcsSystem.PasswordPolicy
open Pairings

section
variable {tables : CaseTables} {s : Text} {c : CodePoint} {w : Text}

/-! ## The characters of a text and its code units -/

theorem length_codeUnits (c : CodePoint) : (codeUnits c).length = if c.val < 0x10000 then 1 else 2 := by
  unfold codeUnits
  split <;> rfl

theorem length_le_utf16 (s : Text) : s.length ≤ (utf16 s).length ∧ (utf16 s).length ≤ 2 * s.length := by
  induction s with
  | nil => exact ⟨le_rfl, le_rfl⟩
  | cons c s ih =>
    have hc := length_codeUnits c
    rw [utf16, List.flatMap_cons, List.length_append, List.length_cons]
    rw [utf16] at ih
    split at hc <;> omega

theorem length_utf16 (h : ∀ c ∈ s, c.val < 0x10000) : (utf16 s).length = s.length := by
  induction s with
  | nil => rfl
  | cons c s ih =>
    have hc := length_codeUnits c
    rw [if_pos (h c List.mem_cons_self)] at hc
    have := ih fun d hd => h d (List.mem_cons_of_mem _ hd)
    rw [utf16] at this
    rw [utf16, List.flatMap_cons, List.length_append, List.length_cons, hc, this, add_comm]

/-- A pattern that does not tell characters outside of ASCII apart finds the same in both. -/
theorem any_utf16 {p : ℕ → Bool} (hp : ∀ m n, 0x80 ≤ m → 0x80 ≤ n → p m = p n) (s : Text) :
    (utf16 s).any p = s.any fun c => p c.val := by
  have hunits : ∀ c, (codeUnits c).any p = p c.val := by
    intro c
    unfold codeUnits
    split
    · simp
    next h =>
      have hhigh := hp (0xD800 + (c.val - 0x10000) / 0x400) c.val (by omega) (by omega)
      have hlow := hp (0xDC00 + (c.val - 0x10000) % 0x400) c.val (by omega) (by omega)
      simp [hhigh, hlow]
  rw [utf16, List.any_flatMap]
  simp only [hunits]

/-- No character outside of ASCII is a letter or a digit of the patterns. -/
theorem classes_of_high {n : ℕ} (hn : 0x80 ≤ n) : isUpper n = false ∧ isLower n = false ∧ isDigit n = false := by
  refine ⟨?_, ?_, ?_⟩ <;> exact decide_eq_false (by omega)

/-! ## What each side asks for -/

/-- A character of each class. -/
structure Classes (s : Text) : Prop where
  uppercase : ∃ c ∈ s, isUpper c.val = true
  lowercase : ∃ c ∈ s, isLower c.val = true
  number : ∃ c ∈ s, isDigit c.val = true
  special : ∃ c ∈ s, isSpecial c.val = true

/-- A length within the limits. -/
def Fits (n : ℕ) : Prop := passwordMinLength ≤ n ∧ n ≤ passwordMaxLength

/-- A common password for the client, which looks at it without its surrounding blanks. -/
def CommonTrimmed (tables : CaseTables) (s : Text) : Prop := tables.toLowerCase (trim s) ∈ commonPasswords

def CommonFolded (tables : CaseTables) (s : Text) : Prop := tables.casefold s ∈ commonPasswords

theorem clientIssue_eq_none : clientIssue tables s = none ↔ Fits (utf16 s).length ∧ ¬CommonTrimmed tables s ∧ Classes s := by
  have hclass : ∀ p : ℕ → Bool, (∀ m n, 0x80 ≤ m → 0x80 ≤ n → p m = p n) →
      ((utf16 s).any p = true ↔ ∃ c ∈ s, p c.val = true) := by
    intro p hp
    rw [any_utf16 hp, List.any_eq_true]
  have hupper := hclass isUpper fun m n hm hn => by rw [(classes_of_high hm).1, (classes_of_high hn).1]
  have hlower := hclass isLower fun m n hm hn => by rw [(classes_of_high hm).2.1, (classes_of_high hn).2.1]
  have hdigit := hclass isDigit fun m n hm hn => by rw [(classes_of_high hm).2.2, (classes_of_high hn).2.2]
  have hspecial := hclass isSpecial fun m n hm hn => by simp [isSpecial, classes_of_high hm, classes_of_high hn]
  have hiff : Classes s ↔ (utf16 s).any isUpper = true ∧ (utf16 s).any isLower = true ∧ (utf16 s).any isDigit = true ∧
      (utf16 s).any isSpecial = true := by
    rw [hupper, hlower, hdigit, hspecial]
    exact ⟨fun h => ⟨h.1, h.2, h.3, h.4⟩, fun h => ⟨h.1, h.2.1, h.2.2.1, h.2.2.2⟩⟩
  have hite : ∀ (p : Prop) [Decidable p] (issue : ValidationIssue) (rest : Option ValidationIssue),
      (if p then some issue else rest) = none ↔ ¬p ∧ rest = none := by
    intro p _ issue rest
    split
    next h => exact ⟨fun hnone => absurd hnone (Option.some_ne_none issue), fun hnone => absurd h hnone.1⟩
    next h => exact ⟨fun hnone => ⟨h, hnone⟩, fun hnone => hnone.2⟩
  rw [hiff, Fits, CommonTrimmed, ← List.contains_iff_mem]
  simp only [clientIssue, passwordRequirements, hite, Bool.not_eq_true', decide_eq_false_iff_not, not_not,
    Bool.not_eq_false, and_true, and_assoc]

theorem serverErrors_eq_nil : serverErrors tables s = [] ↔ Fits s.length ∧ ¬CommonFolded tables s ∧ Classes s := by
  have hreports : ∀ (p : Prop) [Decidable p] (message : String), (if p then [message] else []) = [] ↔ ¬p := by
    intro p _ message
    split
    next h => exact ⟨fun hnil => absurd hnil (List.cons_ne_nil _ _), fun hnot => absurd h hnot⟩
    next h => exact iff_of_true rfl h
  have hiff : Classes s ↔ (s.any fun c => isUpper c.val) = true ∧ (s.any fun c => isLower c.val) = true ∧
      (s.any fun c => isDigit c.val) = true ∧ (s.any fun c => isSpecial c.val) = true := by
    simp only [List.any_eq_true]
    exact ⟨fun h => ⟨h.1, h.2, h.3, h.4⟩, fun h => ⟨h.1, h.2.1, h.2.2.1, h.2.2.2⟩⟩
  rw [hiff, Fits, CommonFolded, ← List.contains_iff_mem]
  simp only [serverErrors, List.append_eq_nil_iff, hreports, Bool.not_eq_true', Bool.not_eq_false, decide_eq_true_eq,
    not_lt, and_assoc]

/-! ## Common passwords -/

theorem isSpecial_lowerAscii (h : isSpecial c.val = true) : lowerAscii c = c := by
  unfold lowerAscii
  rw [if_neg]
  simp_all [isSpecial]

/-- Common passwords are made of small letters other than k, and of digits. -/
theorem common_characters : ∀ w ∈ commonPasswords, ∀ d ∈ w, d.val < 0x80 ∧ isSpecial d.val = false ∧ d ≠ 0x6B := by
  have hall : (commonPasswords.all fun w => w.all fun d => decide (d.val < 0x80 ∧ isSpecial d.val = false ∧ d ≠ 0x6B)) =
      true := by decide +kernel
  intro w hw d hd
  exact of_decide_eq_true (List.all_eq_true.1 (List.all_eq_true.1 hall w hw) d hd)

theorem not_special_of_lowered (hw : w ∈ commonPasswords) (h : tables.toLowerCase s = w) (hc : c ∈ s) :
    isSpecial c.val = false := by
  obtain ⟨pieces, hpieces, hlower⟩ := tables.lowered s
  obtain ⟨piece, hpiece, hR⟩ := exists_of_forall₂ hpieces.flip hc
  have hmem : ∀ d ∈ piece, d ∈ w := by
    intro d hd
    rw [← h, hlower]
    exact List.mem_flatten_of_mem hpiece hd
  by_contra hspecial
  rw [Bool.not_eq_false] at hspecial
  cases hR with
  | ascii _ =>
    have := (common_characters w hw _ (hmem _ List.mem_cons_self)).2.1
    rw [isSpecial_lowerAscii hspecial, hspecial] at this
    cases this
  | kelvin => exact (common_characters w hw _ (hmem _ List.mem_cons_self)).2.2 rfl
  | other _ h =>
    obtain ⟨d, hd, hhigh⟩ := h
    exact absurd (common_characters w hw d (hmem d hd)).1 (not_lt.2 hhigh)

theorem foldings_basic : ∀ e ∈ foldings, 0x80 ≤ e.1.val ∧ e.1.val < 0x10000 := by
  decide +kernel

/-- What folds to a common password is of the basic plane, and an ASCII character of it is a letter or a digit. -/
theorem basic_of_folded (hw : w ∈ commonPasswords) (h : tables.casefold s = w) (hc : c ∈ s) :
    c.val < 0x10000 ∧ (c.val < 0x80 → isSpecial c.val = false) := by
  obtain ⟨pieces, hpieces, hfold⟩ := tables.folded s
  obtain ⟨piece, hpiece, hR⟩ := exists_of_forall₂ hpieces.flip hc
  have hmem : ∀ d ∈ piece, d ∈ w := by
    intro d hd
    rw [← h, hfold]
    exact List.mem_flatten_of_mem hpiece hd
  cases hR with
  | ascii hascii =>
    refine ⟨by omega, fun _ => ?_⟩
    by_contra hspecial
    rw [Bool.not_eq_false] at hspecial
    have := (common_characters w hw _ (hmem _ List.mem_cons_self)).2.1
    rw [isSpecial_lowerAscii hspecial, hspecial] at this
    cases this
  | letters hletters =>
    have hbasic := foldings_basic _ hletters
    exact ⟨hbasic.2, fun hascii => absurd hascii (not_lt.2 hbasic.1)⟩
  | other _ h =>
    obtain ⟨d, hd, hhigh⟩ := h
    exact absurd (common_characters w hw d (hmem d hd)).1 (not_lt.2 hhigh)

/-- With a special character, it is the surrounding blanks that make a password common for the client. -/
theorem trim_ne_of_common (hspecial : ∃ c ∈ s, isSpecial c.val = true) (h : CommonTrimmed tables s) : trim s ≠ s := by
  intro htrim
  rw [CommonTrimmed, htrim] at h
  obtain ⟨c, hc, hspecial⟩ := hspecial
  rw [not_special_of_lowered h rfl hc] at hspecial
  cases hspecial

theorem length_utf16_of_folded (h : CommonFolded tables s) : (utf16 s).length = s.length :=
  length_utf16 fun _ hc => (basic_of_folded h rfl hc).1

/-! ## Where the two sides agree -/

/-- The two lengths of a text lie on different sides of a limit. -/
def Straddles (s : Text) : Prop :=
  s.length < passwordMinLength ∧ passwordMinLength ≤ (utf16 s).length ∨
    s.length ≤ passwordMaxLength ∧ passwordMaxLength < (utf16 s).length

theorem straddles_iff : Straddles s ↔ ¬(Fits (utf16 s).length ↔ Fits s.length) := by
  obtain ⟨hle, hdouble⟩ := length_le_utf16 s
  unfold Straddles Fits passwordMinLength passwordMaxLength
  omega

/-- Either side accepts what the other one does; a common password between blanks is the server's alone. -/
def SidesAgree (tables : CaseTables) (s : Text) : Prop :=
  (clientIssue tables s = none → serverErrors tables s = []) ∧
    (serverErrors tables s = [] → clientIssue tables s = none ∨ trim s ≠ s ∧ CommonTrimmed tables s)

theorem sidesAgree_iff : SidesAgree tables s ↔
    (Classes s → ¬CommonTrimmed tables s → ¬Straddles s ∧ ¬(Fits s.length ∧ CommonFolded tables s)) := by
  rw [SidesAgree, clientIssue_eq_none, serverErrors_eq_nil, straddles_iff, not_not]
  constructor
  · rintro ⟨hserver, hclient⟩ hclasses htrimmed
    have hfits : ¬(Fits s.length ∧ CommonFolded tables s) := by
      rintro ⟨hfits, hfolded⟩
      have hunits : Fits (utf16 s).length := by rwa [length_utf16_of_folded hfolded]
      exact (hserver ⟨hunits, htrimmed, hclasses⟩).2.1 hfolded
    refine ⟨⟨fun h => (hserver ⟨h, htrimmed, hclasses⟩).1, fun h => ?_⟩, hfits⟩
    rcases hclient ⟨h, fun hfolded => hfits ⟨h, hfolded⟩, hclasses⟩ with h | h
    · exact h.1
    · exact absurd h.2 htrimmed
  · intro h
    refine ⟨?_, ?_⟩
    · rintro ⟨hfits, htrimmed, hclasses⟩
      obtain ⟨hlengths, hfolded⟩ := h hclasses htrimmed
      exact ⟨hlengths.1 hfits, fun hcommon => hfolded ⟨hlengths.1 hfits, hcommon⟩, hclasses⟩
    · rintro ⟨hfits, -, hclasses⟩
      by_cases htrimmed : CommonTrimmed tables s
      · exact .inr ⟨trim_ne_of_common hclasses.special htrimmed, htrimmed⟩
      · exact .inl ⟨(h hclasses htrimmed).1.2 hfits, htrimmed, hclasses⟩

/-! ## The generated password -/

variable {size : ℕ} {length : ℤ} {random : ℕ → Fin 256} {body : Text}

theorem pick_mem {source : Text} (hsource : source ≠ []) (byte : Fin 256) : pick source byte ∈ source := by
  have hpos : byte.val % source.length < source.length := Nat.mod_lt _ (List.length_pos_iff.2 hsource)
  rw [pick, List.getD_eq_getElem _ _ hpos]
  exact List.getElem_mem hpos

theorem upper_classes : upper.all (fun c => isUpper c.val) = true := by decide +kernel
theorem lower_classes : lower.all (fun c => isLower c.val) = true := by decide +kernel
theorem digits_classes : digits.all (fun c => isDigit c.val) = true := by decide +kernel

theorem symbols_classes :
    symbols.all (fun c => isSpecial c.val && decide (c.val < 0x80) && !Frontend.isWhiteSpace c.val) = true := by
  decide +kernel

theorem isUpper_pick (byte : Fin 256) : isUpper (pick upper byte).val = true :=
  List.all_eq_true.1 upper_classes _ (pick_mem (by decide) byte)

theorem isLower_pick (byte : Fin 256) : isLower (pick lower byte).val = true :=
  List.all_eq_true.1 lower_classes _ (pick_mem (by decide) byte)

theorem isDigit_pick (byte : Fin 256) : isDigit (pick digits byte).val = true :=
  List.all_eq_true.1 digits_classes _ (pick_mem (by decide) byte)

/-- A letter or a digit. -/
def Alphanumeric (c : CodePoint) : Prop := isSpecial c.val = false

theorem alphanumeric_pick (byte : Fin 256) : Alphanumeric (pick alphabet byte) := by
  have hmem : pick alphabet byte ∈ upper ++ lower ++ digits := pick_mem (by decide) byte
  rcases List.mem_append.1 hmem with h | h
  · rcases List.mem_append.1 h with h | h
    · simp [Alphanumeric, isSpecial, List.all_eq_true.1 upper_classes _ h]
    · simp [Alphanumeric, isSpecial, List.all_eq_true.1 lower_classes _ h]
  · simp [Alphanumeric, isSpecial, List.all_eq_true.1 digits_classes _ h]

theorem not_white_of_alphanumeric (h : Alphanumeric c) : Frontend.isWhiteSpace c.val = false ∧ c.val < 0x80 := by
  simp only [Alphanumeric, isSpecial, isUpper, isLower, isDigit, Bool.not_eq_false', Bool.or_eq_true,
    decide_eq_true_eq] at h
  refine ⟨?_, by omega⟩
  simp only [Frontend.isWhiteSpace, Bool.or_eq_false_iff, decide_eq_false_iff_not, List.contains_eq_mem, List.mem_cons,
    List.not_mem_nil, or_false]
  omega

/-- Three slots that follow one another are apart. -/
theorem slots_apart {span offset : ℕ} (hspan : 3 ≤ span) (hoffset : offset < span) :
    (offset + 1) % span < span ∧ (offset + 2) % span < span ∧ (offset + 1) % span ≠ offset ∧
      (offset + 2) % span ≠ offset ∧ (offset + 2) % span ≠ (offset + 1) % span := by
  have hmod : ∀ k, k ≤ 2 → (offset + k) % span = if offset + k < span then offset + k else offset + k - span := by
    intro k hk
    split
    next h => exact Nat.mod_eq_of_lt h
    next h =>
      rw [Nat.mod_eq_sub_mod (by omega), Nat.mod_eq_of_lt (by omega)]
  rw [hmod 1 (by omega), hmod 2 le_rfl]
  split <;> split <;> omega

theorem mem_dropLast {i : ℕ} (h : body[i]? = some c) (hi : i + 1 < body.length) : c ∈ body.dropLast := by
  refine List.mem_of_getElem? (i := i) ?_
  rw [List.getElem?_dropLast, if_pos (by omega), h]

theorem length_placeClasses : (placeClasses size random body).length = body.length := by
  simp [placeClasses]

/-- The classes stand before the last character of the body. -/
theorem classes_placed (random : ℕ → Fin 256) (hsize : 6 ≤ size) (hbody : body.length = size - 1) :
    pick upper (random (size + 1)) ∈ (placeClasses size random body).dropLast ∧
      pick lower (random (size + 2)) ∈ (placeClasses size random body).dropLast ∧
      pick digits (random (size + 3)) ∈ (placeClasses size random body).dropLast := by
  have hoffset : (random size).val % (size - 2) < size - 2 := Nat.mod_lt _ (by omega)
  obtain ⟨hfirst, hsecond, hne, hne', hne''⟩ := slots_apart (by omega) hoffset
  refine ⟨mem_dropLast (i := (random size).val % (size - 2)) ?_ ?_,
    mem_dropLast (i := ((random size).val % (size - 2) + 1) % (size - 2)) ?_ ?_,
    mem_dropLast (i := ((random size).val % (size - 2) + 2) % (size - 2)) ?_ ?_⟩
  · rw [placeClasses, List.getElem?_set_ne hne', List.getElem?_set_ne hne, List.getElem?_set_self (by omega)]
  · rw [length_placeClasses]
    omega
  · rw [placeClasses, List.getElem?_set_ne hne'', List.getElem?_set_self (by rw [List.length_set]; omega)]
  · rw [length_placeClasses]
    omega
  · rw [placeClasses, List.getElem?_set_self (by rw [List.length_set, List.length_set]; omega)]
  · rw [length_placeClasses]
    omega

theorem alphanumeric_placed (hbody : ∀ c ∈ body, Alphanumeric c) (hc : c ∈ placeClasses size random body) :
    Alphanumeric c := by
  rcases List.mem_or_eq_of_mem_set hc with hc | rfl
  · rcases List.mem_or_eq_of_mem_set hc with hc | rfl
    · rcases List.mem_or_eq_of_mem_set hc with hc | rfl
      · exact hbody c hc
      · simp [Alphanumeric, isSpecial, isUpper_pick]
    · simp [Alphanumeric, isSpecial, isLower_pick]
  · simp [Alphanumeric, isSpecial, isDigit_pick]

/-- Letters, digits and one symbol, with a character of each class. -/
structure Generated (size : ℕ) (s : Text) : Prop where
  length_eq : s.length = size
  classes : Classes s
  symbol : ∃ c ∈ s, isSpecial c.val = true ∧ c.val < 0x80
  plain : ∀ c ∈ s, Frontend.isWhiteSpace c.val = false ∧ c.val < 0x80

theorem generated (random : ℕ → Fin 256) (hquota : (max length 6).toNat + 8 ≤ 65536) :
    ∃ s, generateStrongPassword length random = some s ∧ Generated (max length 6).toNat s := by
  rw [generateStrongPassword, if_neg (by omega)]
  set size := (max length 6).toNat with hsize
  have hsix : 6 ≤ size := by omega
  set body := (List.range (size - 1)).map fun index => pick alphabet (random index)
  have hlength : body.length = size - 1 := by simp [body]
  have hbody : ∀ c ∈ body, Alphanumeric c := by
    intro c hc
    obtain ⟨index, -, rfl⟩ := List.mem_map.1 hc
    exact alphanumeric_pick _
  have hsymbol := List.all_eq_true.1 symbols_classes _ (pick_mem (by decide) (random (size + 4)))
  simp only [Bool.and_eq_true, decide_eq_true_eq, Bool.not_eq_true'] at hsymbol
  obtain ⟨hupper, hlower, hdigit⟩ := classes_placed random hsix hlength
  set placed := placeClasses size random body
  have hplaced : placed.length = size - 1 := length_placeClasses.trans hlength
  have hne : placed ≠ [] := List.length_pos_iff.1 (by omega)
  have hlast := List.getLast?_eq_some_getLast hne
  refine ⟨_, rfl, ?_, ⟨⟨_, List.mem_append_left _ hupper, isUpper_pick _⟩, ⟨_, List.mem_append_left _ hlower, isLower_pick _⟩,
    ⟨_, List.mem_append_left _ hdigit, isDigit_pick _⟩, _, List.mem_append_right _ List.mem_cons_self, hsymbol.1.1⟩,
    ⟨_, List.mem_append_right _ List.mem_cons_self, hsymbol.1⟩, ?_⟩
  · rw [hlast, List.length_append, List.length_dropLast, hplaced]
    simp
    omega
  · intro c hc
    rw [hlast, List.mem_append, List.mem_cons] at hc
    rcases hc with hc | rfl | hc
    · exact not_white_of_alphanumeric (alphanumeric_placed hbody (List.mem_of_mem_dropLast hc))
    · exact ⟨hsymbol.2, hsymbol.1.2⟩
    · rw [Option.toList_some, List.mem_singleton] at hc
      obtain rfl := hc
      exact not_white_of_alphanumeric (alphanumeric_placed hbody (List.mem_of_getLast? hlast))

/-- Its length alone decides on a generated password. -/
theorem Generated.accepted_iff (h : Generated size s) :
    (clientIssue tables s = none ∧ serverErrors tables s = []) ↔ Fits size := by
  have hunits : (utf16 s).length = s.length := length_utf16 fun c hc => lt_trans (h.plain c hc).2 (by norm_num)
  obtain ⟨c, hc, hspecial, hascii⟩ := h.symbol
  have htrim : trim s = s := Frontend.trimWhere_of_forall fun c hc => (h.plain c hc).1
  have htrimmed : ¬CommonTrimmed tables s := by
    intro hcommon
    rw [CommonTrimmed, htrim] at hcommon
    rw [not_special_of_lowered hcommon rfl hc] at hspecial
    cases hspecial
  have hfolded : ¬CommonFolded tables s := by
    intro hcommon
    rw [(basic_of_folded hcommon rfl hc).2 hascii] at hspecial
    cases hspecial
  rw [clientIssue_eq_none, serverErrors_eq_nil, hunits, h.length_eq]
  exact ⟨fun haccepted => haccepted.1.1, fun hfits => ⟨⟨hfits, htrimmed, h.classes⟩, hfits, hfolded, h.classes⟩⟩

end

/-- **One password policy.** The sides agree on a text unless it has every class, is no common password between blanks, and
either its lengths lie on different sides of a limit or it is a common password only once it is folded; and what the
generator returns passes on both exactly for the lengths from 8 to 128. -/
theorem passwordPolicy_iff (tables : CaseTables) :
    (∀ s, SidesAgree tables s ↔
      (Classes s → ¬CommonTrimmed tables s → ¬Straddles s ∧ ¬(Fits s.length ∧ CommonFolded tables s))) ∧
      ∀ (length : ℤ) (random : ℕ → Fin 256),
        (∃ s, generateStrongPassword length random = some s ∧ clientIssue tables s = none ∧ serverErrors tables s = []) ↔
          8 ≤ length ∧ length ≤ 128 := by
  refine ⟨fun s => sidesAgree_iff, fun length random => ?_⟩
  by_cases hquota : (max length 6).toNat + 8 ≤ 65536
  · obtain ⟨s, hs, hgenerated⟩ := generated random hquota
    rw [hs]
    simp only [Option.some.injEq, exists_eq_left', hgenerated.accepted_iff, Fits, passwordMinLength, passwordMaxLength]
    omega
  · rw [generateStrongPassword, if_pos (by omega)]
    simp only [reduceCtorEq, false_and, exists_false, false_iff]
    omega

def plainFold (c : CodePoint) : Text := (foldings.lookup c).getD [lowerAscii c]

theorem lowerAscii_of_high {c : CodePoint} (h : 0x80 ≤ c.val) : lowerAscii c = c := by
  rw [lowerAscii, if_neg]
  rw [(classes_of_high h).1]
  exact Bool.false_ne_true

theorem plainLower_lowered (s : Text) :
    ∃ pieces, List.Forall₂ Lowered s pieces ∧ s.flatMap plainLower = pieces.flatten := by
  refine ⟨s.map plainLower, ?_, rfl⟩
  rw [List.forall₂_map_right_iff, List.forall₂_same]
  intro c _
  unfold plainLower
  split
  next h =>
    rw [h]
    exact .kelvin
  · rcases lt_or_ge c.val 0x80 with hascii | hhigh
    · exact .ascii hascii
    · exact .other hhigh ⟨c, by rw [lowerAscii_of_high hhigh]; exact List.mem_cons_self, hhigh⟩

theorem plainFold_folded (s : Text) : ∃ pieces, List.Forall₂ Folded s pieces ∧ s.flatMap plainFold = pieces.flatten := by
  refine ⟨s.map plainFold, ?_, rfl⟩
  rw [List.forall₂_map_right_iff, List.forall₂_same]
  intro c _
  unfold plainFold
  cases hlookup : foldings.lookup c with
  | some piece => exact .letters (Entries.mem_of_lookup hlookup)
  | none =>
    rcases lt_or_ge c.val 0x80 with hascii | hhigh
    · exact .ascii hascii
    · exact .other hhigh ⟨c, by rw [Option.getD_none, lowerAscii_of_high hhigh]; exact List.mem_cons_self, hhigh⟩

/-- The tables where nothing but the listed characters changes outside of ASCII. -/
def plainTables : CaseTables where
  toLowerCase s := s.flatMap plainLower
  casefold s := s.flatMap plainFold
  lowered := plainLower_lowered
  folded := plainFold_folded

/-- Three characters that the client counts twice; a long s, which the client takes for a special character; and a
generated password of seven characters. -/
theorem sides_differ :
    ¬SidesAgree plainTables (text "Aa1" ++ [0x1F600, 0x1F600, 0x1F600]) ∧ ¬SidesAgree plainTables (text "Paſſword123") ∧
      (generateStrongPassword 7 fun _ => 0).map (clientIssue plainTables) =
        some (some ⟨"passwordMinLength", [("minLength", 8)]⟩) := by
  refine ⟨fun h => ?_, fun h => ?_, by decide +kernel⟩
  · exact absurd (h.1 (by decide +kernel)) (by decide +kernel)
  · exact absurd (h.1 (by decide +kernel)) (by decide +kernel)

end LcsSystem.PasswordPolicy

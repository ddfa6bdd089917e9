import LcsSystem.Lib.Normalize
import LcsSystem.Core.RecordSchemas
import LcsSystem.Operations.Containers
import LcsSystem.Backup.Export

/-!
# Values in cells

`_normalize` and `_coerce_value` of `src/backend/app/modules/backup/service.py:183-196, 621-646`: a value of a column on its
way into a worksheet and back.

| here                 | there                                                                              |
|----------------------|------------------------------------------------------------------------------------|
| `ColumnType.numeric` | `Numeric` with its scale: a value comes with that many decimals                     |
| `Value.json`         | the value of a JSON column                                                           |
| `JsonReader.loads`   | `json.loads`                                                                         |
| `Display.shows`      | what a cell reads as in the answer of the worksheet, which holds texts as they are    |

A time has its offset in minutes; `datetime.fromisoformat` reads the texts that `isoformat` writes.
-/

namespace LcsSystem.Backup
open Calendar DecimalArith Schemas

inductive ColumnType
  | boolean
  | integer
  | numeric (scale : ℕ)
  | dateTime
  | date
  | json
  | text
  deriving DecidableEq

inductive Value
  | null
  | bool (b : Bool)
  | int (z : ℤ)
  | decimal (d : Decimal)
  | dateTime (t : DateTime)
  | date (d : Date)
  | json (v : Json)
  | text (s : String)
  deriving DecidableEq

/-! ## Texts -/

/-- `str` of a decimal. -/
def decimalStr (d : Decimal) : String :=
  let digits := (toString d.coefficient.natAbs).toList
  let leftDigits := d.exponent + digits.length
  let dot := if d.exponent ≤ 0 ∧ -6 < leftDigits then leftDigits else 1
  let whole := if dot ≤ 0 then ['0'] else digits.take dot.toNat
  let fraction := if dot ≤ 0 then List.replicate (-dot).toNat '0' ++ digits else digits.drop dot.toNat
  String.ofList ((if d.coefficient < 0 then ['-'] else []) ++ whole ++ (if fraction = [] then [] else '.' :: fraction) ++
    if leftDigits = dot then []
    else 'E' :: (if leftDigits < dot then '-' else '+') :: (toString (leftDigits - dot).natAbs).toList)

def offsetText : Option ℤ → List Char
  | none => []
  | some m => (if m < 0 then '-' else '+') :: padded 2 (m.natAbs / 60) ++ ':' :: padded 2 (m.natAbs % 60)

/-- `t.isoformat()`. -/
def isoTime (t : DateTime) : String :=
  let seconds := t.clock / 1000000
  let micros := t.clock % 1000000
  String.ofList ((isoformat t.date).toList ++ 'T' :: padded 2 (seconds / 3600) ++ ':' :: padded 2 (seconds / 60 % 60) ++
    ':' :: padded 2 (seconds % 60) ++ (if micros = 0 then [] else '.' :: padded 6 micros) ++ offsetText t.offset)

def readOffset : List Char → Option (Option ℤ)
  | [] => some none
  | [sign, h₁, h₂, ':', m₁, m₂] =>
    match digits? (String.ofList [h₁, h₂]), digits? (String.ofList [m₁, m₂]) with
    | some h, some m =>
      if 24 ≤ h ∨ 60 ≤ m then none
      else if sign = '+' then some (some (60 * h + m : ℕ))
      else if sign = '-' then some (some (-(60 * h + m : ℕ)))
      else none
    | _, _ => none
  | _ => none

/-- The microseconds, and what stands behind them. -/
def readMicros : List Char → Option ℕ × List Char
  | '.' :: d₁ :: d₂ :: d₃ :: d₄ :: d₅ :: d₆ :: rest => (digits? (String.ofList [d₁, d₂, d₃, d₄, d₅, d₆]), rest)
  | rest => (some 0, rest)

def readClock : List Char → Option (ℕ × Option ℤ)
  | h₁ :: h₂ :: ':' :: m₁ :: m₂ :: ':' :: s₁ :: s₂ :: rest =>
    match digits? (String.ofList [h₁, h₂]), digits? (String.ofList [m₁, m₂]), digits? (String.ofList [s₁, s₂]),
      (readMicros rest).1, readOffset (readMicros rest).2 with
    | some h, some m, some s, some micros, some offset =>
      if h < 24 ∧ m < 60 ∧ s < 60 then some (((h * 60 + m) * 60 + s) * 1000000 + micros, offset) else none
    | _, _, _, _, _ => none
  | _ => none

/-- `datetime.fromisoformat(text)`. -/
def fromIsoTime (text : List Char) : Option DateTime :=
  match readDate text, text.drop 10 with
  | some d, [] => some ⟨d, 0, none⟩
  | some d, _ :: clock => (readClock clock).map fun time => ⟨d, time.1, time.2⟩
  | none, _ => none

/-- The sign, and what stands behind it. -/
def unsigned : List Char → Bool × List Char
  | '-' :: cs => (true, cs)
  | '+' :: cs => (false, cs)
  | cs => (false, cs)

/-- The exponent in what stands behind the mantissa. -/
def readExponent : List Char → Option ℤ
  | [] => some 0
  | _ :: cs => integerText cs

/-- `Decimal(text)` of a finite number. -/
def decimalOfText (s : String) : Option Decimal :=
  let number := unsigned (stripChars s.toList)
  let mantissa := number.2.takeWhile fun c => c ≠ 'e' && c ≠ 'E'
  let whole := mantissa.takeWhile fun c => c ≠ '.'
  let fraction := (mantissa.dropWhile fun c => c ≠ '.').drop 1
  match digits? (String.ofList (whole ++ fraction)), readExponent (number.2.dropWhile fun c => c ≠ 'e' && c ≠ 'E') with
  | some n, some e => some ⟨if number.1 then -n else n, e - fraction.length⟩
  | _, _ => none

/-- `int(float(text))`. -/
def intOfText (text : String) : Option ℤ :=
  (decimalOfText text).map fun d => if double d.value < 0 then -⌊-double d.value⌋ else ⌊double d.value⌋

/-! ## Into a cell and back -/

/-- `_normalize`. -/
def normalize : Value → Json
  | .null => .null
  | .bool b => .bool b
  | .int z => .num z
  | .decimal d => .str (decimalStr d)
  | .dateTime t => .str (isoTime t)
  | .date d => .str (isoformat d)
  | .json v => v
  | .text s => .str s

/-- `_coerce_value` of the text of a cell. -/
def coerceValue (loads : String → Option Json) (type : ColumnType) (raw : String) : Value :=
  if raw = "" then .null
  else
    match type with
    | .boolean => .bool (["1", "true", "t", "yes", "y"].contains (lower (strip raw)))
    | .integer => (intOfText raw).elim .null .int
    | .numeric _ => (decimalOfText raw).elim .null .decimal
    | .dateTime => (fromIsoTime raw.toList).elim .null .dateTime
    | .date => (readDate raw.toList).elim .null .date
    | .json => (loads raw).elim .null .json
    | .text => .text raw

structure JsonReader where
  loads : String → Option Json
  loads_empty : loads "" = none

/-- A JSON value is read back from its text. -/
def JsonReader.reads (reader : JsonReader) (codec : Codec) : Value → Bool
  | .json v => decide (reader.loads (codec.dumps v) = some v)
  | _ => true

structure Display where
  shows : Json → String
  text : ∀ s, shows (.str s) = s
  bool : ∀ b, lower (strip (shows (.bool b))) = if b then "true" else "false"
  /-- A number of at most fifteen digits. -/
  whole : ∀ z : ℤ, z.natAbs < 10 ^ 15 → shows (.num z) = toString z

/-- The values that a column of a type holds. An integer has at most fifteen digits, a JSON value is an object or a list. -/
def ColumnType.holds : ColumnType → Value → Bool
  | _, .null => true
  | .boolean, .bool _ => true
  | .integer, .int z => decide (z.natAbs < 10 ^ 15)
  | .numeric scale, .decimal d => decide (d.exponent = -scale)
  | .dateTime, .dateTime t => decide (1 ≤ t.date.year ∧ t.date.year < 10000 ∧ t.clock < 86400000000) &&
    t.offset.all fun m => decide (m.natAbs < 1440)
  | .date, .date d => decide (1 ≤ d.year ∧ d.year < 10000)
  | .json, .json (.dict _) => true
  | .json, .json (.list _) => true
  | .text, .text _ => true
  | _, _ => false

/-- What comes back: empty text is lost. -/
def Value.broughtBack : Value → Value
  | .text s => if s = "" then .null else .text s
  | value => value

/-! ## Dates and times -/

theorem readDate_isoformat {d : Date} (hyear : 1 ≤ d.year ∧ d.year < 10000) (rest : List Char) :
    readDate ((isoformat d).toList ++ rest) = some d := by
  obtain ⟨y₁, y₂, y₃, y₄, hy⟩ : ∃ a b c e, padded 4 d.year = [a, b, c, e] := by
    match hcs : padded 4 d.year, length_padded (w := 4) (by decide) hyear.2 with
    | [a, b, c, e], _ => exact ⟨a, b, c, e, rfl⟩
  obtain ⟨m₁, m₂, hm⟩ := padded_two (n := d.month) (by have := d.month_le; omega)
  obtain ⟨d₁, d₂, hd⟩ := padded_two (n := d.day) (by have := d.day_le.trans (daysInMonth_le _ _); omega)
  have hyear4 := digits?_padded 4 d.year
  have hmonth2 := digits?_padded 2 d.month
  have hday2 := digits?_padded 2 d.day
  rw [hy] at hyear4
  rw [hm] at hmonth2
  rw [hd] at hday2
  have htext : (isoformat d).toList = [y₁, y₂, y₃, y₄, '-', m₁, m₂, '-', d₁, d₂] := by
    rw [isoformat, String.toList_ofList, hy, hm, hd]
    rfl
  rw [htext]
  simp only [readDate, List.cons_append, List.nil_append, List.take_succ_cons, List.take_zero, hyear4, hmonth2, hday2]
  rw [dif_pos ⟨hyear.1, d.month_pos, d.month_le, d.day_pos, d.day_le⟩]

theorem length_isoformat {d : Date} (hyear : d.year < 10000) : (isoformat d).toList.length = 10 := by
  rw [isoformat, String.toList_ofList]
  simp only [List.length_append, List.length_cons]
  rw [length_padded (by decide) hyear, length_padded (by decide) (by have := d.month_le; omega),
    length_padded (by decide) (by have := d.day_le.trans (daysInMonth_le _ _); omega)]

/-- The offset of a time as `isoformat` writes it. -/
theorem readOffset_written {offset : Option ℤ} (h : ∀ m ∈ offset, m.natAbs < 1440) :
    readOffset (offsetText offset) = some offset := by
  cases offset with
  | none => rfl
  | some m =>
    have hm : m.natAbs < 1440 := h m rfl
    obtain ⟨h₁, h₂, hhours⟩ := padded_two (n := m.natAbs / 60) (by omega)
    obtain ⟨m₁, m₂, hminutes⟩ := padded_two (n := m.natAbs % 60) (by omega)
    have hours := digits?_padded 2 (m.natAbs / 60)
    have minutes := digits?_padded 2 (m.natAbs % 60)
    rw [hhours] at hours
    rw [hminutes] at minutes
    simp only [offsetText, hhours, hminutes, List.cons_append, List.nil_append, readOffset, hours, minutes]
    rw [if_neg (by omega)]
    by_cases hneg : m < 0
    · simp only [if_pos hneg]
      rw [if_neg (by decide), if_pos trivial]
      congr 2
      omega
    · simp only [if_neg hneg]
      rw [if_pos trivial]
      congr 2
      omega

theorem readMicros_written {micros : ℕ} (h : micros < 1000000) {rest : List Char} (hrest : rest.head? ≠ some '.') :
    readMicros ((if micros = 0 then [] else '.' :: padded 6 micros) ++ rest) = (some micros, rest) := by
  by_cases hzero : micros = 0
  · rw [if_pos hzero, hzero, List.nil_append]
    unfold readMicros
    split
    · exact absurd rfl hrest
    · rfl
  · have hdigits := digits?_padded 6 micros
    rw [if_neg hzero]
    match hcs : padded 6 micros, length_padded (w := 6) (by decide) h with
    | [d₁, d₂, d₃, d₄, d₅, d₆], _ =>
      rw [hcs] at hdigits
      simp only [List.cons_append, List.nil_append, readMicros, hdigits]

theorem fromIsoTime_isoTime {t : DateTime} (hyear : 1 ≤ t.date.year ∧ t.date.year < 10000) (hclock : t.clock < 86400000000)
    (hoffset : ∀ m ∈ t.offset, m.natAbs < 1440) : fromIsoTime (isoTime t).toList = some t := by
  obtain ⟨h₁, h₂, hhours⟩ := padded_two (n := t.clock / 1000000 / 3600) (by omega)
  obtain ⟨m₁, m₂, hminutes⟩ := padded_two (n := t.clock / 1000000 / 60 % 60) (by omega)
  obtain ⟨s₁, s₂, hseconds⟩ := padded_two (n := t.clock / 1000000 % 60) (by omega)
  have hours := digits?_padded 2 (t.clock / 1000000 / 3600)
  have minutes := digits?_padded 2 (t.clock / 1000000 / 60 % 60)
  have seconds := digits?_padded 2 (t.clock / 1000000 % 60)
  rw [hhours] at hours
  rw [hminutes] at minutes
  rw [hseconds] at seconds
  have hhead : (offsetText t.offset).head? ≠ some '.' := by
    cases t.offset with
    | none => simp [offsetText]
    | some m => by_cases hneg : m < 0 <;> simp [offsetText, hneg]
  have htext : (isoTime t).toList = (isoformat t.date).toList ++ 'T' :: h₁ :: h₂ :: ':' :: m₁ :: m₂ :: ':' :: s₁ :: s₂ ::
      ((if t.clock % 1000000 = 0 then [] else '.' :: padded 6 (t.clock % 1000000)) ++ offsetText t.offset) := by
    simp only [isoTime, String.toList_ofList, hhours, hminutes, hseconds, List.cons_append, List.nil_append,
      List.append_assoc]
  have hbound : t.clock % 1000000 < 1000000 := Nat.mod_lt _ (by decide)
  have hmicros := readMicros_written hbound hhead
  have hdrop : (isoTime t).toList.drop 10 = 'T' :: h₁ :: h₂ :: ':' :: m₁ :: m₂ :: ':' :: s₁ :: s₂ ::
      ((if t.clock % 1000000 = 0 then [] else '.' :: padded 6 (t.clock % 1000000)) ++ offsetText t.offset) := by
    rw [htext, List.drop_left' (length_isoformat hyear.2)]
  have hdate : readDate (isoTime t).toList = some t.date := by rw [htext, readDate_isoformat hyear]
  simp only [fromIsoTime, hdate, hdrop, readClock, hours, minutes, seconds, hmicros, readOffset_written hoffset]
  rw [if_pos ⟨by omega, by omega, by omega⟩, Option.map_some]
  have hsum : ((t.clock / 1000000 / 3600 * 60 + t.clock / 1000000 / 60 % 60) * 60 + t.clock / 1000000 % 60) * 1000000 +
      t.clock % 1000000 = t.clock := by omega
  rw [hsum]

/-! ## Decimals -/

theorem ne_of_isDigit {c d : Char} (hc : c.isDigit = true) (hd : d.isDigit = false) : c ≠ d := by
  rintro rfl
  exact Bool.false_ne_true (hd.symm.trans hc)

/-- Digits with a point between them and what stands behind the mantissa. -/
theorem mantissa_split {whole fraction tail : List Char} (hwhole : ∀ c ∈ whole, c.isDigit = true)
    (hfraction : ∀ c ∈ fraction, c.isDigit = true) (htail : tail = [] ∨ ∃ cs, tail = 'E' :: cs) :
    let mantissa := whole ++ if fraction = [] then [] else '.' :: fraction
    (mantissa ++ tail).takeWhile (fun c => c ≠ 'e' && c ≠ 'E') = mantissa ∧
      (mantissa ++ tail).dropWhile (fun c => c ≠ 'e' && c ≠ 'E') = tail ∧
      mantissa.takeWhile (fun c => c ≠ '.') = whole ∧ (mantissa.dropWhile fun c => c ≠ '.').drop 1 = fraction := by
  intro mantissa
  have hpoint : ∀ c ∈ whole, decide (c ≠ '.') = true :=
    fun c hc => decide_eq_true (ne_of_isDigit (hwhole c hc) (by decide))
  have hmantissa : ∀ c ∈ mantissa, (decide (c ≠ 'e') && decide (c ≠ 'E')) = true := by
    have hdigit : ∀ c : Char, c.isDigit = true → (decide (c ≠ 'e') && decide (c ≠ 'E')) = true := fun c hc => by
      simp [ne_of_isDigit hc (d := 'e') (by decide), ne_of_isDigit hc (d := 'E') (by decide)]
    intro c hc
    rcases List.mem_append.1 hc with hc | hc
    · exact hdigit c (hwhole c hc)
    · split at hc
      · cases hc
      · rcases List.mem_cons.1 hc with rfl | hc
        · decide
        · exact hdigit c (hfraction c hc)
  have hbehind : tail.takeWhile (fun c => c ≠ 'e' && c ≠ 'E') = [] ∧ tail.dropWhile (fun c => c ≠ 'e' && c ≠ 'E') = tail := by
    rcases htail with rfl | ⟨cs, rfl⟩ <;> simp
  refine ⟨?_, ?_, ?_, ?_⟩
  · rw [List.takeWhile_append_of_pos hmantissa, hbehind.1, List.append_nil]
  · rw [List.dropWhile_append_of_pos hmantissa, hbehind.2]
  · rw [List.takeWhile_append_of_pos hpoint]
    split <;> simp
  · rw [List.dropWhile_append_of_pos hpoint]
    split
    · next hnil => simp [hnil]
    · simp

/-- A number that is written with its sign, its digits around the point and an exponent. -/
theorem decimalOfText_written (negative : Bool) {whole fraction tail : List Char} {n : ℕ} {e : ℤ} (hne : whole ≠ [])
    (hwhole : ∀ c ∈ whole, c.isDigit = true) (hfraction : ∀ c ∈ fraction, c.isDigit = true)
    (hdigits : digits? (String.ofList (whole ++ fraction)) = some n)
    (htail : tail = [] ∧ e = 0 ∨ ∃ cs, tail = 'E' :: cs ∧ integerText cs = some e ∧ ∀ c ∈ cs, isSpace c = false) :
    decimalOfText (String.ofList ((if negative then ['-'] else []) ++ whole ++
      (if fraction = [] then [] else '.' :: fraction) ++ tail)) =
      some ⟨if negative then -n else n, e - fraction.length⟩ := by
  obtain ⟨htake, hdrop, hfront, hback⟩ := mantissa_split hwhole hfraction
    (htail.imp And.left fun h => h.imp fun cs h => h.1)
  have hexponent : readExponent tail = some e := by
    rcases htail with ⟨rfl, rfl⟩ | ⟨cs, rfl, he, _⟩
    · rfl
    · exact he
  have hspace : ∀ c ∈ (if negative then ['-'] else []) ++ whole ++ (if fraction = [] then [] else '.' :: fraction) ++ tail,
      isSpace c = false := by
    intro c hc
    rcases List.mem_append.1 hc with hc | hc
    · rcases List.mem_append.1 hc with hc | hc
      · rcases List.mem_append.1 hc with hc | hc
        · split at hc
          · rw [List.mem_singleton.1 hc]
            decide
          · cases hc
        · exact isSpace_of_isDigit (hwhole c hc)
      · split at hc
        · cases hc
        · rcases List.mem_cons.1 hc with rfl | hc
          · decide
          · exact isSpace_of_isDigit (hfraction c hc)
    · rcases htail with ⟨rfl, _⟩ | ⟨cs, rfl, _, hcs⟩
      · cases hc
      · rcases List.mem_cons.1 hc with rfl | hc
        · decide
        · exact hcs c hc
  have hsign : unsigned ((if negative then ['-'] else []) ++ whole ++ (if fraction = [] then [] else '.' :: fraction) ++ tail) =
      (negative, whole ++ (if fraction = [] then [] else '.' :: fraction) ++ tail) := by
    cases negative with
    | true => rfl
    | false =>
      obtain ⟨c, cs, rfl⟩ := List.exists_cons_of_ne_nil hne
      have hc := hwhole c List.mem_cons_self
      simp only [Bool.false_eq_true, if_false, List.nil_append, List.cons_append]
      unfold unsigned
      split
      · next heq => exact absurd (List.cons.inj heq).1 (ne_of_isDigit hc (by decide))
      · next heq => exact absurd (List.cons.inj heq).1 (ne_of_isDigit hc (by decide))
      · rfl
  simp only [decimalOfText, String.toList_ofList, stripChars_of_forall hspace, hsign, htake, hdrop, hfront, hback, hexponent,
    hdigits]

theorem integerText_signed (e : ℤ) :
    integerText ((if e < 0 then '-' else '+') :: (toString e.natAbs).toList) = some e := by
  have hdigits := (digits?_toString e.natAbs).2
  by_cases hneg : e < 0
  · simp only [if_pos hneg, integerText, String.ofList_toList, hdigits]
    change some (-(e.natAbs : ℤ)) = some e
    rw [Option.some.injEq]
    omega
  · simp only [if_neg hneg, integerText, String.ofList_toList, hdigits]
    change some (e.natAbs : ℤ) = some e
    rw [Option.some.injEq]
    omega

/-- **A decimal is read back from its text**, with its exponent. -/
theorem decimalOfText_decimalStr (d : Decimal) : decimalOfText (decimalStr d) = some d := by
  generalize hds : (toString d.coefficient.natAbs).toList = ds
  have hdigit : ∀ c ∈ ds, c.isDigit = true := fun c hc => isDigit_toString (hds ▸ hc)
  have hpos : 0 < ds.length := List.length_pos_iff.2 (hds ▸ toString_ne_nil _)
  generalize hleft : d.exponent + ds.length = left
  obtain ⟨dot, hdot, hle⟩ : ∃ dot : ℤ, (if d.exponent ≤ 0 ∧ -6 < left then left else 1) = dot ∧ dot ≤ ds.length := by
    refine ⟨_, rfl, ?_⟩
    split <;> omega
  have hwhole : ∀ c ∈ (if dot ≤ 0 then ['0'] else ds.take dot.toNat), c.isDigit = true := by
    intro c hc
    split at hc
    · rw [List.mem_singleton.1 hc]
      decide
    · exact hdigit c (List.mem_of_mem_take hc)
  have hfraction : ∀ c ∈ (if dot ≤ 0 then List.replicate (-dot).toNat '0' ++ ds else ds.drop dot.toNat), c.isDigit = true := by
    intro c hc
    split at hc
    · rcases List.mem_append.1 hc with hc | hc
      · rw [List.eq_of_mem_replicate hc]
        decide
      · exact hdigit c hc
    · exact hdigit c (List.mem_of_mem_drop hc)
  have hne : (if dot ≤ 0 then ['0'] else ds.take dot.toNat) ≠ [] := by
    split
    · exact List.cons_ne_nil _ _
    · rw [← List.length_pos_iff, List.length_take]
      omega
  have hdigits : digits? (String.ofList ((if dot ≤ 0 then ['0'] else ds.take dot.toNat) ++
      if dot ≤ 0 then List.replicate (-dot).toNat '0' ++ ds else ds.drop dot.toNat)) = some d.coefficient.natAbs := by
    rw [← hds]
    split
    · exact digits?_zeros ((-dot).toNat + 1) _
    · rw [List.take_append_drop]
      exact digits?_zeros 0 _
  have hlength : ((if dot ≤ 0 then List.replicate (-dot).toNat '0' ++ ds else ds.drop dot.toNat).length : ℤ) =
      ds.length - dot := by
    split
    · rw [List.length_append, List.length_replicate]
      omega
    · rw [List.length_drop]
      omega
  have htail : (if left = dot then [] else 'E' :: (if left < dot then '-' else '+') :: (toString (left - dot).natAbs).toList) =
        [] ∧ left - dot = 0 ∨
      ∃ cs, (if left = dot then [] else 'E' :: (if left < dot then '-' else '+') ::
        (toString (left - dot).natAbs).toList) = 'E' :: cs ∧ integerText cs = some (left - dot) ∧
          ∀ c ∈ cs, isSpace c = false := by
    by_cases hsame : left = dot
    · exact .inl ⟨if_pos hsame, by omega⟩
    · refine .inr ⟨_, if_neg hsame, ?_, ?_⟩
      · have hsign : (left < dot) = (left - dot < 0) := propext (by omega)
        simp only [hsign]
        exact integerText_signed (left - dot)
      · intro c hc
        rcases List.mem_cons.1 hc with rfl | hc
        · split <;> decide
        · exact isSpace_of_isDigit (isDigit_toString hc)
  have hread := decimalOfText_written (decide (d.coefficient < 0)) hne hwhole hfraction hdigits htail
  simp only [decide_eq_true_eq, hlength] at hread
  simp only [decimalStr, hds, hleft, hdot]
  rw [hread, Option.some.injEq]
  have hcoefficient : (if d.coefficient < 0 then -(d.coefficient.natAbs : ℤ) else d.coefficient.natAbs) = d.coefficient := by
    split <;> omega
  have hexponent : left - dot - (ds.length - dot) = d.exponent := by omega
  rw [hcoefficient, hexponent]

theorem decimalOfText_toString (z : ℤ) : decimalOfText (toString z) = some ⟨z, 0⟩ := by
  have hdigits : digits? (String.ofList ((toString z.natAbs).toList ++ [])) = some z.natAbs := by
    rw [List.append_nil, String.ofList_toList, (digits?_toString z.natAbs).2]
  have hnil : ∀ c ∈ ([] : List Char), c.isDigit = true := fun _ hc => (List.not_mem_nil hc).elim
  have hread := decimalOfText_written (decide (z < 0)) (toString_ne_nil z.natAbs) (fun _ hc => isDigit_toString hc) hnil hdigits
    (.inl ⟨rfl, rfl⟩)
  simp only [decide_eq_true_eq, if_pos trivial, List.append_nil, ← toList_toString_int, String.ofList_toList,
    List.length_nil] at hread
  rw [hread, Option.some.injEq]
  have hcoefficient : (if z < 0 then -(z.natAbs : ℤ) else z.natAbs) = z := by split <;> omega
  rw [hcoefficient]
  rfl

/-! ## Whole numbers through a double -/

/-- A whole number of at most fifteen digits is a double. -/
theorem double_intCast {z : ℤ} (h : z.natAbs < 10 ^ 15) : double (z : ℚ) = z := by
  have hbits : |z| ≤ 2 ^ 53 := by
    rw [Int.abs_eq_natAbs]
    omega
  have hdouble := double_of_bits (e := 0) hbits
  rwa [zpow_zero, mul_one] at hdouble

theorem intOfText_toString {z : ℤ} (h : z.natAbs < 10 ^ 15) : intOfText (toString z) = some z := by
  have hvalue : (⟨z, 0⟩ : Decimal).value = z := by simp [Decimal.value]
  rw [intOfText, decimalOfText_toString, Option.map_some, hvalue, double_intCast h]
  split
  · rw [← Int.cast_neg, Int.floor_intCast, Int.neg_neg]
  · rw [Int.floor_intCast]

/-! ## Values -/

theorem isoformat_ne (d : Date) : isoformat d ≠ "" := by
  intro hempty
  have hlist := congrArg String.toList hempty
  rw [isoformat, String.toList_ofList] at hlist
  simp at hlist

theorem isoTime_ne (t : DateTime) : isoTime t ≠ "" := by
  intro hempty
  have hlist := congrArg String.toList hempty
  rw [isoTime, String.toList_ofList] at hlist
  simp at hlist

/-- An empty text is no number. -/
theorem decimalOfText_ne {s : String} {d : Decimal} (h : decimalOfText s = some d) : s ≠ "" := by
  rintro rfl
  have hnone : decimalOfText "" = none := by decide
  rw [hnone] at h
  cases h

/-- **Into a cell and back**: only empty text is lost. -/
theorem coerceValue_shown {codec : Codec} {reader : JsonReader} (display : Display) {type : ColumnType} {v : Value}
    (h : type.holds v = true) (hjson : reader.reads codec v = true) :
    coerceValue reader.loads type (display.shows (sheetCell codec (normalize v))) = v.broughtBack := by
  cases v with
  | null => simp [normalize, sheetCell, display.text, coerceValue, Value.broughtBack]
  | bool b =>
    cases type with
    | boolean =>
      have hshown := display.bool b
      have hne : display.shows (.bool b) ≠ "" := by
        intro hempty
        rw [hempty] at hshown
        cases b <;> exact absurd hshown (by decide)
      simp only [normalize, sheetCell, coerceValue, if_neg hne, hshown, Value.broughtBack]
      cases b <;> rfl
    | _ => cases h
  | int z =>
    cases type with
    | integer =>
      have hz : z.natAbs < 10 ^ 15 := of_decide_eq_true h
      have hread := intOfText_toString hz
      have hne : toString z ≠ "" := decimalOfText_ne (decimalOfText_toString z)
      simp only [normalize, sheetCell, display.whole z hz, coerceValue, if_neg hne, hread, Value.broughtBack]
      rfl
    | _ => cases h
  | decimal d =>
    cases type with
    | numeric scale =>
      have hread := decimalOfText_decimalStr d
      simp only [normalize, sheetCell, display.text, coerceValue, if_neg (decimalOfText_ne hread), hread, Value.broughtBack]
      rfl
    | _ => cases h
  | dateTime t =>
    cases type with
    | dateTime =>
      simp only [ColumnType.holds, Bool.and_eq_true, decide_eq_true_eq, Option.all_eq_true] at h
      have hread := fromIsoTime_isoTime ⟨h.1.1, h.1.2.1⟩ h.1.2.2 h.2
      simp only [normalize, sheetCell, display.text, coerceValue, if_neg (isoTime_ne t), hread, Value.broughtBack]
      rfl
    | _ => cases h
  | date d =>
    cases type with
    | date =>
      have hread := readDate_isoformat (of_decide_eq_true h) []
      rw [List.append_nil] at hread
      simp only [normalize, sheetCell, display.text, coerceValue, if_neg (isoformat_ne d), hread, Value.broughtBack]
      rfl
    | _ => cases h
  | json v =>
    have hread : reader.loads (codec.dumps v) = some v := of_decide_eq_true hjson
    have hne : codec.dumps v ≠ "" := by
      intro hempty
      rw [hempty, reader.loads_empty] at hread
      cases hread
    cases type with
    | json =>
      cases v with
      | dict | list =>
        simp only [normalize, sheetCell, display.text, coerceValue, if_neg hne, hread, Value.broughtBack]
        rfl
      | _ => cases h
    | _ => cases v <;> cases h
  | text s =>
    cases type with
    | text =>
      simp only [normalize, sheetCell, display.text, coerceValue, Value.broughtBack]
    | _ => cases h

end LcsSystem.Backup

import Mathlib

/-!
# Calendar dates of the proleptic Gregorian calendar

A `Date` is a year, a month and a day that exist: the month is `1 … 12`, the day at most the length
of the month. Dates are ordered as their `ordinal` (`(year, month, day)` read in mixed radix), which
is injective on dates, so the order is linear.
-/

namespace Calendar

def isLeap (year : ℕ) : Bool := (year % 4 == 0 && year % 100 != 0) || year % 400 == 0

def daysInMonth (year month : ℕ) : ℕ :=
  match month with
  | 2 => if isLeap year then 29 else 28
  | 4 | 6 | 9 | 11 => 30
  | _ => 31

theorem daysInMonth_pos (year month : ℕ) : 0 < daysInMonth year month := by
  unfold daysInMonth
  split <;> (try split) <;> omega

theorem daysInMonth_le (year month : ℕ) : daysInMonth year month ≤ 31 := by
  unfold daysInMonth
  split <;> (try split) <;> omega

structure Date where
  year : ℕ
  month : ℕ
  day : ℕ
  month_pos : 1 ≤ month
  month_le : month ≤ 12
  day_pos : 1 ≤ day
  day_le : day ≤ daysInMonth year month
  deriving DecidableEq

namespace Date

def ordinal (d : Date) : ℕ := (d.year * 13 + d.month) * 32 + d.day

theorem ordinal_injective : Function.Injective ordinal := by
  intro a b h
  have ha := a.day_le.trans (daysInMonth_le _ _)
  have hb := b.day_le.trans (daysInMonth_le _ _)
  have hma := a.month_le
  have hmb := b.month_le
  have hfields : a.year = b.year ∧ a.month = b.month ∧ a.day = b.day := by
    simp only [ordinal] at h
    omega
  cases a
  cases b
  simpa using hfields

instance : LinearOrder Date := LinearOrder.lift' ordinal ordinal_injective

theorem le_def {a b : Date} : a ≤ b ↔ a.ordinal ≤ b.ordinal := Iff.rfl

/-- `d.replace(day=1)`. -/
def firstOfMonth (d : Date) : Date := ⟨d.year, d.month, 1, d.month_pos, d.month_le, le_rfl, daysInMonth_pos _ _⟩

/-- The day before the first of the following month. -/
def lastOfMonth (d : Date) : Date :=
  ⟨d.year, d.month, daysInMonth d.year d.month, d.month_pos, d.month_le, daysInMonth_pos _ _, le_rfl⟩

theorem firstOfMonth_le (d : Date) : d.firstOfMonth ≤ d := by
  have := d.day_pos
  simp only [le_def, ordinal, firstOfMonth]; omega

theorem le_lastOfMonth (d : Date) : d ≤ d.lastOfMonth := by
  have := d.day_le
  simp only [le_def, ordinal, lastOfMonth]; omega

end Date
end Calendar

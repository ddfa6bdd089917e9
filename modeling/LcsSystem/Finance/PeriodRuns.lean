import LcsSystem.Finance.Periods

/-!
# The periods that postings create

`resolve_period` (`src/backend/app/modules/finance/service.py:320-346`), called for one date after another from an
empty table. A period is looked up by the days it covers and created for a year and a month; both speak of the same
period as long as every period is a full month.

| here       | there                                                       |
|------------|-------------------------------------------------------------|
| `monthEnd` | `end_date`, with the branch for December                    |
| `resolveAll` | calls of `resolve_period`, each on the table of the last one |
-/

namespace Calendar.Date

/-- `d - timedelta(days=1)`. -/
def dayBefore (d : Date) : Date :=
  if h : 1 < d.day then
    ⟨d.year, d.month, d.day - 1, d.month_pos, d.month_le, by omega, (Nat.sub_le _ _).trans d.day_le⟩
  else if h : 1 < d.month then
    ⟨d.year, d.month - 1, daysInMonth d.year (d.month - 1), by omega, (Nat.sub_le _ _).trans d.month_le,
      daysInMonth_pos _ _, le_rfl⟩
  else ⟨d.year - 1, 12, 31, Nat.succ_pos 11, le_rfl, Nat.succ_pos 30, le_rfl⟩

theorem succ_month_le {d : Date} (h : ¬d.month = 12) : d.month + 1 ≤ 12 := by
  have hle : d.month ≤ 12 := d.month_le
  omega

/-- The end of the month as `resolve_period` computes it. -/
def monthEnd (d : Date) : Date :=
  if h : d.month = 12 then ⟨d.year, 12, 31, Nat.succ_pos 11, Nat.le_refl 12, Nat.succ_pos 30, Nat.le_refl 31⟩
  else dayBefore ⟨d.year, d.month + 1, 1, Nat.succ_pos d.month, succ_month_le h, Nat.le_refl 1, daysInMonth_pos _ _⟩

theorem monthEnd_eq (d : Date) : d.monthEnd = d.lastOfMonth := by
  have hpos : 0 < d.month := d.month_pos
  unfold monthEnd
  split
  · next h => simp [lastOfMonth, h, daysInMonth]
  · simp [dayBefore, lastOfMonth, hpos]

end Calendar.Date

namespace LcsSystem
open Calendar Relational Checks

/-! ## Full months -/

/-- From the first to the last day of its month. -/
structure AccountingPeriod.IsMonth (p : AccountingPeriod) : Prop where
  start_month : p.startDate.year = p.periodYear ∧ p.startDate.month = p.periodMonth
  start_day : p.startDate.day = 1
  end_month : p.endDate.year = p.periodYear ∧ p.endDate.month = p.periodMonth
  end_day : p.endDate.day = daysInMonth p.periodYear p.periodMonth

theorem AccountingPeriod.month_endDate (d : Date) : (AccountingPeriod.month d).endDate = d.monthEnd :=
  d.monthEnd_eq.symm

theorem AccountingPeriod.isMonth_month (d : Date) : (AccountingPeriod.month d).IsMonth :=
  ⟨⟨rfl, rfl⟩, rfl, ⟨rfl, rfl⟩, rfl⟩

/-- A full month covers its own dates and no others. -/
theorem AccountingPeriod.IsMonth.covers_iff {p : AccountingPeriod} (h : p.IsMonth) (d : Date) :
    p.covers d = true ↔ d.year = p.periodYear ∧ d.month = p.periodMonth := by
  obtain ⟨⟨hsy, hsm⟩, hsd, ⟨hey, hem⟩, hed⟩ := h
  simp only [AccountingPeriod.covers, decide_eq_true_eq, Date.le_def, Date.ordinal, hsy, hsm, hsd, hey, hem, hed]
  have hday := d.day_le.trans (daysInMonth_le _ _)
  have hlast := daysInMonth_le p.periodYear p.periodMonth
  have hmonth := d.month_le
  have hpm : p.periodMonth ≤ 12 := hsm ▸ p.startDate.month_le
  constructor
  · omega
  · rintro ⟨hy, hm⟩
    have hpos := d.day_pos
    have hle := d.day_le
    rw [hy, hm] at hle ⊢
    omega

/-! ## Runs -/

/-- The calls for these dates, each on the table of the last one, with what each returns. -/
def resolveAll (periods : Table AccountingPeriod) :
    List Date → Result (Table AccountingPeriod × List (ℕ × AccountingPeriod))
  | [] => .ok (periods, [])
  | d :: dates => do
    let (periods', id, period) ← resolvePeriod periods d
    let (periods'', answers) ← resolveAll periods' dates
    return (periods'', (id, period) :: answers)

/-- Full months, one for a year and a month. -/
structure FullMonths (periods : Table AccountingPeriod) : Prop where
  isMonth : ∀ id p, periods.get? id = some p → p.IsMonth
  unique : ∀ i j p q, periods.get? i = some p → periods.get? j = some q → p.periodYear = q.periodYear →
    p.periodMonth = q.periodMonth → i = j

namespace FullMonths
variable {periods : Table AccountingPeriod}

theorem empty : FullMonths .empty := by
  constructor <;> simp [Table.empty, Table.get?, Table.find]

/-- No date is covered twice. -/
theorem disjoint (h : FullMonths periods) {i j : ℕ} {p q : AccountingPeriod} (hp : periods.get? i = some p)
    (hq : periods.get? j = some q) {d : Date} (hpd : p.covers d = true) (hqd : q.covers d = true) : i = j := by
  obtain ⟨hpy, hpm⟩ := ((h.isMonth i p hp).covers_iff d).1 hpd
  obtain ⟨hqy, hqm⟩ := ((h.isMonth j q hq).covers_iff d).1 hqd
  exact h.unique i j p q hp hq (hpy.symm.trans hqy) (hpm.symm.trans hqm)

end FullMonths

/-- **One call** never fails on full months, and leaves full months. -/
theorem resolvePeriod_fullMonths {periods : Table AccountingPeriod} (h : FullMonths periods) (d : Date) :
    ∃ periods' id p, resolvePeriod periods d = .ok (periods', id, p) ∧ FullMonths periods' := by
  unfold resolvePeriod
  cases hfind : periods.rows.find? fun r => r.2.covers d with
  | some r => exact ⟨_, _, _, rfl, h⟩
  | none =>
    -- No stored month has the year and the month of `d`: it would cover `d`.
    have hfresh : ∀ i q, periods.get? i = some q → ¬(q.periodYear = d.year ∧ q.periodMonth = d.month) := by
      rintro i q hq ⟨hyear, hmonth⟩
      have hnot := List.find?_eq_none.1 hfind (i, q) (Table.get?_eq_some.1 hq)
      exact hnot (((h.isMonth i q hq).covers_iff d).2 ⟨hyear.symm, hmonth.symm⟩)
    have hunique : (periods.values.all fun p => p.periodYear != d.year || p.periodMonth != d.month) = true := by
      rw [List.all_eq_true]
      intro q hq
      obtain ⟨i, hi⟩ := Table.mem_values.1 hq
      have := hfresh i q hi
      simp only [Bool.or_eq_true, bne_iff_ne]
      tauto
    refine ⟨periods.insert (.month d), periods.nextId, .month d, ?_, ?_, ?_⟩
    · simp only [check_pos hunique, ok_bind]
      rfl
    · exact Table.forall_insert h.isMonth (AccountingPeriod.isMonth_month d)
    · intro i j p q hi hj hyear hmonth
      rw [Table.get?_insert] at hi hj
      split at hi <;> split at hj
      · next hi' hj' => exact hi'.trans hj'.symm
      · cases hi
        exact absurd ⟨hyear.symm, hmonth.symm⟩ (hfresh j q hj)
      · cases hj
        exact absurd ⟨hyear, hmonth⟩ (hfresh i p hi)
      · exact h.unique i j p q hi hj hyear hmonth

/-- The period that an answer names is stored, and it alone covers the date. -/
def AnswersDate (periods : Table AccountingPeriod) (d : Date) (answer : ℕ × AccountingPeriod) : Prop :=
  periods.get? answer.1 = some answer.2 ∧ answer.2.covers d = true ∧
    ∀ id p, periods.get? id = some p → p.covers d = true → id = answer.1

/-- The run lemma, from any table of full months. -/
theorem resolveAll_spec (dates : List Date) : ∀ {periods : Table AccountingPeriod}, FullMonths periods →
    ∃ periods' answers, resolveAll periods dates = .ok (periods', answers) ∧ FullMonths periods' ∧
      (∀ i q, periods.get? i = some q → periods'.get? i = some q) ∧
      List.Forall₂ (AnswersDate periods') dates answers := by
  induction dates with
  | nil =>
    intro periods h
    exact ⟨periods, [], rfl, h, fun _ _ hq => hq, .nil⟩
  | cons d dates ih =>
    intro periods h
    obtain ⟨periods₁, id, p, hcall, hfull⟩ := resolvePeriod_fullMonths h d
    obtain ⟨hget, hcovers, hkept⟩ := resolvePeriod_spec hcall
    obtain ⟨periods₂, answers, hrun, hfull₂, hkept₂, hanswers⟩ := ih hfull
    refine ⟨periods₂, (id, p) :: answers, ?_, hfull₂, fun i q hq => hkept₂ i q (hkept i q hq), .cons ?_ hanswers⟩
    · simp only [resolveAll, hcall, ok_bind, hrun]
      rfl
    · exact ⟨hkept₂ id p hget, hcovers, fun i q hq hqd => hfull₂.disjoint hq (hkept₂ id p hget) hqd hcovers⟩

/-- **The periods of a run** from the empty table: no call fails, the periods are disjoint full months, one for a year
and a month, and each call returns the one period of its date. -/
theorem resolveAll_fullMonths (dates : List Date) :
    ∃ periods answers, resolveAll .empty dates = .ok (periods, answers) ∧
      (∀ id p, periods.get? id = some p → p.IsMonth) ∧
      (∀ i j p q, periods.get? i = some p → periods.get? j = some q → i ≠ j →
        ¬(p.periodYear = q.periodYear ∧ p.periodMonth = q.periodMonth) ∧
          ∀ d, ¬(p.covers d = true ∧ q.covers d = true)) ∧
      List.Forall₂ (AnswersDate periods) dates answers := by
  obtain ⟨periods, answers, hrun, hfull, -, hanswers⟩ := resolveAll_spec dates .empty
  refine ⟨periods, answers, hrun, hfull.isMonth, fun i j p q hp hq hne => ⟨?_, ?_⟩, hanswers⟩
  · rintro ⟨hyear, hmonth⟩
    exact hne (hfull.unique i j p q hp hq hyear hmonth)
  · rintro d ⟨hpd, hqd⟩
    exact hne (hfull.disjoint hp hq hpd hqd)

end LcsSystem

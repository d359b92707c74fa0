import Mathlib.Logic.Basic

/-! The calendar months in UTC that allowances are billed by: the days of the Gregorian calendar
counted from 1970, and the window of the month that a clock is in. -/

namespace Relux.Allowance

def MS_PER_DAY : Int := 86400000

/-- `(year, month, day)` of a day since 1970; `/` rounds down. -/
def civilFromDays (z : Int) : Int × Int × Int :=
  let z := z + 719468
  let era := z / 146097
  let doe := z - era * 146097
  let yoe := (doe - doe / 1460 + doe / 36524 - doe / 146096) / 365
  let y := yoe + era * 400
  let doy := doe - (365 * yoe + yoe / 4 - yoe / 100)
  let mp := (5 * doy + 2) / 153
  let d := doy - (153 * mp + 2) / 5 + 1
  let m := if mp < 10 then mp + 3 else mp - 9
  (if m ≤ 2 then y + 1 else y, m, d)

def daysFromCivil (y m d : Int) : Int :=
  let y := if m ≤ 2 then y - 1 else y
  let era := y / 400
  let yoe := y - era * 400
  let doy := (153 * (if 2 < m then m - 3 else m + 9) + 2) / 5 + d - 1
  let doe := yoe * 365 + yoe / 4 - yoe / 100 + doy
  era * 146097 + doe - 719468

structure AllowanceWindow where
  startMs : Int
  cutoffMs : Int
  resetsAtMs : Int
  deriving DecidableEq, Repr

def nextMonth (y m : Int) : Int × Int := if m = 12 then (y + 1, 1) else (y, m + 1)

def allowanceWindow (nowMs : Int) : AllowanceWindow :=
  let date := civilFromDays (nowMs / MS_PER_DAY)
  let next := nextMonth date.1 date.2.1
  { startMs := daysFromCivil date.1 date.2.1 1 * MS_PER_DAY
    cutoffMs := nowMs
    resetsAtMs := daysFromCivil next.1 next.2 1 * MS_PER_DAY }

def yearStart (yoe : Int) : Int := 365 * yoe + yoe / 4 - yoe / 100

def yearEnd (yoe : Int) : Int := if yoe = 399 then 146097 else yearStart (yoe + 1)

def monthStart (mp : Int) : Int := (153 * mp + 2) / 5

def spread (doe : Int) : Int := doe - doe / 1460 + doe / 36524 - doe / 146096

theorem spread_mono {a b : Int} (h : a ≤ b) : spread a ≤ spread b := by
  unfold spread
  omega

theorem year_ends (y : Nat) (hy : y < 400) :
    (y ≠ 0 → spread (yearStart y - 1) < 365 * y) ∧
      (y ≠ 399 → 365 * ((y : Int) + 1) ≤ spread (yearEnd y)) := by
  unfold spread yearEnd yearStart
  refine ⟨fun h0 => ?_, fun hlast => ?_⟩
  · generalize hx : 365 * (y : Int) + y / 4 - y / 100 - 1 = x
    have hleaps : (y : Int) / 4 ≤ x / 1460 := by omega
    have hcenturies : x / 36524 ≤ y / 100 := by omega
    omega
  · rw [if_neg (by omega)]
    generalize hx : 365 * ((y : Int) + 1) + (y + 1) / 4 - (y + 1) / 100 = x
    have hleaps : x / 1460 ≤ (y + 1) / 4 := by omega
    have hcenturies : ((y : Int) + 1) / 100 ≤ x / 36524 := by omega
    omega

theorem year_of_spread {doe : Int} (h0 : 0 ≤ doe) (h1 : doe < 146097) :
    0 ≤ spread doe / 365 ∧ spread doe / 365 < 400 ∧
      yearStart (spread doe / 365) ≤ doe ∧ doe < yearEnd (spread doe / 365) := by
  have hlow : (0 : Int) ≤ spread doe := spread_mono h0
  have hhigh : spread doe ≤ spread 146096 := spread_mono (by omega)
  have hlast : spread 146096 < 146000 := by decide
  have hyears : 0 ≤ spread doe / 365 ∧ spread doe / 365 < 400 := by omega
  obtain ⟨y, hy⟩ := Int.eq_ofNat_of_zero_le hyears.1
  have hy400 : y < 400 := by omega
  obtain ⟨hstart, hend⟩ := year_ends y hy400
  rw [hy]
  refine ⟨Int.natCast_nonneg y, by omega, ?_, ?_⟩
  · by_cases hzero : y = 0
    · rw [hzero]
      exact h0
    · rcases Int.lt_or_le doe (yearStart y) with hbefore | hin
      · have hmono := spread_mono (show doe ≤ yearStart y - 1 by omega)
        omega
      · exact hin
  · by_cases hlastYear : y = 399
    · rw [hlastYear]
      exact h1
    · rcases Int.lt_or_le doe (yearEnd y) with hin | hafter
      · exact hin
      · have hmono := spread_mono hafter
        omega

variable {y y' : Int}

theorem yearStart_lt (h : y < y') : yearStart y + 365 ≤ yearStart y' := by
  unfold yearStart
  omega

theorem yearEnd_eq (h : y < 399) : yearEnd y = yearStart (y + 1) := by
  rw [yearEnd, if_neg (by omega)]

theorem yearStart_le (h : y ≤ y') : yearStart y ≤ yearStart y' := by
  rcases Int.lt_or_eq_of_le h with hlt | rfl
  · have hgap := yearStart_lt hlt
    omega
  · exact Int.le_refl _

theorem year_unique (doe : Int) (hy : y < 400) (hy' : y' < 400) (h : yearStart y ≤ doe)
    (h' : doe < yearEnd y) (g : yearStart y' ≤ doe) (g' : doe < yearEnd y') : y = y' := by
  have hkey : ∀ {a b : Int}, a < b → b < 400 → yearStart b ≤ doe → doe < yearEnd a → False := by
    intro a b hab hb hstart hend
    rw [yearEnd_eq (by omega)] at hend
    have hle := yearStart_le (show a + 1 ≤ b by omega)
    omega
  rcases Int.lt_trichotomy y y' with hlt | heq | hlt
  · exact absurd (hkey hlt hy' g h') id
  · exact heq
  · exact absurd (hkey hlt hy h g') id

structure IsDay (z era yoe mp doy : Int) : Prop where
  day : z + 719468 = era * 146097 + (yearStart yoe + doy)
  yoe_nonneg : 0 ≤ yoe
  yoe_lt : yoe < 400
  mp_nonneg : 0 ≤ mp
  mp_le : mp ≤ 11
  doy_le : monthStart mp ≤ doy
  doy_lt : doy < monthStart (mp + 1)
  year : yearStart yoe + doy < yearEnd yoe

def monthOf (mp : Int) : Int := if mp < 10 then mp + 3 else mp - 9

def yearOf (era yoe mp : Int) : Int :=
  if monthOf mp ≤ 2 then yoe + era * 400 + 1 else yoe + era * 400

theorem yearEnd_le (hy : y < 400) : yearEnd y ≤ yearStart y + 366 := by
  by_cases hlast : y = 399
  · subst hlast
    decide
  · rw [yearEnd_eq (by omega)]
    unfold yearStart
    omega

theorem month_of_day (doy : Int) (h0 : 0 ≤ doy) (h1 : doy ≤ 365) :
    0 ≤ (5 * doy + 2) / 153 ∧ (5 * doy + 2) / 153 ≤ 11 ∧
      monthStart ((5 * doy + 2) / 153) ≤ doy ∧ doy < monthStart ((5 * doy + 2) / 153 + 1) := by
  unfold monthStart
  omega

theorem civilFromDays_spec (z : Int) : ∃ era yoe mp doy, IsDay z era yoe mp doy ∧
    civilFromDays z = (yearOf era yoe mp, monthOf mp, doy - monthStart mp + 1) := by
  have hdoe : 0 ≤ z + 719468 - (z + 719468) / 146097 * 146097 ∧
      z + 719468 - (z + 719468) / 146097 * 146097 < 146097 := by omega
  obtain ⟨hlow, hhigh, hstart, hend⟩ := year_of_spread hdoe.1 hdoe.2
  have hlength := yearEnd_le hhigh
  obtain ⟨hmp0, hmp11, hmonth, hnext⟩ := month_of_day
    (z + 719468 - (z + 719468) / 146097 * 146097 -
      yearStart (spread (z + 719468 - (z + 719468) / 146097 * 146097) / 365))
    (by omega) (by omega)
  exact ⟨_, _, _, _, ⟨by omega, hlow, hhigh, hmp0, hmp11, hmonth, hnext, by omega⟩, rfl⟩

variable {mp : Int}

theorem monthStart_le {mp' : Int} (h : mp ≤ mp') : monthStart mp ≤ monthStart mp' := by
  unfold monthStart
  omega

variable {yoe : Int}

theorem IsDay.unique {z era doy era' yoe' mp' doy' : Int} (h : IsDay z era yoe mp doy)
    (h' : IsDay z era' yoe' mp' doy') : era = era' ∧ yoe = yoe' ∧ mp = mp' := by
  have hinEra : ∀ {era yoe mp doy : Int}, IsDay z era yoe mp doy →
      0 ≤ yearStart yoe + doy ∧ yearStart yoe + doy < 146097 := by
    intro era yoe mp doy h
    have hzero : (0 : Int) ≤ yearStart yoe := yearStart_le h.yoe_nonneg
    have hmonth : (0 : Int) ≤ monthStart mp := monthStart_le h.mp_nonneg
    have hyear := h.year
    have hdoy := h.doy_le
    have hend : yearEnd yoe ≤ 146097 := by
      have hlt := h.yoe_lt
      by_cases hlast : yoe = 399
      · rw [hlast]
        decide
      · rw [yearEnd_eq (by omega)]
        have hle := yearStart_le (show yoe + 1 ≤ 399 by omega)
        have hvalue : yearStart 399 ≤ 146097 := by decide
        omega
    omega
  have hera : era = era' := by
    have hone := hinEra h
    have hother := hinEra h'
    have hday := h.day
    have hday' := h'.day
    omega
  subst hera
  have hday := h.day
  have hday' := h'.day
  have hdoe : yearStart yoe + doy = yearStart yoe' + doy' := by omega
  have hzero : (0 : Int) ≤ monthStart mp := monthStart_le h.mp_nonneg
  have hzero' : (0 : Int) ≤ monthStart mp' := monthStart_le h'.mp_nonneg
  have hdoy := h.doy_le
  have hdoy' := h'.doy_le
  have hyoe : yoe = yoe' := by
    apply year_unique (yearStart yoe + doy) h.yoe_lt h'.yoe_lt
    · omega
    · exact h.year
    · omega
    · rw [hdoe]
      exact h'.year
  subst hyoe
  refine ⟨rfl, rfl, ?_⟩
  have hlt := h.doy_lt
  have hlt' := h'.doy_lt
  rcases Int.lt_trichotomy mp mp' with hmp | hmp | hmp
  · have hle := monthStart_le (show mp + 1 ≤ mp' by omega)
    omega
  · exact hmp
  · have hle := monthStart_le (show mp' + 1 ≤ mp by omega)
    omega

theorem daysFromCivil_march (era : Int) (h0 : 0 ≤ yoe) (h1 : yoe < 400) (hmp0 : 0 ≤ mp)
    (hmp11 : mp ≤ 11) (d : Int) : daysFromCivil (yearOf era yoe mp) (monthOf mp) d =
      era * 146097 + (yearStart yoe + monthStart mp) + d - 1 - 719468 := by
  have hyear : (if monthOf mp ≤ 2 then yearOf era yoe mp - 1 else yearOf era yoe mp) =
      yoe + era * 400 := by
    unfold yearOf
    split <;> omega
  have hmonth : (if 2 < monthOf mp then monthOf mp - 3 else monthOf mp + 9) = mp := by
    unfold monthOf
    split <;> split <;> omega
  have hera : (yoe + era * 400) / 400 = era := by omega
  have hyoe : yoe + era * 400 - era * 400 = yoe := by omega
  simp only [daysFromCivil, hyear, hmonth, hera, hyoe]
  unfold yearStart monthStart
  omega

def monthEnd (yoe mp : Int) : Int :=
  if mp = 11 then yearEnd yoe else yearStart yoe + monthStart (mp + 1)

theorem nextMonth_march (era : Int) (h0 : 0 ≤ yoe) (h1 : yoe < 400) (hmp0 : 0 ≤ mp)
    (hmp11 : mp ≤ 11) :
    daysFromCivil (nextMonth (yearOf era yoe mp) (monthOf mp)).1
      (nextMonth (yearOf era yoe mp) (monthOf mp)).2 1 =
        era * 146097 + monthEnd yoe mp - 719468 := by
  by_cases hlast : mp = 11
  · subst hlast
    have hnext : nextMonth (yearOf era yoe 11) (monthOf 11) = (yoe + 1 + era * 400, 3) := by
      have hmonth : monthOf 11 = 2 := by decide
      simp only [nextMonth, yearOf, hmonth]
      rw [if_neg (by decide), if_pos (by decide)]
      congr 1
      omega
    rw [hnext, monthEnd, if_pos rfl]
    by_cases hera : yoe = 399
    · subst hera
      have hmarch : daysFromCivil (yearOf (era + 1) 0 0) (monthOf 0) 1 =
          (era + 1) * 146097 + (yearStart 0 + monthStart 0) + 1 - 1 - 719468 :=
        daysFromCivil_march (era + 1) (by decide) (by decide) (by decide) (by decide) 1
      have hyear : yearOf (era + 1) 0 0 = 399 + 1 + era * 400 := by
        have hmonth : monthOf 0 = 3 := by decide
        rw [yearOf, hmonth, if_neg (by decide)]
        omega
      rw [hyear] at hmarch
      have hzero : yearStart 0 + monthStart 0 = 0 := by decide
      have hend : yearEnd 399 = 146097 := by decide
      have hmonth : monthOf 0 = 3 := by decide
      rw [hmonth, hzero] at hmarch
      rw [hmarch, hend]
      omega
    · have hmarch : daysFromCivil (yearOf era (yoe + 1) 0) (monthOf 0) 1 =
          era * 146097 + (yearStart (yoe + 1) + monthStart 0) + 1 - 1 - 719468 :=
        daysFromCivil_march era (by omega) (by omega) (by decide) (by decide) 1
      have hmonth : monthOf 0 = 3 := by decide
      have hyear : yearOf era (yoe + 1) 0 = yoe + 1 + era * 400 := by
        rw [yearOf, hmonth, if_neg (by decide)]
      have hzero : monthStart 0 = 0 := by decide
      rw [hyear, hmonth, hzero] at hmarch
      rw [hmarch, yearEnd_eq (by omega)]
      omega
  · have hmarch : daysFromCivil (yearOf era yoe (mp + 1)) (monthOf (mp + 1)) 1 =
        era * 146097 + (yearStart yoe + monthStart (mp + 1)) + 1 - 1 - 719468 :=
      daysFromCivil_march era h0 h1 (by omega) (by omega) 1
    have hnext : nextMonth (yearOf era yoe mp) (monthOf mp) =
        (yearOf era yoe (mp + 1), monthOf (mp + 1)) := by
      unfold nextMonth yearOf monthOf
      by_cases hdecember : mp = 9
      · subst hdecember
        rfl
      · by_cases hbefore : mp < 9
        · have hmonth : (if mp < 10 then mp + 3 else mp - 9) = mp + 3 := if_pos (by omega)
          have hmonth' : (if mp + 1 < 10 then mp + 1 + 3 else mp + 1 - 9) = mp + 4 := by
            omega
          rw [hmonth, hmonth', if_neg (by omega), if_neg (by omega), if_neg (by omega)]
          congr 1
          omega
        · have hten : mp = 10 := by omega
          subst hten
          rfl
    rw [hnext, hmarch, monthEnd, if_neg hlast]
    omega

theorem allowanceWindow_eq {nowMs era doy : Int} (h : IsDay (nowMs / MS_PER_DAY) era yoe mp doy) :
    allowanceWindow nowMs =
      ⟨(era * 146097 + (yearStart yoe + monthStart mp) - 719468) * MS_PER_DAY, nowMs,
        (era * 146097 + monthEnd yoe mp - 719468) * MS_PER_DAY⟩ := by
  obtain ⟨era', yoe', mp', doy', h', heq⟩ := civilFromDays_spec (nowMs / MS_PER_DAY)
  obtain ⟨rfl, rfl, rfl⟩ := h.unique h'
  have hstart := daysFromCivil_march era h.yoe_nonneg h.yoe_lt h.mp_nonneg h.mp_le 1
  have hreset := nextMonth_march era h.yoe_nonneg h.yoe_lt h.mp_nonneg h.mp_le
  simp only [allowanceWindow, heq, hstart, hreset]
  congr 2
  omega

theorem allowanceWindow_same {nowMs nowMs' : Int} (h : (allowanceWindow nowMs).startMs ≤ nowMs')
    (h' : nowMs' < (allowanceWindow nowMs).resetsAtMs) :
    (allowanceWindow nowMs').startMs = (allowanceWindow nowMs).startMs ∧
      (allowanceWindow nowMs').resetsAtMs = (allowanceWindow nowMs).resetsAtMs := by
  obtain ⟨era, yoe, mp, doy, hday, -⟩ := civilFromDays_spec (nowMs / MS_PER_DAY)
  rw [allowanceWindow_eq hday] at h h' ⊢
  have hz : era * 146097 + (yearStart yoe + monthStart mp) ≤ nowMs' / MS_PER_DAY + 719468 ∧
      nowMs' / MS_PER_DAY + 719468 < era * 146097 + monthEnd yoe mp := by
    simp only [MS_PER_DAY] at h h' ⊢
    omega
  have hlength := yearEnd_le hday.yoe_lt
  have hlong : yearStart yoe + 365 ≤ yearEnd yoe := by
    have hlt := hday.yoe_lt
    by_cases hlast : yoe = 399
    · subst hlast
      decide
    · rw [yearEnd_eq (by omega)]
      exact yearStart_lt (by omega)
  have hin : IsDay (nowMs' / MS_PER_DAY) era yoe mp
      (nowMs' / MS_PER_DAY + 719468 - era * 146097 - yearStart yoe) := by
    refine ⟨by omega, hday.yoe_nonneg, hday.yoe_lt, hday.mp_nonneg, hday.mp_le, by omega, ?_, ?_⟩
    · have hend := hz.2
      unfold monthEnd at hend
      split at hend
      · rename_i hfebruary
        subst hfebruary
        have hlast : monthStart (11 + 1) = 367 := by decide
        omega
      · omega
    · have hend := hz.2
      unfold monthEnd at hend
      split at hend
      · omega
      · have hle : monthStart (mp + 1) ≤ monthStart 11 := by
          apply monthStart_le
          have hmp := hday.mp_le
          omega
        have hvalue : monthStart 11 = 337 := by decide
        omega
  rw [allowanceWindow_eq hin]
  exact ⟨rfl, rfl⟩

def IsLeap (y : Int) : Prop := y % 4 = 0 ∧ (y % 100 ≠ 0 ∨ y % 400 = 0)

instance (y : Int) : Decidable (IsLeap y) := inferInstanceAs (Decidable (_ ∧ _))

def daysInMonth (y m : Int) : Int :=
  if m = 2 then (if IsLeap y then 29 else 28)
  else if m = 4 ∨ m = 6 ∨ m = 9 ∨ m = 11 then 30 else 31

theorem allowanceWindow_mem (nowMs : Int) :
    (allowanceWindow nowMs).startMs ≤ nowMs ∧ nowMs < (allowanceWindow nowMs).resetsAtMs := by
  obtain ⟨era, yoe, mp, doy, hday, -⟩ := civilFromDays_spec (nowMs / MS_PER_DAY)
  have hin : yearStart yoe + doy < monthEnd yoe mp := by
    have hend := hday.doy_lt
    have hyear := hday.year
    unfold monthEnd
    split <;> omega
  have hz := hday.day
  have hstart := hday.doy_le
  rw [allowanceWindow_eq hday]
  simp only [MS_PER_DAY] at hz ⊢
  omega

theorem allowanceWindow_next (nowMs : Int) :
    (allowanceWindow (allowanceWindow nowMs).resetsAtMs).startMs =
      (allowanceWindow nowMs).resetsAtMs := by
  have hnow := allowanceWindow_mem nowMs
  have hnext := allowanceWindow_mem (allowanceWindow nowMs).resetsAtMs
  rcases Int.lt_or_eq_of_le hnext.1 with hbefore | heq
  · -- The last instant before the reset would lie in both windows.
    have hlast : (allowanceWindow nowMs).startMs ≤ (allowanceWindow nowMs).resetsAtMs - 1 := by
      omega
    have hmine := (allowanceWindow_same hlast (by omega)).2
    have hlast' : (allowanceWindow (allowanceWindow nowMs).resetsAtMs).startMs ≤
        (allowanceWindow nowMs).resetsAtMs - 1 := by omega
    have hother := (allowanceWindow_same hlast' (by omega)).2
    omega
  · exact heq

theorem daysFromCivil_civilFromDays (z : Int) :
    daysFromCivil (civilFromDays z).1 (civilFromDays z).2.1 (civilFromDays z).2.2 = z := by
  obtain ⟨era, yoe, mp, doy, hday, heq⟩ := civilFromDays_spec z
  have hmarch := daysFromCivil_march era hday.yoe_nonneg hday.yoe_lt hday.mp_nonneg hday.mp_le
    (doy - monthStart mp + 1)
  have hz := hday.day
  rw [heq, hmarch]
  omega

def IsDate (y m d : Int) : Prop := (1 ≤ m ∧ m ≤ 12) ∧ 1 ≤ d ∧ d ≤ daysInMonth y m

theorem february_ends (era : Int) (h0 : 0 ≤ yoe) (h1 : yoe < 400) :
    yearStart yoe + monthStart 11 + daysInMonth (yearOf era yoe 11) 2 = yearEnd yoe := by
  have hmonth : monthStart 11 = 337 := by decide
  have hyear : yearOf era yoe 11 = yoe + era * 400 + 1 := if_pos (by decide)
  rw [hyear, hmonth, daysInMonth, if_pos rfl]
  by_cases hleap : IsLeap (yoe + era * 400 + 1)
  · rw [if_pos hleap]
    unfold IsLeap at hleap
    unfold yearEnd yearStart
    split <;> omega
  · rw [if_neg hleap]
    unfold IsLeap at hleap
    unfold yearEnd yearStart
    split <;> omega

theorem month_lengths : ∀ k : Nat, k < 11 → monthOf k ≠ 2 ∧ monthStart k +
    (if monthOf k = 4 ∨ monthOf k = 6 ∨ monthOf k = 9 ∨ monthOf k = 11 then 30 else 31) =
      monthStart (k + 1) := by
  decide

theorem IsDate.isDay {y m d : Int} (h : IsDate y m d) : ∃ era yoe mp, yearOf era yoe mp = y ∧
    monthOf mp = m ∧ IsDay (daysFromCivil y m d) era yoe mp (monthStart mp + d - 1) := by
  obtain ⟨⟨hm1, hm12⟩, hd1, hd⟩ := h
  obtain ⟨march, hmarch⟩ : ∃ march, march = if m ≤ 2 then y - 1 else y := ⟨_, rfl⟩
  obtain ⟨mp, hmp⟩ : ∃ mp, mp = if 2 < m then m - 3 else m + 9 := ⟨_, rfl⟩
  have hrange : 0 ≤ mp ∧ mp ≤ 11 := by omega
  have hmonth : monthOf mp = m := by
    unfold monthOf
    omega
  have hyear : yearOf (march / 400) (march % 400) mp = y := by
    rw [yearOf, hmonth]
    omega
  have hyoe : 0 ≤ march % 400 ∧ march % 400 < 400 := by omega
  have hdays := daysFromCivil_march (march / 400) hyoe.1 hyoe.2 hrange.1 hrange.2 d
  rw [hyear, hmonth] at hdays
  have hzero : (0 : Int) ≤ monthStart mp := monthStart_le hrange.1
  have hends : monthStart mp + d - 1 < monthStart (mp + 1) ∧
      yearStart (march % 400) + (monthStart mp + d - 1) < yearEnd (march % 400) := by
    by_cases hfebruary : mp = 11
    · have htwo : m = 2 := by omega
      have hend := february_ends (march / 400) hyoe.1 hyoe.2
      rw [← hfebruary, hyear, ← htwo] at hend
      have hlong : daysInMonth y m ≤ 29 := by
        rw [daysInMonth, if_pos htwo]
        split <;> decide
      have hlast : monthStart (mp + 1) = monthStart mp + 30 := by
        rw [hfebruary]
        decide
      omega
    · have hlength : monthStart mp + daysInMonth y m = monthStart (mp + 1) := by
        obtain ⟨k, hk⟩ := Int.eq_ofNat_of_zero_le hrange.1
        obtain ⟨hnot, hends⟩ := month_lengths k (by omega)
        rw [← hk, hmonth] at hnot hends
        rw [daysInMonth, if_neg hnot]
        exact hends
      have hle : monthStart (mp + 1) ≤ monthStart 11 := monthStart_le (by omega)
      have hvalue : monthStart 11 = 337 := by decide
      have hlong : yearStart (march % 400) + 365 ≤ yearEnd (march % 400) := by
        by_cases hlast : march % 400 = 399
        · rw [hlast]
          decide
        · rw [yearEnd_eq (by omega)]
          exact yearStart_lt (by omega)
      omega
  refine ⟨march / 400, march % 400, mp, hyear, hmonth, ?_, hyoe.1, hyoe.2, hrange.1, hrange.2,
    by omega, hends.1, hends.2⟩
  omega

theorem civilFromDays_daysFromCivil {y m d : Int} (h : IsDate y m d) :
    civilFromDays (daysFromCivil y m d) = (y, m, d) := by
  obtain ⟨era, yoe, mp, hyear, hmonth, hday⟩ := h.isDay
  obtain ⟨era', yoe', mp', doy', hday', heq⟩ := civilFromDays_spec (daysFromCivil y m d)
  obtain ⟨rfl, rfl, rfl⟩ := hday.unique hday'
  have hdoy : doy' = monthStart mp + d - 1 := by
    have hz := hday.day
    have hz' := hday'.day
    omega
  have hd : doy' - monthStart mp + 1 = d := by omega
  rw [heq, hyear, hmonth, hd]

/-- The windows tile the time line, and the two conversions of days are inverse to each other. -/
theorem allowance_windows_tile (nowMs : Int) :
    ((allowanceWindow nowMs).startMs ≤ nowMs ∧ nowMs < (allowanceWindow nowMs).resetsAtMs) ∧
    (∀ t, (allowanceWindow nowMs).startMs ≤ t → t < (allowanceWindow nowMs).resetsAtMs →
      (allowanceWindow t).startMs = (allowanceWindow nowMs).startMs ∧
        (allowanceWindow t).resetsAtMs = (allowanceWindow nowMs).resetsAtMs) ∧
    (allowanceWindow (allowanceWindow nowMs).resetsAtMs).startMs =
      (allowanceWindow nowMs).resetsAtMs ∧
    (∀ z, daysFromCivil (civilFromDays z).1 (civilFromDays z).2.1 (civilFromDays z).2.2 = z) ∧
    ∀ y m d, IsDate y m d → civilFromDays (daysFromCivil y m d) = (y, m, d) :=
  ⟨allowanceWindow_mem nowMs, fun _ h h' => allowanceWindow_same h h', allowanceWindow_next nowMs,
    daysFromCivil_civilFromDays, fun _ _ _ h => civilFromDays_daysFromCivil h⟩

theorem allowance_windows_tile_leap_day :
    (allowanceWindow 1709208000000).startMs ≤ 1709208000000 ∧
      civilFromDays (daysFromCivil 2024 2 29) = (2024, 2, 29) :=
  ⟨(allowance_windows_tile 1709208000000).1.1,
    (allowance_windows_tile 1709208000000).2.2.2.2 2024 2 29
      ⟨by decide, by decide, by decide⟩⟩

end Relux.Allowance

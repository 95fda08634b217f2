import EdgeMapper.Instant
/-!
# Days in the order of their dates

The date of a day is found in three steps, each of which takes a number apart: the day of a cycle of four
hundred years, the day of a year that begins in March, the day of a month. No step takes a later day to an
earlier year or month, and two days of one month differ as their numbers do. So a later day has a later
date, with the year before the month and the month before the day.
-/

namespace EdgeMapper.Date

def Before (a b : Date) : Prop :=
  a.year < b.year ∨ a.year = b.year ∧ (a.month < b.month ∨ a.month = b.month ∧ a.day < b.day)

/-- The day of a cycle on which a year of it begins. -/
def yearStart (year : Nat) : Nat := 365 * year + year / 4 - year / 100

def yearOfCycle (day : Nat) : Nat := (day - day / 1460 + day / 36524 - day / 146096) / 365

/-- The day of a year, counted from March, on which a month of it begins. -/
def monthStart (month : Nat) : Nat := (153 * month + 2) / 5

def monthOfYear (day : Nat) : Nat := (5 * day + 2) / 153

/-- The cycle in which a day lies. The first one begins in March of the year 0. -/
def cycle (days : Int) : Int := (days + 719468) / 146097

def dayOfCycle (days : Int) : Nat := ((days + 719468) % 146097).toNat

def dayOfYear (days : Int) : Nat := dayOfCycle days - yearStart (yearOfCycle (dayOfCycle days))

def monthCount (days : Int) : Int :=
  12 * (400 * cycle days + yearOfCycle (dayOfCycle days)) + monthOfYear (dayOfYear days)

/-! ## Years -/

theorem yearOfCycle_mono {day later : Nat} (h : day ≤ later) (hlater : later < 146097) :
    yearOfCycle day ≤ yearOfCycle later := by
  unfold yearOfCycle
  apply Nat.div_le_div_right
  omega

/-- On the first day of a year the corrections for leap years cancel out. -/
theorem yearOfCycle_yearStart {year : Nat} (h : year < 400) : yearOfCycle (yearStart year) = year := by
  have hfours : yearStart year / 1460 = year / 4 := by
    unfold yearStart
    omega
  have hhundreds : yearStart year / 36524 = year / 100 := by
    unfold yearStart
    omega
  have hwhole : yearStart year / 146096 = 0 := by
    unfold yearStart
    omega
  unfold yearOfCycle
  rw [hfours, hhundreds, hwhole]
  unfold yearStart
  omega

theorem yearOfCycle_lt_of_lt_yearStart {day year : Nat} (h : year < 400) (hday : day < yearStart year) :
    yearOfCycle day < year := by
  have hbound : yearStart year ≤ 145731 := by
    unfold yearStart
    omega
  have hfours : (yearStart year - 1) / 1460 = year / 4 := by
    unfold yearStart at *
    omega
  have hhundreds : (yearStart year - 1) / 36524 ≤ year / 100 := by
    unfold yearStart
    omega
  -- on the day before a year begins no more leap days are left out than when it begins
  have hlast : yearOfCycle (yearStart year - 1) < year := by
    unfold yearOfCycle
    rw [hfours]
    unfold yearStart at *
    omega
  have hmono : yearOfCycle day ≤ yearOfCycle (yearStart year - 1) :=
    yearOfCycle_mono (by omega) (by omega)
  exact Nat.lt_of_le_of_lt hmono hlast

theorem yearOfCycle_lt {day : Nat} (h : day < 146097) : yearOfCycle day < 400 := by
  unfold yearOfCycle
  omega

theorem yearStart_le {day : Nat} (h : day < 146097) :
    yearStart (yearOfCycle day) ≤ day ∧ day ≤ yearStart (yearOfCycle day) + 365 := by
  have hyear := yearOfCycle_lt h
  constructor
  · refine Nat.le_of_not_lt fun hbegun => ?_
    exact Nat.lt_irrefl _ (yearOfCycle_lt_of_lt_yearStart hyear hbegun)
  · refine Nat.le_of_not_lt fun hover => ?_
    have hlast : yearOfCycle day + 1 < 400 := by
      unfold yearStart at hover
      omega
    have hnext : yearStart (yearOfCycle day + 1) ≤ day := by
      unfold yearStart at hover ⊢
      omega
    have hmono := yearOfCycle_mono hnext h
    rw [yearOfCycle_yearStart hlast] at hmono
    omega

/-! ## Dates -/

theorem dayOfCycle_lt (days : Int) : dayOfCycle days < 146097 := by
  unfold dayOfCycle
  omega

theorem dayOfYear_le (days : Int) : dayOfYear days ≤ 365 := by
  have hyear := (yearStart_le (dayOfCycle_lt days)).2
  unfold dayOfYear
  omega

theorem ofDays_eq (days : Int) :
    let month := monthOfYear (dayOfYear days)
    let month' := if month < 10 then month + 3 else month - 9
    ofDays days =
      { year := yearOfCycle (dayOfCycle days) + cycle days * 400 + if month' ≤ 2 then 1 else 0
        month := month'
        day := dayOfYear days - monthStart month + 1 } := by
  simp only [ofDays, Int.fdiv_eq_ediv_of_nonneg _ (show (0 : Int) ≤ 146097 by decide),
    Int.fmod_eq_emod_of_nonneg _ (show (0 : Int) ≤ 146097 by decide)]
  rfl

theorem monthOfYear_le (days : Int) : monthOfYear (dayOfYear days) ≤ 11 := by
  have hday := dayOfYear_le days
  unfold monthOfYear
  omega

theorem month_ofDays (days : Int) :
    12 * (ofDays days).year + (ofDays days).month = monthCount days + 3 ∧
      1 ≤ (ofDays days).month ∧ (ofDays days).month ≤ 12 := by
  have hmonth := monthOfYear_le days
  rw [ofDays_eq]
  unfold monthCount
  dsimp only
  split <;> split <;> omega

theorem day_ofDays (days : Int) :
    (ofDays days).day = dayOfYear days - monthStart (monthOfYear (dayOfYear days)) + 1 ∧
      (ofDays days).day ≤ 31 := by
  rw [ofDays_eq]
  refine ⟨rfl, ?_⟩
  dsimp only
  unfold monthStart monthOfYear
  omega

theorem monthStart_le (day : Nat) : monthStart (monthOfYear day) ≤ day := by
  unfold monthStart monthOfYear
  omega

theorem days_eq (days : Int) : days + 719468 = 146097 * cycle days + dayOfCycle days := by
  unfold cycle dayOfCycle
  omega

theorem later_month_or_day {days later : Int} (h : days < later) :
    monthCount days < monthCount later ∨
      monthCount days = monthCount later ∧ (ofDays days).day < (ofDays later).day := by
  have hdays := days_eq days
  have hlater := days_eq later
  have hbound := dayOfCycle_lt days
  have hbound' := dayOfCycle_lt later
  have hyear := yearOfCycle_lt hbound
  have hyear' := yearOfCycle_lt hbound'
  have hmonth := monthOfYear_le days
  have hmonth' := monthOfYear_le later
  have hstart := (yearStart_le hbound).1
  have hstart' := (yearStart_le hbound').1
  unfold monthCount
  rcases Int.lt_trichotomy (cycle days) (cycle later) with hcycle | hcycle | hcycle
  · omega
  · have hday : dayOfCycle days < dayOfCycle later := by omega
    have hmono := yearOfCycle_mono (Nat.le_of_lt hday) hbound'
    rcases Nat.lt_or_eq_of_le hmono with hearlier | hsame
    · omega
    · -- within one year the days of the year differ as the days of the cycle do
      have hofYear : dayOfYear days < dayOfYear later := by
        unfold dayOfYear
        rw [hsame] at hstart ⊢
        omega
      have hmonths : monthOfYear (dayOfYear days) ≤ monthOfYear (dayOfYear later) := by
        unfold monthOfYear
        omega
      rcases Nat.lt_or_eq_of_le hmonths with hearlier | hsamemonth
      · omega
      · have hfirst := monthStart_le (dayOfYear days)
        rw [(day_ofDays days).1, (day_ofDays later).1]
        rw [hsamemonth] at hfirst ⊢
        omega
  · omega

theorem ofDays_before {days later : Int} (h : days < later) : (ofDays days).Before (ofDays later) := by
  obtain ⟨hmonth, hlow, hhigh⟩ := month_ofDays days
  obtain ⟨hmonth', hlow', hhigh'⟩ := month_ofDays later
  unfold Before
  rcases later_month_or_day h with hearlier | ⟨hsame, hday⟩
  · omega
  · omega

theorem year_ofDays {days : Int} (hfirst : 0 ≤ days) (hlast : days ≤ 2932896) :
    1970 ≤ (ofDays days).year ∧ (ofDays days).year ≤ 9999 := by
  have hbegin : (ofDays 0).year = 1970 := by decide +kernel
  have hend : (ofDays 2932896).year = 9999 := by decide +kernel
  have hmono {a b : Int} (h : a ≤ b) : (ofDays a).year ≤ (ofDays b).year := by
    rcases Int.lt_or_eq_of_le h with hlt | rfl
    · have hbefore := ofDays_before hlt
      unfold Before at hbefore
      omega
    · exact Int.le_refl _
  rw [← hbegin, ← hend]
  exact ⟨hmono hfirst, hmono hlast⟩

end EdgeMapper.Date

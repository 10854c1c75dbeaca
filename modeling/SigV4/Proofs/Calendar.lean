import Mathlib.Logic.Function.Iterate
import Mathlib.Tactic.IntervalCases
import SigV4.Time.Calendar
/-!
# Days and dates

Counting days and naming them by dates are inverse to each other and keep the order, and from one day to the next the
date goes on as the lengths of the months have it. Both sides are compared by years that begin in March: in these the
leap day is the last one, and each month begins on the same day of every year.
-/

namespace SigV4.Calendar

attribute [ext] Date

/-! ## Years that begin in March -/

/-- Days from March 1 of the year 0 to March 1 of another year. -/
def yearStart (y : Int) : Int := 365 * y + y / 4 - y / 100 + y / 400

/-- Days from March 1 to the first of the month that comes so many months later. -/
def monthStart (m : Int) : Int := (153 * m + 2) / 5

theorem yearStart_add_eras (y era : Int) : yearStart (y + era * 400) = yearStart y + 146097 * era := by
  unfold yearStart
  omega

/-- A year has 365 days, and one more when it ends in a February of 29 days. -/
theorem yearStart_succ (y : Int) :
    yearStart (y + 1) = yearStart y + 365 + if isLeapYear (y + 1) = true then 1 else 0 := by
  simp only [yearStart, isLeapYear, Bool.and_eq_true, Bool.or_eq_true, beq_iff_eq, bne_iff_ne]
  split <;> omega

theorem yearStart_mono {y y' : Int} (h : y ≤ y') : yearStart y ≤ yearStart y' := by
  rcases Int.le_iff_lt_or_eq.1 h with hlt | rfl
  · unfold yearStart
    omega
  · exact Int.le_refl _

/-- A day of the year that begins in March of the year `y`, counted from 0. -/
structure IsDayOf (y d : Int) : Prop where
  nonneg : 0 ≤ d
  lt : yearStart y + d < yearStart (y + 1)

theorem IsDayOf.le {y d : Int} (h : IsDayOf y d) : d ≤ 365 := by
  have hlt := h.lt
  rw [yearStart_succ] at hlt
  split at hlt <;> omega

/-! ## Eras of 400 years -/

/-- A day of an era by its century, its group of four years there, its year and its day. Only the last year of a group
has a day 365, and at the end of a century only that of the fourth one. -/
structure Cycles (n c q r d : Int) : Prop where
  century : 0 ≤ c ∧ c ≤ 3
  group : 0 ≤ q ∧ q ≤ 24
  year : 0 ≤ r ∧ r ≤ 3
  day : 0 ≤ d ∧ (d ≤ 364 ∨ d = 365 ∧ r = 3 ∧ (q < 24 ∨ c = 3))
  sum : n = 36524 * c + 1461 * q + 365 * r + d

theorem exists_cycles {n : Int} (hn : 0 ≤ n ∧ n < 146097) : ∃ c q r d, Cycles n c q r d := by
  -- the last day of an era would begin a fifth century, and the last day of a group of years a fifth year
  obtain ⟨c, hc⟩ : ∃ c, c = min (n / 36524) 3 := ⟨_, rfl⟩
  obtain ⟨q, hq⟩ : ∃ q, q = (n - 36524 * c) / 1461 := ⟨_, rfl⟩
  obtain ⟨r, hr⟩ : ∃ r, r = min ((n - 36524 * c - 1461 * q) / 365) 3 := ⟨_, rfl⟩
  have hcentury : 0 ≤ c ∧ c ≤ 3 := by omega
  have hleft : 0 ≤ n - 36524 * c ∧ (n - 36524 * c < 36524 ∨ c = 3 ∧ n - 36524 * c < 36525) := by omega
  have hgroup : 0 ≤ q ∧ q ≤ 24 := by omega
  have hleft' : 0 ≤ n - 36524 * c - 1461 * q ∧ n - 36524 * c - 1461 * q < 1461 := by omega
  exact ⟨c, q, r, n - 36524 * c - 1461 * q - 365 * r, hcentury, hgroup, by omega, by omega, by omega⟩

namespace Cycles

variable {n c q r d : Int}

theorem yearStart_add (h : Cycles n c q r d) : yearStart (100 * c + 4 * q + r) + d = n := by
  obtain ⟨hc, hq, hr, -, rfl⟩ := h
  have hfours : (100 * c + 4 * q + r) / 4 = 25 * c + q := by omega
  have hhundreds : (100 * c + 4 * q + r) / 100 = c := by omega
  have heras : (100 * c + 4 * q + r) / 400 = 0 := by omega
  rw [yearStart]
  omega

theorem isDayOf (h : Cycles n c q r d) : IsDayOf (100 * c + 4 * q + r) d := by
  obtain ⟨hc, hq, hr, ⟨hd, hlast⟩, -⟩ := h
  refine ⟨hd, ?_⟩
  rw [yearStart_succ]
  simp only [isLeapYear, Bool.and_eq_true, Bool.or_eq_true, beq_iff_eq, bne_iff_ne]
  split <;> omega

/-- When the leap days are taken off, every year has 365 days. -/
theorem yearOfEra_eq (h : Cycles n c q r d) :
    (n - n / 1460 + n / 36524 - n / 146096) / 365 = 100 * c + 4 * q + r := by
  obtain ⟨hc, hq, hr, hd, hsum⟩ := h
  have hfours : n / 1460 = 25 * c + q + if 1460 ≤ 24 * c + q + 365 * r + d then 1 else 0 := by split <;> omega
  have hhundreds : n / 36524 = c + if n = 146096 then 1 else 0 := by split <;> omega
  have hera : n / 146096 = if n = 146096 then 1 else 0 := by split <;> omega
  rw [hfours, hhundreds, hera]
  split <;> omega

theorem yearOfEra_bounds (h : Cycles n c q r d) : 0 ≤ 100 * c + 4 * q + r ∧ 100 * c + 4 * q + r < 400 := by
  obtain ⟨hc, hq, hr, -, -⟩ := h
  omega

end Cycles

/-! ## Dates by their March -/

theorem monthLength_pos (y : Int) (m : Nat) : 1 ≤ monthLength y m := by
  unfold monthLength
  split
  · split <;> decide
  · split <;> decide

theorem monthLength_le (y : Int) (m : Nat) : monthLength y m ≤ 31 := by
  unfold monthLength
  split
  · split <;> decide
  · split <;> decide

namespace Date

variable {d e : Date}

/-- The year of the last March that has begun. -/
def marchYear (d : Date) : Int := if d.month ≤ 2 then d.year - 1 else d.year

/-- Whole months since that March began. -/
def marchMonth (d : Date) : Int := if d.month ≤ 2 then d.month + 9 else d.month - 3

/-- Whole days since that March began. -/
def marchDay (d : Date) : Int := monthStart d.marchMonth + d.day - 1

theorem dayNumber_eq (d : Date) : dayNumber d = yearStart d.marchYear + d.marchDay - 719468 := by
  simp only [dayNumber, yearStart, marchDay, monthStart, marchYear, marchMonth]
  omega

theorem isValid_iff : d.isValid = true ↔
    (1 ≤ d.month ∧ d.month ≤ 12) ∧ 1 ≤ d.day ∧ d.day ≤ monthLength d.year d.month := by
  simp only [isValid, Bool.and_eq_true, decide_eq_true_eq, and_assoc]

theorem isValid_bounds (h : d.isValid = true) : d.month < 10 ^ 2 ∧ d.day < 10 ^ 2 := by
  obtain ⟨⟨-, hmonth⟩, -, hday⟩ := isValid_iff.1 h
  have hlength := monthLength_le d.year d.month
  omega

theorem marchMonth_bounds (h : 1 ≤ d.month ∧ d.month ≤ 12) :
    0 ≤ d.marchMonth ∧ d.marchMonth ≤ 11 ∧ (d.month = 2 ↔ d.marchMonth = 11) := by
  unfold marchMonth
  split <;> omega

/-- Where a month ends the next one begins, and where a February ends the next year. -/
theorem monthStart_add_length (h : 1 ≤ d.month ∧ d.month ≤ 12) :
    monthStart d.marchMonth + monthLength d.year d.month =
      if d.month = 2 then yearStart (d.marchYear + 1) - yearStart d.marchYear else monthStart (d.marchMonth + 1) := by
  obtain ⟨y, m, k⟩ := d
  obtain ⟨hfirst, hlast⟩ : 1 ≤ m ∧ m ≤ 12 := h
  rw [yearStart_succ]
  simp only [marchYear, marchMonth, monthStart, monthLength]
  -- February is the one month whose length depends on the year
  interval_cases m
  case «2» =>
    cases hleap : isLeapYear y
    · simp [hleap]
    · simp [hleap]
      omega
  all_goals rfl

/-- A valid date lies in its month and in its year. -/
theorem marchDay_bounds (h : d.isValid = true) :
    (monthStart d.marchMonth ≤ d.marchDay ∧ d.marchDay < monthStart (d.marchMonth + 1)) ∧
      IsDayOf d.marchYear d.marchDay := by
  obtain ⟨hmonth, hfirst, hlast⟩ := isValid_iff.1 h
  have hlength := monthStart_add_length hmonth
  obtain ⟨hnonneg, hle, hfebruary⟩ := marchMonth_bounds hmonth
  have hyear := yearStart_succ d.marchYear
  have hday : d.marchDay = monthStart d.marchMonth + d.day - 1 := rfl
  simp only [monthStart] at *
  refine ⟨⟨by omega, ?_⟩, ⟨by omega, ?_⟩⟩
  · split at hlength
    · split at hyear <;> omega
    · omega
  · split at hlength
    · omega
    · split at hyear <;> omega

/-! ### The order of dates -/

instance : LT Date where
  lt d e := d.year < e.year ∨ d.year = e.year ∧ (d.month < e.month ∨ d.month = e.month ∧ d.day < e.day)

theorem lt_def : d < e ↔
    d.year < e.year ∨ d.year = e.year ∧ (d.month < e.month ∨ d.month = e.month ∧ d.day < e.day) := Iff.rfl

theorem lt_or_eq_or_lt (d e : Date) : d < e ∨ d = e ∨ e < d := by
  obtain ⟨y, m, k⟩ := d
  obtain ⟨y', m', k'⟩ := e
  simp only [lt_def, Date.mk.injEq]
  omega

/-- The order is the same when the years begin in March. -/
theorem lt_iff_march (hd : 1 ≤ d.month ∧ d.month ≤ 12) (he : 1 ≤ e.month ∧ e.month ≤ 12) : d < e ↔
    d.marchYear < e.marchYear ∨ d.marchYear = e.marchYear ∧
      (d.marchMonth < e.marchMonth ∨ d.marchMonth = e.marchMonth ∧ d.day < e.day) := by
  simp only [lt_def, marchYear, marchMonth]
  split <;> split <;> omega

end Date

variable {d e : Date}

theorem dayNumber_lt (hd : d.isValid = true) (he : e.isValid = true) (h : d < e) : dayNumber d < dayNumber e := by
  obtain ⟨hd', hyear⟩ := Date.marchDay_bounds hd
  obtain ⟨he', hyear'⟩ := Date.marchDay_bounds he
  rw [Date.dayNumber_eq, Date.dayNumber_eq]
  rcases (Date.lt_iff_march (Date.isValid_iff.1 hd).1 (Date.isValid_iff.1 he).1).1 h with hlt | ⟨heq, hlt | ⟨heq', hlt⟩⟩
  · have hstart : yearStart (d.marchYear + 1) ≤ yearStart e.marchYear := yearStart_mono hlt
    have hend := hyear.lt
    have hnonneg := hyear'.nonneg
    omega
  · have hstart : monthStart (d.marchMonth + 1) ≤ monthStart e.marchMonth := by
      unfold monthStart
      omega
    rw [heq]
    omega
  · rw [heq, Date.marchDay, Date.marchDay, heq']
    omega

theorem dayNumber_lt_iff (hd : d.isValid = true) (he : e.isValid = true) : dayNumber d < dayNumber e ↔ d < e := by
  refine ⟨fun h => ?_, dayNumber_lt hd he⟩
  rcases Date.lt_or_eq_or_lt d e with hlt | rfl | hlt
  · exact hlt
  · exact absurd h (Int.lt_irrefl _)
  · exact absurd (dayNumber_lt he hd hlt) (Int.lt_asymm h)

theorem dayNumber_inj (hd : d.isValid = true) (he : e.isValid = true) (h : dayNumber d = dayNumber e) : d = e := by
  rcases Date.lt_or_eq_or_lt d e with hlt | heq | hlt
  · exact absurd (dayNumber_lt hd he hlt) (by rw [h]; exact Int.lt_irrefl _)
  · exact heq
  · exact absurd (dayNumber_lt he hd hlt) (by rw [h]; exact Int.lt_irrefl _)

/-! ## From days to dates -/

/-- The date of the day `k` of a month of the year that begins in March of the year `y`. -/
def Date.ofMarch (y m k : Int) : Date :=
  let month := if m < 10 then m + 3 else m - 9
  ⟨y + (if month ≤ 2 then 1 else 0), month.toNat, k.toNat⟩

theorem Date.ofMarch_march {m : Int} (y k : Int) (h : 0 ≤ m ∧ m ≤ 11) :
    (1 ≤ (ofMarch y m k).month ∧ (ofMarch y m k).month ≤ 12) ∧
      (ofMarch y m k).marchYear = y ∧ (ofMarch y m k).marchMonth = m := by
  simp only [ofMarch, marchYear, marchMonth]
  by_cases hm : m < 10
  · simp only [if_pos hm]
    refine ⟨by omega, ?_, ?_⟩ <;> split <;> omega
  · simp only [if_neg hm]
    refine ⟨by omega, ?_, ?_⟩ <;> split <;> omega

/-- Every day is one of a year that begins in March, and its date is looked up there. -/
theorem exists_ofMarch (n : Int) : ∃ y d, n + 719468 = yearStart y + d ∧ IsDayOf y d ∧
    ofDayNumber n = Date.ofMarch y ((5 * d + 2) / 153) (d - monthStart ((5 * d + 2) / 153) + 1) := by
  obtain ⟨c, q, r, d, h⟩ := exists_cycles (n := (n + 719468) % 146097) (by omega)
  have hyear := h.yearOfEra_eq
  have hday := h.yearStart_add
  have hdayOf := h.isDayOf
  have hera := h.yearOfEra_bounds
  generalize 100 * c + 4 * q + r = y at hyear hday hdayOf hera
  refine ⟨y + (n + 719468) / 146097 * 400, d, ?_, ⟨hdayOf.nonneg, ?_⟩, ?_⟩
  · rw [yearStart_add_eras]
    omega
  · have hlt := hdayOf.lt
    rw [Int.add_right_comm, yearStart_add_eras, yearStart_add_eras]
    omega
  · have hd : (n + 719468) % 146097 - (365 * y + y / 4 - y / 100) = d := by
      rw [yearStart] at hday
      omega
    simp only [ofDayNumber, hyear, hd]
    rfl

/-- The date of a day is valid, and counting to it gives the day back. -/
theorem isValid_and_dayNumber (n : Int) : (ofDayNumber n).isValid = true ∧ dayNumber (ofDayNumber n) = n := by
  obtain ⟨y, d, hn, hday, hdate⟩ := exists_ofMarch n
  have hnonneg := hday.nonneg
  have hle := hday.le
  have hlt := hday.lt
  have hm : 0 ≤ (5 * d + 2) / 153 ∧ (5 * d + 2) / 153 ≤ 11 := by omega
  have hmonth : monthStart ((5 * d + 2) / 153) ≤ d ∧ d < monthStart ((5 * d + 2) / 153 + 1) := by
    unfold monthStart
    omega
  obtain ⟨hcivil, hyear', hmonth'⟩ := Date.ofMarch_march y (d - monthStart ((5 * d + 2) / 153) + 1) hm
  have hk : ((ofDayNumber n).day : Int) = d - monthStart ((5 * d + 2) / 153) + 1 := by
    rw [hdate]
    exact Int.toNat_of_nonneg (by omega)
  have hlength := Date.monthStart_add_length hcivil
  rw [← hdate] at hcivil hyear' hmonth' hlength
  rw [hyear', hmonth'] at hlength
  constructor
  · rw [Date.isValid_iff]
    refine ⟨hcivil, by omega, ?_⟩
    split at hlength <;> omega
  · rw [Date.dayNumber_eq, Date.marchDay, hyear', hmonth', hk]
    omega

theorem isValid_ofDayNumber (n : Int) : (ofDayNumber n).isValid = true := (isValid_and_dayNumber n).1

theorem dayNumber_ofDayNumber (n : Int) : dayNumber (ofDayNumber n) = n := (isValid_and_dayNumber n).2

theorem ofDayNumber_dayNumber (h : d.isValid = true) : ofDayNumber (dayNumber d) = d :=
  dayNumber_inj (isValid_ofDayNumber _) h (dayNumber_ofDayNumber _)

theorem ofDayNumber_inj {m n : Int} : ofDayNumber m = ofDayNumber n ↔ m = n := by
  refine ⟨fun h => ?_, fun h => by rw [h]⟩
  rw [← dayNumber_ofDayNumber m, h, dayNumber_ofDayNumber]

theorem ofDayNumber_lt_iff {m n : Int} : ofDayNumber m < ofDayNumber n ↔ m < n := by
  rw [← dayNumber_lt_iff (isValid_ofDayNumber m) (isValid_ofDayNumber n), dayNumber_ofDayNumber, dayNumber_ofDayNumber]

/-! ## The next day -/

/-- The first of the next month. -/
def Date.nextMonth (d : Date) : Date := if d.month < 12 then ⟨d.year, d.month + 1, 1⟩ else ⟨d.year + 1, 1, 1⟩

/-- The date after another one, as the lengths of the months have it. -/
def Date.next (d : Date) : Date :=
  if d.day < monthLength d.year d.month then ⟨d.year, d.month, d.day + 1⟩ else d.nextMonth

theorem Date.isValid_next (h : d.isValid = true) : d.next.isValid = true := by
  obtain ⟨hmonth, hfirst, hlast⟩ := isValid_iff.1 h
  rw [isValid_iff, next, nextMonth]
  split
  · rename_i hlt
    exact ⟨hmonth, Nat.le_add_left 1 _, hlt⟩
  split
  · rename_i hlt
    exact ⟨⟨Nat.le_add_left 1 _, hlt⟩, Nat.le_refl 1, monthLength_pos _ _⟩
  · exact ⟨⟨Nat.le_refl 1, Nat.le_add_left 1 11⟩, Nat.le_refl 1, monthLength_pos _ _⟩

/-- After February a new year begins, and after every other month a new month of the same year. -/
theorem Date.nextMonth_march (h : 1 ≤ d.month ∧ d.month ≤ 12) :
    d.nextMonth.marchYear = (if d.month = 2 then d.marchYear + 1 else d.marchYear) ∧
      d.nextMonth.marchMonth = (if d.month = 2 then 0 else d.marchMonth + 1) ∧ d.nextMonth.day = 1 := by
  obtain ⟨y, m, k⟩ := d
  obtain ⟨hfirst, hlast⟩ : 1 ≤ m ∧ m ≤ 12 := h
  interval_cases m <;> simp [nextMonth, marchYear, marchMonth]

theorem dayNumber_next (h : d.isValid = true) : dayNumber d.next = dayNumber d + 1 := by
  obtain ⟨hmonth, hfirst, hlast⟩ := Date.isValid_iff.1 h
  rw [Date.dayNumber_eq, Date.dayNumber_eq, Date.next]
  split
  · simp only [Date.marchDay, Date.marchMonth, Date.marchYear]
    omega
  · rename_i hend
    obtain ⟨hyear', hmonth', hday'⟩ := Date.nextMonth_march hmonth
    have hlength := Date.monthStart_add_length hmonth
    rw [Date.marchDay, Date.marchDay, hyear', hmonth', hday']
    split at hlength
    · rename_i htwo
      rw [if_pos htwo, if_pos htwo, show monthStart 0 = 0 from rfl]
      omega
    · rename_i htwo
      rw [if_neg htwo, if_neg htwo]
      omega

/-- The dates of consecutive days are consecutive. -/
theorem ofDayNumber_succ (n : Int) : ofDayNumber (n + 1) = (ofDayNumber n).next := by
  have hvalid := isValid_ofDayNumber n
  have hnext : dayNumber (ofDayNumber n).next = n + 1 := by
    rw [dayNumber_next hvalid, dayNumber_ofDayNumber]
  rw [← hnext, ofDayNumber_dayNumber (Date.isValid_next hvalid)]

theorem ofDayNumber_zero : ofDayNumber 0 = ⟨1970, 1, 1⟩ := rfl

/-- The date of a day after 1970-01-01 is found by going through all days before it. -/
theorem ofDayNumber_eq_iterate (n : Nat) : ofDayNumber n = Date.next^[n] ⟨1970, 1, 1⟩ := by
  induction n with
  | zero => exact ofDayNumber_zero
  | succ n ih => rw [Nat.cast_succ, ofDayNumber_succ, ih, Function.iterate_succ_apply']

end SigV4.Calendar

import Mathlib.Data.String.Basic
import Mathlib.Tactic.Ring
import SigV4.Proofs.Calendar
import SigV4.Time.Format
import SigV4.Time.Rfc3339
/-!
# Texts of points in time

The date and the basic form are what is left of the extended form when its punctuation, and then the time of day, is
taken off. Reading the extended form gives back the second it names, a leap second too, and the order of the basic
forms is the order of these seconds: their numbers have fixed widths, so that they are compared one by one.
-/

namespace SigV4

/-! ## Numbers of a fixed width -/

/-- The last `w` decimal digits of a number. -/
def decimal : Nat → Nat → List Char
  | 0, _ => []
  | w + 1, n => (n / 10 ^ w % 10).digitChar :: decimal w n

theorem decimal_concat (w n : Nat) : decimal (w + 1) n = decimal w (n / 10) ++ [(n % 10).digitChar] := by
  induction w with
  | zero => simp [decimal]
  | succ w ih =>
    have hdigit : n / 10 ^ (w + 1) = n / 10 / 10 ^ w := by rw [Nat.pow_succ', Nat.div_div_eq_div_mul]
    rw [decimal, ih, hdigit]
    rfl

theorem toList_padded {w n : Nat} (h : n < 10 ^ (w + 1)) : (Time.padded (w + 1) n).toList = decimal (w + 1) n := by
  rw [Time.padded, String.toList_ofList]
  -- the digits come off at the end, as in the definition of toDigits
  induction w generalizing n with
  | zero =>
    have hlt : n < 10 := by simpa using h
    rw [Nat.toDigits_of_lt_base hlt, decimal_concat, Nat.mod_eq_of_lt hlt]
    rfl
  | succ w ih =>
    have hlt : n / 10 < 10 ^ (w + 1) := by
      rw [Nat.pow_succ] at h
      omega
    rw [decimal_concat, ← ih hlt]
    by_cases hn : n < 10
    · rw [Nat.toDigits_of_lt_base hn, Nat.div_eq_of_lt hn, Nat.toDigits_zero, Nat.mod_eq_of_lt hn]
      simp [List.replicate_succ']
    · rw [Nat.toDigits_of_base_le (by decide) (Nat.not_lt.1 hn)]
      simp

theorem isDigit_of_mem_decimal {w n : Nat} {c : Char} (h : c ∈ decimal w n) : c.isDigit = true := by
  induction w with
  | zero => cases h
  | succ w ih =>
    rcases List.mem_cons.1 h with rfl | h
    · rw [Nat.isDigit_digitChar]
      exact decide_eq_true (Nat.mod_lt _ (by decide))
    · exact ih h

theorem ne_of_mem_decimal {w n : Nat} {c sign : Char} (hsign : sign.isDigit = false) (h : c ∈ decimal w n) :
    c ≠ sign := by
  rintro rfl
  rw [isDigit_of_mem_decimal h] at hsign
  cases hsign

theorem digitChar_lt_iff {m n : Nat} (hm : m < 10) (hn : n < 10) : m.digitChar < n.digitChar ↔ m < n := by
  rw [Char.lt_def, UInt32.lt_iff_toNat_lt]
  have h := Nat.toNat_digitChar_of_lt_ten hm
  have h' := Nat.toNat_digitChar_of_lt_ten hn
  rw [← Char.toNat_val] at h h'
  omega

theorem digitChar_inj {m n : Nat} (hm : m < 10) (hn : n < 10) : m.digitChar = n.digitChar ↔ m = n := by
  refine ⟨fun h => ?_, fun h => by rw [h]⟩
  have hnat := congrArg Char.toNat h
  rw [Nat.toNat_digitChar_of_lt_ten hm, Nat.toNat_digitChar_of_lt_ten hn] at hnat
  omega

/-- Of two numbers in one base, the higher digit is compared first. -/
theorem add_mul_lt_iff {base low low' high high' : Nat} (h : low < base) (h' : low' < base) :
    low + base * high < low' + base * high' ↔ high < high' ∨ high = high' ∧ low < low' := by
  rcases Nat.lt_trichotomy high high' with hlt | rfl | hlt
  · have hle : base * (high + 1) ≤ base * high' := Nat.mul_le_mul_left _ hlt
    rw [Nat.mul_add_one] at hle
    omega
  · omega
  · have hle : base * (high' + 1) ≤ base * high := Nat.mul_le_mul_left _ hlt
    rw [Nat.mul_add_one] at hle
    omega

theorem add_mul_inj {base low low' high high' : Nat} (h : low < base) (h' : low' < base) :
    low + base * high = low' + base * high' ↔ high = high' ∧ low = low' := by
  have hlt : low + base * high < low' + base * high' ↔ _ := add_mul_lt_iff h h'
  have hgt : low' + base * high' < low + base * high ↔ _ := add_mul_lt_iff h' h
  omega

theorem decimal_append_lt_iff_mod {w m n : Nat} {s t : List Char} : decimal w m ++ s < decimal w n ++ t ↔
    m % 10 ^ w < n % 10 ^ w ∨ m % 10 ^ w = n % 10 ^ w ∧ s < t := by
  induction w with
  | zero => simp [decimal, Nat.mod_one]
  | succ w ih =>
    have hm : m / 10 ^ w % 10 < 10 := Nat.mod_lt _ (by decide)
    have hn : n / 10 ^ w % 10 < 10 := Nat.mod_lt _ (by decide)
    have hrest : m % 10 ^ w < 10 ^ w := Nat.mod_lt _ (Nat.pow_pos (by decide))
    have hrest' : n % 10 ^ w < 10 ^ w := Nat.mod_lt _ (Nat.pow_pos (by decide))
    rw [decimal, decimal, List.cons_append, List.cons_append, List.cons_lt_cons_iff, ih, digitChar_lt_iff hm hn,
      digitChar_inj hm hn, Nat.mod_pow_succ, Nat.mod_pow_succ, add_mul_lt_iff hrest hrest', add_mul_inj hrest hrest',
      and_or_left, or_assoc, and_assoc]

/-- Texts that begin with numbers of one width are ordered by these, and then by what follows. -/
theorem decimal_append_lt_iff {w m n : Nat} {s t : List Char} (hm : m < 10 ^ w) (hn : n < 10 ^ w) :
    decimal w m ++ s < decimal w n ++ t ↔ m < n ∨ m = n ∧ s < t := by
  rw [decimal_append_lt_iff_mod, Nat.mod_eq_of_lt hm, Nat.mod_eq_of_lt hn]

namespace Rfc3339

theorem digitValue?_digitChar {n : Nat} (h : n < 10) : digitValue? n.digitChar = some n := by
  have hdigit : n.digitChar.isDigit = true := by
    rw [Nat.isDigit_digitChar]
    exact decide_eq_true h
  simp only [Char.isDigit, Bool.and_eq_true, decide_eq_true_eq] at hdigit
  have hrange : '0' ≤ n.digitChar ∧ n.digitChar ≤ '9' := hdigit
  rw [digitValue?, if_pos hrange]
  exact congrArg some (Nat.toNat_digitChar_sub_48_of_lt_ten h)

theorem number_decimal (w acc n : Nat) (rest : List Char) :
    number w acc (decimal w n ++ rest) = some (acc * 10 ^ w + n % 10 ^ w, rest) := by
  induction w generalizing acc with
  | zero => simp [decimal, number, Nat.mod_one]
  | succ w ih =>
    have hdigit : n / 10 ^ w % 10 < 10 := Nat.mod_lt _ (by decide)
    rw [decimal, List.cons_append, number, digitValue?_digitChar hdigit, Option.bind_eq_bind, Option.bind_some, ih,
      Nat.mod_pow_succ, Nat.pow_succ]
    congr 2
    ring

theorem number_decimal_zero {w n : Nat} (h : n < 10 ^ w) (rest : List Char) :
    number w 0 (decimal w n ++ rest) = some (n, rest) := by
  rw [number_decimal, Nat.zero_mul, Nat.zero_add, Nat.mod_eq_of_lt h]

end Rfc3339

variable {t t' : Time}

namespace Time

/-- A point in time of the years 0 to 9999. A leap second comes after second 59 and lasts less than a second. -/
structure IsCivil (t : Time) : Prop where
  year : 0 ≤ t.date.year ∧ t.date.year ≤ 9999
  nanos : t.nanos < 2000000000
  leap : 1000000000 ≤ t.nanos → t.seconds % 60 = 59

/-- The start of the second, also of a leap second. -/
def wholeSecond (t : Time) : Time := ⟨t.seconds, t.nanos / 1000000000 * 1000000000⟩

/-! ## The texts in digits -/

theorem date_bounds (t : Time) : t.date.month < 10 ^ 2 ∧ t.date.day < 10 ^ 2 :=
  Calendar.Date.isValid_bounds (Calendar.isValid_ofDayNumber _)

theorem clock_bounds (h : t.IsCivil) : t.clock.1 < 24 ∧ t.clock.2.1 < 60 ∧ t.clock.2.2 ≤ 60 := by
  have hnanos := h.nanos
  simp only [clock, secondOfDay]
  omega

theorem IsCivil.carry (h : t.IsCivil) :
    t.nanos / 1000000000 ≤ 1 ∧ (t.nanos / 1000000000 = 1 → t.secondOfDay % 60 = 59) := by
  have hnanos := h.nanos
  have hleap := h.leap
  simp only [secondOfDay]
  omega

theorem toList_dateText (h : t.IsCivil) (dash : String) : (t.dateText dash).toList =
    decimal 4 t.date.year.toNat ++ (dash.toList ++ (decimal 2 t.date.month ++ (dash.toList ++ decimal 2 t.date.day))) := by
  obtain ⟨hmonth, hday⟩ := date_bounds t
  have hyear : t.date.year.toNat < 10 ^ 4 := by
    have := h.year
    omega
  simp only [dateText, yearText, if_pos h.year, String.toList_append, List.append_assoc, toList_padded hyear,
    toList_padded hmonth, toList_padded hday]

theorem toList_clockText (h : t.IsCivil) (colon : String) : (t.clockText colon).toList =
    decimal 2 t.clock.1 ++ (colon.toList ++ (decimal 2 t.clock.2.1 ++ (colon.toList ++ decimal 2 t.clock.2.2))) := by
  obtain ⟨hhour, hminute, hsecond⟩ := clock_bounds h
  have hhour' : t.clock.1 < 10 ^ 2 := by omega
  have hminute' : t.clock.2.1 < 10 ^ 2 := by omega
  have hsecond' : t.clock.2.2 < 10 ^ 2 := by omega
  simp only [clockText, String.toList_append, List.append_assoc, toList_padded hhour', toList_padded hminute',
    toList_padded hsecond']

theorem toList_formatIso8601 (h : t.IsCivil) : t.formatIso8601.toList =
    decimal 4 t.date.year.toNat ++ (decimal 2 t.date.month ++ (decimal 2 t.date.day ++ 'T' ::
      (decimal 2 t.clock.1 ++ (decimal 2 t.clock.2.1 ++ (decimal 2 t.clock.2.2 ++ ['Z']))))) := by
  simp only [formatIso8601, String.toList_append, toList_dateText h, toList_clockText h, List.append_assoc]
  rfl

theorem toList_formatRfc3339 (h : t.IsCivil) : t.formatRfc3339.toList =
    decimal 4 t.date.year.toNat ++ '-' :: (decimal 2 t.date.month ++ '-' :: (decimal 2 t.date.day ++ 'T' ::
      (decimal 2 t.clock.1 ++ ':' :: (decimal 2 t.clock.2.1 ++ ':' :: (decimal 2 t.clock.2.2 ++ ['Z']))))) := by
  simp only [formatRfc3339, String.toList_append, toList_dateText h, toList_clockText h, List.append_assoc]
  rfl

theorem filter_decimal (w n : Nat) : (decimal w n).filter (fun c => c ≠ '-' && c ≠ ':') = decimal w n := by
  refine List.filter_eq_self.2 fun c hc => ?_
  rw [Bool.and_eq_true, decide_eq_true_eq, decide_eq_true_eq]
  exact ⟨ne_of_mem_decimal rfl hc, ne_of_mem_decimal rfl hc⟩

theorem formatIso8601_eq_filter (h : t.IsCivil) :
    t.formatIso8601.toList = t.formatRfc3339.toList.filter fun c => c ≠ '-' && c ≠ ':' := by
  rw [toList_formatIso8601 h, toList_formatRfc3339 h]
  simp only [List.filter_append, filter_decimal, List.filter_cons]
  rfl

theorem toList_formatDate (h : t.IsCivil) : t.formatDate.toList =
    decimal 4 t.date.year.toNat ++ (decimal 2 t.date.month ++ decimal 2 t.date.day) :=
  toList_dateText h ""

theorem formatDate_eq_takeWhile (h : t.IsCivil) :
    t.formatDate.toList = t.formatIso8601.toList.takeWhile (· ≠ 'T') := by
  have hdigits : ∀ w n, ∀ c ∈ decimal w n, decide (c ≠ 'T') = true :=
    fun w n c hc => decide_eq_true (ne_of_mem_decimal rfl hc)
  rw [toList_formatDate h, toList_formatIso8601 h, List.takeWhile_append_of_pos (hdigits _ _),
    List.takeWhile_append_of_pos (hdigits _ _), List.takeWhile_append_of_pos (hdigits _ _),
    List.takeWhile_cons_of_neg (by decide), List.append_nil]

/-! ## Order -/

theorem formatIso8601_lt_iff (h : t.IsCivil) (h' : t'.IsCivil) : t.formatIso8601 < t'.formatIso8601 ↔
    t.date < t'.date ∨ t.date = t'.date ∧ (t.clock.1 < t'.clock.1 ∨ t.clock.1 = t'.clock.1 ∧
      (t.clock.2.1 < t'.clock.2.1 ∨ t.clock.2.1 = t'.clock.2.1 ∧ t.clock.2.2 < t'.clock.2.2)) := by
  obtain ⟨hmonth, hday⟩ := date_bounds t
  obtain ⟨hmonth', hday'⟩ := date_bounds t'
  obtain ⟨hhour, hminute, hsecond⟩ := clock_bounds h
  obtain ⟨hhour', hminute', hsecond'⟩ := clock_bounds h'
  have hyear := h.year
  have hyear' := h'.year
  have hyears : t.date.year.toNat < t'.date.year.toNat ↔ t.date.year < t'.date.year := by omega
  have hsame : t.date.year.toNat = t'.date.year.toNat ↔ t.date.year = t'.date.year := by omega
  have hirrefl : ¬ ['Z'] < ['Z'] := by decide
  rw [String.lt_iff, toList_formatIso8601 h, toList_formatIso8601 h', decimal_append_lt_iff (by omega) (by omega),
    decimal_append_lt_iff hmonth hmonth', decimal_append_lt_iff hday hday', List.cons_lt_cons_self,
    decimal_append_lt_iff (by omega) (by omega), decimal_append_lt_iff (by omega) (by omega),
    decimal_append_lt_iff (by omega) (by omega), hyears, hsame, Calendar.Date.lt_def, Calendar.Date.ext_iff]
  simp only [hirrefl, and_false, or_false, and_or_left, or_assoc, and_assoc]

theorem notAfter_iff : t.notAfter t' = true ↔
    t.seconds < t'.seconds ∨ t.seconds = t'.seconds ∧ t.nanos ≤ t'.nanos := by
  simp only [notAfter, Bool.or_eq_true, Bool.and_eq_true, decide_eq_true_eq, beq_iff_eq]

theorem wholeSecond_notAfter (h : t.notAfter t' = true) : t.wholeSecond.notAfter t'.wholeSecond = true := by
  rw [notAfter_iff] at h ⊢
  simp only [wholeSecond]
  omega

/-- Hour, minute and second are in the order of the seconds of a day, of which a leap second is the last of its minute. -/
theorem clock_lt_iff (h : t.IsCivil) (h' : t'.IsCivil) :
    (t.clock.1 < t'.clock.1 ∨ t.clock.1 = t'.clock.1 ∧
      (t.clock.2.1 < t'.clock.2.1 ∨ t.clock.2.1 = t'.clock.2.1 ∧ t.clock.2.2 < t'.clock.2.2)) ↔
    t.secondOfDay < t'.secondOfDay ∨
      t.secondOfDay = t'.secondOfDay ∧ t.nanos / 1000000000 < t'.nanos / 1000000000 := by
  have hcarry := h.carry
  have hcarry' := h'.carry
  simp only [clock]
  generalize t.nanos / 1000000000 = k at *
  generalize t'.nanos / 1000000000 = k' at *
  generalize t.secondOfDay = s at *
  generalize t'.secondOfDay = s' at *
  omega

/-- The order of the texts is that of the seconds they name. -/
theorem formatIso8601_le_iff (h : t.IsCivil) (h' : t'.IsCivil) :
    t.formatIso8601 ≤ t'.formatIso8601 ↔ t.wholeSecond.notAfter t'.wholeSecond = true := by
  rw [← not_lt, formatIso8601_lt_iff h' h, clock_lt_iff h' h, date, date, Calendar.ofDayNumber_lt_iff,
    Calendar.ofDayNumber_inj, notAfter_iff]
  simp only [wholeSecond, secondOfDay]
  omega

end Time

/-! ## Reading -/

namespace Rfc3339

theorem date_decimal {d : Calendar.Date} (hd : d.isValid = true) (hyear : 0 ≤ d.year ∧ d.year ≤ 9999)
    (rest : List Char) :
    date (decimal 4 d.year.toNat ++ '-' :: (decimal 2 d.month ++ '-' :: (decimal 2 d.day ++ rest))) = some (d, rest) := by
  obtain ⟨hmonth, hday⟩ := Calendar.Date.isValid_bounds hd
  have hyear' : d.year.toNat < 10 ^ 4 := by omega
  have hback : (⟨(d.year.toNat : Int), d.month, d.day⟩ : Calendar.Date) = d := by
    rw [Int.toNat_of_nonneg hyear.1]
  simp only [date, char, Option.bind_eq_bind, Option.bind_some, number_decimal_zero hyear', number_decimal_zero hmonth,
    number_decimal_zero hday, if_true, hback, hd]

/-- Second 60 is read as second 59 and a leap second. -/
theorem timeOfDay_decimal {hour minute second : Nat} (hhour : hour ≤ 23) (hminute : minute ≤ 59) (hsecond : second ≤ 60)
    (rest : List Char) :
    timeOfDay (decimal 2 hour ++ ':' :: (decimal 2 minute ++ ':' :: (decimal 2 second ++ 'Z' :: rest))) =
      some ((hour * 3600 + minute * 60 + min second 59, second / 60 * 1000000000), 'Z' :: rest) := by
  have hfraction : fraction ('Z' :: rest) = some (0, 'Z' :: rest) := rfl
  have hhour' : hour < 10 ^ 2 := by omega
  have hminute' : minute < 10 ^ 2 := by omega
  have hsecond' : second < 10 ^ 2 := by omega
  simp only [timeOfDay, char, Option.bind_eq_bind, Option.bind_some, number_decimal_zero hhour',
    number_decimal_zero hminute', number_decimal_zero hsecond', if_true, hfraction]
  rw [if_pos ⟨hhour, hminute, hsecond⟩, Option.some.injEq, Prod.mk.injEq, Prod.mk.injEq]
  refine ⟨⟨?_, ?_⟩, rfl⟩
  · split <;> omega
  · split <;> omega

end Rfc3339

namespace Time

/-- What is left of the clock when a leap second is taken off. -/
theorem clock_sum (h : t.IsCivil) :
    t.clock.1 * 3600 + t.clock.2.1 * 60 + min t.clock.2.2 59 = t.secondOfDay ∧
      t.clock.2.2 / 60 = t.nanos / 1000000000 := by
  have hcarry := h.carry
  simp only [clock]
  omega

theorem read?_formatRfc3339 (h : t.IsCivil) : Rfc3339.read? t.formatRfc3339 = some t.wholeSecond := by
  obtain ⟨hhour, hminute, hsecond⟩ := clock_bounds h
  have hdate := Rfc3339.date_decimal (Calendar.isValid_ofDayNumber (t.seconds / 86400)) h.year
  have hclock := Rfc3339.timeOfDay_decimal (Nat.le_of_lt_succ hhour) (Nat.le_of_lt_succ hminute) hsecond []
  have hoffset : Rfc3339.offset ['Z'] = some (0, []) := rfl
  rw [Rfc3339.read?, toList_formatRfc3339 h, date, hdate]
  simp only [Option.bind_eq_bind, Option.bind_some, Rfc3339.separator, true_or, if_true, hclock, hoffset, List.isEmpty_nil]
  -- what is read is the day times 86400 and the second of that day
  obtain ⟨hseconds, hnanos⟩ := clock_sum h
  rw [hseconds, hnanos, Calendar.dayNumber_ofDayNumber, wholeSecond, secondOfDay, Int.sub_zero,
    Int.toNat_of_nonneg (Int.emod_nonneg _ (by decide)), Int.mul_comm, Int.mul_ediv_add_emod]

/-- The texts agree with each other, are in the order of time, and keep all of it but the fraction of the second. -/
theorem texts_agree (h : t.IsCivil) :
    Rfc3339.parse t.formatRfc3339 = .ok t.wholeSecond ∧
    t.formatIso8601.toList = t.formatRfc3339.toList.filter (fun c => c ≠ '-' && c ≠ ':') ∧
    t.formatDate.toList = t.formatIso8601.toList.takeWhile (· ≠ 'T') ∧
    ∀ t' : Time, t'.IsCivil → t.notAfter t' = true → t.formatIso8601 ≤ t'.formatIso8601 := by
  refine ⟨?_, formatIso8601_eq_filter h, formatDate_eq_takeWhile h, fun t' h' hle => ?_⟩
  · rw [Rfc3339.parse, read?_formatRfc3339 h]
  · exact (formatIso8601_le_iff h h').2 (wholeSecond_notAfter hle)

/-- The middle of the leap second at the end of 2016, and the second after it. -/
def leapSecond : Time := ⟨1483228799, 1500000000⟩

def newYear : Time := ⟨1483228800, 0⟩

theorem texts_agree_leapSecond : leapSecond.notAfter newYear = true ∧
    Rfc3339.parse "2016-12-31T23:59:60Z" = .ok ⟨1483228799, 1000000000⟩ ∧
    leapSecond.formatDate.toList = "20161231T235960Z".toList.takeWhile (· ≠ 'T') ∧
    "20161231T235960Z" ≤ newYear.formatIso8601 := by
  have hcivil : leapSecond.IsCivil := ⟨by decide, by decide, fun _ => by decide⟩
  have hcivil' : newYear.IsCivil := ⟨by decide, by decide, by decide⟩
  have hextended : leapSecond.formatRfc3339 = "2016-12-31T23:59:60Z" := by decide +kernel
  have hbasic : leapSecond.formatIso8601 = "20161231T235960Z" := by decide +kernel
  obtain ⟨hread, -, hdate, horder⟩ := texts_agree hcivil
  rw [hextended] at hread
  rw [hbasic] at hdate horder
  exact ⟨by decide, hread, hdate, horder newYear hcivil' (by decide)⟩

end Time

end SigV4

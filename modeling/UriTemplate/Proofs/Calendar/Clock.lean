import UriTemplate.Calendar
import UriTemplate.Proofs.Text.FixedWidth

/-!
# The text of a date and a time

Behind the year a date and time is written in fixed widths, and so is the year itself from 0 to
9999. So texts show the numbers that are written (`canonical_inj`), and are in their order. These
numbers are not the fields: a leap second is shown as the last tick of the next second. Behind second
59 that is second 60, which is in front of the next minute. Elsewhere there is such a second in the
minute, and the leap second is shown behind nearly all of it (`Outruns`). Apart from that the order of
the fields is kept (`earlier_or_outruns_of_lt`).
-/

namespace UriTemplate
set_option autoImplicit false

/-! ## Years -/

/-- A sign is no digit, so years that have one are told from those that have none. -/
theorem padZeros_ne_cons {width n : Nat} {c : Char} {s : Text} (h : c.isDigit = false) :
    padZeros width (numeral n) ≠ c :: s := by
  intro heq
  have hdigit := isDigit_of_mem_padZeros c (heq ▸ List.mem_cons_self)
  rw [h] at hdigit
  cases hdigit

theorem isDigit_sign (p : Prop) [Decidable p] : (if p then '-' else '+').isDigit = false := by
  split <;> rfl

theorem yearText_of_fourDigits {y : Int} (h : 0 ≤ y ∧ y ≤ 9999) :
    yearText y = padZeros 4 (numeral y.natAbs) := if_pos h

theorem yearText_of_not_fourDigits {y : Int} (h : ¬(0 ≤ y ∧ y ≤ 9999)) :
    yearText y = (if y < 0 then '-' else '+') :: padZeros 4 (numeral y.natAbs) := if_neg h

theorem sign_inj {y z : Int} :
    (if y < 0 then '-' else '+') = (if z < 0 then '-' else '+') ↔ (y < 0 ↔ z < 0) := by
  by_cases hy : y < 0 <;> by_cases hz : z < 0 <;> simp [hy, hz]

theorem yearText_inj {y z : Int} : yearText y = yearText z ↔ y = z := by
  constructor
  · intro h
    by_cases hy : 0 ≤ y ∧ y ≤ 9999 <;> by_cases hz : 0 ≤ z ∧ z ≤ 9999
    · rw [yearText_of_fourDigits hy, yearText_of_fourDigits hz, padZeros_numeral_inj] at h
      omega
    · rw [yearText_of_fourDigits hy, yearText_of_not_fourDigits hz] at h
      exact absurd h (padZeros_ne_cons (isDigit_sign _))
    · rw [yearText_of_not_fourDigits hy, yearText_of_fourDigits hz] at h
      exact absurd h.symm (padZeros_ne_cons (isDigit_sign _))
    · rw [yearText_of_not_fourDigits hy, yearText_of_not_fourDigits hz, List.cons.injEq, sign_inj,
        padZeros_numeral_inj] at h
      omega
  · rintro rfl
    rfl

namespace DateTime

variable {a b : DateTime}

/-- A year that is written in four digits, without a sign. -/
def HasFourDigitYear (d : DateTime) : Prop := 0 ≤ d.year ∧ d.year ≤ 9999

/-! ## What is written behind the year -/

/-- The widths behind the year, and the marks between them. -/
def layout : List (Nat × Text) :=
  [(2, ['-']), (2, ['T']), (2, [':']), (2, [':']), (2, ['.']), (7, [])]

/-- The numbers behind the year. -/
def shown (d : DateTime) : List Nat :=
  [d.month, d.day, d.hour, d.minute, d.shownSecond, d.ticks]

theorem canonical_eq (d : DateTime) :
    d.canonical = yearText d.year ++ '-' :: writeFields layout d.shown := by
  simp [canonical, wholeSeconds, twoDigits, layout, shown, writeFields]

theorem daysInMonth_le (year : Int) (month : Nat) : daysInMonth year month ≤ 31 := by
  unfold daysInMonth
  split
  · split <;> omega
  all_goals omega

theorem shownSecond_eq (d : DateTime) : d.shownSecond = d.second + d.nanosecond / 1000000000 := rfl

theorem ticks_eq (d : DateTime) : d.ticks = min d.nanosecond 999999999 / 100 := rfl

/-- The fields behind the year are within the ranges of the calendar and the clock. -/
theorem ranges (d : DateTime) :
    (1 ≤ d.month ∧ d.month ≤ 12) ∧ (1 ≤ d.day ∧ d.day ≤ 31) ∧ d.hour < 24 ∧ d.minute < 60 ∧
      d.second < 60 ∧ d.nanosecond < 2000000000 := by
  obtain ⟨hmonth, ⟨hleast, hday⟩, hclock⟩ := d.valid
  exact ⟨hmonth, ⟨hleast, Nat.le_trans hday (daysInMonth_le d.year d.month)⟩, hclock⟩

theorem fits_shown (d : DateTime) : FitsLayout layout d.shown := by
  obtain ⟨⟨-, hmonth⟩, ⟨-, hday⟩, hhour, hminute, hsecond, hnano⟩ := d.ranges
  have hshown := d.shownSecond_eq
  have hticks := d.ticks_eq
  -- Each number is compared with a power of ten, of which the decision procedure knows nothing.
  refine .cons ⟨Nat.two_pos, show _ < 100 from ?_⟩ (.cons ⟨Nat.two_pos, show _ < 100 from ?_⟩
    (.cons ⟨Nat.two_pos, show _ < 100 from ?_⟩ (.cons ⟨Nat.two_pos, show _ < 100 from ?_⟩
    (.cons ⟨Nat.two_pos, show _ < 100 from ?_⟩ (.cons ⟨Nat.succ_pos 6, show _ < 10000000 from ?_⟩
    .nil))))) <;> omega

theorem canonical_inj : a.canonical = b.canonical ↔ a.year = b.year ∧ a.shown = b.shown := by
  rw [canonical_eq, canonical_eq]
  constructor
  · intro h
    have hlength : ('-' :: writeFields layout a.shown).length =
        ('-' :: writeFields layout b.shown).length := by
      rw [List.length_cons, List.length_cons, length_writeFields (fits_shown a),
        length_writeFields (fits_shown b)]
    obtain ⟨hyear, hbehind⟩ := List.append_inj' h hlength
    exact ⟨yearText_inj.1 hyear,
      (writeFields_inj (fits_shown a) (fits_shown b)).1 (List.cons.inj hbehind).2⟩
  · rintro ⟨hyear, hshown⟩
    rw [hyear, hshown]

/-! ## Ticks -/

/-- Two dates and times agree down to the minute. -/
structure SameMinute (a b : DateTime) : Prop where
  year : a.year = b.year
  month : a.month = b.month
  day : a.day = b.day
  hour : a.hour = b.hour
  minute : a.minute = b.minute

/-- The fields from the month to the minute. -/
def monthToMinute (d : DateTime) : List Nat := [d.month, d.day, d.hour, d.minute]

theorem sameMinute_iff : a.SameMinute b ↔ a.year = b.year ∧ a.monthToMinute = b.monthToMinute := by
  constructor
  · rintro ⟨hyear, hmonth, hday, hhour, hminute⟩
    refine ⟨hyear, ?_⟩
    rw [monthToMinute, monthToMinute, hmonth, hday, hhour, hminute]
  · rintro ⟨hyear, hfields⟩
    simp only [monthToMinute, List.cons.injEq, and_true] at hfields
    obtain ⟨hmonth, hday, hhour, hminute⟩ := hfields
    exact ⟨hyear, hmonth, hday, hhour, hminute⟩

/-- Two dates and times agree down to steps of 100 nanoseconds. -/
structure SameTick (a b : DateTime) : Prop extends SameMinute a b where
  second : a.second = b.second
  tick : a.nanosecond / 100 = b.nanosecond / 100

/-- Outside of leap seconds the clock shows the fields. -/
theorem shown_of_not_leap (h : a.isLeapSecond = false) :
    a.shown = a.monthToMinute ++ [a.second, a.nanosecond / 100] := by
  have hless : a.nanosecond < 1000000000 := Nat.not_le.1 (of_decide_eq_false h)
  have hsecond : a.shownSecond = a.second := by
    rw [shownSecond_eq]
    omega
  have hticks : a.ticks = a.nanosecond / 100 := by
    rw [ticks_eq]
    omega
  rw [shown, hsecond, hticks]
  rfl

theorem canonical_eq_iff_sameTick (ha : a.isLeapSecond = false) (hb : b.isLeapSecond = false) :
    a.canonical = b.canonical ↔ a.SameTick b := by
  rw [canonical_inj, shown_of_not_leap ha, shown_of_not_leap hb]
  constructor
  · rintro ⟨hyear, hshown⟩
    obtain ⟨hfields, hbehind⟩ := List.append_inj hshown rfl
    simp only [List.cons.injEq, and_true] at hbehind
    exact ⟨sameMinute_iff.2 ⟨hyear, hfields⟩, hbehind.1, hbehind.2⟩
  · rintro ⟨hminute, hsecond, htick⟩
    obtain ⟨hyear, hfields⟩ := sameMinute_iff.1 hminute
    rw [hfields, hsecond, htick]
    exact ⟨hyear, rfl⟩

/-! ## Order -/

/-- The fields below the year, the greatest first. -/
def belowYear (d : DateTime) : List Nat :=
  [d.month, d.day, d.hour, d.minute, d.second, d.nanosecond]

/-- Whether a date and time is before another one: the first field in which they differ decides. -/
def Earlier (a b : DateTime) : Prop :=
  a.year < b.year ∨ (a.year = b.year ∧ a.belowYear < b.belowYear)

instance (a b : DateTime) : Decidable (a.Earlier b) :=
  inferInstanceAs (Decidable (_ ∨ _))

/-- A leap second is shown behind a later date and time: this is in the next second of the same
minute, and not in its last step of 100 nanoseconds. -/
structure Outruns (a b : DateTime) : Prop extends SameMinute a b where
  leap : a.isLeapSecond = true
  second : b.second = a.second + 1
  tick : b.nanosecond / 100 < 9999999

/-! Below the year the fields and the numbers that are shown differ only behind the minute. -/

theorem belowYear_lt_iff : a.belowYear < b.belowYear ↔ a.monthToMinute < b.monthToMinute ∨
    (a.monthToMinute = b.monthToMinute ∧ [a.second, a.nanosecond] < [b.second, b.nanosecond]) := by
  have hlength : a.monthToMinute.length = b.monthToMinute.length := rfl
  exact append_lt_append_iff hlength

theorem shown_lt_iff : a.shown < b.shown ↔ a.monthToMinute < b.monthToMinute ∨
    (a.monthToMinute = b.monthToMinute ∧
      [a.shownSecond, a.ticks] < [b.shownSecond, b.ticks]) := by
  have hlength : a.monthToMinute.length = b.monthToMinute.length := rfl
  exact append_lt_append_iff hlength

/-- A leap second is shown as the last tick of the next second, so only there it is too late. -/
theorem second_lt_or_leap_of_shownSecond_lt
    (h : [a.shownSecond, a.ticks] < [b.shownSecond, b.ticks]) :
    [a.second, a.nanosecond] < [b.second, b.nanosecond] ∨
      1000000000 ≤ b.nanosecond ∧ a.second = b.second + 1 ∧ a.nanosecond / 100 < 9999999 := by
  obtain ⟨-, -, -, -, -, hnano⟩ := a.ranges
  obtain ⟨-, -, -, -, -, hnano'⟩ := b.ranges
  simp only [List.cons_lt_cons_iff, List.lt_irrefl, and_false, or_false, shownSecond_eq, ticks_eq]
    at h ⊢
  omega

theorem shownSecond_lt_of_leap (hleap : 1000000000 ≤ a.nanosecond)
    (hsecond : b.second = a.second + 1) (htick : b.nanosecond / 100 < 9999999) :
    [b.shownSecond, b.ticks] < [a.shownSecond, a.ticks] := by
  obtain ⟨-, -, -, -, -, hnano⟩ := a.ranges
  simp only [List.cons_lt_cons_iff, List.lt_irrefl, and_false, or_false, shownSecond_eq, ticks_eq]
  omega

theorem canonical_of_hasFourDigitYear (h : a.HasFourDigitYear) :
    a.canonical = writeFields ((4, ['-']) :: layout) (a.year.natAbs :: a.shown) := by
  rw [canonical_eq, yearText_of_fourDigits h]
  rfl

theorem fits_of_hasFourDigitYear (h : a.HasFourDigitYear) :
    FitsLayout ((4, ['-']) :: layout) (a.year.natAbs :: a.shown) := by
  obtain ⟨hleast, hgreatest⟩ := h
  have hyear : a.year.natAbs < 10000 := by omega
  exact .cons ⟨Nat.succ_pos 3, hyear⟩ (fits_shown a)

theorem length_canonical (h : a.HasFourDigitYear) : a.canonical.length = 27 := by
  rw [canonical_of_hasFourDigitYear h, length_writeFields (fits_of_hasFourDigitYear h)]
  rfl

theorem canonical_lt_iff (ha : a.HasFourDigitYear) (hb : b.HasFourDigitYear) :
    a.canonical < b.canonical ↔ a.year < b.year ∨ a.year = b.year ∧ a.shown < b.shown := by
  have hleast : 0 ≤ a.year := ha.1
  have hleast' : 0 ≤ b.year := hb.1
  have hyear : a.year.natAbs < b.year.natAbs ↔ a.year < b.year := by omega
  have hyear' : a.year.natAbs = b.year.natAbs ↔ a.year = b.year := by omega
  rw [canonical_of_hasFourDigitYear ha, canonical_of_hasFourDigitYear hb,
    writeFields_lt_iff (fits_of_hasFourDigitYear ha) (fits_of_hasFourDigitYear hb),
    List.cons_lt_cons_iff, hyear, hyear']

/-- **A text that is before another one** is of an earlier date and time, unless the other one is
that of a leap second that outruns it. -/
theorem earlier_or_outruns_of_lt (ha : a.HasFourDigitYear) (hb : b.HasFourDigitYear)
    (h : a.canonical < b.canonical) : a.Earlier b ∨ b.Outruns a := by
  rcases (canonical_lt_iff ha hb).1 h with hyear | ⟨hyear, hshown⟩
  · exact .inl (.inl hyear)
  rcases shown_lt_iff.1 hshown with hlt | ⟨hfields, hlt⟩
  · exact .inl (.inr ⟨hyear, belowYear_lt_iff.2 (.inl hlt)⟩)
  rcases second_lt_or_leap_of_shownSecond_lt hlt with hsecond | ⟨hleap, hsecond, htick⟩
  · exact .inl (.inr ⟨hyear, belowYear_lt_iff.2 (.inr ⟨hfields, hsecond⟩)⟩)
  · exact .inr ⟨sameMinute_iff.2 ⟨hyear.symm, hfields.symm⟩, decide_eq_true hleap, hsecond, htick⟩

theorem Outruns.lt (h : a.Outruns b) (ha : a.HasFourDigitYear) (hb : b.HasFourDigitYear) :
    b.canonical < a.canonical := by
  obtain ⟨hminute, hleap, hsecond, htick⟩ := h
  obtain ⟨hyear, hfields⟩ := sameMinute_iff.1 hminute
  have hseconds := shownSecond_lt_of_leap (of_decide_eq_true hleap) hsecond htick
  have hshown : b.shown < a.shown := shown_lt_iff.2 (.inr ⟨hfields.symm, hseconds⟩)
  exact (canonical_lt_iff hb ha).2 (.inr ⟨hyear.symm, hshown⟩)

/-- If the date and time is in a leap second, this prolongs the last second of its minute. -/
def LeapsAtMinuteEnd (d : DateTime) : Prop := d.isLeapSecond = true → d.second = 59

/-- Behind second 59 there is nothing left of the minute. -/
theorem not_outruns (h : a.LeapsAtMinuteEnd) : ¬a.Outruns b := by
  intro houtruns
  obtain ⟨-, -, -, -, hless, -⟩ := b.ranges
  have hlast := h houtruns.leap
  have hnext := houtruns.second
  omega

end DateTime

end UriTemplate

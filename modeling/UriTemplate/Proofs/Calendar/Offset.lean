import UriTemplate.Value
import UriTemplate.Proofs.Calendar.Clock

/-!
# Dates and times with an offset

The zone behind a local date and time has six characters. It is cut from the end, whatever is in
front of it, and `readOffset?` reads it: an offset of whole minutes comes back as it was
(`readOffset?_offsetText`). So the local date and time and the offset are told apart
(`canonical_eq_iff`).
-/

namespace UriTemplate
set_option autoImplicit false

/-! ## Zones -/

/-- A number of seconds ahead of universal time, or behind it. -/
def withSign? (sign : Char) (seconds : Nat) : Option Int :=
  match sign with
  | '+' => some seconds
  | '-' => some (-seconds)
  | _ => none

theorem withSign?_natAbs (offset : Int) :
    withSign? (if offset < 0 then '-' else '+') offset.natAbs = some offset := by
  by_cases hsign : offset < 0
  · rw [if_pos hsign, withSign?, Option.some.injEq]
    omega
  · rw [if_neg hsign, withSign?, Option.some.injEq]
    omega

/-- The offset in seconds that a zone such as `-07:30` names. -/
def readOffset? : Text → Option Int
  | [sign, h, h', ':', m, m'] =>
    let hours := digitsValue [h, h']
    let minutes := digitsValue [m, m']
    if [h, h', m, m'].all Char.isDigit ∧ hours < 24 ∧ minutes < 60 then
      withSign? sign (60 * (60 * hours + minutes))
    else none
  | _ => none

theorem exists_twoDigits {n : Nat} (h : n < 100) :
    ∃ c c', twoDigits n = [c, c'] ∧ c.isDigit = true ∧ c'.isDigit = true ∧
      digitsValue [c, c'] = n := by
  have hlength : (twoDigits n).length = 2 := length_padZeros_numeral Nat.two_pos h
  obtain ⟨c, c', htext⟩ := List.length_eq_two.1 hlength
  have hdigit : ∀ d ∈ [c, c'], d.isDigit = true := htext ▸ isDigit_of_mem_padZeros
  have hvalue : digitsValue (twoDigits n) = n := by
    rw [twoDigits, digitsValue_padZeros, digitsValue_numeral]
  refine ⟨c, c', htext, ?_, ?_, htext ▸ hvalue⟩
  · exact hdigit c List.mem_cons_self
  · exact hdigit c' (List.mem_cons_of_mem c List.mem_cons_self)

/-- Hours and minutes of a clock are read back with the sign in front of them. -/
theorem readOffset?_twoDigits (sign : Char) {hours minutes : Nat} (hhours : hours < 24)
    (hminutes : minutes < 60) :
    (sign :: twoDigits hours ++ ':' :: twoDigits minutes).length = 6 ∧
      readOffset? (sign :: twoDigits hours ++ ':' :: twoDigits minutes) =
        withSign? sign (60 * (60 * hours + minutes)) := by
  obtain ⟨h, h', htext, hh, hh', hvalue⟩ := exists_twoDigits (n := hours) (by omega)
  obtain ⟨m, m', htext', hm, hm', hvalue'⟩ := exists_twoDigits (n := minutes) (by omega)
  rw [htext, htext']
  refine ⟨rfl, ?_⟩
  have hall : [h, h', m, m'].all Char.isDigit = true := by simp [hh, hh', hm, hm']
  rw [List.cons_append, List.cons_append, List.cons_append, List.nil_append, readOffset?, hvalue,
    hvalue', if_pos ⟨hall, hhours, hminutes⟩]

namespace OffsetDateTime

variable {d d' : OffsetDateTime}

theorem signText_eq (offset : Int) : signText offset = [if offset < 0 then '-' else '+'] := by
  unfold signText
  split <;> rfl

/-- The offset is less than a day, as that of every zone, and a whole number of minutes. -/
structure HasMinuteOffset (d : OffsetDateTime) : Prop where
  bounded : d.offset.natAbs < 86400
  whole : d.offset % 60 = 0

/-- **A zone is read as the offset that it was written for**: there is nothing to be rounded. -/
theorem readOffset?_offsetText (h : d.HasMinuteOffset) :
    (offsetText d.offset).length = 6 ∧ readOffset? (offsetText d.offset) = some d.offset := by
  obtain ⟨hbounded, hwhole⟩ := h
  have hround : (d.offset.natAbs + 30) / 60 = d.offset.natAbs / 60 := by omega
  have hhours : d.offset.natAbs / 60 / 60 < 24 := by omega
  have hminutes : d.offset.natAbs / 60 % 60 < 60 := by omega
  have hseconds :
      60 * (60 * (d.offset.natAbs / 60 / 60) + d.offset.natAbs / 60 % 60) = d.offset.natAbs := by
    omega
  obtain ⟨hlength, hread⟩ :=
    readOffset?_twoDigits (if d.offset < 0 then '-' else '+') hhours hminutes
  rw [hseconds, withSign?_natAbs] at hread
  rw [offsetText, hround, signText_eq]
  exact ⟨hlength, hread⟩

theorem canonical_eq_iff (h : d.HasMinuteOffset) (h' : d'.HasMinuteOffset) :
    d.canonical = d'.canonical ↔ d.clock.canonical = d'.clock.canonical ∧ d.offset = d'.offset := by
  obtain ⟨hlength, hread⟩ := readOffset?_offsetText h
  obtain ⟨hlength', hread'⟩ := readOffset?_offsetText h'
  constructor
  · intro heq
    obtain ⟨hclock, hzone⟩ := List.append_inj' heq (hlength.trans hlength'.symm)
    rw [hzone, hread', Option.some.injEq] at hread
    exact ⟨hclock, hread.symm⟩
  · rintro ⟨hclock, hoffset⟩
    rw [canonical, canonical, hclock, hoffset]

end OffsetDateTime

/-! ## What the texts keep -/

namespace DateTime

/-- The last half second of 2016, which is a leap second. -/
def endOf2016 : DateTime := ⟨⟨2016, 12, 31, 23, 59, 59, 1500000000⟩, by decide⟩

/-- The first nanosecond of 2017, which its text does not show. -/
def startOf2017 : DateTime := ⟨⟨2017, 1, 1, 0, 0, 0, 1⟩, by decide⟩

/-- A third of a second into a leap second that prolongs a second within its minute. -/
def leapWithinMinute : DateTime := ⟨⟨2009, 6, 15, 23, 56, 4, 1333333333⟩, by decide⟩

/-- The second behind that leap second. -/
def secondBehindLeap : DateTime := ⟨⟨2009, 6, 15, 23, 56, 5, 0⟩, by decide⟩

end DateTime

end UriTemplate

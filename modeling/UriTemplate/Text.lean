/-!
# Text

A text is a list of Unicode scalar values. Positions in a text are counted in bytes of its
UTF-8 form (`Text.utf8Length`), numbers are written in decimal (`numeral`, `integerNumeral`),
and bytes in two hexadecimal digits (`hexDigit`, `hexValue?`).
-/

namespace UriTemplate

/-- A sequence of Unicode scalar values. -/
abbrev Text := List Char

/-- The number of bytes of a text in UTF-8. -/
def Text.utf8Length : Text → Nat
  | [] => 0
  | c :: s => c.utf8Size + Text.utf8Length s

@[simp] theorem Text.utf8Length_nil : Text.utf8Length [] = 0 := rfl

@[simp] theorem Text.utf8Length_cons (c : Char) (s : Text) :
    Text.utf8Length (c :: s) = c.utf8Size + Text.utf8Length s := rfl

@[simp] theorem Text.utf8Length_append (s t : Text) :
    Text.utf8Length (s ++ t) = Text.utf8Length s + Text.utf8Length t := by
  induction s with
  | nil => simp
  | cons c s ih => simp [ih, Nat.add_assoc]

/-- The decimal numeral of a natural number, without leading zeros. -/
def numeral (n : Nat) : Text := Nat.toDigits 10 n

/-- The number that a word of decimal digits writes. -/
def digitsValue (digits : Text) : Nat := Nat.ofDigitChars 10 digits 0

theorem digitsValue_numeral (n : Nat) : digitsValue (numeral n) = n :=
  Nat.ofDigitChars_ten_toDigits

/-- The decimal numeral of an integer, with a minus sign exactly for negative numbers. -/
def integerNumeral : Int → Text
  | .ofNat n => numeral n
  | .negSucc n => '-' :: numeral (n + 1)

/-- A text filled up with zeros in front to at least `width` characters. -/
def padZeros (width : Nat) (s : Text) : Text := List.replicate (width - s.length) '0' ++ s

/-- The upper-case hexadecimal digit of a number below 16. -/
def hexDigit (n : Nat) : Char := if n < 10 then Char.ofNat (48 + n) else Char.ofNat (55 + n)

/-- The lower-case hexadecimal digit of a number below 16. -/
def lowerHexDigit (n : Nat) : Char := if n < 10 then Char.ofNat (48 + n) else Char.ofNat (87 + n)

/-- The value of a hexadecimal digit of either case. -/
def hexValue? (c : Char) : Option Nat :=
  if '0' ≤ c ∧ c ≤ '9' then some (c.toNat - 48)
  else if 'A' ≤ c ∧ c ≤ 'F' then some (c.toNat - 55)
  else if 'a' ≤ c ∧ c ≤ 'f' then some (c.toNat - 87)
  else none

/-- Whether a character is a hexadecimal digit of either case. -/
def isHexDigit (c : Char) : Bool := (hexValue? c).isSome

theorem hexValue?_hexDigit : ∀ n < 16, hexValue? (hexDigit n) = some n := by decide

/-- The number that a word of hexadecimal digits writes, if all its characters are such digits. -/
def hexWordValue? (digits : Text) : Option Nat :=
  digits.foldlM (fun n c => (hexValue? c).map (16 * n + ·)) 0

/-- The lower-case hexadecimal numeral of a number in exactly `width` digits. -/
def lowerHex (width n : Nat) : Text :=
  match width with
  | 0 => []
  | w + 1 => lowerHex w (n / 16) ++ [lowerHexDigit (n % 16)]

/-- A text ends the first of its two parts just before the first character that meets `p`;
without such a character there is no second part. -/
def splitFirst? (p : Char → Bool) : Text → Option (Text × Text)
  | [] => none
  | c :: s => if p c then some ([], s) else (splitFirst? p s).map fun (a, b) => (c :: a, b)

end UriTemplate

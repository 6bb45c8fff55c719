/-!
# Integers as text

Whole numbers are written in decimal digits without leading zeros and with a minus sign where they
are negative. A number is read strictly: an optional sign, then digits of the radix and nothing
else, each digit checked before the range, from left to right.
-/

set_option autoImplicit false

namespace DocTable

/-- The digit character of `n`, for `n` below 36. -/
def digitChar (n : Nat) : Char :=
  if n < 10 then Char.ofNat (48 + n) else Char.ofNat (87 + n)

/-- Puts the digits of `n` in radix `radix` in front of `tail`; `fuel` bounds their number. -/
def digitsOnto (radix : Nat) : (fuel n : Nat) → (tail : List Char) → List Char
  | 0, _, tail => tail
  | fuel + 1, n, tail =>
    if n < radix then digitChar n :: tail
    else digitsOnto radix fuel (n / radix) (digitChar (n % radix) :: tail)

/-- The decimal digits of `n`, most significant first. -/
def decimalDigits (n : Nat) : List Char :=
  digitsOnto 10 (n + 1) n []

/-- A number in decimal. -/
def natText (n : Nat) : String :=
  String.ofList (decimalDigits n)

/-- A signed number in decimal. -/
def intText (n : Int) : String :=
  if n < 0 then "-" ++ natText n.natAbs else natText n.natAbs

/-- A number in lower-case hexadecimal. -/
def hexText (n : Nat) : String :=
  String.ofList (digitsOnto 16 (n + 1) n [])

/-- The value of a digit or letter, in either case. -/
def digitValue? (c : Char) : Option Nat :=
  if '0' ≤ c ∧ c ≤ '9' then some (c.toNat - 48)
  else if 'a' ≤ c ∧ c ≤ 'z' then some (c.toNat - 87)
  else if 'A' ≤ c ∧ c ≤ 'Z' then some (c.toNat - 55)
  else none

/-- The value of a digit in the given radix. -/
def digitIn? (radix : Nat) (c : Char) : Option Nat :=
  (digitValue? c).filter (· < radix)

/-- The number that a string of digits denotes. -/
def digitsValue (radix : Nat) (digits : List Char) : Nat :=
  digits.foldl (fun n c => n * radix + (digitIn? radix c).getD 0) 0

/-- Why a text is not an integer of the wanted range. -/
inductive IntegerFault where
  | empty
  | invalidDigit
  | tooLarge
  | tooSmall
  deriving DecidableEq, Repr

namespace IntegerFault

/-- The wording of a fault. -/
def message : IntegerFault → String
  | empty => "cannot parse integer from empty string"
  | invalidDigit => "invalid digit found in string"
  | tooLarge => "number too large to fit in target type"
  | tooSmall => "number too small to fit in target type"

end IntegerFault

/-- The integers from `least` to `greatest`. -/
structure IntegerRange where
  least : Int
  greatest : Int

namespace IntegerRange

/-- Signed integers of the given number of bits. -/
def signed (bits : Nat) : IntegerRange :=
  ⟨-(1 <<< (bits - 1) : Nat), (1 <<< (bits - 1) : Nat) - 1⟩

/-- Unsigned integers of the given number of bits. -/
def unsigned (bits : Nat) : IntegerRange :=
  ⟨0, (1 <<< bits : Nat) - 1⟩

/-- Reads the remaining digits of a positive number, `n` being the value of those before. -/
def readPositive (range : IntegerRange) (radix : Nat) :
    (n : Int) → List Char → Except IntegerFault Int
  | n, [] => .ok n
  | n, c :: cs =>
    match digitIn? radix c with
    | none => .error .invalidDigit
    | some d =>
      let next := n * radix + d
      if range.greatest < next then .error .tooLarge else range.readPositive radix next cs

/-- Reads the remaining digits of a negative number, `n` being the value of those before. -/
def readNegative (range : IntegerRange) (radix : Nat) :
    (n : Int) → List Char → Except IntegerFault Int
  | n, [] => .ok n
  | n, c :: cs =>
    match digitIn? radix c with
    | none => .error .invalidDigit
    | some d =>
      let next := n * radix - d
      if next < range.least then .error .tooSmall else range.readNegative radix next cs

/-- Reads an integer of the range. A plus sign is always admitted, a minus sign only where the range
holds negative numbers, and a sign needs a digit after it. -/
def read (range : IntegerRange) (radix : Nat) : List Char → Except IntegerFault Int
  | [] => .error .empty
  | [c] =>
    if c = '+' ∨ c = '-' then .error .invalidDigit else range.readPositive radix 0 [c]
  | c :: cs =>
    if c = '+' then range.readPositive radix 0 cs
    else if c = '-' ∧ range.least < 0 then range.readNegative radix 0 cs
    else range.readPositive radix 0 (c :: cs)

/-- The integer of the range that a text denotes in decimal. -/
def decimal? (range : IntegerRange) (text : String) : Option Int :=
  (range.read 10 text.toList).toOption

end IntegerRange

end DocTable

import DocTable.Binary64.Basic
import DocTable.Text.Integer

/-!
# Reading doubles

A text denotes a double if it is, after an optional sign, a spelling of infinity or of
not-a-number in any case, or digits with an optional point among or around them and an optional
exponent. The double is the one nearest to the decimal, so a decimal that is too large denotes an
infinity and one that is too small a zero.
-/

set_option autoImplicit false

namespace DocTable.Binary64

/-- The digits at the front of a text, and what follows them. -/
def spanDigits (text : List Char) : List Char × List Char :=
  text.span Char.isDigit

/-- The exponent that a text of digits after an optional sign denotes. -/
def readExponent? (text : List Char) : Option Int :=
  let (negative, digits) :=
    match text with
    | '-' :: rest => (true, rest)
    | '+' :: rest => (false, rest)
    | rest => (false, rest)
  if digits.isEmpty || !digits.all Char.isDigit then none
  else some ((if negative then -1 else 1) * (digitsValue 10 digits : Int))

/-- The coefficient and the exponent of an unsigned decimal. -/
def readDecimal? (text : List Char) : Option (Nat × Int) :=
  let (whole, rest) := spanDigits text
  let (fraction, rest) :=
    match rest with
    | '.' :: rest => spanDigits rest
    | rest => ([], rest)
  if whole.isEmpty && fraction.isEmpty then none
  else
    let exponent? :=
      match rest with
      | [] => some 0
      | c :: rest => if c = 'e' ∨ c = 'E' then readExponent? rest else none
    exponent?.map fun exponent =>
      (digitsValue 10 (whole ++ fraction), exponent - fraction.length)

/-- The double that an unsigned text denotes, given the sign in front of it. -/
def readUnsigned? (negative : Bool) (text : List Char) : Option Binary64 :=
  let lower := text.map Char.toLower
  if lower = "inf".toList ∨ lower = "infinity".toList then some (infinity negative)
  else if lower = "nan".toList then some (if negative then nan.neg else nan)
  else
    (readDecimal? text).map fun (coefficient, exponent) => ofDecimal negative coefficient exponent

/-- The double that a text denotes. -/
def read? (text : String) : Option Binary64 :=
  match text.toList with
  | '-' :: rest => readUnsigned? true rest
  | '+' :: rest => readUnsigned? false rest
  | rest => readUnsigned? false rest

end DocTable.Binary64

import DocTable.Binary64.Read
import DocTable.Decimal128.Basic
import DocTable.Text.Integer

/-!
# Decimals as text

A finite decimal is written so that its coefficient and exponent can be read off: plainly when the
exponent is not positive and the leading digit is at most six places behind the point, with an
exponent otherwise. Reading keeps the digits as given. A text with more digits than a coefficient
holds, or with an exponent out of range, is accepted only if dropping or adding zeros makes it fit;
nothing is ever rounded.
-/

set_option autoImplicit false

namespace DocTable.Decimal128

/-- A finite decimal without its sign. -/
def finiteText (coefficient : Nat) (exponent : Int) : List Char :=
  let digits := decimalDigits coefficient
  let adjusted := exponent + digits.length - 1
  if exponent ≤ 0 ∧ -6 ≤ adjusted then
    let places := (-exponent).toNat
    if places = 0 then digits
    else if digits.length ≤ places then
      '0' :: '.' :: (List.replicate (places - digits.length) '0' ++ digits)
    else
      digits.take (digits.length - places) ++ '.' :: digits.drop (digits.length - places)
  else
    let fraction := digits.drop 1
    let mark : List Char := if fraction = [] then [] else '.' :: fraction
    let sign : List Char := if 0 < adjusted then ['+'] else []
    digits.take 1 ++ mark ++ 'E' :: (sign ++ (intText adjusted).toList)

/-- A datum as text; a not-a-number shows no sign. -/
def Datum.text : Datum → List Char
  | .notANumber _ _ => "NaN".toList
  | .infinite negative => signed negative "Infinity".toList
  | .finite negative coefficient exponent => signed negative (finiteText coefficient exponent)
where
  /-- Puts a minus sign in front where one is due. -/
  signed (negative : Bool) (text : List Char) : List Char :=
    if negative then '-' :: text else text

/-- A decimal as text. -/
def text (d : Decimal128) : String :=
  String.ofList d.datum.text

/-- The double nearest to a decimal, read back from its text. -/
def toBinary64 (d : Decimal128) : Binary64 :=
  (Binary64.read? d.text).getD Binary64.nan

/-- Why a text is not a decimal. -/
inductive Fault where
  | noDigits
  | emptyExponent
  | invalidExponent (fault : IntegerFault)
  | invalidCoefficient (fault : IntegerFault)
  | overflow
  | underflow
  | inexact
  | unparseable
  deriving DecidableEq, Repr

/-- The wording of a fault. A text without any letter or digit is refused without a reason. -/
def Fault.reason? : Fault → Option String
  | .noDigits => none
  | .emptyExponent => some "empty exponent"
  | .invalidExponent fault => some ("invalid exponent: " ++ fault.message)
  | .invalidCoefficient fault => some ("invalid coefficient: " ++ fault.message)
  | .overflow => some "overflow"
  | .underflow => some "underflow"
  | .inexact => some "inexact rounding"
  | .unparseable => some "unparseable"

/-- The exponents that can be written, before and after the digits are shifted. -/
def exponentRange : IntegerRange := IntegerRange.signed 16

/-- The length of a text in bytes. -/
def byteLength (text : List Char) : Nat :=
  text.foldl (fun n c => n + c.utf8Size) 0

/-- The part of a text before a byte position and the part after it, unless the position is inside
a character. -/
def splitAtByte? : List Char → Nat → Option (List Char × List Char)
  | text, 0 => some ([], text)
  | [], _ + 1 => none
  | c :: text, n + 1 =>
    if n + 1 < c.utf8Size then none
    else (splitAtByte? text (n + 1 - c.utf8Size)).map fun (before, after) => (c :: before, after)

/-- The first `count` bytes of digits, if only zeros follow. -/
def dropZeros (digits : List Char) (count : Nat) : Except Fault (List Char) :=
  match splitAtByte? digits count with
  | none => .error .unparseable
  | some (kept, dropped) => if dropped.all (· == '0') then .ok kept else .error .inexact

/-- The part of a text before the first separator and the part after it, if there is one. -/
def splitOnce (separator : Char) (text : List Char) : List Char × Option (List Char) :=
  match text.span (· != separator) with
  | (before, _ :: after) => (before, some after)
  | (before, []) => (before, none)

/-- The digits and the exponent of an unsigned finite decimal, the point taken out. The digits are
not checked yet. -/
def readParts (text : List Char) : Except Fault (List Char × Int) := do
  let (digits, exponentText?) := splitOnce 'e' text
  let exponent ←
    match exponentText? with
    | none => .ok 0
    | some [] => .error .emptyExponent
    | some exponentText => (exponentRange.read 10 exponentText).mapError .invalidExponent
  match splitOnce '.' digits with
  | (_, none) => .ok (digits, exponent)
  | (whole, some fraction) =>
    let places : Int := byteLength fraction
    if exponentRange.greatest < places ∨ exponent - places < exponentRange.least then
      .error .underflow
    else .ok (whole ++ fraction, exponent - places)

/-- Fits the digits into a coefficient. -/
def fitDigits (digits : List Char) (exponent : Int) : Except Fault (List Char × Int) := do
  if byteLength digits ≤ maxDigits then .ok (digits, exponent)
  else
    let kept ← dropZeros digits maxDigits
    let dropped : Int := (byteLength digits - maxDigits : Nat)
    if exponentRange.greatest < dropped ∨ exponentRange.greatest < exponent + dropped then
      .error .overflow
    else .ok (kept, exponent + dropped)

/-- Fits the exponent into its range from below. -/
def raiseExponent (digits : List Char) (exponent : Int) : Except Fault (List Char × Int) := do
  if leastExponent ≤ exponent then .ok (digits, exponent)
  else if digits = ['0'] then .ok (digits, leastExponent)
  else
    let excess := (leastExponent - exponent).toNat
    if byteLength digits < excess then .error .underflow
    else
      let kept ← dropZeros digits (byteLength digits - excess)
      .ok (kept, leastExponent)

/-- Fits the exponent into its range from above. -/
def lowerExponent (digits : List Char) (exponent : Int) : Except Fault (List Char × Int) :=
  if exponent ≤ greatestExponent then .ok (digits, exponent)
  else if digits = ['0'] then .ok (digits, greatestExponent)
  else
    let missing := (exponent - greatestExponent).toNat
    if maxDigits < byteLength digits + missing then .error .overflow
    else .ok (digits ++ List.replicate missing '0', greatestExponent)

/-- Reads an unsigned finite decimal. -/
def readFinite (negative : Bool) (text : List Char) : Except Fault Datum := do
  let (digits, exponent) ← readParts text
  let significant := digits.dropWhile (· == '0')
  let digits := if significant = [] then ['0'] else significant
  let (digits, exponent) ← fitDigits digits exponent
  let (digits, exponent) ← raiseExponent digits exponent
  let (digits, exponent) ← lowerExponent digits exponent
  let coefficient ← ((IntegerRange.unsigned 128).read 10 digits).mapError .invalidCoefficient
  .ok (.finite negative coefficient.toNat exponent)

/-- Reads what stands after the sign. -/
def readUnsigned (negative : Bool) (text : List Char) : Except Fault Datum :=
  let lower := text.map Char.toLower
  if lower = "nan".toList then .ok (.notANumber negative false)
  else if lower = "snan".toList then .ok (.notANumber negative true)
  else if lower = "infinity".toList ∨ lower = "inf".toList then .ok (.infinite negative)
  else readFinite negative lower

/-- The datum that a text denotes. -/
def readDatum (text : List Char) : Except Fault Datum :=
  if !text.any Char.isAlphanum then .error .noDigits
  else
    match text with
    | '-' :: rest => readUnsigned true rest
    | '+' :: rest => readUnsigned false rest
    | rest => readUnsigned false rest

/-- The decimal that a text denotes. -/
def read (text : String) : Except Fault Decimal128 :=
  (readDatum text.toList).map ofDatum

end DocTable.Decimal128

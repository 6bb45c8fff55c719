import DocTable.Json.Number

/-!
# Reading JSON

A text is read as one value with blanks around it. A text that is not JSON is refused in one of two
ways: it ended where more was needed, or something stands where it must not. Arrays and objects may
be nested to a limit.
-/

set_option autoImplicit false

namespace DocTable.Json

/-- Why a text is not JSON. -/
inductive Fault where
  /-- The text ended too early. -/
  | ended
  /-- Something stands where it must not. -/
  | malformed
  deriving DecidableEq, Repr

/-- A reader of a piece of text: what was read, and the text that follows it. -/
abbrev Reader (α : Type) := List Char → Except Fault (α × List Char)

/-- The deepest nesting of arrays and objects that is read. -/
def maxNesting : Nat := 127

/-- The blanks between tokens. -/
def isBlank (c : Char) : Bool :=
  c = ' ' || c = '\n' || c = '\t' || c = '\r'

/-- The text behind the blanks in front of it. -/
def skipBlanks (text : List Char) : List Char :=
  text.dropWhile isBlank

/-- Reads the letters of a fixed word. -/
def readWord : (word : List Char) → Reader Unit
  | [], text => .ok ((), text)
  | _ :: _, [] => .error .ended
  | w :: word, c :: text => if c = w then readWord word text else .error .malformed

/-- The value of four hexadecimal digits. A text of less than four bytes counts as ended. -/
def readUnit : Reader Nat
  | a :: b :: c :: d :: rest =>
    match digitIn? 16 a, digitIn? 16 b, digitIn? 16 c, digitIn? 16 d with
    | some a, some b, some c, some d => .ok (((a * 16 + b) * 16 + c) * 16 + d, rest)
    | _, _, _, _ => .error .malformed
  | text =>
    if text.foldl (fun n c => n + c.utf8Size) 0 < 4 then .error .ended else .error .malformed

/-- Reads the second half of a character that is escaped as a pair of surrogates. -/
def readLowSurrogate (high : Nat) : Reader Char
  | [] => .error .ended
  | '\\' :: [] => .error .ended
  | '\\' :: 'u' :: text => do
    let (low, text) ← readUnit text
    if 0xDC00 ≤ low ∧ low ≤ 0xDFFF then
      .ok (Char.ofNat ((high - 0xD800) * 1024 + (low - 0xDC00) + 0x10000), text)
    else .error .malformed
  | _ => .error .malformed

/-- Reads what follows the backslash of an escaped character. -/
def readEscape : Reader Char
  | [] => .error .ended
  | '"' :: text => .ok ('"', text)
  | '\\' :: text => .ok ('\\', text)
  | '/' :: text => .ok ('/', text)
  | 'b' :: text => .ok ('\x08', text)
  | 'f' :: text => .ok ('\x0c', text)
  | 'n' :: text => .ok ('\n', text)
  | 'r' :: text => .ok ('\r', text)
  | 't' :: text => .ok ('\t', text)
  | 'u' :: text => do
    let (unit, text) ← readUnit text
    if 0xDC00 ≤ unit ∧ unit ≤ 0xDFFF then .error .malformed
    else if 0xD800 ≤ unit ∧ unit ≤ 0xDBFF then readLowSurrogate unit text
    else .ok (Char.ofNat unit, text)
  | _ => .error .malformed

/-- Reads a string behind its opening quote; `fuel` bounds the number of its characters. -/
def readChars : (fuel : Nat) → Reader (List Char)
  | 0, _ => .error .ended
  | _ + 1, [] => .error .ended
  | fuel + 1, c :: text =>
    if c = '"' then .ok ([], text)
    else if c = '\\' then do
      let (x, text) ← readEscape text
      let (xs, text) ← readChars fuel text
      .ok (x :: xs, text)
    else if c.toNat < 32 then .error .malformed
    else do
      let (xs, text) ← readChars fuel text
      .ok (c :: xs, text)

/-- Reads a string behind its opening quote. -/
def readString : Reader String := fun text => do
  let (chars, text) ← readChars (text.length + 1) text
  .ok (String.ofList chars, text)

/-- Reads one or more digits. -/
def readDigits : Reader (List Char)
  | [] => .error .ended
  | c :: text =>
    if c.isDigit then .ok (c :: text.takeWhile Char.isDigit, text.dropWhile Char.isDigit)
    else .error .malformed

/-- Reads the digits before the point: a zero alone, or digits that start with none. -/
def readWhole : Reader (List Char)
  | '0' :: text =>
    if (text.head?.map Char.isDigit).getD false then .error .malformed else .ok (['0'], text)
  | text => readDigits text

/-- Reads the point and the digits behind it, if there is a point. -/
def readFraction : Reader (Option (List Char))
  | '.' :: text => do
    let (digits, text) ← readDigits text
    .ok (some digits, text)
  | text => .ok (none, text)

/-- Reads the exponent, if there is one. -/
def readExponent : Reader (Option Int)
  | c :: text =>
    if c = 'e' ∨ c = 'E' then do
      let (negative, text) : Bool × List Char :=
        match text with
        | '-' :: text => (true, text)
        | '+' :: text => (false, text)
        | text => (false, text)
      let (digits, text) ← readDigits text
      let size : Int := digitsValue 10 digits
      .ok (some (if negative then -size else size), text)
    else .ok (none, c :: text)
  | [] => .ok (none, [])

/-- Reads a number; one that is beyond the finite doubles is refused. -/
def readNumber : Reader Number := fun text => do
  let (negative, text) : Bool × List Char :=
    match text with
    | '-' :: text => (true, text)
    | text => (false, text)
  let (whole, text) ← readWhole text
  let (fraction, text) ← readFraction text
  let (exponent, text) ← readExponent text
  match Numeral.value? ⟨negative, whole, fraction, exponent⟩ with
  | some n => .ok (n, text)
  | none => .error .malformed

/-- Reads the items of an array from the first one on, and its closing bracket. -/
def readItems (item : Reader Json) : (fuel : Nat) → Reader (List Json)
  | 0, _ => .error .ended
  | fuel + 1, text => do
    let (v, text) ← item text
    match skipBlanks text with
    | [] => .error .ended
    | ']' :: text => .ok ([v], text)
    | ',' :: text =>
      match skipBlanks text with
      | ']' :: _ => .error .malformed
      | text => do
        let (vs, text) ← readItems item fuel text
        .ok (v :: vs, text)
    | _ => .error .malformed

/-- Reads a member of an object: a name, a colon and a value. -/
def readMember (item : Reader Json) : Reader (String × Json)
  | [] => .error .ended
  | '"' :: text => do
    let (name, text) ← readString text
    match skipBlanks text with
    | [] => .error .ended
    | ':' :: text => do
      let (v, text) ← item text
      .ok ((name, v), text)
    | _ => .error .malformed
  | _ => .error .malformed

/-- Reads the members of an object from the first one on, and its closing brace. -/
def readMembers (item : Reader Json) : (fuel : Nat) → Reader Members
  | 0, _ => .error .ended
  | fuel + 1, text => do
    let (member, text) ← readMember item text
    match skipBlanks text with
    | [] => .error .ended
    | '}' :: text => .ok ([member], text)
    | ',' :: text => do
      let (rest, text) ← readMembers item fuel (skipBlanks text)
      .ok (member :: rest, text)
    | _ => .error .malformed

/-- Reads an array behind its opening bracket. -/
def readArray (item : Reader Json) : Reader Json := fun text =>
  match skipBlanks text with
  | [] => .error .ended
  | ']' :: text => .ok (.array [], text)
  | text => do
    let (items, text) ← readItems item (text.length + 1) text
    .ok (.array items, text)

/-- Reads an object behind its opening brace. -/
def readObject (item : Reader Json) : Reader Json := fun text =>
  match skipBlanks text with
  | [] => .error .ended
  | '}' :: text => .ok (.object [], text)
  | text => do
    let (list, text) ← readMembers item (text.length + 1) text
    .ok (objectOf list, text)

/-- Reads a value, given the reader of the values in an array or object, if one may stand here. -/
def readWith (item? : Option (Reader Json)) : Reader Json := fun text =>
  match skipBlanks text with
  | [] => .error .ended
  | c :: text =>
    match c with
    | 'n' => do
      let ((), text) ← readWord "ull".toList text
      .ok (.null, text)
    | 't' => do
      let ((), text) ← readWord "rue".toList text
      .ok (.bool true, text)
    | 'f' => do
      let ((), text) ← readWord "alse".toList text
      .ok (.bool false, text)
    | '"' => do
      let (s, text) ← readString text
      .ok (.string s, text)
    | '[' =>
      match item? with
      | some item => readArray item text
      | none => .error .malformed
    | '{' =>
      match item? with
      | some item => readObject item text
      | none => .error .malformed
    | c =>
      if c = '-' ∨ c.isDigit then do
        let (n, text) ← readNumber (c :: text)
        .ok (.number n, text)
      else .error .malformed

/-- Reads a value in which arrays and objects nest to at most `levels`. -/
def readValue : (levels : Nat) → Reader Json
  | 0 => readWith none
  | levels + 1 => readWith (some (readValue levels))

/-- The value of a text that holds one value and nothing else. -/
def read (text : String) : Except Fault Json := do
  let (v, rest) ← readValue maxNesting text.toList
  match skipBlanks rest with
  | [] => .ok v
  | _ => .error .malformed

end DocTable.Json

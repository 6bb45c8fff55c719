import DocTable.Calendar

/-!
# Instants

An instant is a number of milliseconds since the first of January 1970 at midnight, universal time.
It is written as a date and a time of day to the millisecond; the reader accepts any time offset,
any number of fraction digits and the leap second, and rounds down to the millisecond.
-/

set_option autoImplicit false

namespace DocTable.Instant

/-- The day on which instants start counting. -/
def epochDay : Int := Calendar.daysBeforeYear 1970

/-- The milliseconds of a day. -/
def millisPerDay : Int := 86400000

/-- The first and the last instant that are written as a date; the years run from -262143 to
262142. -/
def earliest : Int := -8334601228800000

@[inherit_doc earliest]
def latest : Int := 8210266876799999

/-- Whether an instant is written as a date. -/
def hasDate (millis : Int) : Bool :=
  earliest ≤ millis && millis ≤ latest

/-- The date of an instant. -/
def date (millis : Int) : Date :=
  Calendar.dateOfDay (millis / millisPerDay + epochDay)

/-- A number padded with zeros to at least `width` digits. -/
def padded (width n : Nat) : List Char :=
  let digits := decimalDigits n
  List.replicate (width - digits.length) '0' ++ digits

/-- A year in at least four digits, with a sign when it is outside the years 0 to 9999. -/
def yearDigits (year : Int) : List Char :=
  if year < 0 then '-' :: padded 4 year.natAbs
  else if 9999 < year then '+' :: padded 4 year.natAbs
  else padded 4 year.natAbs

/-- The date and the time of an instant in universal time. -/
def dateTimeDigits (millis : Int) : List Char :=
  let date := date millis
  let time := (millis % millisPerDay).toNat
  yearDigits date.year ++ '-' :: padded 2 date.month ++ '-' :: padded 2 date.day
    ++ 'T' :: padded 2 (time / 3600000) ++ ':' :: padded 2 (time / 60000 % 60)
    ++ ':' :: padded 2 (time / 1000 % 60) ++ '.' :: padded 3 (time % 1000) ++ ['Z']

/-- An instant as text: its date and time, or its milliseconds when it has no date. -/
def text (millis : Int) : String :=
  if hasDate millis then String.ofList (dateTimeDigits millis) else intText millis

/-- Reads a number of exactly `width` digits. -/
def readDigits? (width : Nat) (text : List Char) : Option (Nat × List Char) :=
  let digits := text.take width
  if digits.length = width ∧ digits.all Char.isDigit then
    some (digitsValue 10 digits, text.drop width)
  else none

/-- Reads one character that satisfies a test. -/
def readChar? (accepts : Char → Bool) : List Char → Option (List Char)
  | c :: text => if accepts c then some text else none
  | [] => none

/-- Reads a fraction of a second, if there is one, as milliseconds. -/
def readFraction? : List Char → Option (Nat × List Char)
  | '.' :: text =>
    let digits := text.takeWhile Char.isDigit
    if digits = [] then none
    else
      let leading := digits.take 3
      let zeros := List.replicate (3 - leading.length) '0'
      some (digitsValue 10 (leading ++ zeros), text.dropWhile Char.isDigit)
  | text => some (0, text)

/-- Reads an offset from universal time in minutes, up to the end of the text. -/
def readOffset? : List Char → Option Int
  | [] => none
  | c :: text =>
    if c = 'Z' ∨ c = 'z' then (if text = [] then some 0 else none)
    else if c = '+' ∨ c = '-' ∨ c = '−' then do
      let (hours, text) ← readDigits? 2 text
      let text ← readChar? (· == ':') text
      let (minutes, text) ← readDigits? 2 text
      if text = [] ∧ hours ≤ 23 ∧ minutes ≤ 59 then
        some ((if c = '+' then 1 else -1) * (hours * 60 + minutes : Nat))
      else none
    else none

/-- The instant that a date, a time of day and an offset denote. The leap second runs on from the
second before it. -/
def read? (text : String) : Option Int := do
  let (year, text) ← readDigits? 4 text.toList
  let text ← readChar? (· == '-') text
  let (month, text) ← readDigits? 2 text
  let text ← readChar? (· == '-') text
  let (day, text) ← readDigits? 2 text
  let text ← readChar? (fun c => c == 'T' || c == 't' || c == ' ') text
  let (hour, text) ← readDigits? 2 text
  let text ← readChar? (· == ':') text
  let (minute, text) ← readDigits? 2 text
  let text ← readChar? (· == ':') text
  let (second, text) ← readDigits? 2 text
  let (fraction, text) ← readFraction? text
  let offset ← readOffset? text
  let date : Date := ⟨year, month, day⟩
  if Calendar.exists? date ∧ hour ≤ 23 ∧ minute ≤ 59 ∧ second ≤ 60 then
    let minutes : Int := (Calendar.dayOfDate date - epochDay) * 1440 + hour * 60 + minute - offset
    some (minutes * 60000 + second * 1000 + fraction)
  else none

end DocTable.Instant

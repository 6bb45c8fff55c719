import DocTable.Json.Reader
import Mathlib.Data.List.Basic

/-!
# JSON as it is written

The grammar of JSON, told without a reader. A text is written as a tree of its tokens; what the tree
stands for is told apart from it, since not every tree stands for a value: a number may be too large,
and an escaped unit of a string may be one half of a character only.

Relations hold of a text and of what is left of it behind the part that they speak of, so that parts
are put together by naming what stands between them.

* `Written`, `TextOf` — what is written, and the texts that it is written as.
* `Written.levels`, `Written.numerals`, `Written.strings`, `Written.value?` — how deep it goes, what
  is in it, and what it stands for.
* `Written.value?_eq_none_iff` — what has no value holds a numeral or a string that has none.
-/

set_option autoImplicit false

namespace DocTable.Json

/-! ## What is written -/

/-- A character of a string as it is written: itself, or the number of a unit of sixteen bits. -/
inductive Piece where
  | char (c : Char)
  | unit (n : Nat)

/-- A value as it is written. -/
inductive Written where
  | null
  | bool (b : Bool)
  | number (numeral : Numeral)
  | string (pieces : List Piece)
  | array (items : List Written)
  | object (members : List (List Piece × Written))

/-! ## Texts -/

/-- The text goes on with `rest` behind blanks. -/
inductive Blanks : (text rest : List Char) → Prop
  | none {rest : List Char} : Blanks rest rest
  | cons {c : Char} {text rest : List Char} : isBlank c = true → Blanks text rest →
      Blanks (c :: text) rest

/-- One or more digits. -/
def IsDigits (digits : List Char) : Prop :=
  digits ≠ [] ∧ ∀ c ∈ digits, c.isDigit = true

theorem isDigits_of_all {c : Char} {digits : List Char} (h : (c :: digits).all Char.isDigit = true) :
    IsDigits (c :: digits) :=
  ⟨List.cons_ne_nil c digits, List.all_eq_true.1 h⟩

/-- Digits that start with a zero only if it is the only one. -/
def IsWhole (digits : List Char) : Prop :=
  IsDigits digits ∧ (digits.head? = some '0' → digits = ['0'])

/-- The text of a fraction, or none at all. -/
inductive FractionText : Option (List Char) → List Char → Prop
  | none : FractionText none []
  | some {digits : List Char} : IsDigits digits → FractionText (some digits) ('.' :: digits)

/-- The text of an exponent, or none at all. -/
inductive ExponentText : Option Int → List Char → Prop
  | none : ExponentText none []
  | plain {letter : Char} {digits : List Char} : letter = 'e' ∨ letter = 'E' → IsDigits digits →
      ExponentText (some (digitsValue 10 digits)) (letter :: digits)
  | plus {letter : Char} {digits : List Char} : letter = 'e' ∨ letter = 'E' → IsDigits digits →
      ExponentText (some (digitsValue 10 digits)) (letter :: '+' :: digits)
  | minus {letter : Char} {digits : List Char} : letter = 'e' ∨ letter = 'E' → IsDigits digits →
      ExponentText (some (-digitsValue 10 digits)) (letter :: '-' :: digits)

/-- The text of a number. -/
inductive NumeralText : Numeral → List Char → Prop
  | mk {negative : Bool} {whole fractionText exponentText : List Char}
      {fraction : Option (List Char)} {exponent : Option Int} : IsWhole whole →
      FractionText fraction fractionText → ExponentText exponent exponentText →
      NumeralText ⟨negative, whole, fraction, exponent⟩
        ((if negative then ['-'] else []) ++ (whole ++ (fractionText ++ exponentText)))

/-- The characters that are escaped by a letter, behind their letters. -/
def escapes : List (Char × Char) :=
  [('"', '"'), ('\\', '\\'), ('/', '/'), ('b', '\x08'), ('f', '\x0c'), ('n', '\n'), ('r', '\r'),
    ('t', '\t')]

/-- The four digits of a unit. -/
inductive UnitText : Nat → (text rest : List Char) → Prop
  | mk {a b c d : Char} {i j k l : Nat} {rest : List Char} : digitIn? 16 a = some i →
      digitIn? 16 b = some j → digitIn? 16 c = some k → digitIn? 16 d = some l →
      UnitText (((i * 16 + j) * 16 + k) * 16 + l) (a :: b :: c :: d :: rest) rest

/-- A string from behind its opening quote to behind its closing one. -/
inductive StringText : List Piece → (text rest : List Char) → Prop
  | done {rest : List Char} : StringText [] ('"' :: rest) rest
  | plain {c : Char} {pieces : List Piece} {text rest : List Char} : c ≠ '"' → c ≠ '\\' →
      32 ≤ c.toNat → StringText pieces text rest → StringText (.char c :: pieces) (c :: text) rest
  | escaped {letter c : Char} {pieces : List Piece} {text rest : List Char} :
      (letter, c) ∈ escapes → StringText pieces text rest →
      StringText (.char c :: pieces) ('\\' :: letter :: text) rest
  | unit {n : Nat} {pieces : List Piece} {text middle rest : List Char} : UnitText n text middle →
      StringText pieces middle rest → StringText (.unit n :: pieces) ('\\' :: 'u' :: text) rest

mutual

/-- A value. -/
inductive ValueText : Written → (text rest : List Char) → Prop
  | null {rest : List Char} : ValueText .null ('n' :: 'u' :: 'l' :: 'l' :: rest) rest
  | isTrue {rest : List Char} : ValueText (.bool true) ('t' :: 'r' :: 'u' :: 'e' :: rest) rest
  | isFalse {rest : List Char} :
      ValueText (.bool false) ('f' :: 'a' :: 'l' :: 's' :: 'e' :: rest) rest
  | number {numeral : Numeral} {front text rest : List Char} : NumeralText numeral front →
      front ++ rest = text → ValueText (.number numeral) text rest
  | string {pieces : List Piece} {text rest : List Char} : StringText pieces text rest →
      ValueText (.string pieces) ('"' :: text) rest
  | emptyArray {text rest : List Char} : Blanks text (']' :: rest) →
      ValueText (.array []) ('[' :: text) rest
  | array {items : List Written} {text rest : List Char} : ItemsText items text rest →
      ValueText (.array items) ('[' :: text) rest
  | emptyObject {text rest : List Char} : Blanks text ('}' :: rest) →
      ValueText (.object []) ('{' :: text) rest
  | object {members : List (List Piece × Written)} {text rest : List Char} :
      MembersText members text rest → ValueText (.object members) ('{' :: text) rest

/-- A value between blanks. -/
inductive ElementText : Written → (text rest : List Char) → Prop
  | mk {w : Written} {text front back rest : List Char} : Blanks text front →
      ValueText w front back → Blanks back rest → ElementText w text rest

/-- The items of an array with commas between them, and the closing bracket. -/
inductive ItemsText : List Written → (text rest : List Char) → Prop
  | last {w : Written} {text rest : List Char} : ElementText w text (']' :: rest) →
      ItemsText [w] text rest
  | more {w : Written} {items : List Written} {text others rest : List Char} :
      ElementText w text (',' :: others) → ItemsText items others rest →
      ItemsText (w :: items) text rest

/-- A name and a value, between blanks and with a colon between them. -/
inductive MemberText : List Piece × Written → (text rest : List Char) → Prop
  | mk {name : List Piece} {w : Written} {text front middle back rest : List Char} :
      Blanks text ('"' :: front) → StringText name front middle → Blanks middle (':' :: back) →
      ElementText w back rest → MemberText (name, w) text rest

/-- The members of an object with commas between them, and the closing brace. -/
inductive MembersText : List (List Piece × Written) → (text rest : List Char) → Prop
  | last {member : List Piece × Written} {text rest : List Char} :
      MemberText member text ('}' :: rest) → MembersText [member] text rest
  | more {member : List Piece × Written} {members : List (List Piece × Written)}
      {text others rest : List Char} : MemberText member text (',' :: others) →
      MembersText members others rest → MembersText (member :: members) text rest

end

/-- The text is JSON, written in this way. -/
def TextOf (w : Written) (text : String) : Prop :=
  ElementText w text.toList []

theorem textOf_ofList {w : Written} {text : List Char} (h : ElementText w text []) :
    TextOf w (String.ofList text) := by
  rwa [TextOf, String.toList_ofList]

/-! ## What it stands for -/

/-- The first halves of characters in two units. -/
def IsHigh (unit : Nat) : Prop := 0xD800 ≤ unit ∧ unit ≤ 0xDBFF

/-- The second halves of characters in two units. -/
def IsLow (unit : Nat) : Prop := 0xDC00 ≤ unit ∧ unit ≤ 0xDFFF

instance (unit : Nat) : Decidable (IsHigh unit) := inferInstanceAs (Decidable (_ ∧ _))

instance (unit : Nat) : Decidable (IsLow unit) := inferInstanceAs (Decidable (_ ∧ _))

/-- The characters of a string, unless one half of a character stands without the other. -/
def charsOf? : List Piece → Option (List Char)
  | [] => some []
  | .char c :: pieces => (charsOf? pieces).map (c :: ·)
  | .unit n :: pieces =>
    if IsLow n then none
    else if IsHigh n then
      match pieces with
      | .unit low :: pieces =>
        if IsLow low then
          (charsOf? pieces).map (Char.ofNat ((n - 0xD800) * 1024 + (low - 0xDC00) + 0x10000) :: ·)
        else none
      | _ => none
    else (charsOf? pieces).map (Char.ofNat n :: ·)

namespace Written

mutual

/-- The number of arrays and objects on the deepest path, wrappers among them. -/
def levels : Written → Nat
  | null => 0
  | bool _ => 0
  | number _ => 0
  | string _ => 0
  | array items => levelsOfItems items + 1
  | object members => levelsOfMembers members + 1

/-- The greatest number of levels among the items of an array. -/
def levelsOfItems : List Written → Nat
  | [] => 0
  | w :: items => max (levels w) (levelsOfItems items)

/-- The greatest number of levels among the members of an object. -/
def levelsOfMembers : List (List Piece × Written) → Nat
  | [] => 0
  | (_, w) :: members => max (levels w) (levelsOfMembers members)

end

mutual

/-- The numbers in a value. -/
def numerals : Written → List Numeral
  | null => []
  | bool _ => []
  | number numeral => [numeral]
  | string _ => []
  | array items => numeralsOfItems items
  | object members => numeralsOfMembers members

def numeralsOfItems : List Written → List Numeral
  | [] => []
  | w :: items => numerals w ++ numeralsOfItems items

def numeralsOfMembers : List (List Piece × Written) → List Numeral
  | [] => []
  | (_, w) :: members => numerals w ++ numeralsOfMembers members

end

mutual

/-- The strings in a value, names among them. -/
def strings : Written → List (List Piece)
  | null => []
  | bool _ => []
  | number _ => []
  | string pieces => [pieces]
  | array items => stringsOfItems items
  | object members => stringsOfMembers members

def stringsOfItems : List Written → List (List Piece)
  | [] => []
  | w :: items => strings w ++ stringsOfItems items

def stringsOfMembers : List (List Piece × Written) → List (List Piece)
  | [] => []
  | (name, w) :: members => name :: (strings w ++ stringsOfMembers members)

end

section

variable (number? : Numeral → Option Number)

mutual

/-- The value that is written, if each of its numerals stands for a number and each of its strings for
a text. -/
def value? : Written → Option Json
  | null => some .null
  | bool b => some (.bool b)
  | number numeral => (number? numeral).map .number
  | string pieces => (charsOf? pieces).map fun chars => .string (String.ofList chars)
  | array items => (itemValues? items).map .array
  | object members => (memberValues? members).map objectOf

/-- The items of an array that is written. -/
def itemValues? : List Written → Option (List Json)
  | [] => some []
  | w :: items => do
    let v ← value? w
    let vs ← itemValues? items
    some (v :: vs)

/-- The members of an object that is written, in the order in which they are written. -/
def memberValues? : List (List Piece × Written) → Option Members
  | [] => some []
  | (name, w) :: members => do
    let chars ← charsOf? name
    let v ← value? w
    let list ← memberValues? members
    some ((String.ofList chars, v) :: list)

end

mutual

/-- **What has no value** holds a numeral that has none, or a string that has none. -/
theorem value?_eq_none_iff : (w : Written) → (w.value? number? = none ↔
    (∃ numeral ∈ w.numerals, number? numeral = none) ∨ ∃ pieces ∈ w.strings, charsOf? pieces = none)
  | null => by simp [value?, numerals, strings]
  | bool _ => by simp [value?, numerals, strings]
  | number _ => by simp [value?, numerals, strings]
  | string _ => by simp [value?, numerals, strings]
  | array items => by
    rw [value?, Option.map_eq_none_iff, itemValues?_eq_none_iff items, numerals, strings]
  | object members => by
    rw [value?, Option.map_eq_none_iff, memberValues?_eq_none_iff members, numerals, strings]

theorem itemValues?_eq_none_iff : (items : List Written) → (itemValues? number? items = none ↔
    (∃ numeral ∈ numeralsOfItems items, number? numeral = none) ∨
      ∃ pieces ∈ stringsOfItems items, charsOf? pieces = none)
  | [] => by simp [itemValues?, numeralsOfItems, stringsOfItems]
  | w :: items => by
    have hw := value?_eq_none_iff w
    have hitems := itemValues?_eq_none_iff items
    simp only [numeralsOfItems, stringsOfItems, List.mem_append, or_and_right, exists_or]
    rw [or_or_or_comm, ← hw, ← hitems, itemValues?]
    cases value? number? w <;> cases itemValues? number? items <;> simp

theorem memberValues?_eq_none_iff : (members : List (List Piece × Written)) →
    (memberValues? number? members = none ↔
      (∃ numeral ∈ numeralsOfMembers members, number? numeral = none) ∨
        ∃ pieces ∈ stringsOfMembers members, charsOf? pieces = none)
  | [] => by simp [memberValues?, numeralsOfMembers, stringsOfMembers]
  | (name, w) :: members => by
    have hw := value?_eq_none_iff w
    have hmembers := memberValues?_eq_none_iff members
    simp only [numeralsOfMembers, stringsOfMembers, List.mem_cons, List.mem_append, or_and_right,
      exists_or, exists_eq_left]
    rw [or_left_comm, or_or_or_comm, ← hw, ← hmembers, memberValues?]
    cases charsOf? name <;> cases value? number? w <;> cases memberValues? number? members <;> simp

end

end

end Written

end DocTable.Json

import DocTable.Binary64.Text
import DocTable.Json.Basic

/-!
# Writing JSON

A value is written compactly, without blanks, or over several lines with two blanks for each level;
an empty array or object is written on one line in both.
-/

set_option autoImplicit false

namespace DocTable.Json

/-- A character inside quotes: the quote, the backslash and the control characters are escaped. -/
def escapedChar (c : Char) : List Char :=
  match c with
  | '"' => ['\\', '"']
  | '\\' => ['\\', '\\']
  | '\n' => ['\\', 'n']
  | '\r' => ['\\', 'r']
  | '\t' => ['\\', 't']
  | '\x08' => ['\\', 'b']
  | '\x0c' => ['\\', 'f']
  | c =>
    if c.toNat < 32 then
      ['\\', 'u', '0', '0', digitChar (c.toNat / 16), digitChar (c.toNat % 16)]
    else [c]

/-- A text in quotes. -/
def quoted (text : String) : String :=
  String.ofList ('"' :: (text.toList.flatMap escapedChar ++ ['"']))

/-- A number as text. -/
def Number.text : Number → String
  | .integer n _ => intText n
  | .real x _ => Binary64.Layout.json.text x

/-- The blanks between the parts of a value. -/
structure Spacing where
  /-- What stands in front of an item or a member at a level, and of the bracket that closes it. -/
  gap : (level : Nat) → String
  /-- What stands between a colon and the value behind it. -/
  behindColon : String

/-- No blanks at all. -/
def Spacing.none : Spacing := ⟨fun _ => "", ""⟩

/-- A line for each item and member, with two blanks for each level. -/
def Spacing.lines : Spacing :=
  ⟨fun level => String.ofList ('\n' :: List.replicate (2 * level) ' '), " "⟩

mutual

/-- A value in the given spacing, its first line being at the given level. -/
def layOut (spacing : Spacing) (level : Nat) : Json → String
  | .array [] => "[]"
  | .array items =>
    "[" ++ layOutItems spacing (level + 1) items ++ spacing.gap level ++ "]"
  | .object [] => "\x7b\x7d"
  | .object members =>
    "\x7b" ++ layOutMembers spacing (level + 1) members ++ spacing.gap level ++ "\x7d"
  | .null => "null"
  | .bool true => "true"
  | .bool false => "false"
  | .number n => n.text
  | .string s => quoted s

/-- The items of an array with commas between them. -/
def layOutItems (spacing : Spacing) (level : Nat) : List Json → String
  | [] => ""
  | [v] => spacing.gap level ++ layOut spacing level v
  | v :: items =>
    spacing.gap level ++ layOut spacing level v ++ "," ++ layOutItems spacing level items

/-- The members of an object with commas between them. -/
def layOutMembers (spacing : Spacing) (level : Nat) : Members → String
  | [] => ""
  | [(name, v)] =>
    spacing.gap level ++ quoted name ++ ":" ++ spacing.behindColon ++ layOut spacing level v
  | (name, v) :: members =>
    spacing.gap level ++ quoted name ++ ":" ++ spacing.behindColon ++ layOut spacing level v ++
      "," ++ layOutMembers spacing level members

end

/-- A value without blanks. -/
def compact (v : Json) : String := layOut .none 0 v

/-- A value over several lines. -/
def pretty (v : Json) : String := layOut .lines 0 v

end DocTable.Json

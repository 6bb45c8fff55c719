import DocTable.Text.CharSet

/-!
# Blank text

The characters that Unicode counts as white space, and texts that hold nothing else.
-/

set_option autoImplicit false

namespace DocTable

/-- White space. -/
def whiteSpace : CharSet :=
  [(0x9, 0xD), (0x20, 0x20), (0x85, 0x85), (0xA0, 0xA0), (0x1680, 0x1680), (0x2000, 0x200A),
   (0x2028, 0x2029), (0x202F, 0x202F), (0x205F, 0x205F), (0x3000, 0x3000)]

/-- Whether a text holds white space only. -/
def isBlankText (text : String) : Bool :=
  text.toList.all whiteSpace.has

end DocTable

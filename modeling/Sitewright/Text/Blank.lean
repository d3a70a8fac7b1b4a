/-!
Contract: white space as a class of characters, and texts without it at either end.

The class is the property `White_Space` of the character standard. It has
twenty-five members and is wider than `Char.isWhitespace`, which knows four.
-/

namespace Sitewright.Text

/-- White space: the five line controls, the space, and the other separators
that the character standard lists under `White_Space`. -/
def isBlank (character : Char) : Bool :=
  let code := character.toNat
  (9 ≤ code && code ≤ 13) || code = 0x20 || code = 0x85 || code = 0xA0 ||
    code = 0x1680 || (0x2000 ≤ code && code ≤ 0x200A) || code = 0x2028 ||
    code = 0x2029 || code = 0x202F || code = 0x205F || code = 0x3000

/-- `text` without the white space at either end. -/
def trimBlank (text : String) : String :=
  String.ofList ((text.toList.dropWhile isBlank).reverse.dropWhile isBlank).reverse

end Sitewright.Text

import Sitewright.Markup.Attribute

/-!
Contract: the text of an element from its tag, attributes and content.
-/

namespace Sitewright.Markup

/-- Elements that have no content and no end tag. -/
def voidTags : List String :=
  ["area", "base", "br", "col", "embed", "hr", "img", "input", "link", "meta", "param",
   "source", "track", "wbr"]

/-- The sign for kelvins, whose lower case is the letter k. -/
def kelvinSign : Char := '\u212a'

/-- The lower case of a character as far as it is a letter of `voidTags`: the
capitals A to Z, and the one other character that has such a lower case. -/
def lowerChar (character : Char) : Char :=
  if character = kelvinSign then 'k' else character.toLower

/-- Whether a tag in any case names an element without content. -/
def isVoidTag (tag : String) : Bool :=
  voidTags.contains (String.ofList (tag.toList.map lowerChar))

/-- An element. One of `voidTags` without content closes itself; with content it
is written like any other. -/
def elementText (tag : String) (attributes : Attributes) (content : String) : String :=
  let written := attributes.text
  let start := "<" ++ tag ++ if written.isEmpty then "" else " " ++ written
  if content.isEmpty && isVoidTag tag then start ++ " />"
  else start ++ ">" ++ content ++ "</" ++ tag ++ ">"

example : elementText "BR" [] "" = "<BR />" := by decide +kernel
example : elementText "a" [⟨"href", .string "x"⟩, ⟨"b", .bool true⟩] "c" =
    "<a href=\"x\" b>c</a>" := by decide +kernel

end Sitewright.Markup

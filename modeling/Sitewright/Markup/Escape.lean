import Sitewright.Text.Split

/-!
Contract: character references in text and in attribute values.

Text escapes the ampersand, attribute values do not, so a reference that an
attribute value already contains stays a reference.
-/

namespace Sitewright.Markup

/-- The space at which no line is broken. -/
def noBreakSpace : Char := '\u00a0'

/-- Angle brackets and unbreakable spaces as references. -/
def escapeBrackets (text : String) : String :=
  Text.substitute noBreakSpace "&nbsp;"
    (Text.substitute '>' "&gt;" (Text.substitute '<' "&lt;" text))

/-- Text between tags. The ampersand comes first, so that the references written
after it stay as they are. -/
def escapeText (text : String) : String :=
  escapeBrackets (Text.substitute '&' "&amp;" text)

/-- The value of an attribute between its quotes. -/
def escapeAttribute (value : String) : String :=
  escapeBrackets (Text.substitute '"' "&quot;" value)

example : escapeText "a & <b>" = "a &amp; &lt;b&gt;" := by cbv
example : escapeAttribute "\"&lt;<" = "&quot;&lt;&lt;" := by cbv

end Sitewright.Markup

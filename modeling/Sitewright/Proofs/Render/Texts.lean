import Sitewright.Proofs.Markup.Delivery
import Sitewright.Proofs.Render.Regrouping

/-!
Contract: what is written for a text, and what can be read from it.

Four characters of a text are replaced one after another, each in the whole of what the replacements
before it made. This is the same as writing every character by itself: only the first replacement
makes ampersands, and no reference holds a character that is replaced behind it.

Owns:
- `textReferences`, the references of texts as they are read;
- that a written text has no markup, and ampersands only where references begin;
- that it can be put together from parts and read back.

Does not own: attribute values, whose ampersands stay.
-/

namespace Sitewright

open Text Markup

namespace Markup

/-- The references of texts. -/
def textReferences : TokenTable where
  start := '&'
  entries := references
  filled := by decide
  startsOnce := by decide
  prefixFree := by decide

theorem encodes_textReferences : textReferences.Encodes textCode := by
  intro character
  rcases textCode_cases character with ⟨same, noAmpersand⟩ | ⟨name, written, listed⟩
  · exact .inl ⟨same, noAmpersand⟩
  · exact .inr ⟨(character, name), listed, rfl, written⟩

theorem escapeText_eq (text : String) :
    escapeText text = String.ofList (text.toList.flatMap textCode) := by
  rw [← toList_escapeText, String.ofList_toList]

/-- A character that has a reference is written as it. -/
theorem textCode_of_mem : ∀ entry ∈ references, textCode entry.1 = '&' :: entry.2 := by
  decide

/-- Every other character is written as it is. -/
theorem textCode_of_not_mem {character : Char} (plain : character ∉ references.map Prod.fst) :
    textCode character = [character] := by
  rcases textCode_cases character with ⟨same, -⟩ | ⟨name, -, listed⟩
  · exact same
  · exact absurd (List.mem_map_of_mem listed) plain

/-- No reference holds a character that has one itself. -/
theorem not_mem_reference : ∀ entry ∈ references, ∀ other ∈ references, entry.1 ∉ other.2 := by
  decide

/-- Of the characters that have references, a written text holds ampersands alone. -/
theorem not_mem_escapeText {entry : Char × List Char} (listed : entry ∈ references)
    (noAmpersand : entry.1 ≠ '&') (text : String) : entry.1 ∉ (escapeText text).toList := by
  rw [toList_escapeText]
  intro member
  obtain ⟨source, -, inCode⟩ := List.mem_flatMap.mp member
  rcases textCode_cases source with ⟨same, -⟩ | ⟨other, written, otherListed⟩
  · rw [same, List.mem_singleton] at inCode
    rw [← inCode, textCode_of_mem entry listed] at same
    exact noAmpersand (List.cons.inj same).1.symm
  · rw [written, List.mem_cons] at inCode
    exact not_mem_reference entry listed _ otherListed (inCode.resolve_left noAmpersand)

/-- An ampersand in a written text begins a reference. -/
theorem reference_of_ampersand {text : String} {front back : List Char}
    (ampersand : (escapeText text).toList = front ++ '&' :: back) :
    ∃ entry ∈ references, entry.2 <+: back := by
  rw [toList_escapeText] at ampersand
  obtain ⟨entry, listed, begins⟩ := encodes_textReferences.begins_of_start ampersand
  exact ⟨entry, listed, (List.cons_prefix_cons.mp begins).2⟩

theorem escapeText_append (first second : String) :
    escapeText (first ++ second) = escapeText first ++ escapeText second := by
  rw [← String.toList_inj, toList_escapeText_append, String.toList_append]

/-- A written text is read as the text it was. -/
theorem read_escapeText (text : String) :
    String.ofList (textReferences.read 0 (escapeText text).toList) = text := by
  rw [toList_escapeText, encodes_textReferences.read_flatMap, String.ofList_toList]

end Markup

/-- Texts that follow one another are written as one text. -/
theorem View.renderAll_texts (contents : List String) :
    View.renderAll (contents.map View.text) = pure (escapeText (String.join contents)) := by
  induction contents with
  | nil => rfl
  | cons first rest inductionHypothesis =>
      rw [List.map_cons, View.renderAll, inductionHypothesis, String.join_cons, escapeText_append]
      rfl

/-- The escape of texts is exact. Its four replacements, each in the whole of what the ones before
it made, write every character by itself: the ampersand, the angle brackets and the unbreakable
space as their references, and any other character as it is. So a written text holds none of the
other three, and an ampersand only where one of the references begins; what is put together before
it is written is the same as what is put together afterwards, and this is how texts in a row are
rendered; and whoever reads the references in one pass from the left to the right gets back the
text. -/
theorem escapeText_exact (text : String) :
    escapeText text = String.ofList (text.toList.flatMap textCode) ∧
    (∀ entry ∈ references, textCode entry.1 = '&' :: entry.2) ∧
    (∀ character ∉ references.map Prod.fst, textCode character = [character]) ∧
    ('<' ∉ (escapeText text).toList ∧ '>' ∉ (escapeText text).toList ∧
      noBreakSpace ∉ (escapeText text).toList) ∧
    (∀ front back, (escapeText text).toList = front ++ '&' :: back →
      ∃ entry ∈ references, entry.2 <+: back) ∧
    (∀ further, escapeText (text ++ further) = escapeText text ++ escapeText further) ∧
    (∀ contents setting state, View.renderAll (contents.map View.text) setting state =
      (.ok (escapeText (String.join contents)), state)) ∧
    String.ofList (textReferences.read 0 (escapeText text).toList) = text := by
  have absent : ∀ entry ∈ references, entry.1 ≠ '&' → entry.1 ∉ (escapeText text).toList :=
    fun entry listed noAmpersand => not_mem_escapeText listed noAmpersand text
  refine ⟨escapeText_eq text, textCode_of_mem, fun character => textCode_of_not_mem,
    ⟨?_, ?_, ?_⟩, fun front back => reference_of_ampersand, escapeText_append text, ?_,
    read_escapeText text⟩
  · exact absent ('<', ['l', 't', ';']) (by decide) (by decide)
  · exact absent ('>', ['g', 't', ';']) (by decide) (by decide)
  · exact absent (noBreakSpace, ['n', 'b', 's', 'p', ';']) (by decide) (by decide)
  · intro contents setting state
    rw [View.renderAll_texts]
    rfl

/-- A reference that a text holds by itself is kept: its ampersand is written as a reference, and
the second ampersand begins the one of a bracket. -/
theorem heldReference_read_back :
    escapeText "a&lt;b<c" = "a&amp;lt;b&lt;c" ∧
    (∃ entry ∈ references, entry.2 <+: "lt;c".toList) ∧
    textCode 'b' = ['b'] ∧
    String.ofList (textReferences.read 0 "a&amp;lt;b&lt;c".toList) = "a&lt;b<c" := by
  obtain ⟨-, -, plain, -, ampersands, -, -, readBack⟩ := escapeText_exact "a&lt;b<c"
  have written : escapeText "a&lt;b<c" = "a&amp;lt;b&lt;c" := by decide +kernel
  rw [written] at ampersands readBack
  exact ⟨written, ampersands "a&amp;lt;b".toList "lt;c".toList (by decide +kernel),
    plain 'b' (by decide), readBack⟩

end Sitewright

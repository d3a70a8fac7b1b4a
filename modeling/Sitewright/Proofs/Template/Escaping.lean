import Sitewright.Proofs.Markup.Structure
import Sitewright.Proofs.Text.Brace
import Sitewright.Proofs.Text.Token

/-!
Contract: what is left of a condition behind the escapes of markup.

The signs of the template language are none that an escape changes, and quotes stand in a literal
as tokens. Everything else that is in a literal, in the name of a type or in the name of a
reference is in the condition, too.

Owns:
- which texts pass the escapes unchanged;
- the characters of a condition: those of the language, and those that it was given;
- `Expr.unharmed_iff`, which conditions pass the escapes unchanged.

Does not own: how a template reads what has passed.
-/

namespace Sitewright.Markup

/-! ## What passes the escapes -/

/-- None of the signs occurs in the text. -/
def Avoids (signs : List Char) (text : String) : Prop :=
  ∀ character ∈ text.toList, character ∉ signs

/-- The characters that both escapes replace. -/
def bracketSigns : List Char :=
  ['<', '>', noBreakSpace]

/-- The characters that the escape of texts replaces. -/
def textSigns : List Char :=
  '&' :: bracketSigns

/-- The characters that the escape of attribute values replaces. -/
def attributeSigns : List Char :=
  '"' :: bracketSigns

theorem length_le_flatMap {code : Char → List Char} (filled : ∀ character, code character ≠ [])
    (text : List Char) : text.length ≤ (text.flatMap code).length := by
  induction text with
  | nil => exact Nat.le_refl 0
  | cons first rest inductionHypothesis =>
      have positive := List.length_pos_of_ne_nil (filled first)
      rw [List.flatMap_cons, List.length_append, List.length_cons]
      omega

/-- A code for characters keeps a text exactly if it keeps each character: no code is empty, so
what a longer one adds is never made up for. -/
theorem flatMap_eq_self_iff {code : Char → List Char} (filled : ∀ character, code character ≠ [])
    {text : List Char} :
    text.flatMap code = text ↔ ∀ character ∈ text, code character = [character] := by
  refine ⟨fun same => ?_, Text.flatMap_of_kept⟩
  induction text with
  | nil => exact List.forall_mem_nil _
  | cons first rest inductionHypothesis =>
      rw [List.flatMap_cons] at same
      have lengths := congrArg List.length same
      have positive := List.length_pos_of_ne_nil (filled first)
      have enough := length_le_flatMap filled rest
      rw [List.length_append, List.length_cons] at lengths
      have alone : (code first).length = [first].length := by
        rw [List.length_singleton]
        omega
      obtain ⟨firstSame, restSame⟩ := List.append_inj same alone
      exact List.forall_mem_cons.mpr ⟨firstSame, inductionHypothesis restSame⟩

theorem bracketCode_eq_self_iff {character : Char} :
    bracketCode character = [character] ↔ character ∉ bracketSigns := by
  unfold bracketCode bracketSigns
  split_ifs with opening closing blank
  · simp [opening]
  · simp [closing]
  · simp [blank]
  · simp [opening, closing, blank]

/-- A character as `escapeAttribute` writes it. -/
def attributeCode (character : Char) : List Char :=
  if character = '"' then "&quot;".toList else bracketCode character

theorem toList_escapeAttribute (value : String) :
    (escapeAttribute value).toList = value.toList.flatMap attributeCode := by
  rw [escapeAttribute, toList_escapeBrackets, Text.substitute, String.toList_ofList,
    List.flatMap_assoc]
  congr 1
  funext character
  unfold attributeCode
  split_ifs
  · decide
  · exact List.flatMap_singleton ..

theorem escapeText_eq_self_iff {text : String} :
    escapeText text = text ↔ Avoids textSigns text := by
  rw [Avoids, ← String.toList_inj, toList_escapeText, flatMap_eq_self_iff textCode_ne_nil]
  refine forall₂_congr fun character _ => ?_
  unfold textCode textSigns
  split_ifs with ampersand
  · simp [ampersand]
  · simp [bracketCode_eq_self_iff, ampersand]

theorem escapeAttribute_eq_self_iff {value : String} :
    escapeAttribute value = value ↔ Avoids attributeSigns value := by
  have filled : ∀ character, attributeCode character ≠ [] := by
    intro character
    unfold attributeCode bracketCode
    split_ifs <;> simp
  rw [Avoids, ← String.toList_inj, toList_escapeAttribute, flatMap_eq_self_iff filled]
  refine forall₂_congr fun character _ => ?_
  unfold attributeCode attributeSigns
  split_ifs with isQuote
  · simp [isQuote]
  · simp [bracketCode_eq_self_iff, isQuote]

end Sitewright.Markup

namespace Sitewright.Template

open Markup Number

/-! ## The characters of a condition -/

/-- Whether the language of conditions has a use for the character. -/
def IsNotation (character : Char) : Prop :=
  character.isAlphanum = true ∨
    character ∈ [' ', '(', ')', '%', '-', '.', '@', '#', ';']

instance : DecidablePred IsNotation := fun character =>
  inferInstanceAs (Decidable (character.isAlphanum = true ∨
    character ∈ [' ', '(', ')', '%', '-', '.', '@', '#', ';']))

/-- A text without a character that the language has no use for. -/
def IsPlain (text : String) : Prop :=
  ∀ character ∈ text.toList, IsNotation character

instance : DecidablePred IsPlain := fun text =>
  List.decidableBAll IsNotation text.toList

/-- The language has no use for any of the signs. -/
def AreForeign (signs : List Char) : Prop :=
  ∀ sign ∈ signs, ¬ IsNotation sign

instance : DecidablePred AreForeign := fun signs =>
  List.decidableBAll (fun sign => ¬ IsNotation sign) signs

theorem isNotation_of_isDigit {character : Char} (digit : character.isDigit = true) :
    IsNotation character :=
  .inl (by simp [Char.isAlphanum, digit])

theorem isPlain_nat (number : Nat) : IsPlain (toString number) := by
  intro character member
  have inDigits : character ∈ Nat.toDigits 10 number := by
    rwa [← Nat.toList_repr]
  exact isNotation_of_isDigit (Nat.isDigit_of_mem_toDigits (by decide) (by decide) inDigits)

theorem isPlain_int (number : Int) : IsPlain (toString number) := by
  cases number with
  | ofNat magnitude => exact isPlain_nat magnitude
  | negSucc magnitude =>
      intro character member
      have split : toString (Int.negSucc magnitude) = "-" ++ toString (magnitude + 1) := rfl
      rw [split, String.toList_append] at member
      rcases List.mem_append.mp member with inSign | inDigits
      · exact (by decide : IsPlain "-") character inSign
      · exact isPlain_nat (magnitude + 1) character inDigits

theorem isPlain_float (value : Binary64) : IsPlain (value.text .plain) := by
  intro character member
  rcases value.isNumeral_of_mem_text_plain character member with digit | sign
  · exact isNotation_of_isDigit digit
  · have signs : IsPlain (String.ofList ['-', '.', 'i', 'n', 'f', 'N', 'a']) := by decide
    exact signs character (by rwa [String.toList_ofList])

section Foreign

/-! A character that the language has no use for is told by what the condition was given. -/

variable {character : Char} (foreign : ¬ IsNotation character)
include foreign

theorem not_mem_of_isPlain {text : String} (plain : IsPlain text) : character ∉ text.toList :=
  fun member => foreign (plain character member)

theorem mem_between_iff {front back : String} (frontPlain : IsPlain front)
    (backPlain : IsPlain back) (text : String) :
    character ∈ (front ++ text ++ back).toList ↔ character ∈ text.toList := by
  simp only [String.toList_append, List.mem_append, not_mem_of_isPlain foreign frontPlain,
    not_mem_of_isPlain foreign backPlain, false_or, or_false]

/-- Of a literal, all but the quotes is written. -/
theorem mem_quote_iff (content : String) :
    character ∈ (quote content).toList ↔ character ≠ '"' ∧ character ∈ content.toList := by
  have token : IsPlain quoteToken := by decide
  rw [quote, mem_between_iff foreign token token, Text.substitute, String.toList_ofList,
    List.mem_flatMap]
  constructor
  · rintro ⟨original, inContent, written⟩
    split_ifs at written with isQuote
    · exact absurd written (not_mem_of_isPlain foreign token)
    · rw [List.mem_singleton.mp written]
      exact ⟨isQuote, inContent⟩
  · rintro ⟨noQuote, inContent⟩
    exact ⟨character, inContent, by rw [if_neg noQuote]; exact List.mem_singleton_self character⟩

theorem DataRef.mem_argument_iff (source : DataRef) :
    character ∈ source.argument.toList ↔ character ∈ source.name.toList := by
  unfold DataRef.argument
  dsimp only
  split
  · exact mem_between_iff foreign (by decide) (by decide) source.name
  · rfl

theorem mem_call_iff {function : String} (plain : IsPlain function) (left right : String) :
    character ∈ ("(" ++ function ++ " " ++ left ++ " " ++ right ++ ")").toList ↔
      character ∈ left.toList ∨ character ∈ right.toList := by
  have opening : IsPlain "(" := by decide
  have closing : IsPlain ")" := by decide
  have blank : IsPlain " " := by decide
  simp only [String.toList_append, List.mem_append, not_mem_of_isPlain foreign opening,
    not_mem_of_isPlain foreign closing, not_mem_of_isPlain foreign blank,
    not_mem_of_isPlain foreign plain, false_or, or_false]

end Foreign

/-- The strings that a literal was given. -/
def Literal.strings : Literal → List String
  | .string value => [value]
  | _ => []

namespace Expr

mutual

/-- The literal strings and the names of types, left to right, repetitions included. -/
def strings : Expr → List String
  | .ref _ => []
  | .literal value => value.strings
  | .not operand => operand.strings
  | .junction _ items => stringsOfAll items
  | .compare _ left right => left.strings ++ right.strings
  | .hasType operand type => type :: operand.strings

def stringsOfAll : List Expr → List String
  | [] => []
  | head :: tail => head.strings ++ stringsOfAll tail

end

/-- Whether the character is in something that the expression was given. A quote in a string
does not count, since a token is written in its place. -/
def Given (character : Char) (sources : List DataRef) (strings : List String) : Prop :=
  (∃ source ∈ sources, character ∈ source.name.toList) ∨
    character ≠ '"' ∧ ∃ string ∈ strings, character ∈ string.toList

theorem not_given_nil {character : Char} : ¬ Given character [] [] := by
  simp [Given]

theorem given_append_iff {character : Char} {firstSources secondSources : List DataRef}
    {firstStrings secondStrings : List String} :
    Given character (firstSources ++ secondSources) (firstStrings ++ secondStrings) ↔
      Given character firstSources firstStrings ∨ Given character secondSources secondStrings := by
  simp only [Given, List.mem_append, or_and_right, exists_or, and_or_left]
  exact or_or_or_comm

section Foreign

variable {character : Char} (foreign : ¬ IsNotation character)
include foreign

theorem mem_literal_text_iff (value : Literal) :
    character ∈ value.text.toList ↔ Given character [] value.strings := by
  cases value with
  | string content => simp [Literal.text, mem_quote_iff foreign, Literal.strings, Given]
  | whole number =>
      exact iff_of_false (not_mem_of_isPlain foreign (isPlain_int number)) not_given_nil
  | float number =>
      exact iff_of_false (not_mem_of_isPlain foreign (isPlain_float number)) not_given_nil
  | bool value =>
      have plain : IsPlain (Literal.boolText value) := by cases value <;> decide
      exact iff_of_false (not_mem_of_isPlain foreign plain) not_given_nil

/-- An argument has the characters of the text that stands alone. -/
theorem mem_argument_iff (expr : Expr) :
    character ∈ expr.argument.toList ↔ character ∈ expr.text.toList := by
  unfold argument asArgument
  split
  · rw [text]
    exact DataRef.mem_argument_iff foreign _
  · split
    · exact mem_between_iff foreign (by decide) (by decide) expr.text
    · rfl

theorem mem_header_iff (expr : Expr) (negated : Bool) :
    character ∈ (expr.header negated).toList ↔ character ∈ expr.text.toList := by
  unfold header
  split
  · exact mem_argument_iff foreign expr
  · rfl

theorem mem_chain_iff {function : String} (plain : IsPlain function) (items : List Expr) :
    character ∈ (chain function items).toList ↔ ∃ item ∈ items, character ∈ item.text.toList := by
  induction items with
  | nil => simp [chain]
  | cons head rest inductionHypothesis =>
      have headIff := mem_argument_iff foreign head
      rw [argument] at headIff
      cases rest with
      | nil => simp only [chain, headIff, List.exists_mem_cons_iff, List.not_mem_nil, false_and,
          exists_false, or_false]
      | cons next rest =>
          rw [chain, mem_call_iff foreign plain, headIff, inductionHypothesis,
            List.exists_mem_cons_iff _ head]

theorem mem_junction_iff (kind : Junction) (items : List Expr) :
    character ∈ (Expr.junction kind items).text.toList ↔
      ∃ item ∈ items, character ∈ item.text.toList := by
  match items with
  | [] =>
      have plain : IsPlain (Literal.boolText kind.ofNone) := by cases kind <;> decide
      simpa [text] using not_mem_of_isPlain foreign plain
  | [single] => simp [text]
  | first :: second :: rest =>
      have plain : IsPlain kind.function := by cases kind <;> decide
      rw [text]
      exact mem_chain_iff foreign plain (first :: second :: rest)

end Foreign

mutual

/-- Outside of the language, an expression shows what it was given, and all of it. -/
theorem mem_text_iff {character : Char} (foreign : ¬ IsNotation character) : ∀ expr : Expr,
    character ∈ expr.text.toList ↔ Given character expr.refs expr.strings
  | .ref source => by simp [text, refs, strings, Given]
  | .literal value => by
      rw [text, refs, strings]
      exact mem_literal_text_iff foreign value
  | .not operand => by
      have negation : IsPlain "not " := by decide
      have shown : (Expr.not operand).text = "not " ++ operand.argument ++ "" := by
        rw [text, argument, String.append_empty]
      rw [shown, mem_between_iff foreign negation (by decide), mem_argument_iff foreign,
        mem_text_iff foreign operand, refs, strings]
  | .junction kind items => by
      rw [mem_junction_iff foreign, mem_text_ofAll_iff foreign items, refs, strings]
  | .compare comparison left right => by
      have plain : IsPlain comparison.function := by cases comparison <;> decide
      have shown : (Expr.compare comparison left right).text =
          "(" ++ comparison.function ++ " " ++ left.argument ++ " " ++ right.argument ++ ")" := by
        rw [text, argument, argument]
      rw [shown, mem_call_iff foreign plain, mem_argument_iff foreign, mem_argument_iff foreign,
        mem_text_iff foreign left, mem_text_iff foreign right, refs, strings, given_append_iff]
  | .hasType operand type => by
      have shown : (Expr.hasType operand type).text =
          "(" ++ Comparison.equal.function ++ " " ++ quote type ++ " " ++
            ("(printf " ++ quote "%T" ++ " " ++ operand.argument ++ ")") ++ ")" := by
        simp only [text, argument, String.append_assoc]
        rfl
      have plain : IsPlain Comparison.equal.function := by decide
      have front : IsPlain ("(printf " ++ quote "%T" ++ " ") := by decide
      rw [shown, mem_call_iff foreign plain, mem_between_iff foreign front (by decide),
        mem_quote_iff foreign, mem_argument_iff foreign, mem_text_iff foreign operand, refs,
        strings]
      simp only [Given, List.exists_mem_cons_iff, and_or_left]
      exact or_left_comm

theorem mem_text_ofAll_iff {character : Char} (foreign : ¬ IsNotation character) :
    ∀ items : List Expr, (∃ item ∈ items, character ∈ item.text.toList) ↔
      Given character (refsOfAll items) (stringsOfAll items)
  | [] => by simp [refsOfAll, stringsOfAll, Given]
  | head :: tail => by
      rw [List.exists_mem_cons_iff, mem_text_iff foreign head, mem_text_ofAll_iff foreign tail,
        refsOfAll, stringsOfAll, given_append_iff]

end

/-! ## Conditions behind the escapes -/

/-- What an expression is given decides which signs it avoids. -/
theorem avoids_text_iff {signs : List Char} (foreign : AreForeign signs)
    (expr : Expr) :
    Avoids signs expr.text ↔ (∀ source ∈ expr.refs, Avoids signs source.name) ∧
      ∀ string ∈ expr.strings, Avoids (signs.filter (· ≠ '"')) string := by
  constructor
  · intro avoids
    refine ⟨fun source inRefs sign inName isSign => ?_,
      fun string inStrings sign inString isSign => ?_⟩
    · exact avoids sign ((mem_text_iff (foreign sign isSign) expr).mpr
        (.inl ⟨source, inRefs, inName⟩)) isSign
    · obtain ⟨isSign, noQuote⟩ := List.mem_filter.mp isSign
      exact avoids sign ((mem_text_iff (foreign sign isSign) expr).mpr
        (.inr ⟨of_decide_eq_true noQuote, string, inStrings, inString⟩)) isSign
  · rintro ⟨names, strings⟩ sign inText isSign
    rcases (mem_text_iff (foreign sign isSign) expr).mp inText with
      ⟨source, inRefs, inName⟩ | ⟨noQuote, string, inStrings, inString⟩
    · exact names source inRefs sign inName isSign
    · exact strings string inStrings sign inString
        (List.mem_filter.mpr ⟨isSign, decide_eq_true noQuote⟩)

theorem avoids_header_iff {signs : List Char} (foreign : AreForeign signs)
    (expr : Expr) (negated : Bool) :
    Avoids signs (expr.header negated) ↔ Avoids signs expr.text :=
  forall_congr' fun character => ⟨
    fun avoids inText isSign =>
      avoids ((mem_header_iff (foreign character isSign) expr negated).mpr inText) isSign,
    fun avoids inHeader isSign =>
      avoids ((mem_header_iff (foreign character isSign) expr negated).mp inHeader) isSign⟩

/-- Alone, in the header of a block and as an argument, an expression passes the escape of texts
and that of attribute values exactly as far as what it was given does. The quotes in its strings
are the one thing that does not matter in attributes; angle brackets and unbreakable spaces
matter in both places, and the ampersand in texts. -/
theorem unharmed_iff (expr : Expr) :
    (escapeText expr.text = expr.text ↔
      (∀ source ∈ expr.refs, Avoids textSigns source.name) ∧
        ∀ string ∈ expr.strings, Avoids textSigns string) ∧
    (escapeAttribute expr.text = expr.text ↔
      (∀ source ∈ expr.refs, Avoids attributeSigns source.name) ∧
        ∀ string ∈ expr.strings, Avoids bracketSigns string) ∧
    ∀ negated,
      (escapeText (expr.header negated) = expr.header negated ↔
        escapeText expr.text = expr.text) ∧
      (escapeAttribute (expr.header negated) = expr.header negated ↔
        escapeAttribute expr.text = expr.text) := by
  have foreignText : AreForeign textSigns := by decide
  have foreignAttribute : AreForeign attributeSigns := by decide
  have texts : textSigns.filter (· ≠ '"') = textSigns := by decide
  have attributes : attributeSigns.filter (· ≠ '"') = bracketSigns := by decide
  refine ⟨?_, ?_, fun negated => ⟨?_, ?_⟩⟩
  · rw [escapeText_eq_self_iff, avoids_text_iff foreignText, texts]
  · rw [escapeAttribute_eq_self_iff, avoids_text_iff foreignAttribute, attributes]
  · rw [escapeText_eq_self_iff, escapeText_eq_self_iff, avoids_header_iff foreignText]
  · rw [escapeAttribute_eq_self_iff, escapeAttribute_eq_self_iff,
      avoids_header_iff foreignAttribute]

/-- A literal is changed by what comes in it, however it is quoted. -/
theorem bracketLiteral_escaped :
    escapeAttribute (Expr.literal (.string "<")).text = "@#34T;&lt;@#34T;" ∧
      (Expr.literal (.string "<")).text = "@#34T;<@#34T;" := by
  constructor <;> cbv

end Expr

end Sitewright.Template

import Mathlib.Data.List.Basic
import Sitewright.Markup.Tag

/-!
Contract: written markup can be read in one way only.

Owns:
- the escapes as codes of single characters, no one of which begins another;
- plain markup, texts and elements, and how it is written;
- the normal form of markup, without empty texts and without neighbouring texts;
- unique reading: two pieces of markup in normal form that are written alike are
  the same.

Does not own: the views that markup comes from.
-/

namespace Sitewright.Markup

/-! ## Escapes -/

/-- A character as `escapeBrackets` writes it. -/
def bracketCode (character : Char) : List Char :=
  if character = '<' then ['&', 'l', 't', ';']
  else if character = '>' then ['&', 'g', 't', ';']
  else if character = noBreakSpace then ['&', 'n', 'b', 's', 'p', ';']
  else [character]

/-- A character as `escapeText` writes it. -/
def textCode (character : Char) : List Char :=
  if character = '&' then ['&', 'a', 'm', 'p', ';'] else bracketCode character

theorem toList_escapeBrackets (text : String) :
    (escapeBrackets text).toList = text.toList.flatMap bracketCode := by
  simp only [escapeBrackets, Text.substitute, String.toList_ofList, List.flatMap_assoc]
  congr 1
  funext character
  unfold bracketCode
  split_ifs with opening closing blank
  · rfl
  · subst closing
    rfl
  · subst blank
    rfl
  · rw [List.flatMap_singleton, if_neg closing, List.flatMap_singleton, if_neg blank]

theorem toList_escapeText (text : String) :
    (escapeText text).toList = text.toList.flatMap textCode := by
  rw [escapeText, toList_escapeBrackets, Text.substitute, String.toList_ofList,
    List.flatMap_assoc]
  congr 1
  funext character
  unfold textCode
  split_ifs
  · rfl
  · exact List.flatMap_singleton ..

/-- A sign in a code belongs to a reference, or is the character itself. -/
theorem mem_bracketCode {sign character : Char} (member : sign ∈ bracketCode character) :
    sign ∈ ['&', 'l', 't', 'g', 'n', 'b', 's', 'p', ';'] ∨
      sign = character ∧ character ≠ '<' ∧ character ≠ '>' := by
  unfold bracketCode at member
  split_ifs at member with opening closing blank
  · exact Or.inl (List.subset_def.mp (by simp) member)
  · exact Or.inl (List.subset_def.mp (by simp) member)
  · exact Or.inl (List.subset_def.mp (by simp) member)
  · exact Or.inr ⟨List.mem_singleton.mp member, opening, closing⟩

theorem bracketFree_escapeBrackets (text : String) :
    '<' ∉ (escapeBrackets text).toList ∧ '>' ∉ (escapeBrackets text).toList := by
  rw [toList_escapeBrackets]
  constructor
  · intro member
    obtain ⟨character, -, inCode⟩ := List.mem_flatMap.mp member
    rcases mem_bracketCode inCode with inReference | ⟨same, different, -⟩
    · exact absurd inReference (by decide)
    · exact different same.symm
  · intro member
    obtain ⟨character, -, inCode⟩ := List.mem_flatMap.mp member
    rcases mem_bracketCode inCode with inReference | ⟨same, -, different⟩
    · exact absurd inReference (by decide)
    · exact different same.symm

theorem ne_bracket_of_mem_escapeText {text : String} {character : Char}
    (member : character ∈ (escapeText text).toList) : character ≠ '<' :=
  fun isBracket => (bracketFree_escapeBrackets _).1 (isBracket ▸ member)

theorem quoteFree_escapeAttribute (value : String) : '"' ∉ (escapeAttribute value).toList := by
  rw [escapeAttribute, toList_escapeBrackets, Text.substitute, String.toList_ofList]
  intro member
  obtain ⟨written, inWritten, inCode⟩ := List.mem_flatMap.mp member
  obtain ⟨character, -, replaced⟩ := List.mem_flatMap.mp inWritten
  rcases mem_bracketCode inCode with inReference | ⟨rfl, -, -⟩
  · exact absurd inReference (by decide)
  · split_ifs at replaced with quote
    · exact absurd replaced (by decide)
    · exact quote (List.mem_singleton.mp replaced).symm

theorem textCode_ne_nil (character : Char) : textCode character ≠ [] := by
  unfold textCode bracketCode
  split_ifs <;> simp

/-- The characters that are escaped in texts, with their references behind the
ampersand. -/
def references : List (Char × List Char) :=
  [('&', ['a', 'm', 'p', ';']), ('<', ['l', 't', ';']), ('>', ['g', 't', ';']),
   (noBreakSpace, ['n', 'b', 's', 'p', ';'])]

theorem textCode_cases (character : Char) :
    (textCode character = [character] ∧ character ≠ '&') ∨
      ∃ name, textCode character = '&' :: name ∧ (character, name) ∈ references := by
  unfold textCode bracketCode references
  split_ifs with ampersand <;> simp_all

/-- The first letter tells which reference begins, and each is as long as its own kind. -/
theorem reference_cancel {first second : Char × List Char} (listed : first ∈ references)
    (otherListed : second ∈ references) {left right : List Char}
    (same : first.2 ++ left = second.2 ++ right) : first = second ∧ left = right := by
  simp only [references, List.mem_cons, List.not_mem_nil, or_false] at listed otherListed
  rcases listed with rfl | rfl | rfl | rfl <;>
    rcases otherListed with rfl | rfl | rfl | rfl <;> simp_all

/-- Codes end where they end whatever follows, since a character that is written as it
is is no ampersand. -/
theorem textCode_cancel {first second : Char} {left right : List Char}
    (same : textCode first ++ left = textCode second ++ right) :
    first = second ∧ left = right := by
  rcases textCode_cases first with ⟨written, plain⟩ | ⟨name, written, listed⟩
  · rcases textCode_cases second with ⟨otherWritten, -⟩ | ⟨other, otherWritten, -⟩
    · rw [written, otherWritten] at same
      exact List.cons.inj same
    · rw [written, otherWritten] at same
      exact absurd (List.cons.inj same).1 plain
  · rcases textCode_cases second with
      ⟨otherWritten, otherPlain⟩ | ⟨other, otherWritten, otherListed⟩
    · rw [written, otherWritten] at same
      exact absurd (List.cons.inj same).1.symm otherPlain
    · rw [written, otherWritten] at same
      obtain ⟨pairs, rest⟩ := reference_cancel listed otherListed (List.cons.inj same).2
      exact ⟨(Prod.mk.inj pairs).1, rest⟩

theorem escapeText_injective {first second : String}
    (same : escapeText first = escapeText second) : first = second := by
  have codes : first.toList.flatMap textCode = second.toList.flatMap textCode := by
    rw [← toList_escapeText, ← toList_escapeText, same]
  refine String.toList_inj.mp ?_
  generalize first.toList = left at codes ⊢
  generalize second.toList = right at codes ⊢
  induction left generalizing right with
  | nil => cases right <;> simp_all [textCode_ne_nil]
  | cons head tail inductionHypothesis =>
      cases right with
      | nil => simp [textCode_ne_nil] at codes
      | cons otherHead otherTail =>
          rw [List.flatMap_cons, List.flatMap_cons] at codes
          obtain ⟨rfl, rest⟩ := textCode_cancel codes
          rw [inductionHypothesis otherTail rest]

theorem toList_escapeText_append (first second : String) :
    (escapeText (first ++ second)).toList =
      (escapeText first).toList ++ (escapeText second).toList := by
  simp only [toList_escapeText, String.toList_append, List.flatMap_append]

theorem toList_escapeText_ne_nil {text : String} (filled : text ≠ "") :
    (escapeText text).toList ≠ [] := by
  rw [toList_escapeText]
  intro empty
  obtain ⟨head, member⟩ := List.exists_mem_of_ne_nil text.toList (by simpa using filled)
  exact textCode_ne_nil head (List.flatMap_eq_nil_iff.mp empty head member)

/-! ## Tags and names -/

/-- A text of at least one character, all of them allowed. -/
structure Spelled (Allowed : Char → Prop) (text : String) : Prop where
  filled : text ≠ ""
  characters : ∀ character ∈ text.toList, Allowed character

instance (Allowed : Char → Prop) [DecidablePred Allowed] (text : String) :
    Decidable (Spelled Allowed text) :=
  decidable_of_iff (text ≠ "" ∧ text.toList.all (fun character => decide (Allowed character)))
    ⟨fun ⟨filled, characters⟩ => ⟨filled, by simpa using characters⟩,
      fun spelled => ⟨spelled.filled, by simpa using spelled.characters⟩⟩

theorem Spelled.exists_cons {Allowed : Char → Prop} {text : String}
    (spelled : Spelled Allowed text) :
    ∃ head tail, text.toList = head :: tail ∧ Allowed head := by
  obtain ⟨head, tail, written⟩ := List.exists_cons_of_ne_nil
    (fun empty => spelled.filled (String.toList_eq_nil_iff.mp empty))
  exact ⟨head, tail, written, spelled.characters head (written ▸ List.mem_cons_self)⟩

def IsTagChar (character : Char) : Prop :=
  character.isAlphanum = true ∨ character = '-'

def IsNameChar (character : Char) : Prop :=
  character.isWhitespace = false ∧ character ∉ ['"', '\'', '=', '<', '>', '/']

instance : DecidablePred IsTagChar :=
  fun _ => inferInstanceAs (Decidable (_ ∨ _))

instance : DecidablePred IsNameChar :=
  fun _ => inferInstanceAs (Decidable (_ ∧ _))

/-- A tag of ASCII letters, digits and hyphens. -/
abbrev IsTag (tag : String) : Prop :=
  Spelled IsTagChar tag

/-- A name of an attribute without white space and signs of markup. -/
abbrev IsName (name : String) : Prop :=
  Spelled IsNameChar name

/-! ## Plain markup -/

/-- An attribute as an element shows it: its name, and the escaped value unless the
name stands alone. -/
abbrev Shown := String × Option String

inductive Node where
  | text (content : String)
  | element (tag : String) (attributes : List Shown) (children : List Node)

def writeValue : Option String → List Char
  | none => []
  | some value => '=' :: '"' :: (value.toList ++ ['"'])

def Shown.write (shown : Shown) : List Char :=
  ' ' :: (shown.1.toList ++ writeValue shown.2)

/-- An attribute without the space in front of it. -/
def Shown.text (shown : Shown) : String :=
  shown.1 ++ String.ofList (writeValue shown.2)

theorem Shown.toList_text (shown : Shown) :
    shown.text.toList = shown.1.toList ++ writeValue shown.2 := by
  rw [text, String.toList_append, String.toList_ofList]

/-- What follows the attributes of an element. -/
def closing (tag : String) (content : List Char) : List Char :=
  if content = [] ∧ isVoidTag tag = true then [' ', '/', '>']
  else '>' :: (content ++ '<' :: '/' :: (tag.toList ++ ['>']))

namespace Node

mutual

def write : Node → List Char
  | .text content => (escapeText content).toList
  | .element tag attributes children =>
      '<' :: (tag.toList ++ (attributes.flatMap Shown.write ++ closing tag (writeAll children)))

def writeAll : List Node → List Char
  | [] => []
  | first :: rest => first.write ++ writeAll rest

end

theorem writeAll_append (front back : List Node) :
    writeAll (front ++ back) = writeAll front ++ writeAll back := by
  induction front with
  | nil => rfl
  | cons first rest inductionHypothesis =>
      rw [List.cons_append, writeAll, writeAll, inductionHypothesis, List.append_assoc]

/-! ## Normal form -/

/-- A text in front of markup: left out if it is empty, and merged with a text that
the markup begins with. -/
def joinText (content : String) : List Node → List Node
  | .text other :: rest => .text (content ++ other) :: rest
  | nodes => if content.isEmpty then nodes else .text content :: nodes

/-- Neighbouring texts as one, and no empty ones. -/
def mergeTexts : List Node → List Node
  | [] => []
  | .text content :: rest => joinText content (mergeTexts rest)
  | .element tag attributes children :: rest =>
      .element tag attributes children :: mergeTexts rest

theorem writeAll_joinText (content : String) (nodes : List Node) :
    writeAll (joinText content nodes) = (escapeText content).toList ++ writeAll nodes := by
  unfold joinText
  split
  · rw [writeAll, write, toList_escapeText_append, List.append_assoc]
    rfl
  · split_ifs with empty
    · rw [String.isEmpty_iff.mp empty, toList_escapeText]
      rfl
    · rfl

theorem writeAll_mergeTexts (nodes : List Node) : writeAll (mergeTexts nodes) = writeAll nodes := by
  induction nodes with
  | nil => rfl
  | cons first rest inductionHypothesis =>
      cases first with
      | text content => rw [mergeTexts, writeAll_joinText, inductionHypothesis, writeAll, write]
      | element tag attributes children => rw [mergeTexts, writeAll, inductionHypothesis, writeAll]

/-- An attribute that can be told from what stands around it in a tag. -/
structure Legible (shown : Shown) : Prop where
  name : IsName shown.1
  value : ∀ value ∈ shown.2, '"' ∉ value.toList

/-- Markup without empty texts and without neighbouring texts, whose tags and
attributes are legible. -/
inductive Normal : List Node → Prop
  | nil : Normal []
  | text {content : String} {rest : List Node} (filled : content ≠ "")
      (apart : ∀ other ∈ rest.head?, ∀ neighbour, other ≠ .text neighbour)
      (restNormal : Normal rest) : Normal (.text content :: rest)
  | element {tag : String} {attributes : List Shown} {children rest : List Node}
      (isTag : IsTag tag) (legible : ∀ shown ∈ attributes, Legible shown)
      (childrenNormal : Normal children) (restNormal : Normal rest) :
      Normal (.element tag attributes children :: rest)

theorem Normal.joinText {nodes : List Node} (normal : Normal nodes) (content : String) :
    Normal (joinText content nodes) := by
  unfold Node.joinText
  split
  · next other rest =>
    cases normal with
    | text filled apart restNormal => exact .text (by simp [filled]) apart restNormal
  · next noText =>
    split_ifs with empty
    · exact normal
    · refine .text (by simpa using empty) ?_ normal
      intro first isFirst neighbour same
      obtain ⟨rest, rfl⟩ := List.head?_eq_some_iff.mp isFirst
      exact noText neighbour rest (by rw [same])

/-- A node that can be merged into markup in normal form. -/
def IsPart : Node → Prop
  | .text _ => True
  | .element tag attributes children =>
      IsTag tag ∧ (∀ shown ∈ attributes, Legible shown) ∧ Normal children

theorem Normal.mergeTexts {nodes : List Node} (parts : ∀ node ∈ nodes, node.IsPart) :
    Normal (mergeTexts nodes) := by
  induction nodes with
  | nil => exact .nil
  | cons first rest inductionHypothesis =>
      have restNormal := inductionHypothesis fun node member =>
        parts node (List.mem_cons_of_mem _ member)
      cases first with
      | text content => exact restNormal.joinText content
      | element tag attributes children =>
          obtain ⟨isTag, legible, childrenNormal⟩ := parts _ List.mem_cons_self
          exact .element isTag legible childrenNormal restNormal

/-! ## Unique reading -/

/-- What can follow a run of allowed characters and shows that the run is over. -/
def Stops (Allowed : Char → Prop) (rest : List Char) : Prop :=
  ∀ next ∈ rest.head?, ¬ Allowed next

@[simp] theorem stops_cons {Allowed : Char → Prop} {head : Char} {tail : List Char} :
    Stops Allowed (head :: tail) ↔ ¬ Allowed head := by
  simp [Stops]

theorem run_unique {Allowed : Char → Prop} {first second left right : List Char}
    (firstAllowed : ∀ character ∈ first, Allowed character)
    (secondAllowed : ∀ character ∈ second, Allowed character)
    (leftStops : Stops Allowed left) (rightStops : Stops Allowed right)
    (same : first ++ left = second ++ right) : first = second ∧ left = right := by
  induction first generalizing second with
  | nil =>
      cases second with
      | nil => exact ⟨rfl, same⟩
      | cons head tail =>
          rw [List.nil_append] at same
          subst same
          exact absurd (secondAllowed head List.mem_cons_self) (leftStops head rfl)
  | cons head tail inductionHypothesis =>
      cases second with
      | nil =>
          rw [List.nil_append] at same
          subst same
          exact absurd (firstAllowed head List.mem_cons_self) (rightStops head rfl)
      | cons otherHead otherTail =>
          obtain ⟨rfl, rest⟩ := List.cons.inj same
          obtain ⟨rfl, rfl⟩ := inductionHypothesis
            (fun character member => firstAllowed character (List.mem_cons_of_mem _ member))
            (fun character member => secondAllowed character (List.mem_cons_of_mem _ member)) rest
          exact ⟨rfl, rfl⟩

/-! ### Attributes -/

theorem value_unique {first second : Option String} {left right : List Char}
    (firstFree : ∀ value ∈ first, '"' ∉ value.toList)
    (secondFree : ∀ value ∈ second, '"' ∉ value.toList)
    (leftStops : Stops (· = '=') left) (rightStops : Stops (· = '=') right)
    (same : writeValue first ++ left = writeValue second ++ right) :
    first = second ∧ left = right := by
  have noQuote : ∀ {value : String}, '"' ∉ value.toList →
      ∀ character ∈ value.toList, character ≠ '"' :=
    fun free character member isQuote => free (isQuote ▸ member)
  cases first with
  | none =>
      cases second with
      | none => exact ⟨rfl, same⟩
      | some value =>
          simp only [writeValue, List.nil_append] at same
          subst same
          exact absurd rfl (leftStops '=' rfl)
  | some value =>
      cases second with
      | none =>
          simp only [writeValue, List.nil_append] at same
          subst same
          exact absurd rfl (rightStops '=' rfl)
      | some other =>
          simp only [writeValue, List.cons_append, List.append_assoc, List.nil_append,
            List.cons.injEq, true_and] at same
          obtain ⟨contents, rest⟩ := run_unique (noQuote (firstFree value rfl))
            (noQuote (secondFree other rfl)) (by simp) (by simp) same
          obtain rfl : value = other := String.toList_inj.mp contents
          exact ⟨rfl, (List.cons.inj rest).2⟩

/-- A character that can stand behind the start of a name in an attribute. -/
def Continues (character : Char) : Prop :=
  IsNameChar character ∨ character = '='

theorem stops_value (value : Option String) {rest : List Char} (stops : Stops Continues rest) :
    Stops IsNameChar (writeValue value ++ rest) := by
  cases value with
  | none => exact fun next isNext allowed => stops next isNext (Or.inl allowed)
  | some value =>
      rw [writeValue, List.cons_append, stops_cons]
      decide

theorem shown_unique {first second : Shown} {left right : List Char} (firstLegible : Legible first)
    (secondLegible : Legible second) (leftStops : Stops Continues left)
    (rightStops : Stops Continues right) (same : first.write ++ left = second.write ++ right) :
    first = second ∧ left = right := by
  simp only [Shown.write, List.cons_append, List.append_assoc, List.cons.injEq, true_and] at same
  obtain ⟨names, values⟩ := run_unique firstLegible.name.characters
    secondLegible.name.characters (stops_value _ leftStops) (stops_value _ rightStops) same
  obtain ⟨sameValue, rest⟩ := value_unique firstLegible.value secondLegible.value
    (fun next isNext isSign => leftStops next isNext (Or.inr isSign))
    (fun next isNext isSign => rightStops next isNext (Or.inr isSign)) values
  exact ⟨Prod.ext (String.toList_inj.mp names) sameValue, rest⟩

/-- What stands behind the last attribute. -/
inductive EndsTag : List Char → Prop
  | opened (rest : List Char) : EndsTag ('>' :: rest)
  | closed (rest : List Char) : EndsTag (' ' :: '/' :: rest)

theorem endsTag_closing (tag : String) (content rest : List Char) :
    EndsTag (closing tag content ++ rest) := by
  unfold closing
  split_ifs
  · exact .closed _
  · exact .opened _

theorem Legible.not_endsTag {shown : Shown} (legible : Legible shown) (rest : List Char) :
    ¬ EndsTag (shown.write ++ rest) := by
  obtain ⟨head, tail, begins, allowed⟩ := legible.name.exists_cons
  rw [Shown.write, begins]
  intro ends
  cases ends
  revert allowed
  decide

theorem stops_attributes (attributes : List Shown) {rest : List Char} (ends : EndsTag rest)
    {Allowed : Char → Prop} (noSpace : ¬ Allowed ' ') (noBracket : ¬ Allowed '>') :
    Stops Allowed (attributes.flatMap Shown.write ++ rest) := by
  cases attributes with
  | nil => cases ends <;> simpa
  | cons head tail => simpa [Shown.write] using noSpace

theorem attributes_unique {first second : List Shown} {left right : List Char}
    (firstLegible : ∀ shown ∈ first, Legible shown)
    (secondLegible : ∀ shown ∈ second, Legible shown) (leftEnds : EndsTag left)
    (rightEnds : EndsTag right)
    (same : first.flatMap Shown.write ++ left = second.flatMap Shown.write ++ right) :
    first = second ∧ left = right := by
  have noSpace : ¬ Continues ' ' := by unfold Continues; decide
  have noBracket : ¬ Continues '>' := by unfold Continues; decide
  induction first generalizing second with
  | nil =>
      cases second with
      | nil => exact ⟨rfl, same⟩
      | cons head tail =>
          rw [List.flatMap_cons, List.append_assoc, List.flatMap_nil, List.nil_append] at same
          exact absurd (same ▸ leftEnds) ((secondLegible head List.mem_cons_self).not_endsTag _)
  | cons head tail inductionHypothesis =>
      cases second with
      | nil =>
          rw [List.flatMap_cons, List.append_assoc, List.flatMap_nil, List.nil_append] at same
          exact absurd (same ▸ rightEnds) ((firstLegible head List.mem_cons_self).not_endsTag _)
      | cons otherHead otherTail =>
          rw [List.flatMap_cons, List.flatMap_cons, List.append_assoc, List.append_assoc] at same
          obtain ⟨rfl, rest⟩ := shown_unique (firstLegible _ List.mem_cons_self)
            (secondLegible _ List.mem_cons_self) (stops_attributes tail leftEnds noSpace noBracket)
            (stops_attributes otherTail rightEnds noSpace noBracket) same
          obtain ⟨rfl, rfl⟩ := inductionHypothesis
            (fun shown member => firstLegible shown (List.mem_cons_of_mem _ member))
            (fun shown member => secondLegible shown (List.mem_cons_of_mem _ member)) rest
          exact ⟨rfl, rfl⟩

/-! ### Nodes -/

/-- What stands at a place between tags. -/
inductive Begin where
  | stop
  | text
  | tag
deriving DecidableEq

/-- The end of the written markup, or an end tag, stops the content. -/
def Begin.ofWritten : List Char → Begin
  | [] => .stop
  | first :: rest =>
      if first ≠ '<' then .text
      else if rest.head? = some '/' then .stop
      else .tag

def Begin.ofNodes : List Node → Begin
  | [] => .stop
  | .text _ :: _ => .text
  | .element .. :: _ => .tag

theorem Begin.ofNodes_ne_text {nodes : List Node}
    (apart : ∀ first ∈ nodes.head?, ∀ content, first ≠ .text content) :
    Begin.ofNodes nodes ≠ .text := by
  cases nodes with
  | nil => simp [Begin.ofNodes]
  | cons first rest =>
      cases first with
      | text content => exact absurd rfl (apart _ rfl content)
      | element => simp [Begin.ofNodes]

theorem Normal.begin_eq {nodes : List Node} (normal : Normal nodes) {rest : List Char}
    (stops : Begin.ofWritten rest = .stop) :
    Begin.ofWritten (writeAll nodes ++ rest) = Begin.ofNodes nodes := by
  cases normal with
  | nil => exact stops
  | text filled =>
      obtain ⟨head, tail, written⟩ := List.exists_cons_of_ne_nil (toList_escapeText_ne_nil filled)
      have noBracket := ne_bracket_of_mem_escapeText (written ▸ List.mem_cons_self)
      rw [writeAll, write, written]
      simp [Begin.ofWritten, Begin.ofNodes, noBracket]
  | element isTag =>
      obtain ⟨head, tail, written, allowed⟩ := isTag.exists_cons
      have noSlash : head ≠ '/' := by
        rintro rfl
        revert allowed
        decide
      rw [writeAll, write, written]
      simp [Begin.ofWritten, Begin.ofNodes, noSlash]

theorem stops_text {rest : List Char} (noText : Begin.ofWritten rest ≠ .text) :
    Stops (· ≠ '<') rest := by
  intro next isNext notBracket
  obtain ⟨tail, rfl⟩ := List.head?_eq_some_iff.mp isNext
  exact noText (if_pos notBracket)

/-- The start tag tells the tag and the attributes, whatever content follows. -/
theorem startTag_unique {first second : String} {attributes others : List Shown}
    {left right : List Char} (isTag : IsTag first) (otherIsTag : IsTag second)
    (legible : ∀ shown ∈ attributes, Legible shown) (otherLegible : ∀ shown ∈ others, Legible shown)
    (leftEnds : EndsTag left) (rightEnds : EndsTag right)
    (same : first.toList ++ (attributes.flatMap Shown.write ++ left) =
      second.toList ++ (others.flatMap Shown.write ++ right)) :
    first = second ∧ attributes = others ∧ left = right := by
  obtain ⟨tags, rest⟩ := run_unique isTag.characters otherIsTag.characters
    (stops_attributes attributes leftEnds (by decide) (by decide))
    (stops_attributes others rightEnds (by decide) (by decide)) same
  obtain ⟨rfl, closings⟩ := attributes_unique legible otherLegible leftEnds rightEnds rest
  exact ⟨String.toList_inj.mp tags, rfl, closings⟩

theorem Normal.eq_nil {nodes : List Node} (normal : Normal nodes) (empty : writeAll nodes = []) :
    nodes = [] := by
  have begins : Begin.ofWritten (writeAll nodes ++ []) = Begin.ofNodes nodes := normal.begin_eq rfl
  rw [empty] at begins
  cases normal <;> simp_all [Begin.ofNodes, Begin.ofWritten]

/-- An element closes itself on both sides, or the content ends with the same end tag. -/
theorem closing_cases {tag : String} {first second left right : List Char}
    (same : closing tag first ++ left = closing tag second ++ right) :
    (first = [] ∧ second = [] ∧ left = right) ∨
      first ++ '<' :: '/' :: (tag.toList ++ '>' :: left) =
        second ++ '<' :: '/' :: (tag.toList ++ '>' :: right) := by
  unfold closing at same
  split_ifs at same with firstVoid secondVoid secondVoid
  · exact Or.inl ⟨firstVoid.1, secondVoid.1, by simpa using same⟩
  · simp at same
  · simp at same
  · exact Or.inr (by simpa using same)

/-- Markup in normal form is told by what is written, even if the end of the markup
or an end tag follows. The induction is on the form of one side; an element's
content is read up to its own end tag. -/
theorem Normal.unique {nodes others : List Node} (normal : Normal nodes)
    (otherNormal : Normal others) {left right : List Char}
    (leftStops : Begin.ofWritten left = .stop) (rightStops : Begin.ofWritten right = .stop)
    (same : writeAll nodes ++ left = writeAll others ++ right) :
    nodes = others ∧ left = right := by
  induction normal generalizing others left right with
  | nil =>
      have begins := otherNormal.begin_eq rightStops
      rw [← same] at begins
      cases otherNormal with
      | nil => exact ⟨rfl, same⟩
      | text | element => exact absurd (leftStops.symm.trans begins) (by simp [Begin.ofNodes])
  | @text content rest filled apart restNormal inductionHypothesis =>
      have begins := (Normal.text filled apart restNormal).begin_eq leftStops
      rw [same, otherNormal.begin_eq rightStops] at begins
      cases otherNormal with
      | nil | element => simp [Begin.ofNodes] at begins
      | @text other otherRest otherFilled otherApart otherRestNormal =>
          simp only [writeAll, write, List.append_assoc] at same
          obtain ⟨contents, afterwards⟩ := run_unique
            (fun _ => ne_bracket_of_mem_escapeText) (fun _ => ne_bracket_of_mem_escapeText)
            (stops_text (restNormal.begin_eq leftStops ▸ Begin.ofNodes_ne_text apart))
            (stops_text (otherRestNormal.begin_eq rightStops ▸ Begin.ofNodes_ne_text otherApart))
            same
          obtain rfl := escapeText_injective (String.toList_inj.mp contents)
          obtain ⟨rfl, rfl⟩ := inductionHypothesis otherRestNormal leftStops rightStops afterwards
          exact ⟨rfl, rfl⟩
  | @element tag attributes children rest isTag legible childrenNormal restNormal
      childrenUnique restUnique =>
      have begins := (Normal.element isTag legible childrenNormal restNormal).begin_eq leftStops
      rw [same, otherNormal.begin_eq rightStops] at begins
      cases otherNormal with
      | nil | text => simp [Begin.ofNodes] at begins
      | @element otherTag others otherChildren otherRest otherIsTag otherLegible otherChildrenNormal
          otherRestNormal =>
          simp only [writeAll, write, List.cons_append, List.append_assoc, List.cons.injEq,
            true_and] at same
          obtain ⟨rfl, rfl, closings⟩ := startTag_unique isTag otherIsTag legible otherLegible
            (endsTag_closing ..) (endsTag_closing ..) same
          rcases closing_cases closings with ⟨empty, otherEmpty, afterwards⟩ | contents
          · obtain rfl := childrenNormal.eq_nil empty
            obtain rfl := otherChildrenNormal.eq_nil otherEmpty
            obtain ⟨rfl, rfl⟩ := restUnique otherRestNormal leftStops rightStops afterwards
            exact ⟨rfl, rfl⟩
          · obtain ⟨rfl, endTags⟩ := childrenUnique otherChildrenNormal rfl rfl contents
            have afterwards := List.append_cancel_left (List.cons.inj (List.cons.inj endTags).2).2
            obtain ⟨rfl, rfl⟩ := restUnique otherRestNormal leftStops rightStops
              (List.cons.inj afterwards).2
            exact ⟨rfl, rfl⟩

theorem Normal.writeAll_injective {nodes others : List Node} (normal : Normal nodes)
    (otherNormal : Normal others) (same : writeAll nodes = writeAll others) : nodes = others := by
  have together : writeAll nodes ++ [] = writeAll others ++ [] := by rw [same]
  exact (normal.unique otherNormal rfl rfl together).1

end Node

/-! ## Elements -/

/-- An attribute as its element shows it, `none` when it is left out. -/
def Attribute.shown? (entry : Attribute) : Option Shown :=
  entry.value.text?.map fun value =>
    (entry.name, if value.isEmpty then none else some (escapeAttribute value))

theorem Attribute.text?_eq (entry : Attribute) : entry.text? = entry.shown?.map Shown.text := by
  unfold text? shown?
  cases entry.value.text? with
  | none => rfl
  | some value =>
      simp only [Option.map_some, Option.some.injEq]
      split_ifs with empty
      · simp [Shown.text, writeValue]
      · apply String.toList_inj.mp
        simp [Shown.toList_text, writeValue]

theorem Attribute.legible_of_shown? {entry : Attribute} (isName : IsName entry.name)
    {shown : Shown} (isShown : entry.shown? = some shown) : Node.Legible shown := by
  obtain ⟨value, -, rfl⟩ := Option.map_eq_some_iff.mp isShown
  refine ⟨isName, fun quoted isQuoted => ?_⟩
  split_ifs at isQuoted with empty
  · cases isQuoted
  · obtain rfl := Option.some.inj isQuoted
    exact quoteFree_escapeAttribute value

theorem toList_joinWith {texts : List String} (filled : texts ≠ []) :
    ' ' :: (Text.joinWith " " texts).toList = texts.flatMap fun text => ' ' :: text.toList := by
  fun_induction Text.joinWith " " texts with
  | case1 => exact absurd rfl filled
  | case2 => simp
  | case3 head next rest inductionHypothesis =>
      have others := inductionHypothesis (List.cons_ne_nil next rest)
      rw [List.flatMap_cons, ← others]
      simp

/-- Attributes that can be told apart are not empty, so their text is empty only if there are
none of them. -/
theorem toList_spaced {listed : List Shown} (legible : ∀ shown ∈ listed, Node.Legible shown)
    {text : String} (joined : text = Text.joinWith " " (listed.map Shown.text)) :
    (if text.isEmpty then "" else " " ++ text).toList = listed.flatMap Shown.write := by
  subst joined
  cases listed with
  | nil => rfl
  | cons first rest =>
      have spaced : ' ' :: (Text.joinWith " " ((first :: rest).map Shown.text)).toList =
          (first :: rest).flatMap Shown.write := by
        rw [toList_joinWith (by simp), List.flatMap_map]
        simp only [Shown.toList_text]
        rfl
      rw [if_neg, ← spaced]
      · simp
      · intro empty
        obtain ⟨head, tail, named, -⟩ := (legible first List.mem_cons_self).name.exists_cons
        rw [String.isEmpty_iff.mp empty, List.flatMap_cons, Shown.write, named] at spaced
        cases spaced

/-- The attributes of an element are joined as it shows them. -/
theorem Attributes.text_eq (attributes : Attributes) :
    attributes.text =
      Text.joinWith " " ((attributes.filterMap Attribute.shown?).map Shown.text) := by
  rw [text, List.map_filterMap]
  simp only [Attribute.text?_eq]

theorem Attributes.legible_of_named {attributes : Attributes}
    (named : ∀ entry ∈ attributes, IsName entry.name) :
    ∀ shown ∈ attributes.filterMap Attribute.shown?, Node.Legible shown := by
  intro shown member
  obtain ⟨entry, inAttributes, isShown⟩ := List.mem_filterMap.mp member
  exact Attribute.legible_of_shown? (named entry inAttributes) isShown

/-- Attributes are written with a space before each one, since none that is written
is empty. -/
theorem Attributes.toList_text {attributes : Attributes}
    (named : ∀ entry ∈ attributes, IsName entry.name) :
    (if attributes.text.isEmpty then "" else " " ++ attributes.text).toList =
      (attributes.filterMap Attribute.shown?).flatMap Shown.write :=
  toList_spaced (legible_of_named named) attributes.text_eq

theorem toList_elementText {tag content : String} {attributes : Attributes}
    (named : ∀ entry ∈ attributes, IsName entry.name) :
    (elementText tag attributes content).toList =
      '<' :: (tag.toList ++ ((attributes.filterMap Attribute.shown?).flatMap Shown.write ++
        closing tag content.toList)) := by
  rw [← Attributes.toList_text named]
  unfold elementText closing
  simp only [Bool.and_eq_true, String.isEmpty_iff]
  split_ifs <;> simp_all

end Sitewright.Markup

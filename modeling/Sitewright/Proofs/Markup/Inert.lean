import Sitewright.Markup.Tag
import Sitewright.Proofs.Template.Nesting
import Sitewright.View.Action
import Sitewright.View.Loading

/-!
Contract: markup written around inert texts keeps the blocks of its content.

Owns:
- rewritings of single characters that keep actions, among them the escapes of
  markup and of quoted strings;
- inert JSON texts;
- inert attributes, and elements with such attributes.
-/

namespace Sitewright.Template

open Text

/-! ## Rewriting characters -/

/-- A rewriting that keeps braces and words. What it changes belongs to no word, and
becomes something that begins neither a word nor white space. -/
structure KeepsActions (rewrite : Char → List Char) : Prop where
  opening : rewrite '\x7b' = ['\x7b']
  closing : rewrite '\x7d' = ['\x7d']
  other : ∀ character, rewrite character = [character] ∨
    isWordChar character = false ∧ ∃ head tail, rewrite character = head :: tail ∧
      (∀ written ∈ head :: tail, ¬ IsBrace written) ∧
        head.isWhitespace = false ∧ isWordChar head = false

namespace KeepsActions

variable {rewrite : Char → List Char} (keeps : KeepsActions rewrite)

include keeps

theorem not_isBrace {characters : List Char}
    (free : ∀ character ∈ characters, ¬ IsBrace character) :
    ∀ written ∈ characters.flatMap rewrite, ¬ IsBrace written := by
  intro written member
  obtain ⟨character, inCharacters, inWritten⟩ := List.mem_flatMap.mp member
  rcases keeps.other character with same | ⟨-, head, tail, changed, writtenFree, -⟩
  · rw [same, List.mem_singleton] at inWritten
    rw [inWritten]
    exact free character inCharacters
  · rw [changed] at inWritten
    exact writtenFree written inWritten

theorem takeWhile_isWordChar (characters : List Char) :
    (characters.flatMap rewrite).takeWhile isWordChar = characters.takeWhile isWordChar := by
  induction characters with
  | nil => rfl
  | cons first rest inductionHypothesis =>
      rw [List.flatMap_cons]
      rcases keeps.other first with same | ⟨noWord, head, tail, changed, -, -, headNoWord⟩
      · rw [same, List.singleton_append, List.takeWhile_cons, List.takeWhile_cons,
          inductionHypothesis]
      · rw [changed, List.cons_append, List.takeWhile_cons, List.takeWhile_cons]
        simp [noWord, headNoWord]

/-- Changed white space in front of a word takes the place of the word. -/
theorem firstWord_flatMap (pipeline : List Char) :
    firstWord (pipeline.flatMap rewrite) = firstWord pipeline ∨
      firstWord (pipeline.flatMap rewrite) = [] := by
  induction pipeline with
  | nil => exact Or.inl rfl
  | cons first rest inductionHypothesis =>
      rcases keeps.other first with same | ⟨-, head, tail, changed, -, noBlank, headNoWord⟩
      · by_cases blank : first.isWhitespace = true
        · simpa [firstWord, same, blank] using inductionHypothesis
        · left
          have kept := keeps.takeWhile_isWordChar (first :: rest)
          rw [List.flatMap_cons, same, List.singleton_append] at kept
          simpa [firstWord, same, blank] using kept
      · right
        simp [firstWord, changed, noBlank, headNoWord]

theorem ofPipeline_flatMap {pipeline : List Char}
    (plain : ActionKind.ofPipeline pipeline = .plain) :
    ActionKind.ofPipeline (pipeline.flatMap rewrite) = .plain := by
  unfold ActionKind.ofPipeline at plain ⊢
  rcases keeps.firstWord_flatMap pipeline with same | none
  · rw [same]
    exact plain
  · rw [none]
    rfl

theorem weaves_flatMap {characters : List Char} {kinds : List ActionKind}
    (weaves : Weaves characters kinds) (plain : ∀ kind ∈ kinds, kind = .plain) :
    Weaves (characters.flatMap rewrite) kinds := by
  induction weaves with
  | nil => exact .nil
  | @character first rest kinds different _ inductionHypothesis =>
      have after := inductionHypothesis plain
      rw [List.flatMap_cons]
      rcases keeps.other first with same | ⟨-, head, tail, changed, free, -⟩
      · rw [same]
        exact .character different after
      · rw [changed]
        exact (weaves_of_free free).append after
  | @brace second rest kinds different _ inductionHypothesis =>
      have after := inductionHypothesis plain
      rw [List.flatMap_cons, List.flatMap_cons, keeps.opening, List.singleton_append]
      rcases keeps.other second with same | ⟨-, head, tail, changed, free, -⟩
      · rw [same]
        exact .brace different after
      · rw [changed]
        have tailFree : ∀ written ∈ tail, ¬ IsBrace written :=
          fun written member => free written (List.mem_cons_of_mem _ member)
        have headDifferent : head ≠ '\x7b' :=
          fun same => free head List.mem_cons_self (Or.inl same)
        exact .brace headDifferent ((weaves_of_free tailFree).append after)
  | @action pipeline rest kinds free _ inductionHypothesis =>
      -- The pipeline may change inside an attribute or a string, but not into a keyword.
      have after := inductionHypothesis fun kind member =>
        plain kind (List.mem_cons_of_mem _ member)
      have kind := plain _ List.mem_cons_self
      have written := Weaves.action (keeps.not_isBrace free) after
      rw [keeps.ofPipeline_flatMap kind] at written
      rw [kind]
      simpa [keeps.opening, keeps.closing] using written

theorem inert_ofList {text : String} (inert : Inert text) :
    Inert (String.ofList (text.toList.flatMap rewrite)) := by
  obtain ⟨kinds, weaves, plain⟩ := inert
  refine ⟨kinds, ?_, plain⟩
  rw [String.toList_ofList]
  exact keeps.weaves_flatMap weaves plain

end KeepsActions

/-- Writing one character as something that begins neither a word nor white space. -/
theorem Inert.substitute {text replacement : String} (inert : Inert text) {target head : Char}
    {tail : List Char} (written : replacement.toList = head :: tail) (noBrace : ¬ IsBrace target)
    (noWord : isWordChar target = false) (free : BraceFree replacement)
    (headNoBlank : head.isWhitespace = false) (headNoWord : isWordChar head = false) :
    Inert (substitute target replacement text) := by
  refine KeepsActions.inert_ofList ⟨?_, ?_, ?_⟩ inert
  · exact if_neg fun same => noBrace (Or.inl same.symm)
  · exact if_neg fun same => noBrace (Or.inr same.symm)
  · intro character
    by_cases same : character = target
    · right
      rw [if_pos same, same]
      refine ⟨noWord, head, tail, written, ?_, headNoBlank, headNoWord⟩
      rw [← written]
      exact free
    · left
      rw [if_neg same]

end Sitewright.Template

namespace Sitewright.Markup

open Text Template

/-! ## Escapes -/

theorem inert_escapeBrackets {text : String} (inert : Inert text) :
    Inert (escapeBrackets text) := by
  have less : Inert (substitute '<' "&lt;" text) :=
    inert.substitute rfl (by decide) (by decide) (by decide) (by decide) (by decide)
  have greater : Inert (substitute '>' "&gt;" (substitute '<' "&lt;" text)) :=
    less.substitute rfl (by decide) (by decide) (by decide) (by decide) (by decide)
  exact greater.substitute rfl (by decide) (by decide) (by decide) (by decide) (by decide)

theorem inert_escapeText {text : String} (inert : Inert text) : Inert (escapeText text) :=
  inert_escapeBrackets
    (inert.substitute rfl (by decide) (by decide) (by decide) (by decide) (by decide))

theorem inert_escapeAttribute {value : String} (inert : Inert value) :
    Inert (escapeAttribute value) :=
  inert_escapeBrackets
    (inert.substitute rfl (by decide) (by decide) (by decide) (by decide) (by decide))

end Sitewright.Markup

namespace Sitewright.Json

open Text Template

/-! ## JSON -/

theorem isWordChar_false_of_lt {character : Char} (control : character.toNat < 0x20) :
    isWordChar character = false := by
  have controls : ∀ code < 0x20, isWordChar (Char.ofNat code) = false := by decide
  rw [← Char.ofNat_toNat character]
  exact controls _ control

theorem not_isBrace_hexDigit (value : Nat) : ¬ IsBrace (hexDigit value) :=
  not_isBrace_digitChar _

/-- What is escaped in a string begins with a backslash. -/
theorem quotedChar_cases (character : Char) :
    quotedChar character = [character] ∨ isWordChar character = false ∧
      ∃ tail, quotedChar character = '\\' :: tail ∧ ∀ written ∈ tail, ¬ IsBrace written := by
  fun_cases quotedChar character with
  | case1 | case2 | case3 | case4 | case5 | case6 | case7 =>
      subst_vars
      exact Or.inr ⟨by decide, _, rfl, by simp [IsBrace]⟩
  | case8 _ _ _ _ _ _ _ control =>
      refine Or.inr ⟨isWordChar_false_of_lt control, _, rfl, ?_⟩
      intro written member
      simp only [List.mem_cons, List.not_mem_nil, or_false] at member
      rcases member with rfl | rfl | rfl | rfl | rfl
      · decide
      · decide
      · decide
      · exact not_isBrace_hexDigit _
      · exact not_isBrace_hexDigit _
  | case9 => exact Or.inl rfl

theorem keepsActions_quotedChar : KeepsActions quotedChar where
  opening := by decide
  closing := by decide
  other character := by
    rcases quotedChar_cases character with same | ⟨noWord, tail, escaped, free⟩
    · exact Or.inl same
    · refine Or.inr ⟨noWord, '\\', tail, escaped, ?_, by decide, by decide⟩
      intro written member
      rcases List.mem_cons.mp member with rfl | inTail
      · decide
      · exact free written inTail

theorem inert_quoted {text : String} (inert : Inert text) : Inert (quoted text) := by
  have quote : Inert "\"" := inert_of_braceFree (by decide)
  have inside := (quote.append (keepsActions_quotedChar.inert_ofList inert)).append quote
  have same : quoted text =
      "\"" ++ String.ofList (text.toList.flatMap quotedChar) ++ "\"" := by
    rw [← String.toList_inj]
    simp [quoted]
  rw [same]
  exact inside

theorem inert_itemsText {items : List Json} (inert : ∀ item ∈ items, Inert item.text) :
    Inert (itemsText items) := by
  have comma : Inert "," := inert_of_braceFree (by decide)
  induction items with
  | nil => exact inert_of_braceFree braceFree_empty
  | cons first rest inductionHypothesis =>
      have firstInert := inert first List.mem_cons_self
      have restInert := inductionHypothesis fun item member =>
        inert item (List.mem_cons_of_mem _ member)
      cases rest with
      | nil => exact firstInert
      | cons next others => exact (firstInert.append comma).append restInert

theorem inert_membersText {members : List (String × Json)}
    (inert : ∀ entry ∈ members, Inert entry.1 ∧ Inert entry.2.text) :
    Inert (membersText members) := by
  have comma : Inert "," := inert_of_braceFree (by decide)
  have colon : Inert ":" := inert_of_braceFree (by decide)
  induction members with
  | nil => exact inert_of_braceFree braceFree_empty
  | cons first rest inductionHypothesis =>
      obtain ⟨key, value⟩ := inert first List.mem_cons_self
      have firstInert := ((inert_quoted key).append colon).append value
      have restInert := inductionHypothesis fun entry member =>
        inert entry (List.mem_cons_of_mem _ member)
      cases rest with
      | nil => exact firstInert
      | cons next others => exact (firstInert.append comma).append restInert

theorem head_membersText (members : List (String × Json)) :
    (membersText members).toList.head? ≠ some '\x7b' := by
  cases members with
  | nil => decide
  | cons first rest =>
      cases rest <;> simp [membersText, quoted]

/-- Braces around a text that does not begin with one open no action. -/
theorem inert_braced {content : String} (inert : Inert content)
    (head : content.toList.head? ≠ some '\x7b') : Inert ("\x7b" ++ content ++ "\x7d") := by
  obtain ⟨kinds, weaves, plain⟩ := inert
  have closing : Weaves ['\x7d'] [] := .character (by decide) .nil
  refine ⟨kinds, ?_, plain⟩
  simp only [String.toList_append]
  generalize content.toList = characters at weaves head
  -- The opening brace pairs with the first character, which is no brace by `head`.
  cases weaves with
  | nil => exact .brace (by decide) .nil
  | character different after =>
      simpa using Weaves.brace different (after.append closing)
  | brace => simp at head
  | action => simp at head

theorem inert_object {members : List (String × Json)}
    (inert : ∀ entry ∈ members, Inert entry.1 ∧ Inert entry.2.text) :
    Inert (Json.object members).text := by
  exact inert_braced (inert_membersText inert) (head_membersText members)

theorem inert_stringsText {values : List String} (inert : ∀ value ∈ values, Inert value) :
    Inert (stringsText values) := by
  have opening : Inert "[" := inert_of_braceFree (by decide)
  have closing : Inert "]" := inert_of_braceFree (by decide)
  have items : Inert (itemsText (values.map Json.string)) := by
    apply inert_itemsText
    intro item member
    obtain ⟨value, inValues, rfl⟩ := List.mem_map.mp member
    exact inert_quoted (inert value inValues)
  exact (opening.append items).append closing

theorem mem_insertMember {key : String} {value : Json} {members : List (String × Json)}
    {entry : String × Json} (member : entry ∈ insertMember key value members) :
    entry = (key, value) ∨ entry ∈ members := by
  fun_induction insertMember key value members <;> grind

theorem mem_sortMembers {members : List (String × Json)} {entry : String × Json}
    (member : entry ∈ sortMembers members) : entry ∈ members := by
  have folded : ∀ sorted : List (String × Json),
      entry ∈ members.foldl (fun sorted entry => insertMember entry.1 entry.2 sorted) sorted →
        entry ∈ members ∨ entry ∈ sorted := by
    clear member
    induction members with
    | nil => exact fun _ inSorted => Or.inr inSorted
    | cons first rest inductionHypothesis =>
        intro sorted inFolded
        rcases inductionHypothesis _ inFolded with inRest | inInserted
        · exact Or.inl (List.mem_cons_of_mem _ inRest)
        · rcases mem_insertMember inInserted with rfl | inSorted
          · exact Or.inl List.mem_cons_self
          · exact Or.inr inSorted
  simpa using folded [] member

end Sitewright.Json

namespace Sitewright.Template.DataRef

open Text

/-- A reference whose action writes its data: the name is free of braces and does not
begin with a keyword. -/
structure Plain (source : DataRef) : Prop where
  free : BraceFree source.name
  kind : ActionKind.ofPipeline source.name.toList = .plain

theorem plain_of_no_keyword {source : DataRef} (free : BraceFree source.name)
    (start : ∀ keyword ∈ keywords, ¬ keyword <+: source.name.toList.dropWhile Char.isWhitespace) :
    source.Plain :=
  ⟨free, ActionKind.ofPipeline_eq_plain start⟩

theorem Plain.inert {source : DataRef} (plain : source.Plain) : Inert source.interpolation :=
  inert_action plain.free plain.kind

end Sitewright.Template.DataRef

namespace Sitewright.Markup

open Text Template

/-! ## Attributes and elements -/

/-- A value whose text is inert, if it has one. -/
def Value.Inert (value : Value) : Prop :=
  ∀ text ∈ value.text?, Template.Inert text

namespace Value

theorem inert_null : Inert .null := by
  simp [Inert, text?]

theorem inert_bool (value : Bool) : Inert (.bool value) := by
  intro text member
  cases value with
  | true =>
      obtain rfl : "" = text := Option.some.inj member
      exact inert_of_braceFree braceFree_empty
  | false => cases member

theorem inert_whole (value : Int) : Inert (.whole value) := by
  intro text member
  rw [← Option.mem_some.mp member]
  exact inert_of_braceFree (braceFree_int value)

theorem inert_float (value : Number.Binary64) : Inert (.float value) := by
  intro text member
  rw [← Option.mem_some.mp member]
  exact inert_of_braceFree value.braceFree_text_plain

theorem inert_ref {source : DataRef} (plain : source.Plain) : Inert (.ref source) := by
  intro text member
  rw [← Option.mem_some.mp member]
  exact plain.inert

theorem inert_string {text : String} (inert : Template.Inert text) : Inert (.string text) := by
  intro written member
  simp only [text?] at member
  split at member
  · cases member
  · rw [← Option.mem_some.mp member]
    exact inert

theorem inert_ofString? {text : Option String} (inert : ∀ given ∈ text, Template.Inert given) :
    Inert (ofString? text) := by
  cases text with
  | none => exact inert_null
  | some given => exact inert_string (inert given rfl)

end Value

structure Attribute.Inert (entry : Attribute) : Prop where
  name : Template.Inert entry.name
  value : entry.value.Inert

namespace Attributes

/-- All names and values are inert. -/
def Inert (attributes : Attributes) : Prop :=
  ∀ entry ∈ attributes, entry.Inert

theorem inert_nil : Inert [] := by
  simp [Inert]

theorem Inert.cons {entry : Attribute} {attributes : Attributes} (entryInert : entry.Inert)
    (inert : Inert attributes) : Inert (entry :: attributes) := by
  intro other member
  rcases List.mem_cons.mp member with rfl | inRest
  · exact entryInert
  · exact inert other inRest

theorem Inert.entry {name : String} {value : Value} {attributes : Attributes}
    (nameFree : BraceFree name) (valueInert : value.Inert) (inert : Inert attributes) :
    Inert (⟨name, value⟩ :: attributes) :=
  inert.cons ⟨inert_of_braceFree nameFree, valueInert⟩

theorem Inert.fixed {name text : String} {attributes : Attributes} (nameFree : BraceFree name)
    (textFree : BraceFree text) (inert : Inert attributes) :
    Inert (⟨name, .string text⟩ :: attributes) :=
  inert.entry nameFree (Value.inert_string (inert_of_braceFree textFree))

theorem Inert.set {name : String} {value : Value} {attributes : Attributes}
    (inert : Inert attributes) (nameInert : Template.Inert name) (valueInert : value.Inert) :
    Inert (attributes.set name value) := by
  induction attributes with
  | nil => exact inert_nil.cons ⟨nameInert, valueInert⟩
  | cons head tail inductionHypothesis =>
      have headInert := inert head List.mem_cons_self
      have tailInert : Inert tail := fun entry member => inert entry (List.mem_cons_of_mem _ member)
      unfold Attributes.set
      split
      · exact .cons ⟨nameInert, valueInert⟩ tailInert
      · exact .cons headInert (inductionHypothesis tailInert)

theorem Inert.setAll {settings : List Attribute} {attributes : Attributes}
    (inert : Inert attributes) (settingsInert : Inert settings) :
    Inert (attributes.setAll settings) := by
  unfold Attributes.setAll
  induction settings generalizing attributes with
  | nil => exact inert
  | cons first rest inductionHypothesis =>
      have firstInert := settingsInert first List.mem_cons_self
      have restInert : Inert rest := fun entry member =>
        settingsInert entry (List.mem_cons_of_mem _ member)
      exact inductionHypothesis (inert.set firstInert.name firstInert.value) restInert

theorem Inert.get? {name : String} {attributes : Attributes} (inert : Inert attributes) :
    ∀ value ∈ attributes.get? name, value.Inert := by
  intro value member
  obtain ⟨entry, found, rfl⟩ := Option.map_eq_some_iff.mp member
  exact (inert entry (List.mem_of_find?_eq_some found)).value

end Attributes

theorem Attribute.Inert.text? {entry : Attribute} (inert : entry.Inert) :
    ∀ text ∈ entry.text?, Template.Inert text := by
  have start : Template.Inert "=\"" := inert_of_braceFree (by decide)
  have quote : Template.Inert "\"" := inert_of_braceFree (by decide)
  intro text member
  obtain ⟨value, found, rfl⟩ := Option.map_eq_some_iff.mp member
  split
  · exact inert.name
  · have valueInert := inert_escapeAttribute (inert.value value found)
    exact ((inert.name.append start).append valueInert).append quote

theorem Attributes.Inert.text {attributes : Attributes} (inert : Inert attributes) :
    Template.Inert attributes.text := by
  refine Template.Inert.joinWith (inert_of_braceFree braceFree_space) ?_
  intro text member
  obtain ⟨entry, inAttributes, written⟩ := List.mem_filterMap.mp member
  exact (inert entry inAttributes).text? text written

/-- The start tag of an element without its end. -/
theorem inert_startTag {tag : String} {attributes : Attributes} (tagInert : Inert tag)
    (inert : attributes.Inert) :
    Inert ("<" ++ tag ++ if attributes.text.isEmpty then "" else " " ++ attributes.text) := by
  have less : Inert "<" := inert_of_braceFree (by decide)
  have space := inert_of_braceFree braceFree_space
  have written : Inert (if attributes.text.isEmpty then "" else " " ++ attributes.text) := by
    split
    · exact inert_of_braceFree braceFree_empty
    · exact space.append inert.text
  exact (less.append tagInert).append written

/-- The content of an element stands behind its start tag. -/
theorem elementText_around {tag : String} {attributes : Attributes} (tagInert : Inert tag)
    (inert : attributes.Inert) (content : String) :
    ∃ front back, elementText tag attributes content = front ++ content ++ back ∧
      Balanced front ∧ Balanced back := by
  have greater : Inert ">" := inert_of_braceFree (by decide)
  have ending : Inert "</" := inert_of_braceFree (by decide)
  have void : Inert " />" := inert_of_braceFree (by decide)
  have start := inert_startTag tagInert inert
  unfold elementText
  dsimp only
  split
  · next selfClosing =>
    have empty : content = "" := by
      rw [Bool.and_eq_true] at selfClosing
      simpa using selfClosing.1
    refine ⟨_, "", ?_, (start.append void).balanced,
      (inert_of_braceFree braceFree_empty).balanced⟩
    rw [empty, String.append_empty, String.append_empty]
  · refine ⟨_, "</" ++ tag ++ ">", ?_, (start.append greater).balanced,
      ((ending.append tagInert).append greater).balanced⟩
    simp only [String.append_assoc]

/-- An element keeps the blocks of its content. -/
theorem balanced_elementText {tag content : String} {attributes : Attributes}
    (tagInert : Inert tag) (inert : attributes.Inert) (balanced : Balanced content) :
    Balanced (elementText tag attributes content) := by
  obtain ⟨front, back, shape, frontBalanced, backBalanced⟩ :=
    elementText_around tagInert inert content
  rw [shape]
  exact (frontBalanced.append balanced).append backBalanced

end Sitewright.Markup

import Sitewright.Proofs.Markup.Inert
import Sitewright.Proofs.Template.Scope

/-!
Contract: markup written around texts that speak only of given variables.

Owns:
- rewritings of single characters that keep variables, among them the escapes of
  markup and of quoted strings;
- JSON texts, attributes, and elements whose content keeps its loops.
-/

namespace Sitewright.Template

open Text

/-! ## Rewriting characters -/

/-- A rewriting that keeps actions and writes no new dollar signs. -/
structure KeepsVariables (rewrite : Char → List Char) : Prop extends KeepsActions rewrite where
  sign : ∀ character, rewrite character = [character] ∨ '$' ∉ rewrite character

namespace KeepsVariables

variable {rewrite : Char → List Char} (keeps : KeepsVariables rewrite)

include keeps

theorem dollarWords_flatMap (pipeline : List Char) :
    ∀ name ∈ dollarWords (pipeline.flatMap rewrite), name ∈ dollarWords pipeline := by
  intro name member
  induction pipeline with
  | nil => exact member
  | cons first rest inductionHypothesis =>
      rw [List.flatMap_cons] at member
      rcases keeps.sign first with same | noSign
      · rw [same, List.singleton_append] at member
        by_cases sign : first = '$'
        · rw [sign, dollarWords, keeps.takeWhile_isWordChar] at member
          rw [sign, dollarWords]
          rcases List.mem_cons.mp member with here | later
          · exact List.mem_cons.mpr (Or.inl here)
          · exact List.mem_cons_of_mem _ (inductionHypothesis later)
        · rw [dollarWords_cons_of_ne sign] at member ⊢
          exact inductionHypothesis member
      · rw [dollarWords_append_of_noSign noSign] at member
        have inRest := inductionHypothesis member
        by_cases sign : first = '$'
        · rw [sign, dollarWords]
          exact List.mem_cons_of_mem _ inRest
        · rw [dollarWords_cons_of_ne sign]
          exact inRest

theorem loopVariables_flatMap (pipeline : List Char) :
    ∀ name ∈ loopVariables (pipeline.flatMap rewrite), name ∈ loopVariables pipeline := by
  intro name member
  obtain ⟨isVariable, isOfLoop⟩ := List.mem_filter.mp member
  exact List.mem_filter.mpr ⟨keeps.dollarWords_flatMap pipeline name isVariable, isOfLoop⟩

theorem spells_flatMap {characters : List Char} {pipelines : List (List Char)}
    (spells : Spells characters pipelines) :
    Spells (characters.flatMap rewrite) (pipelines.map fun pipeline => pipeline.flatMap rewrite) := by
  induction spells with
  | nil => exact .nil
  | @character first rest pipelines different _ inductionHypothesis =>
      rw [List.flatMap_cons]
      rcases keeps.other first with same | ⟨-, head, tail, changed, free, -⟩
      · rw [same]
        exact .character different inductionHypothesis
      · rw [changed]
        exact (Spells.of_free free).append inductionHypothesis
  | @brace second rest pipelines different _ inductionHypothesis =>
      rw [List.flatMap_cons, List.flatMap_cons, keeps.opening, List.singleton_append]
      rcases keeps.other second with same | ⟨-, head, tail, changed, free, -⟩
      · rw [same]
        exact .brace different inductionHypothesis
      · rw [changed]
        have tailFree : ∀ written ∈ tail, ¬ IsBrace written :=
          fun written member => free written (List.mem_cons_of_mem _ member)
        have headDifferent : head ≠ '\x7b' :=
          fun same => free head List.mem_cons_self (Or.inl same)
        exact .brace headDifferent ((Spells.of_free tailFree).append inductionHypothesis)
  | @action pipeline rest pipelines free _ inductionHypothesis =>
      have written := Spells.action (keeps.not_isBrace free) inductionHypothesis
      simpa [keeps.opening, keeps.closing] using written

theorem speaks_ofList {names : Names} {text : String} (speaks : Speaks names text) :
    Speaks names (String.ofList (text.toList.flatMap rewrite)) := by
  obtain ⟨pipelines, spells, plain⟩ := speaks
  refine ⟨pipelines.map fun pipeline => pipeline.flatMap rewrite, ?_, ?_⟩
  · rw [String.toList_ofList]
    exact keeps.spells_flatMap spells
  · intro pipeline member
    obtain ⟨original, inPipelines, rfl⟩ := List.mem_map.mp member
    obtain ⟨kind, uses⟩ := plain original inPipelines
    exact ⟨keeps.ofPipeline_flatMap kind,
      fun name isUsed => uses name (keeps.loopVariables_flatMap original name isUsed)⟩

end KeepsVariables

/-- Writing one character as something that begins neither a word nor white space, and
has no dollar sign. -/
theorem keepsVariables_substitute {replacement : String} {target head : Char} {tail : List Char}
    (written : replacement.toList = head :: tail) (noBrace : ¬ IsBrace target)
    (noWord : isWordChar target = false) (free : BraceFree replacement)
    (headNoBlank : head.isWhitespace = false) (headNoWord : isWordChar head = false)
    (noSign : '$' ∉ replacement.toList) :
    KeepsVariables fun character => if character = target then replacement.toList else [character] where
  opening := if_neg fun same => noBrace (Or.inl same.symm)
  closing := if_neg fun same => noBrace (Or.inr same.symm)
  other := by
    intro character
    by_cases same : character = target
    · right
      rw [if_pos same, same]
      refine ⟨noWord, head, tail, written, ?_, headNoBlank, headNoWord⟩
      rw [← written]
      exact free
    · left
      rw [if_neg same]
  sign := by
    intro character
    by_cases same : character = target
    · right
      rwa [if_pos same]
    · left
      rw [if_neg same]

theorem Speaks.substitute {names : Names} {text replacement : String} (speaks : Speaks names text)
    {target head : Char} {tail : List Char} (written : replacement.toList = head :: tail)
    (noBrace : ¬ IsBrace target) (noWord : isWordChar target = false)
    (free : BraceFree replacement) (headNoBlank : head.isWhitespace = false)
    (headNoWord : isWordChar head = false) (noSign : '$' ∉ replacement.toList) :
    Speaks names (substitute target replacement text) :=
  (keepsVariables_substitute written noBrace noWord free headNoBlank headNoWord
    noSign).speaks_ofList speaks

end Sitewright.Template

namespace Sitewright.Markup

open Text Template

variable {names : Names}

/-! ## Escapes -/

theorem speaks_escapeBrackets {text : String} (speaks : Speaks names text) :
    Speaks names (escapeBrackets text) := by
  have less : Speaks names (substitute '<' "&lt;" text) :=
    speaks.substitute rfl (by decide) (by decide) (by decide) (by decide) (by decide) (by decide)
  have greater : Speaks names (substitute '>' "&gt;" (substitute '<' "&lt;" text)) :=
    less.substitute rfl (by decide) (by decide) (by decide) (by decide) (by decide) (by decide)
  exact greater.substitute rfl (by decide) (by decide) (by decide) (by decide) (by decide)
    (by decide)

theorem speaks_escapeText {text : String} (speaks : Speaks names text) :
    Speaks names (escapeText text) :=
  speaks_escapeBrackets
    (speaks.substitute rfl (by decide) (by decide) (by decide) (by decide) (by decide) (by decide))

theorem speaks_escapeAttribute {value : String} (speaks : Speaks names value) :
    Speaks names (escapeAttribute value) :=
  speaks_escapeBrackets
    (speaks.substitute rfl (by decide) (by decide) (by decide) (by decide) (by decide) (by decide))

end Sitewright.Markup

namespace Sitewright.Json

open Text Template

variable {names : Names}

/-! ## JSON -/

theorem hexDigit_ne_sign (value : Nat) : hexDigit value ≠ '$' := by
  unfold hexDigit
  fun_cases Nat.digitChar (value % 16)
  all_goals decide

theorem keepsVariables_quotedChar : KeepsVariables quotedChar where
  toKeepsActions := keepsActions_quotedChar
  sign character := by
    fun_cases quotedChar character with
    | case1 | case2 | case3 | case4 | case5 | case6 | case7 => exact Or.inr (by decide)
    | case8 =>
        right
        simp [Ne.symm (hexDigit_ne_sign _)]
    | case9 => exact Or.inl rfl

theorem speaks_quoted {text : String} (speaks : Speaks names text) : Speaks names (quoted text) := by
  have quote : Speaks names "\"" := .of_braceFree (by decide)
  have inside := (quote.append (keepsVariables_quotedChar.speaks_ofList speaks)).append quote
  have same : quoted text =
      "\"" ++ String.ofList (text.toList.flatMap quotedChar) ++ "\"" := by
    rw [← String.toList_inj]
    simp [quoted]
  rw [same]
  exact inside

theorem speaks_itemsText {items : List Json} (speaks : ∀ item ∈ items, Speaks names item.text) :
    Speaks names (itemsText items) := by
  have comma : Speaks names "," := .of_braceFree (by decide)
  induction items with
  | nil => exact .of_braceFree braceFree_empty
  | cons first rest inductionHypothesis =>
      have firstSpeaks := speaks first List.mem_cons_self
      have restSpeaks := inductionHypothesis fun item member =>
        speaks item (List.mem_cons_of_mem _ member)
      cases rest with
      | nil => exact firstSpeaks
      | cons next others => exact (firstSpeaks.append comma).append restSpeaks

theorem speaks_membersText {members : List (String × Json)}
    (speaks : ∀ entry ∈ members, Speaks names entry.1 ∧ Speaks names entry.2.text) :
    Speaks names (membersText members) := by
  have comma : Speaks names "," := .of_braceFree (by decide)
  have colon : Speaks names ":" := .of_braceFree (by decide)
  induction members with
  | nil => exact .of_braceFree braceFree_empty
  | cons first rest inductionHypothesis =>
      obtain ⟨key, value⟩ := speaks first List.mem_cons_self
      have firstSpeaks := ((speaks_quoted key).append colon).append value
      have restSpeaks := inductionHypothesis fun entry member =>
        speaks entry (List.mem_cons_of_mem _ member)
      cases rest with
      | nil => exact firstSpeaks
      | cons next others => exact (firstSpeaks.append comma).append restSpeaks

/-- Braces around a text that does not begin with one open no action. -/
theorem speaks_braced {content : String} (speaks : Speaks names content)
    (head : content.toList.head? ≠ some '\x7b') : Speaks names ("\x7b" ++ content ++ "\x7d") := by
  obtain ⟨pipelines, spells, plain⟩ := speaks
  have closing : Spells ['\x7d'] [] := .character (by decide) .nil
  refine ⟨pipelines, ?_, plain⟩
  simp only [String.toList_append]
  generalize content.toList = characters at spells head
  -- The opening brace pairs with the first character, which is no brace by `head`.
  cases spells with
  | nil => exact .brace (by decide) .nil
  | character different after =>
      simpa using Spells.brace different (after.append closing)
  | brace => simp at head
  | action => simp at head

theorem speaks_object {members : List (String × Json)}
    (speaks : ∀ entry ∈ members, Speaks names entry.1 ∧ Speaks names entry.2.text) :
    Speaks names (Json.object members).text :=
  speaks_braced (speaks_membersText speaks) (head_membersText members)

theorem speaks_stringsText {values : List String} (speaks : ∀ value ∈ values, Speaks names value) :
    Speaks names (stringsText values) := by
  have opening : Speaks names "[" := .of_braceFree (by decide)
  have closing : Speaks names "]" := .of_braceFree (by decide)
  have items : Speaks names (itemsText (values.map Json.string)) := by
    apply speaks_itemsText
    intro item member
    obtain ⟨value, inValues, rfl⟩ := List.mem_map.mp member
    exact speaks_quoted (speaks value inValues)
  exact (opening.append items).append closing

end Sitewright.Json

namespace Sitewright.Markup

open Text Template

/-! ## Attributes and elements -/

/-- A value whose text speaks only of the given variables, if it has one. -/
def Value.Speaks (names : Names) (value : Value) : Prop :=
  ∀ text ∈ value.text?, Template.Speaks names text

namespace Value

variable {names : Names}

theorem Speaks.mono {more : Names} {value : Value} (included : ∀ name, names name → more name)
    (speaks : value.Speaks names) : value.Speaks more :=
  fun text member => (speaks text member).mono included

theorem speaks_null : Speaks names .null := by
  simp [Speaks, text?]

theorem speaks_string {text : String} (speaks : Template.Speaks names text) :
    Speaks names (.string text) := by
  intro written member
  simp only [text?] at member
  split at member
  · cases member
  · rw [← Option.mem_some.mp member]
    exact speaks

theorem speaks_ref {source : DataRef} (plain : source.Plain) (uses : UsesOnly names source.name) :
    Speaks names (.ref source) := by
  intro text member
  rw [← Option.mem_some.mp member]
  exact .of_action plain.free plain.kind uses

theorem speaks_ofString? {text : Option String}
    (speaks : ∀ given ∈ text, Template.Speaks names given) : Speaks names (ofString? text) := by
  cases text with
  | none => exact speaks_null
  | some given => exact speaks_string (speaks given rfl)

end Value

structure Attribute.Speaks (names : Names) (entry : Attribute) : Prop where
  name : Template.Speaks names entry.name
  value : entry.value.Speaks names

namespace Attributes

/-- All names and values speak only of the given variables. -/
def Speaks (names : Names) (attributes : Attributes) : Prop :=
  ∀ entry ∈ attributes, entry.Speaks names

variable {names : Names} {attributes : Attributes}

theorem Speaks.mono {more : Names} (included : ∀ name, names name → more name)
    (speaks : attributes.Speaks names) : attributes.Speaks more :=
  fun entry member =>
    ⟨(speaks entry member).name.mono included, (speaks entry member).value.mono included⟩

theorem speaks_nil : Speaks names [] := by
  simp [Speaks]

theorem Speaks.cons {entry : Attribute} (entrySpeaks : entry.Speaks names)
    (speaks : attributes.Speaks names) : Speaks names (entry :: attributes) := by
  intro other member
  rcases List.mem_cons.mp member with rfl | inRest
  · exact entrySpeaks
  · exact speaks other inRest

theorem Speaks.entry {name : String} {value : Value} (nameFree : BraceFree name)
    (valueSpeaks : value.Speaks names) (speaks : attributes.Speaks names) :
    Speaks names (⟨name, value⟩ :: attributes) :=
  speaks.cons ⟨.of_braceFree nameFree, valueSpeaks⟩

theorem Speaks.fixed {name text : String} (nameFree : BraceFree name) (textFree : BraceFree text)
    (speaks : attributes.Speaks names) : Speaks names (⟨name, .string text⟩ :: attributes) :=
  speaks.entry nameFree (Value.speaks_string (.of_braceFree textFree))

theorem Speaks.set {name : String} {value : Value} (speaks : attributes.Speaks names)
    (nameSpeaks : Template.Speaks names name) (valueSpeaks : value.Speaks names) :
    Speaks names (attributes.set name value) := by
  induction attributes with
  | nil => exact speaks_nil.cons ⟨nameSpeaks, valueSpeaks⟩
  | cons head tail inductionHypothesis =>
      have headSpeaks := speaks head List.mem_cons_self
      have tailSpeaks : Speaks names tail :=
        fun entry member => speaks entry (List.mem_cons_of_mem _ member)
      unfold Attributes.set
      split
      · exact .cons ⟨nameSpeaks, valueSpeaks⟩ tailSpeaks
      · exact .cons headSpeaks (inductionHypothesis tailSpeaks)

theorem Speaks.setAll {settings : List Attribute} (speaks : attributes.Speaks names)
    (settingsSpeak : Speaks names settings) : Speaks names (attributes.setAll settings) := by
  unfold Attributes.setAll
  induction settings generalizing attributes with
  | nil => exact speaks
  | cons first rest inductionHypothesis =>
      have firstSpeaks := settingsSpeak first List.mem_cons_self
      have restSpeaks : Speaks names rest :=
        fun entry member => settingsSpeak entry (List.mem_cons_of_mem _ member)
      exact inductionHypothesis (speaks.set firstSpeaks.name firstSpeaks.value) restSpeaks

theorem Speaks.get? {name : String} (speaks : attributes.Speaks names) :
    ∀ value ∈ attributes.get? name, value.Speaks names := by
  intro value member
  obtain ⟨entry, found, rfl⟩ := Option.map_eq_some_iff.mp member
  exact (speaks entry (List.mem_of_find?_eq_some found)).value

end Attributes

variable {names : Names}

theorem Attribute.Speaks.text? {entry : Attribute} (speaks : entry.Speaks names) :
    ∀ text ∈ entry.text?, Template.Speaks names text := by
  have start : Template.Speaks names "=\"" := .of_braceFree (by decide)
  have quote : Template.Speaks names "\"" := .of_braceFree (by decide)
  intro text member
  obtain ⟨value, found, rfl⟩ := Option.map_eq_some_iff.mp member
  split
  · exact speaks.name
  · have valueSpeaks := speaks_escapeAttribute (speaks.value value found)
    exact ((speaks.name.append start).append valueSpeaks).append quote

theorem Attributes.Speaks.text {attributes : Attributes} (speaks : attributes.Speaks names) :
    Template.Speaks names attributes.text := by
  refine .joinWith (.of_braceFree braceFree_space) ?_
  intro text member
  obtain ⟨entry, inAttributes, written⟩ := List.mem_filterMap.mp member
  exact (speaks entry inAttributes).text? text written

/-- An element keeps the loops of its content. -/
theorem enclosed_elementText {first last : Nat} {tag content : String} {attributes : Attributes}
    (tagSpeaks : Speaks names tag) (speaks : attributes.Speaks names)
    (enclosed : Enclosed names first last content) :
    Enclosed names first last (elementText tag attributes content) := by
  have less : Speaks names "<" := .of_braceFree (by decide)
  have greater : Speaks names ">" := .of_braceFree (by decide)
  have ending : Speaks names "</" := .of_braceFree (by decide)
  have void : Speaks names " />" := .of_braceFree (by decide)
  have space : Speaks names " " := .of_braceFree braceFree_space
  have written : Speaks names (if attributes.text.isEmpty then "" else " " ++ attributes.text) := by
    split
    · exact .of_braceFree braceFree_empty
    · exact space.append speaks.text
  have start := (less.append tagSpeaks).append written
  unfold elementText
  dsimp only
  split
  · exact (start.append void).enclosed first last
  · have whole := enclosed.between (start.append greater) ((ending.append tagSpeaks).append greater)
    simpa [String.append_assoc] using whole

end Sitewright.Markup

import Sitewright.Proofs.Digest.Identity
import Sitewright.Render.Ledger
import Sitewright.Template.Expr

/-!
Contract: texts without curly braces.

Owns:
- `BraceFree`, kept by joining, cutting and substituting texts;
- the texts that the library makes of numbers, digests and resource names;
- conditions whose literals and references are free of braces.

Does not own: the braces around actions.
-/

namespace Sitewright.Text

def IsBrace (character : Char) : Prop :=
  character = '\x7b' ∨ character = '\x7d'

instance : DecidablePred IsBrace := fun character =>
  inferInstanceAs (Decidable (character = '\x7b' ∨ character = '\x7d'))

/-- A text in which no curly brace occurs. -/
def BraceFree (text : String) : Prop :=
  ∀ character ∈ text.toList, ¬ IsBrace character

instance : DecidablePred BraceFree := fun text =>
  List.decidableBAll (fun character => ¬ IsBrace character) text.toList

/-! ## Joining, cutting and substituting -/

theorem braceFree_empty : BraceFree "" := by decide

theorem braceFree_slash : BraceFree "/" := by decide

theorem braceFree_space : BraceFree " " := by decide

theorem braceFree_opening : BraceFree "(" := by decide

theorem braceFree_closing : BraceFree ")" := by decide

theorem BraceFree.append {left right : String} (leftFree : BraceFree left)
    (rightFree : BraceFree right) : BraceFree (left ++ right) := by
  intro character member
  rw [String.toList_append] at member
  rcases List.mem_append.mp member with inLeft | inRight
  · exact leftFree character inLeft
  · exact rightFree character inRight

/-- Taking characters away adds no brace. -/
theorem BraceFree.ofList_of_subset {text : String} {characters : List Char}
    (free : BraceFree text) (subset : characters ⊆ text.toList) :
    BraceFree (String.ofList characters) := by
  intro character member
  rw [String.toList_ofList] at member
  exact free character (subset member)

theorem BraceFree.joinWith {separator : String} {texts : List String}
    (separatorFree : BraceFree separator) (free : ∀ text ∈ texts, BraceFree text) :
    BraceFree (Text.joinWith separator texts) := by
  fun_induction Text.joinWith separator texts with
  | case1 => exact braceFree_empty
  | case2 last => exact free last (by simp)
  | case3 head next rest inductionHypothesis =>
      have headFree : BraceFree head := free head (by simp)
      have restFree := inductionHypothesis fun text member => free text (by simp_all)
      exact (headFree.append separatorFree).append restFree

/-- The stretches between separators consist of characters of the whole. -/
theorem subset_of_mem_runs {separator : Char} {characters run : List Char}
    (member : run ∈ runs separator characters) : run ⊆ characters := by
  induction characters generalizing run with
  | nil => simp_all [runs]
  | cons head tail inductionHypothesis =>
      simp only [runs] at member
      split at member
      · rcases List.mem_cons.mp member with isEmpty | inTail
        · simp [isEmpty]
        · exact List.subset_cons_of_subset _ (inductionHypothesis inTail)
      · split at member
        · next none => exact absurd none (runs_ne_nil separator tail)
        · next first rest equal =>
          rcases List.mem_cons.mp member with isFirst | inRest
          · rw [isFirst]
            exact List.cons_subset_cons head (inductionHypothesis (by simp [equal]))
          · exact List.subset_cons_of_subset _ (inductionHypothesis (by simp [equal, inRest]))

theorem BraceFree.of_mem_pieces {separator : Char} {text piece : String} (free : BraceFree text)
    (member : piece ∈ pieces separator text) : BraceFree piece := by
  obtain ⟨run, inRuns, rfl⟩ := List.mem_map.mp member
  exact free.ofList_of_subset (subset_of_mem_runs (List.mem_filter.mp inRuns).1)

theorem dropEdge_subset (edge : Char) (characters : List Char) :
    dropEdge edge characters ⊆ characters :=
  List.dropWhile_subset _

theorem BraceFree.trimStart {text : String} (free : BraceFree text) (edge : Char) :
    BraceFree (trimStart edge text) :=
  free.ofList_of_subset (dropEdge_subset edge _)

theorem BraceFree.trimEnd {text : String} (free : BraceFree text) (edge : Char) :
    BraceFree (trimEnd edge text) := by
  apply free.ofList_of_subset
  intro character member
  have inReverse := dropEdge_subset edge _ (List.mem_reverse.mp member)
  exact List.mem_reverse.mp inReverse

theorem BraceFree.trim {text : String} (free : BraceFree text) (edge : Char) :
    BraceFree (trim edge text) :=
  (free.trimStart edge).trimEnd edge

theorem BraceFree.substitute {text replacement : String} (free : BraceFree text)
    (replacementFree : BraceFree replacement) (target : Char) :
    BraceFree (substitute target replacement text) := by
  intro character member
  simp only [Text.substitute, String.toList_ofList] at member
  obtain ⟨original, inText, written⟩ := List.mem_flatMap.mp member
  split at written
  · exact replacementFree character written
  · rw [List.mem_singleton.mp written]
    exact free original inText

/-! ## Numbers -/

theorem not_isBrace_of_isDigit {character : Char} (digit : character.isDigit = true) :
    ¬ IsBrace character := by
  rintro (rfl | rfl) <;> exact absurd digit (by decide)

theorem braceFree_nat (number : Nat) : BraceFree (toString number) := by
  intro character member
  have inDigits : character ∈ Nat.toDigits 10 number := by
    rwa [← Nat.toList_repr]
  exact not_isBrace_of_isDigit (Nat.isDigit_of_mem_toDigits (by decide) (by decide) inDigits)

theorem braceFree_int (number : Int) : BraceFree (toString number) := by
  cases number with
  | ofNat magnitude => exact braceFree_nat magnitude
  | negSucc magnitude =>
      have minus : BraceFree "-" := by decide
      exact minus.append (braceFree_nat (magnitude + 1))

theorem not_isBrace_digitChar (value : Nat) : ¬ IsBrace (Nat.digitChar value) := by
  fun_cases Nat.digitChar value
  all_goals decide

end Sitewright.Text

namespace Sitewright.Number

open Text

/-- Whether a floating-point number without an exponent may be written with the
character. -/
def IsNumeral (character : Char) : Prop :=
  character.isDigit = true ∨ character ∈ ['-', '.', 'i', 'n', 'f', 'N', 'a']

instance : DecidablePred IsNumeral := fun character =>
  inferInstanceAs
    (Decidable (character.isDigit = true ∨ character ∈ ['-', '.', 'i', 'n', 'f', 'N', 'a']))

/-- A text is checked character by character. -/
theorem isNumeral_of_all {characters : List Char}
    (checked : characters.all (fun character => decide (IsNumeral character)) = true) :
    ∀ character ∈ characters, IsNumeral character := by
  simpa using checked

theorem not_isBrace_of_isNumeral {character : Char} (numeral : IsNumeral character) :
    ¬ IsBrace character := by
  rintro (rfl | rfl) <;> exact absurd numeral (by decide)

theorem isDigit_of_mem_significantDigits {value : Nat} {digit : Char}
    (member : digit ∈ significantDigits value) : digit.isDigit = true := by
  have inReverse := List.dropWhile_subset _ (List.mem_reverse.mp member)
  have inDigits := List.mem_reverse.mp inReverse
  exact Nat.isDigit_of_mem_toDigits (by decide) (by decide) inDigits

theorem isDigit_of_mem_shortest {tie : Tie} {significand : Nat} {exponent : Int}
    {digit : Char} (member : digit ∈ (shortest tie significand exponent).digits) :
    digit.isDigit = true := by
  unfold shortest at member
  dsimp only at member
  split at member
  · exact isDigit_of_mem_significantDigits member
  · cases member

theorem isNumeral_of_mem_shortest {tie : Tie} {significand : Nat} {exponent : Int}
    {digit : Char} (member : digit ∈ (shortest tie significand exponent).digits) :
    IsNumeral digit :=
  Or.inl (isDigit_of_mem_shortest member)

/-- A decimal without an exponent is made of its digits, zeros and a point. -/
theorem isNumeral_of_mem_positional {decimal : Decimal} {character : Char}
    (digits : ∀ digit ∈ decimal.digits, IsNumeral digit)
    (member : character ∈ decimal.positional false) : IsNumeral character := by
  have zero : IsNumeral '0' := by decide
  have point : IsNumeral '.' := by decide
  have zerosNumeral : ∀ count, character ∈ zeros count → IsNumeral character := by
    intro count inZeros
    rw [List.eq_of_mem_replicate inZeros]
    exact zero
  unfold Decimal.positional at member
  dsimp only at member
  split at member
  · simp only [List.mem_append, List.mem_cons, List.not_mem_nil, or_false] at member
    rcases member with ((rfl | rfl) | inZeros) | inDigits
    · exact zero
    · exact point
    · exact zerosNumeral _ inZeros
    · exact digits character inDigits
  · split at member
    · simp only [List.mem_append, List.mem_cons, List.not_mem_nil, or_false] at member
      rcases member with (inFront | rfl) | behind
      · exact digits character (List.mem_of_mem_take inFront)
      · exact point
      · exact digits character (List.mem_of_mem_drop behind)
    · simp only [List.mem_append, Bool.false_eq_true, if_false, List.not_mem_nil,
        or_false] at member
      rcases member with inDigits | inZeros
      · exact digits character inDigits
      · exact zerosNumeral _ inZeros

theorem Binary64.isNumeral_of_mem_text_plain (value : Binary64) :
    ∀ character ∈ (value.text .plain).toList, IsNumeral character := by
  cases value with
  | nan => exact isNumeral_of_all (by decide)
  | infinite negative => cases negative <;> exact isNumeral_of_all (by decide)
  | finite negative significand exponent =>
      intro character member
      simp only [Binary64.text, String.toList_ofList, FloatNotation.plain, Decimal.written,
        Bool.false_eq_true, if_false] at member
      rcases List.mem_append.mp member with inSign | inMagnitude
      · split at inSign
        · rw [List.mem_singleton.mp inSign]
          decide
        · cases inSign
      · split at inMagnitude
        · rw [List.mem_singleton.mp inMagnitude]
          decide
        · exact isNumeral_of_mem_positional (fun _ => isNumeral_of_mem_shortest) inMagnitude

/-- Numbers inside templates and attributes are free of braces. -/
theorem Binary64.braceFree_text_plain (value : Binary64) : BraceFree (value.text .plain) :=
  fun character member =>
    not_isBrace_of_isNumeral (value.isNumeral_of_mem_text_plain character member)

end Sitewright.Number

namespace Sitewright

open Text

/-! ## Names that the library makes -/

theorem Digest.braceFree_fingerprint (name contents : String) :
    BraceFree (Digest.fingerprint name contents) := by
  have digits : BraceFree "0123456789abcdef" := by decide
  exact fun character member => digits character (Digest.mem_fingerprint member)

theorem not_isBrace_of_isAsciiLetter {character : Char} (letter : isAsciiLetter character = true) :
    ¬ IsBrace character := by
  rintro (rfl | rfl) <;> exact absurd letter (by decide)

theorem code_of_isBrace {character : Char} (brace : IsBrace character) :
    122 < character.val.toNat := by
  rcases brace with rfl | rfl <;> decide

/-- Only small letters change, and to capitals. -/
theorem not_isBrace_toUpper {character : Char} (free : ¬ IsBrace character) :
    ¬ IsBrace character.toUpper := by
  unfold Char.toUpper
  split
  · next lower =>
    intro brace
    have large := code_of_isBrace brace
    rw [UInt32.toNat_add] at large
    have step : ('A'.val - 'a'.val).toNat = 4294967264 := by decide
    have low : 97 ≤ character.val.toNat := UInt32.le_iff_toNat_le.mp lower.1
    have high : character.val.toNat ≤ 122 := UInt32.le_iff_toNat_le.mp lower.2
    omega
  · exact free

theorem braceFree_resourceKey (resource : String) : BraceFree (resourceKey resource) := by
  unfold resourceKey
  have letters : ∀ character ∈ resource.toList.filter isAsciiLetter, ¬ IsBrace character :=
    fun character member => not_isBrace_of_isAsciiLetter (List.mem_filter.mp member).2
  split
  · exact braceFree_empty
  · next first rest equal =>
    rw [equal] at letters
    intro character member
    rw [String.toList_ofList] at member
    rcases List.mem_cons.mp member with rfl | inRest
    · exact not_isBrace_toUpper (letters first List.mem_cons_self)
    · exact letters character (List.mem_cons_of_mem _ inRest)

/-! ## Loops, forms, addresses -/

namespace Numbering

theorem braceFree_elementName (numbering : Numbering) : BraceFree numbering.elementName := by
  have start : BraceFree "$_i" := by decide
  exact start.append (braceFree_nat _)

theorem braceFree_positionName (numbering : Numbering) : BraceFree numbering.positionName := by
  have ending : BraceFree "_key" := by decide
  exact numbering.braceFree_elementName.append ending

theorem braceFree_formId {numbering : Numbering} (free : BraceFree numbering.formPrefix) :
    BraceFree numbering.formId := by
  have underscore : BraceFree "_" := by decide
  exact (free.append underscore).append (braceFree_nat _)

theorem braceFree_formPrefix_ofTemplate (resource : String) :
    BraceFree (ofTemplate resource).formPrefix := by
  have start : BraceFree "form_" := by decide
  exact start.append (braceFree_resourceKey resource)

end Numbering

/-- The options that reach the page are free of braces. -/
structure Config.BraceFree (config : Config) : Prop where
  staticUrl : Text.BraceFree config.staticUrl
  dynamicPrefix : Text.BraceFree config.dynamicPrefix
  assetPrefix : Text.BraceFree config.assetPrefix
  fragmentHeader : Text.BraceFree config.fragmentHeader

theorem Config.BraceFree.fragmentUrl {config : Config} (free : config.BraceFree)
    (fingerprint : String) (fingerprintFree : Text.BraceFree fingerprint) :
    Text.BraceFree (config.fragmentUrl fingerprint) := by
  have segment : Text.BraceFree config.fragmentSegment := free.dynamicPrefix.trim '/'
  exact ((braceFree_slash.append segment).append braceFree_slash).append fingerprintFree

/-- The text of a path has no braces if its segments have none. -/
theorem Routing.Path.braceFree_text {path : Path}
    (free : ∀ segment ∈ path.segments, BraceFree segment) : BraceFree path.text :=
  braceFree_slash.joinWith free

namespace Asset.Store

theorem braceFree_joinUrl {base path : String} (baseFree : BraceFree base)
    (pathFree : BraceFree path) : BraceFree (joinUrl base path) :=
  ((baseFree.trimEnd '/').append braceFree_slash).append (pathFree.trimStart '/')

theorem braceFree_extension (kind : AssetKind) : BraceFree kind.extension := by
  cases kind <;> decide

/-- Where a store makes a file is as free of braces as its own address and directory. -/
theorem braceFree_place {store : Store} (address : BraceFree store.staticUrl)
    (directory : BraceFree store.directory) (contents name : String) (kind : AssetKind) :
    BraceFree (store.place contents name kind).url := by
  have point : BraceFree "." := by decide
  have extension := braceFree_extension kind
  have digest := Digest.braceFree_fingerprint name contents
  have base := (braceFree_slash.append directory).append braceFree_slash
  have file : BraceFree (fileName store.directory name contents kind) :=
    ((((base.append extension).append braceFree_slash).append digest).append point).append
      extension
  exact braceFree_joinUrl address file

end Asset.Store

end Sitewright

namespace Sitewright.Template

open Text

/-! ## Conditions -/

theorem braceFree_quote {text : String} (free : BraceFree text) : BraceFree (quote text) := by
  have token : BraceFree quoteToken := by decide
  exact (token.append (free.substitute token '"')).append token

/-- A call with two arguments, as conditions write it. -/
theorem braceFree_call {function left right : String} (functionFree : BraceFree function)
    (leftFree : BraceFree left) (rightFree : BraceFree right) :
    BraceFree ("(" ++ function ++ " " ++ left ++ " " ++ right ++ ")") := by
  have applied := (braceFree_opening.append functionFree).append braceFree_space
  exact (((applied.append leftFree).append braceFree_space).append rightFree).append
    braceFree_closing

theorem Literal.braceFree_boolText (value : Bool) : BraceFree (boolText value) := by
  cases value <;> decide

/-- The strings of a literal are free of braces. -/
def Literal.BraceFree : Literal → Prop
  | .string value => Text.BraceFree value
  | _ => True

theorem Literal.BraceFree.text : ∀ {literal : Literal}, literal.BraceFree →
    Text.BraceFree literal.text
  | .string _, free => braceFree_quote free
  | .whole value, _ => braceFree_int value
  | .float value, _ => value.braceFree_text_plain
  | .bool value, _ => braceFree_boolText value

theorem DataRef.braceFree_argument {source : DataRef} (free : BraceFree source.name) :
    BraceFree source.argument := by
  unfold DataRef.argument
  dsimp only
  split
  · exact (braceFree_opening.append free).append braceFree_closing
  · exact free

mutual

/-- The references, literals and types of a condition are free of braces. -/
def Expr.BraceFree : Expr → Prop
  | .ref source => Text.BraceFree source.name
  | .literal value => value.BraceFree
  | .not operand => operand.BraceFree
  | .junction _ items => Expr.AllBraceFree items
  | .compare _ left right => left.BraceFree ∧ right.BraceFree
  | .hasType operand type => operand.BraceFree ∧ Text.BraceFree type

def Expr.AllBraceFree : List Expr → Prop
  | [] => True
  | first :: rest => first.BraceFree ∧ Expr.AllBraceFree rest

end

namespace Expr

theorem braceFree_asArgument {expr : Expr} {alone : String} (free : expr.BraceFree)
    (aloneFree : Text.BraceFree alone) : Text.BraceFree (expr.asArgument alone) := by
  unfold asArgument
  split
  · exact DataRef.braceFree_argument free
  · split
    · exact (braceFree_opening.append aloneFree).append braceFree_closing
    · exact aloneFree

theorem braceFree_comparison (comparison : Comparison) : Text.BraceFree comparison.function := by
  cases comparison <;> decide

theorem braceFree_junction (kind : Junction) : Text.BraceFree kind.function := by
  cases kind <;> decide

mutual

theorem BraceFree.text : ∀ {expr : Expr}, expr.BraceFree → Text.BraceFree expr.text
  | .ref _, free => by
      unfold Expr.text
      exact free
  | .literal _, free => by
      unfold Expr.text
      exact Literal.BraceFree.text free
  | .not operand, free => by
      have negation : Text.BraceFree "not " := by decide
      unfold Expr.text
      exact negation.append (braceFree_asArgument free (BraceFree.text free))
  | .junction kind [], _ => by
      unfold Expr.text
      exact Literal.braceFree_boolText _
  | .junction _ [single], free => by
      unfold Expr.text
      exact BraceFree.text free.1
  | .junction kind (first :: second :: rest), free => by
      unfold Expr.text
      exact AllBraceFree.chain (braceFree_junction kind) free
  | .compare comparison left right, free => by
      have leftFree := braceFree_asArgument free.1 (BraceFree.text free.1)
      have rightFree := braceFree_asArgument free.2 (BraceFree.text free.2)
      unfold Expr.text
      exact braceFree_call (braceFree_comparison comparison) leftFree rightFree
  | .hasType operand type, free => by
      have equality := braceFree_opening.append (braceFree_comparison .equal)
      have typeFree : Text.BraceFree (quote type) := braceFree_quote free.2
      have print : Text.BraceFree " (printf " := by decide
      have verb : Text.BraceFree (quote "%T") := braceFree_quote (by decide)
      have operandFree := braceFree_asArgument free.1 (BraceFree.text free.1)
      have closing : Text.BraceFree "))" := by decide
      unfold Expr.text
      exact ((((((equality.append braceFree_space).append typeFree).append print).append
        verb).append braceFree_space).append operandFree).append closing

theorem AllBraceFree.chain {function : String} (functionFree : Text.BraceFree function) :
    ∀ {items : List Expr}, AllBraceFree items → Text.BraceFree (Expr.chain function items)
  | [], _ => by
      unfold Expr.chain
      exact braceFree_empty
  | [last], free => by
      unfold Expr.chain
      exact braceFree_asArgument free.1 (BraceFree.text free.1)
  | head :: next :: rest, free => by
      have headFree := braceFree_asArgument free.1 (BraceFree.text free.1)
      have restFree := AllBraceFree.chain functionFree free.2
      unfold Expr.chain
      exact braceFree_call functionFree headFree restFree

end

theorem BraceFree.header {expr : Expr} (free : expr.BraceFree) (negated : Bool) :
    Text.BraceFree (expr.header negated) := by
  unfold Expr.header
  split
  · exact braceFree_asArgument free free.text
  · exact free.text

end Expr

end Sitewright.Template

import Sitewright.Proofs.Template.Nesting

/-!
Contract: the loop variables that the actions of a text declare and use.

The action that opens a loop declares variables, and its block is their scope. A
variable is a dollar sign and the word that begins there; those of loops are told by
the first letters of the word.

Owns:
- the variables of a pipeline, and pipelines that use only given ones;
- the variables of a loop by its number, and the names that a numbering gives them;
- the variables that an action declares and those that it uses.

Does not own: blocks and their scopes.
-/

namespace Sitewright.Template

open Text

/-! ## Variables of a pipeline -/

/-- The name of a variable without the dollar sign. -/
abbrev Variable : Type := List Char

/-- The words behind the dollar signs of a pipeline. -/
def dollarWords : List Char → List Variable
  | [] => []
  | '$' :: rest => rest.takeWhile isWordChar :: dollarWords rest
  | _ :: rest => dollarWords rest

/-- Whether the library may have given the name to a variable of a loop. -/
def isLoopVariable : Variable → Bool
  | '_' :: 'i' :: _ => true
  | _ => false

def loopVariables (pipeline : List Char) : List Variable :=
  (dollarWords pipeline).filter isLoopVariable

theorem dollarWords_cons_of_ne {first : Char} (different : first ≠ '$') (rest : List Char) :
    dollarWords (first :: rest) = dollarWords rest := by
  rw [dollarWords]
  simpa using different

theorem dollarWords_of_noSign {characters : List Char} (noSign : '$' ∉ characters) :
    dollarWords characters = [] := by
  induction characters with
  | nil => rfl
  | cons first rest inductionHypothesis =>
      simp only [List.mem_cons, not_or] at noSign
      obtain ⟨different, restNoSign⟩ := noSign
      rw [dollarWords_cons_of_ne (Ne.symm different), inductionHypothesis restNoSign]

theorem dollarWords_append_of_noSign {front : List Char} (noSign : '$' ∉ front)
    (back : List Char) : dollarWords (front ++ back) = dollarWords back := by
  induction front with
  | nil => rfl
  | cons first rest inductionHypothesis =>
      simp only [List.mem_cons, not_or] at noSign
      obtain ⟨different, restNoSign⟩ := noSign
      rw [List.cons_append, dollarWords_cons_of_ne (Ne.symm different),
        inductionHypothesis restNoSign]

theorem takeWhile_isWordChar_append (word : List Char) {separator : Char}
    (noWord : isWordChar separator = false) (back : List Char) :
    (word ++ separator :: back).takeWhile isWordChar = word.takeWhile isWordChar := by
  induction word with
  | nil => simp [noWord]
  | cons first rest inductionHypothesis =>
      rw [List.cons_append, List.takeWhile_cons, List.takeWhile_cons, inductionHypothesis]

/-- What belongs to no word ends a variable. -/
theorem dollarWords_append (front : List Char) {separator : Char}
    (noWord : isWordChar separator = false) (back : List Char) :
    dollarWords (front ++ separator :: back) =
      dollarWords front ++ dollarWords (separator :: back) := by
  induction front with
  | nil => rfl
  | cons first rest inductionHypothesis =>
      by_cases sign : first = '$'
      · rw [sign, List.cons_append, dollarWords, dollarWords, inductionHypothesis,
          takeWhile_isWordChar_append rest noWord, List.cons_append]
      · rw [List.cons_append, dollarWords_cons_of_ne sign, dollarWords_cons_of_ne sign,
          inductionHypothesis]

theorem loopVariables_of_noSign {characters : List Char} (noSign : '$' ∉ characters) :
    loopVariables characters = [] := by
  rw [loopVariables, dollarWords_of_noSign noSign, List.filter_nil]

theorem loopVariables_append_of_noSign {front : List Char} (noSign : '$' ∉ front)
    (back : List Char) : loopVariables (front ++ back) = loopVariables back := by
  rw [loopVariables, dollarWords_append_of_noSign noSign, loopVariables]

theorem loopVariables_append (front : List Char) {separator : Char}
    (noWord : isWordChar separator = false) (back : List Char) :
    loopVariables (front ++ separator :: back) =
      loopVariables front ++ loopVariables (separator :: back) := by
  rw [loopVariables, dollarWords_append front noWord, List.filter_append, loopVariables,
    loopVariables]

theorem prefix_of_isLoopVariable {name : Variable} (isOfLoop : isLoopVariable name = true) :
    ['_', 'i'] <+: name := by
  unfold isLoopVariable at isOfLoop
  split at isOfLoop
  · exact ⟨_, rfl⟩
  · cases isOfLoop

/-- Whatever uses a loop variable has the start of its name written in it. -/
theorem infix_of_mem_loopVariables {characters : List Char} {name : Variable}
    (member : name ∈ loopVariables characters) : ['$', '_', 'i'] <:+: characters := by
  obtain ⟨isVariable, isOfLoop⟩ := List.mem_filter.mp member
  clear member
  induction characters with
  | nil => simp [dollarWords] at isVariable
  | cons first rest inductionHypothesis =>
      by_cases sign : first = '$'
      · rw [sign, dollarWords] at isVariable
        rcases List.mem_cons.mp isVariable with here | later
        · have inWord := prefix_of_isLoopVariable isOfLoop
          rw [here] at inWord
          obtain ⟨others, split⟩ := inWord.trans (List.takeWhile_prefix _)
          rw [sign, ← split]
          exact ⟨[], others, rfl⟩
        · exact (inductionHypothesis later).trans (List.suffix_cons _ _).isInfix
      · rw [dollarWords_cons_of_ne sign] at isVariable
        exact (inductionHypothesis isVariable).trans (List.suffix_cons _ _).isInfix

theorem isWordChar_of_isDigit {character : Char} (digit : character.isDigit = true) :
    isWordChar character = true := by
  simp [isWordChar, Char.isAlphanum, digit]

theorem isDigit_of_mem_number {number : Nat} {character : Char}
    (member : character ∈ (toString number).toList) : character.isDigit = true := by
  have inDigits : character ∈ Nat.toDigits 10 number := by
    rwa [← Nat.toList_repr]
  exact Nat.isDigit_of_mem_toDigits (by decide) (by decide) inDigits

/-! ## What a text uses -/

/-- A set of variables. -/
abbrev Names : Type := Variable → Prop

namespace Names

/-- No variable at all. -/
def none : Names := fun _ => False

end Names

/-- The text, taken as a pipeline, uses no loop variables but the given ones. -/
def UsesOnly (names : Names) (text : String) : Prop :=
  ∀ name ∈ loopVariables text.toList, names name

namespace UsesOnly

variable {names : Names} {front back text : String}

theorem mono {more : Names} (included : ∀ name, names name → more name)
    (uses : UsesOnly names text) : UsesOnly more text :=
  fun name member => included name (uses name member)

theorem of_noSign (noSign : '$' ∉ text.toList) : UsesOnly names text := by
  intro name member
  rw [loopVariables_of_noSign noSign] at member
  cases member

theorem behind (noSign : '$' ∉ front.toList) (uses : UsesOnly names back) :
    UsesOnly names (front ++ back) := by
  intro name member
  rw [String.toList_append, loopVariables_append_of_noSign noSign] at member
  exact uses name member

/-- Two pipelines of which the second does not begin with a letter of a word. -/
theorem append {separator : Char} {rest : List Char} (written : back.toList = separator :: rest)
    (noWord : isWordChar separator = false) (frontUses : UsesOnly names front)
    (backUses : UsesOnly names back) : UsesOnly names (front ++ back) := by
  intro name member
  rw [String.toList_append, written, loopVariables_append _ noWord, ← written] at member
  rcases List.mem_append.mp member with inFront | inBack
  · exact frontUses name inFront
  · exact backUses name inBack

/-- A text in which no name of a loop variable is written uses none. -/
theorem of_noLoopVariable (literal : ¬ ['$', '_', 'i'] <:+: text.toList) :
    UsesOnly names text :=
  fun _ member => absurd (infix_of_mem_loopVariables member) literal

theorem nat (number : Nat) : UsesOnly names (toString number) := by
  apply of_noSign
  intro member
  exact absurd (isDigit_of_mem_number member) (by decide)

theorem int (number : Int) : UsesOnly names (toString number) := by
  cases number with
  | ofNat magnitude => exact .nat magnitude
  | negSucc magnitude => exact .behind (by decide : '$' ∉ "-".toList) (.nat (magnitude + 1))

theorem float (number : Number.Binary64) : UsesOnly names (number.text .plain) := by
  apply of_noSign
  intro member
  exact absurd (number.isNumeral_of_mem_text_plain '$' member) (by decide)

end UsesOnly

/-! ## Loops -/

/-- The variable for the elements of a loop, by the number of the loop. -/
def elementVariable (number : Nat) : Variable :=
  '_' :: 'i' :: (toString number).toList

/-- The variable for the positions in a loop. -/
def positionVariable (number : Nat) : Variable :=
  elementVariable number ++ ['_', 'k', 'e', 'y']

/-- The variables that a loop declares, in the order of its action. -/
def variablesOfLoop (number : Nat) : List Variable :=
  [positionVariable number, elementVariable number]

theorem isWordChar_of_mem_elementVariable {number : Nat} {character : Char}
    (member : character ∈ elementVariable number) : isWordChar character = true := by
  rcases List.mem_cons.mp member with rfl | member
  · decide
  · rcases List.mem_cons.mp member with rfl | inNumber
    · decide
    · exact isWordChar_of_isDigit (isDigit_of_mem_number inNumber)

theorem isWordChar_of_mem_positionVariable {number : Nat} {character : Char}
    (member : character ∈ positionVariable number) : isWordChar character = true := by
  rcases List.mem_append.mp member with ofElement | ofEnding
  · exact isWordChar_of_mem_elementVariable ofElement
  · have letters : ∀ letter ∈ ['_', 'k', 'e', 'y'], isWordChar letter = true :=
      List.all_eq_true.mp (by decide)
    exact letters character ofEnding

theorem number_injective {first second : Nat} (same : toString first = toString second) :
    first = second := by
  have digits : Nat.toDigits 10 first = Nat.toDigits 10 second := by
    rw [← Nat.toList_repr, ← Nat.toList_repr]
    exact congrArg String.toList same
  rw [← Nat.ofDigitChars_toDigits (by decide : 1 < 10) (by decide) (n := first), digits]
  exact Nat.ofDigitChars_toDigits (by decide) (by decide)

theorem elementVariable_injective {first second : Nat}
    (same : elementVariable first = elementVariable second) : first = second := by
  unfold elementVariable at same
  simp only [List.cons.injEq, true_and] at same
  exact number_injective (String.toList_inj.mp same)

theorem positionVariable_injective {first second : Nat}
    (same : positionVariable first = positionVariable second) : first = second :=
  elementVariable_injective (List.append_cancel_right same)

/-- Only the name of a position has letters behind its number. -/
theorem elementVariable_ne_positionVariable (first second : Nat) :
    elementVariable first ≠ positionVariable second := by
  intro same
  have inPosition : 'k' ∈ positionVariable second := by simp [positionVariable]
  rw [← same] at inPosition
  simp only [elementVariable, List.mem_cons] at inPosition
  rcases inPosition with absurd | absurd | inNumber
  · cases absurd
  · cases absurd
  · exact absurd (isDigit_of_mem_number inNumber) (by decide)

theorem eq_of_mem_variablesOfLoop {first second : Nat} {name : Variable}
    (inFirst : name ∈ variablesOfLoop first) (inSecond : name ∈ variablesOfLoop second) :
    first = second := by
  simp only [variablesOfLoop, List.mem_cons, List.not_mem_nil, or_false] at inFirst inSecond
  rcases inFirst with rfl | rfl
  · rcases inSecond with same | same
    · exact positionVariable_injective same
    · exact absurd same.symm (elementVariable_ne_positionVariable _ _)
  · rcases inSecond with same | same
    · exact absurd same (elementVariable_ne_positionVariable _ _)
    · exact elementVariable_injective same

theorem nodup_variablesOfLoop (number : Nat) : (variablesOfLoop number).Nodup := by
  have different := Ne.symm (elementVariable_ne_positionVariable number number)
  simp [variablesOfLoop, different]

/-! ## Names of a numbering -/

theorem toList_elementName (numbering : Numbering) :
    numbering.elementName.toList = '$' :: elementVariable numbering.loops := by
  simp [Numbering.elementName, elementVariable]

theorem toList_positionName (numbering : Numbering) :
    numbering.positionName.toList = '$' :: positionVariable numbering.loops := by
  simp [Numbering.positionName, toList_elementName, positionVariable]

/-- A variable alone. -/
theorem dollarWords_name {name : Variable} (word : ∀ character ∈ name, isWordChar character = true) :
    dollarWords ('$' :: name) = [name] := by
  have noSign : '$' ∉ name := fun member => absurd (word '$' member) (by decide)
  have whole : name.takeWhile isWordChar = name := by
    clear noSign
    induction name with
    | nil => rfl
    | cons first rest inductionHypothesis =>
        rw [List.takeWhile_cons_of_pos (word first List.mem_cons_self),
          inductionHypothesis fun character member => word character (List.mem_cons_of_mem _ member)]
  rw [dollarWords, dollarWords_of_noSign noSign, whole]

theorem loopVariables_elementName (numbering : Numbering) :
    loopVariables numbering.elementName.toList = [elementVariable numbering.loops] := by
  rw [loopVariables, toList_elementName,
    dollarWords_name fun _ member => isWordChar_of_mem_elementVariable member]
  rfl

theorem loopVariables_positionName (numbering : Numbering) :
    loopVariables numbering.positionName.toList = [positionVariable numbering.loops] := by
  rw [loopVariables, toList_positionName,
    dollarWords_name fun _ member => isWordChar_of_mem_positionVariable member]
  rfl

/-! ## Declarations -/

/-- The text in front of the first assignment and the text behind it. -/
def cutAssignment : List Char → Option (List Char × List Char)
  | [] => none
  | ':' :: '=' :: rest => some ([], rest)
  | first :: rest => (cutAssignment rest).map fun cut => (first :: cut.1, cut.2)

/-- The variables whose scope is the block that the action opens. -/
def declared (pipeline : List Char) : List Variable :=
  match ActionKind.ofPipeline pipeline, cutAssignment pipeline with
  | .loop, some (targets, _) => loopVariables targets
  | _, _ => []

/-- The variables whose values the action asks for. -/
def used (pipeline : List Char) : List Variable :=
  match ActionKind.ofPipeline pipeline, cutAssignment pipeline with
  | .loop, some (_, source) => loopVariables source
  | _, _ => loopVariables pipeline

theorem cutAssignment_append {front : List Char} (noColon : ':' ∉ front) (back : List Char) :
    cutAssignment (front ++ ':' :: '=' :: back) = some (front, back) := by
  induction front with
  | nil => rfl
  | cons first rest inductionHypothesis =>
      simp only [List.mem_cons, not_or] at noColon
      obtain ⟨different, restNoColon⟩ := noColon
      rw [List.cons_append, cutAssignment, inductionHypothesis restNoColon]
      · rfl
      · intro _ same
        exact absurd same.symm different

theorem declared_of_ne_loop {pipeline : List Char}
    (noLoop : ActionKind.ofPipeline pipeline ≠ .loop) : declared pipeline = [] := by
  unfold declared
  split
  · next isLoop _ => exact absurd isLoop noLoop
  · rfl

theorem used_of_ne_loop {pipeline : List Char}
    (noLoop : ActionKind.ofPipeline pipeline ≠ .loop) :
    used pipeline = loopVariables pipeline := by
  unfold used
  split
  · next isLoop _ => exact absurd isLoop noLoop
  · rfl

end Sitewright.Template

import Sitewright.Proofs.Template.Call
import Sitewright.Proofs.Text.Brace

/-!
Contract: conditions keep their grouping in the template language.

What an expression means is a call tree: a path is a name or an `index` call with
fields behind it, a comparison is a call of two arguments, and several conditions
are nested to the right. Reading the text of an expression gives that tree back,
unless a length stands as the only condition of a junction in an argument: such a
length has no parentheses.

Owns:
- `Denotes`, the tree that an expression was built to be;
- the expressions whose text loses the tree, exactly;
- conditions in the header of a conditional block.

Does not own: how a pipeline is read.
-/

namespace Sitewright.Template

open Number Call

/-! ## What expressions mean -/

/-- Fields taken of what a name or a call results in. -/
def Call.Term.extended (term : Term) (fields : List Char) : Term :=
  match term with
  | .name text => .name (text ++ fields)
  | .call function arguments taken => .call function arguments (taken ++ fields)
  | other => other

/-- A name that data can have. -/
structure IsName (characters : List Char) : Prop extends IsWord characters where
  begins : ∃ first rest, characters = first :: rest ∧ (first = '.' ∨ first = '$')

/-- A path, and not a length. -/
inductive DataRef.Denotes : DataRef → Term → Prop where
  | root {name : String} (isName : IsName name.toList) : Denotes ⟨name⟩ (.name name.toList)
  | field {source : DataRef} {term : Term} (denotes : source.Denotes term) {label : String}
      (isWord : IsWord label.toList) :
      Denotes (source.field label) (term.extended ('.' :: label.toList))
  | element {source : DataRef} {term : Term} (denotes : source.Denotes term) (position : Nat) :
      Denotes (source.element position)
        (.call "index".toList [term, .number (toString position).toList] [])

/-- The call tree that an expression was built to be. -/
inductive Expr.Denotes : Expr → Term → Prop where
  | path {source : DataRef} {term : Term} (denotes : source.Denotes term) :
      Denotes (.ref source) term
  | length {source : DataRef} {term : Term} (denotes : source.Denotes term) :
      Denotes (.ref source.length) (.call "len".toList [term] [])
  | string {content : String} (tokenFree : TokenFree content.toList)
      (noQuote : '"' ∉ content.toList) :
      Denotes (.literal (.string content)) (.string content.toList)
  | whole (value : Int) : Denotes (.literal (.whole value)) (.number (toString value).toList)
  | float {value : Binary64} (isFinite : value.isFinite = true) :
      Denotes (.literal (.float value)) (.number (value.text .plain).toList)
  | bool (value : Bool) : Denotes (.literal (.bool value)) (.bool value)
  | not {operand : Expr} {term : Term} (denotes : operand.Denotes term) :
      Denotes (.not operand) (.call "not".toList [term] [])
  | none (kind : Junction) : Denotes (.junction kind []) (.bool kind.ofNone)
  | single (kind : Junction) {item : Expr} {term : Term} (denotes : item.Denotes term) :
      Denotes (.junction kind [item]) term
  | several {kind : Junction} {head next : Expr} {rest : List Expr} {first others : Term}
      (headDenotes : head.Denotes first)
      (restDenotes : Denotes (.junction kind (next :: rest)) others) :
      Denotes (.junction kind (head :: next :: rest))
        (.call kind.function.toList [first, others] [])
  | compare (comparison : Comparison) {left right : Expr} {first second : Term}
      (leftDenotes : left.Denotes first) (rightDenotes : right.Denotes second) :
      Denotes (.compare comparison left right)
        (.call comparison.function.toList [first, second] [])
  | hasType {operand : Expr} {term : Term} (denotes : operand.Denotes term) {type : String}
      (tokenFree : TokenFree type.toList) (noQuote : '"' ∉ type.toList) :
      Denotes (.hasType operand type)
        (.call "eq".toList
          [.string type.toList, .call "printf".toList [.string "%T".toList, term] []] [])

namespace Expr

/-- Whether the expression is a reference that needs parentheses as an argument. -/
def isLength : Expr → Bool
  | .ref source => source.argument ≠ source.name
  | _ => false

/-- Whether the expression is a length as the only condition of a junction, which is
written without parentheses wherever it stands. -/
def isBareLength : Expr → Bool
  | .junction _ [single] => single.isLength || single.isBareLength
  | _ => false

mutual

/-- Whether a bare length is an argument anywhere inside the expression. -/
def losesGrouping : Expr → Bool
  | .ref _ | .literal _ => false
  | .not operand => operand.isBareLength || operand.losesGrouping
  | .junction _ [] => false
  | .junction _ [single] => single.losesGrouping
  | .junction _ (first :: second :: rest) => anyLosesGrouping (first :: second :: rest)
  | .compare _ left right =>
      (left.isBareLength || left.losesGrouping) || (right.isBareLength || right.losesGrouping)
  | .hasType operand _ => operand.isBareLength || operand.losesGrouping

/-- Whether one of several arguments is a bare length or has one as an argument. -/
def anyLosesGrouping : List Expr → Bool
  | [] => false
  | head :: tail => (head.isBareLength || head.losesGrouping) || anyLosesGrouping tail

end

/-- Whether the expression is no longer one argument, or not the one it was built as. -/
def losesGroupingAsArgument (expr : Expr) : Bool :=
  expr.isBareLength || expr.losesGrouping

end Expr

/-! ## Words that the library writes -/

/-- Numbers are words: they have neither separators nor the first character of a
quote token. -/
theorem isWord_of_isNumeral {characters : List Char}
    (numerals : ∀ character ∈ characters, IsNumeral character) : IsWord characters where
  tokenFree := by
    intro inside
    have member : '@' ∈ characters := inside.subset (by decide)
    exact absurd (numerals '@' member) (by decide)
  whole := by
    intro character member
    rw [Bool.eq_false_iff]
    intro separator
    have cases : character = ' ' ∨ character = '\t' ∨ character = '\r' ∨ character = '\n' ∨
        character = '(' ∨ character = ')' ∨ character = '"' := by
      simp only [isSeparator, Char.isWhitespace, Bool.or_eq_true, decide_eq_true_eq] at separator
      grind
    have numeral := numerals character member
    rcases cases with rfl | rfl | rfl | rfl | rfl | rfl | rfl <;> exact absurd numeral (by decide)

/-- A text that is read as a number: numerals that begin with a digit or a sign. -/
structure IsNumber (characters : List Char) : Prop where
  numerals : ∀ character ∈ characters, IsNumeral character
  begins : ∃ first rest, characters = first :: rest ∧ (first.isDigit = true ∨ first = '-')

theorem isNumber_of_digits {characters : List Char}
    (digits : ∀ character ∈ characters, character.isDigit = true) (nonempty : characters ≠ []) :
    IsNumber characters where
  numerals := fun character member => Or.inl (digits character member)
  begins := by
    obtain ⟨first, rest, rfl⟩ := List.exists_cons_of_ne_nil nonempty
    exact ⟨first, rest, rfl, Or.inl (digits first List.mem_cons_self)⟩

theorem IsNumber.negative {characters : List Char} (isNumber : IsNumber characters) :
    IsNumber ('-' :: characters) where
  numerals := by
    intro character member
    rcases List.mem_cons.mp member with rfl | inRest
    · decide
    · exact isNumber.numerals character inRest
  begins := ⟨'-', characters, rfl, Or.inr rfl⟩

theorem isNumber_nat (value : Nat) : IsNumber (toString value).toList := by
  have characters : (toString value).toList = Nat.toDigits 10 value := Nat.toList_repr
  rw [characters]
  apply isNumber_of_digits
  · intro digit member
    exact Nat.isDigit_of_mem_toDigits (by decide) (by decide) member
  · exact Nat.toDigits_ne_nil

theorem isNumber_int (value : Int) : IsNumber (toString value).toList := by
  cases value with
  | ofNat magnitude => exact isNumber_nat magnitude
  | negSucc magnitude =>
      have characters : (toString (Int.negSucc magnitude)).toList =
          '-' :: (toString (magnitude + 1)).toList := by
        show ("-" ++ toString (magnitude + 1)).toList = _
        simp
      rw [characters]
      exact (isNumber_nat (magnitude + 1)).negative

/-- A decimal without an exponent begins with a digit. -/
theorem isNumber_positional {decimal : Decimal}
    (digits : ∀ digit ∈ decimal.digits, digit.isDigit = true) :
    IsNumber (decimal.positional false) where
  numerals := fun _ => isNumeral_of_mem_positional fun digit member =>
    Or.inl (digits digit member)
  begins := by
    unfold Decimal.positional
    dsimp only
    split
    · exact ⟨'0', _, rfl, Or.inl (by decide)⟩
    · next positive =>
      cases known : decimal.digits with
      | nil =>
          obtain ⟨count, point⟩ : ∃ count : Nat, decimal.point.toNat = count + 1 :=
            ⟨decimal.point.toNat - 1, by omega⟩
          have noDigit : ¬ decimal.point < ((0 : Nat) : Int) := by omega
          rw [List.length_nil, if_neg noDigit]
          refine ⟨'0', List.replicate count '0', ?_, Or.inl (by decide)⟩
          simp [zeros, point, List.replicate_succ]
      | cons first rest =>
          have isDigit : first.isDigit = true := digits first (known ▸ List.mem_cons_self)
          split
          · obtain ⟨count, point⟩ : ∃ count : Nat, decimal.point.toNat = count + 1 :=
              ⟨decimal.point.toNat - 1, by omega⟩
            rw [point, List.take_succ_cons]
            exact ⟨first, _, rfl, Or.inl isDigit⟩
          · exact ⟨first, _, rfl, Or.inl isDigit⟩

theorem isNumber_float {value : Binary64} (isFinite : value.isFinite = true) :
    IsNumber (value.text .plain).toList := by
  cases value with
  | nan => cases isFinite
  | infinite negative => cases isFinite
  | finite negative significand exponent =>
      have magnitude : IsNumber (if significand = 0 then ['0'] else
          (shortest .up significand exponent).positional false) := by
        split
        · exact isNumber_of_digits (List.all_eq_true.mp (by decide)) (by decide)
        · exact isNumber_positional fun _ => isDigit_of_mem_shortest
      have characters : (Binary64.text .plain (.finite negative significand exponent)).toList =
          (if negative then ['-'] else []) ++ if significand = 0 then ['0'] else
            (shortest .up significand exponent).positional false := by
        simp [Binary64.text, FloatNotation.plain, Decimal.written]
      rw [characters]
      cases negative with
      | false => exact magnitude
      | true => exact magnitude.negative

theorem reads_number {number : String} (isNumber : IsNumber number.toList) :
    Reads number (some [.argument (.number number.toList)]) := by
  apply reads_word (isWord_of_isNumeral isNumber.numerals)
  obtain ⟨first, rest, characters, begins⟩ := isNumber.begins
  have noLetter : first ≠ 't' ∧ first ≠ 'f' ∧ first ≠ '.' ∧ first ≠ '$' := by
    refine ⟨?_, ?_, ?_, ?_⟩ <;>
      · rintro rfl
        exact absurd begins (by decide)
  have noName : ¬ (first = '.' || first = '$') = true := by
    simp only [noLetter.2.2.1, noLetter.2.2.2, decide_false, Bool.or_self, Bool.false_eq_true,
      not_false_iff]
  have isDigitOrSign : (first.isDigit || first = '-') = true := by
    simpa only [Bool.or_eq_true, decide_eq_true_eq] using begins
  rw [characters, Item.ofWord_cons noLetter.1 noLetter.2.1, if_neg noName, if_pos isDigitOrSign]

/-! ## Arguments and calls -/

/-- What the items of a text are as an argument: exactly one argument, or something
with a function in it that no call can have behind its own function, or nothing. -/
inductive IsArgument : Option (List Item) → Option Term → Prop where
  | one (term : Term) : IsArgument (some [.argument term]) (some term)
  | several {read : List Item} {name : List Char} (member : .function name ∈ read) :
      IsArgument (some read) none
  | unread : IsArgument none none

/-- The text is the argument, or it cannot be one. -/
def Argues (text : String) (outcome : Option Term) : Prop :=
  ∃ items, Reads text items ∧ IsArgument items outcome

/-- The text is the pipeline, or it cannot be one. -/
def Stands (text : String) (outcome : Option Term) : Prop :=
  ∃ items, Reads text items ∧ items.bind pipeline? = outcome

/-- The text is a call without parentheses, or it is no call. -/
def Calls (text : String) (outcome : Option Term) : Prop :=
  ∃ items, Reads text items ∧ items.bind (call? []) = outcome ∧
    ∀ read, items = some read → ∃ name rest, read = .function name :: rest

theorem Argues.readArgument? {text : String} {outcome : Option Term}
    (argues : Argues text outcome) : readArgument? text = outcome := by
  obtain ⟨items, reads, isArgument⟩ := argues
  rw [Call.readArgument?, reads.items?]
  cases isArgument with
  | one term => rfl
  | unread => rfl
  | several member =>
      split
      · next only =>
        rw [Option.some.inj only] at member
        simp at member
      · rfl

theorem Stands.readPipeline? {text : String} {outcome : Option Term}
    (stands : Stands text outcome) : readPipeline? text = outcome := by
  obtain ⟨items, reads, pipeline⟩ := stands
  rw [Call.readPipeline?, reads.items?, pipeline]

theorem argues_of_reads {text : String} {outcome : Option Term}
    (reads : Reads text (outcome.map fun term => [.argument term])) : Argues text outcome := by
  refine ⟨_, reads, ?_⟩
  cases outcome with
  | none => exact .unread
  | some term => exact .one term

theorem stands_of_reads {text : String} {outcome : Option Term}
    (reads : Reads text (outcome.map fun term => [.argument term])) : Stands text outcome := by
  refine ⟨_, reads, ?_⟩
  cases outcome <;> rfl

theorem Calls.stands {text : String} {outcome : Option Term} (calls : Calls text outcome) :
    Stands text outcome := by
  obtain ⟨items, reads, called, begins⟩ := calls
  refine ⟨items, reads, ?_⟩
  rw [← called]
  cases items with
  | none => rfl
  | some read =>
      obtain ⟨name, rest, rfl⟩ := begins read rfl
      rfl

/-- Without parentheses a call is not one argument. -/
theorem Calls.argues {text : String} {outcome : Option Term} (calls : Calls text outcome) :
    Argues text none := by
  obtain ⟨items, reads, -, begins⟩ := calls
  refine ⟨items, reads, ?_⟩
  cases items with
  | none => exact .unread
  | some read =>
      obtain ⟨name, rest, rfl⟩ := begins read rfl
      exact .several List.mem_cons_self

theorem Calls.parenthesized {text : String} {outcome : Option Term} (calls : Calls text outcome) :
    Reads ("(" ++ text ++ ")") (outcome.map fun term => [.argument term]) := by
  obtain ⟨items, reads, called, -⟩ := calls
  rw [← called]
  exact reads.parenthesized

/-- A function is not an argument of another one. -/
theorem mapM_term?_of_function {items : List Item} {name : List Char}
    (member : .function name ∈ items) : items.mapM Item.term? = none := by
  induction items with
  | nil => cases member
  | cons first rest inductionHypothesis =>
      rw [List.mapM_cons]
      rcases List.mem_cons.mp member with rfl | inRest
      · rfl
      · rw [inductionHypothesis inRest]
        cases first <;> rfl

/-- What one text behind another adds to the arguments of a call. -/
theorem IsArgument.mapM_append {first : Option (List Item)} {outcome : Option Term}
    (isArgument : IsArgument first outcome) (rest : List Item) :
    (first.bind fun read => (read ++ rest).mapM Item.term?) =
      outcome.bind fun term => (rest.mapM Item.term?).map fun others => term :: others := by
  cases isArgument with
  | one term =>
      simp only [Option.bind_some, List.cons_append, List.nil_append, List.mapM_cons,
        Item.term?]
      cases rest.mapM Item.term? <;> rfl
  | unread => rfl
  | several member =>
      exact mapM_term?_of_function (List.mem_append_left rest member)

/-- A function with one argument. -/
theorem Argues.calls {function argument : String} {outcome : Option Term}
    (isFunction : Reads function (some [.function function.toList]))
    (argues : Argues argument outcome) :
    Calls (function ++ " " ++ argument)
      (outcome.map fun term => .call function.toList [term] []) := by
  obtain ⟨items, reads, isArgument⟩ := argues
  refine ⟨_, isFunction.spaced reads, ?_, ?_⟩
  · have arguments := isArgument.mapM_append []
    cases items with
    | none =>
        cases isArgument
        rfl
    | some read =>
        simp only [Option.bind_some, List.append_nil, List.mapM_nil] at arguments
        simp only [Option.bind_some, Option.map_some, List.cons_append, List.nil_append, call?,
          arguments]
        cases outcome <;> rfl
  · intro read equal
    cases items with
    | none => cases equal
    | some arguments => exact ⟨_, arguments, (Option.some.inj equal).symm⟩

/-- A function with two arguments. -/
theorem Argues.callsWith {function left right : String} {first second : Option Term}
    (isFunction : Reads function (some [.function function.toList]))
    (leftArgues : Argues left first) (rightArgues : Argues right second) :
    Calls (function ++ " " ++ left ++ " " ++ right)
      (first.bind fun term => second.map fun other =>
        .call function.toList [term, other] []) := by
  obtain ⟨leftItems, leftReads, leftIs⟩ := leftArgues
  obtain ⟨rightItems, rightReads, rightIs⟩ := rightArgues
  refine ⟨_, (isFunction.spaced leftReads).spaced rightReads, ?_, ?_⟩
  · have others := rightIs.mapM_append []
    cases rightItems with
    | none =>
        cases rightIs
        cases leftItems <;> cases first <;> rfl
    | some rightRead =>
        have arguments := leftIs.mapM_append rightRead
        cases leftItems with
        | none =>
            cases leftIs
            rfl
        | some leftRead =>
            simp only [Option.bind_some, List.append_nil, List.mapM_nil] at arguments others
            simp only [Option.bind_some, Option.map_some, List.cons_append, List.nil_append,
              call?, arguments, others]
            cases first <;> cases second <;> rfl
  · intro read equal
    cases leftItems with
    | none => cases equal
    | some leftRead =>
        cases rightItems with
        | none => cases equal
        | some rightRead => exact ⟨_, _, (Option.some.inj equal).symm⟩

/-! ## References -/

theorem Call.Term.extended_extended (term : Term) (first second : List Char) :
    (term.extended first).extended second = term.extended (first ++ second) := by
  cases term <;> simp [Call.Term.extended]

theorem IsName.ofWord {name : List Char} (isName : IsName name) (fields : List Char) :
    Item.ofWord (name ++ fields) = some (.argument (.name (name ++ fields))) := by
  obtain ⟨first, rest, rfl, begins⟩ := isName.begins
  rw [List.cons_append]
  rcases begins with rfl | rfl
  · exact Item.ofWord_cons (by decide) (by decide) _
  · exact Item.ofWord_cons (by decide) (by decide) _

/-- Whatever fields follow, a path is one argument with these fields. -/
theorem DataRef.Denotes.lexes {source : DataRef} {term : Term} (denotes : source.Denotes term) :
    ∃ front last, Lexes source.name.toList front last ∧ last.TakesFields ∧
      ∀ fields, Parses (front ++ [last.extended fields])
        (some [.argument (term.extended fields)]) := by
  induction denotes with
  | root isName =>
      next name =>
      obtain ⟨first, rest, characters, -⟩ := isName.begins
      have isWord := isName.toIsWord
      rw [characters] at isWord
      refine ⟨[], .word name.toList, characters ▸ isWord.lexes, trivial, ?_⟩
      intro fields
      have parses := parses_word (name.toList ++ fields)
      rw [isName.ofWord fields] at parses
      exact parses
  | field denotes isWord inductionHypothesis =>
      next source term label =>
      obtain ⟨front, last, lexes, takes, parses⟩ := inductionHypothesis
      refine ⟨front, last.extended ('.' :: label.toList), ?_, takes.extended _, ?_⟩
      · have characters : (source.field label).name.toList =
            source.name.toList ++ '.' :: label.toList := by
          simp [DataRef.field]
        rw [characters]
        exact lexes.fields takes isWord
      · intro fields
        rw [Token.extended_extended, Call.Term.extended_extended]
        exact parses _
  | element denotes position inductionHypothesis =>
      next source term =>
      obtain ⟨front, last, lexes, -, parses⟩ := inductionHypothesis
      have noFields : last.extended [] = last ∧ term.extended [] = term := by
        constructor
        · cases last <;> simp [Token.extended]
        · cases term <;> simp [Call.Term.extended]
      have whole := parses []
      rw [noFields.1, noFields.2] at whole
      have index : Reads "index" (some [.function "index".toList]) :=
        reads_word (by decide) rfl
      obtain ⟨callFront, callLast, callLexes, callParses⟩ :=
        (index.spaced ⟨front, last, lexes, whole⟩).spaced (reads_number (isNumber_nat position))
      refine ⟨.opening :: callFront ++ [callLast], .closing [], ?_, trivial, ?_⟩
      · have characters : (source.element position).name.toList =
            '(' :: ("index" ++ " " ++ source.name ++ " " ++ toString position).toList ++ [')'] := by
          simp [DataRef.element]
        rw [characters]
        exact callLexes.parenthesized
      · intro fields
        have enclosed := callParses.parenthesized fields
        simpa [Token.extended, Call.Term.extended, call?, Item.term?] using enclosed

theorem DataRef.Denotes.reads {source : DataRef} {term : Term} (denotes : source.Denotes term) :
    Reads source.name (some [.argument term]) := by
  obtain ⟨front, last, lexes, -, parses⟩ := denotes.lexes
  refine ⟨front, last, lexes, ?_⟩
  have whole := parses []
  have noFields : last.extended [] = last ∧ term.extended [] = term := by
    constructor
    · cases last <;> simp [Token.extended]
    · cases term <;> simp [Call.Term.extended]
  rwa [noFields.1, noFields.2] at whole

/-- A blank in a path stands behind a parenthesis that the path begins with. -/
theorem DataRef.Denotes.enclosed {source : DataRef} {term : Term}
    (denotes : source.Denotes term) :
    ' ' ∉ source.name.toList ∨ source.name.toList.head? = some '(' := by
  have noBlank : ∀ {characters : List Char}, IsWord characters → ' ' ∉ characters := by
    intro characters isWord member
    exact absurd (isWord.whole ' ' member) (by decide)
  induction denotes with
  | root isName => exact Or.inl (noBlank isName.toIsWord)
  | field denotes isWord inductionHypothesis =>
      rcases inductionHypothesis with absent | begins
      · left
        simp [DataRef.field, absent, noBlank isWord]
      · right
        simp [DataRef.field, begins]
  | element denotes position inductionHypothesis =>
      right
      simp [DataRef.element]

theorem DataRef.Denotes.argument {source : DataRef} {term : Term}
    (denotes : source.Denotes term) : source.argument = source.name := by
  rcases denotes.enclosed with absent | begins
  · simp [DataRef.argument, absent]
  · simp [DataRef.argument, begins]

theorem DataRef.argument_length (source : DataRef) :
    source.length.argument = "(" ++ source.length.name ++ ")" := by
  simp [DataRef.argument, DataRef.length]

theorem DataRef.Denotes.calls_length {source : DataRef} {term : Term}
    (denotes : source.Denotes term) :
    Calls source.length.name (some (.call "len".toList [term] [])) := by
  have function : Reads "len" (some [.function "len".toList]) := reads_word (by decide) rfl
  have argues : Argues source.name (some term) := ⟨_, denotes.reads, .one term⟩
  have calls := argues.calls function
  have words : "len " = "len" ++ " " := by decide
  rw [DataRef.length, words]
  exact calls

/-! ## Expressions -/

/-- The tree, unless the grouping is lost. -/
def unlessLost (lost : Bool) (term : Term) : Option Term :=
  if lost then none else some term

/-- How the two texts of an expression are read. -/
structure Expr.Grouped (expr : Expr) (term : Term) : Prop where
  argument : Argues expr.argument (unlessLost expr.losesGroupingAsArgument term)
  alone : Stands expr.text (unlessLost expr.losesGrouping term)
  /-- A negation has no parentheses of its own. -/
  negation : expr.isNegation = true → Calls expr.text (unlessLost expr.losesGrouping term)
  /-- What the text of anything else is as an argument. -/
  plain : expr.isNegation = false →
    Argues expr.text (unlessLost (expr.isLength || expr.losesGroupingAsArgument) term)

namespace Expr

theorem not_isLength_of_isNegation {expr : Expr} (negation : expr.isNegation = true) :
    expr.isLength = false ∧ expr.isBareLength = false := by
  fun_induction isBareLength expr with
  | case1 kind single inductionHypothesis =>
      rw [isNegation] at negation
      have inner := inductionHypothesis negation
      exact ⟨rfl, by rw [inner.1, inner.2]; rfl⟩
  | case2 expr notSingle =>
      refine ⟨?_, rfl⟩
      cases expr <;> first | rfl | cases negation

/-- An expression with the same text alone and as an argument. -/
theorem grouped_of_reads {expr : Expr} {term : Term} (notNegation : expr.isNegation = false)
    (notLength : expr.isLength = false) (notBare : expr.isBareLength = false)
    (sameText : expr.argument = expr.text)
    (reads : Reads expr.text
      ((unlessLost expr.losesGrouping term).map fun term => [.argument term])) :
    expr.Grouped term where
  argument := by
    rw [sameText, losesGroupingAsArgument, notBare, Bool.false_or]
    exact argues_of_reads reads
  alone := stands_of_reads reads
  negation := by
    intro negation
    rw [notNegation] at negation
    cases negation
  plain := by
    intro _
    rw [losesGroupingAsArgument, notLength, notBare, Bool.false_or, Bool.false_or]
    exact argues_of_reads reads

theorem bind_unlessLost (left right : Bool) (first second : Term)
    (combine : Term → Term → Term) :
    ((unlessLost left first).bind fun term => (unlessLost right second).map (combine term)) =
      unlessLost (left || right) (combine first second) := by
  cases left <;> cases right <;> rfl

theorem map_unlessLost (lost : Bool) (term : Term) (wrap : Term → Term) :
    (unlessLost lost term).map wrap = unlessLost lost (wrap term) := by
  cases lost <;> rfl

/-- A call of two arguments in parentheses. -/
theorem reads_call {function left right : String} {lostLeft lostRight : Bool}
    {first second : Term} (isFunction : Reads function (some [.function function.toList]))
    (leftArgues : Argues left (unlessLost lostLeft first))
    (rightArgues : Argues right (unlessLost lostRight second)) :
    Reads ("(" ++ function ++ " " ++ left ++ " " ++ right ++ ")")
      ((unlessLost (lostLeft || lostRight) (.call function.toList [first, second] [])).map
        fun term => [.argument term]) := by
  have calls := (leftArgues.callsWith isFunction rightArgues).parenthesized
  rw [bind_unlessLost lostLeft lostRight first second
    (fun term other => .call function.toList [term, other] [])] at calls
  simpa only [String.append_assoc] using calls

theorem reads_comparison (comparison : Comparison) :
    Reads comparison.function (some [.function comparison.function.toList]) := by
  cases comparison <;> exact reads_word (by decide) rfl

theorem reads_junction (kind : Junction) :
    Reads kind.function (some [.function kind.function.toList]) := by
  cases kind <;> exact reads_word (by decide) rfl

theorem reads_bool (value : Bool) :
    Reads (Literal.boolText value) (some [.argument (.bool value)]) := by
  cases value <;> exact reads_word (by decide) rfl

theorem argument_of_condition {expr : Expr} (condition : expr.isCondition = true)
    (notNegation : expr.isNegation = false) : expr.argument = expr.text := by
  unfold argument asArgument
  split
  · cases condition
  · rw [notNegation]
    rfl

theorem argument_of_negation {expr : Expr} (negation : expr.isNegation = true) :
    expr.argument = "(" ++ expr.text ++ ")" := by
  unfold argument asArgument
  split
  · cases negation
  · rw [negation]
    rfl

theorem grouped_of_literal {value : Literal} {term : Term}
    (reads : Reads value.text (some [.argument term])) : (Expr.literal value).Grouped term := by
  apply grouped_of_reads rfl rfl rfl rfl
  rw [text]
  exact reads

/-- The text of a negation in parentheses, and the negation itself. -/
theorem Grouped.not {operand : Expr} {term : Term} (grouped : operand.Grouped term) :
    (Expr.not operand).Grouped (.call "not".toList [term] []) := by
  have function : Reads "not" (some [.function "not".toList]) := reads_word (by decide) rfl
  have calls := grouped.argument.calls function
  have words : "not " = "not" ++ " " := by decide
  have sameText : (Expr.not operand).text = "not" ++ " " ++ operand.argument := by
    rw [text, words]
    rfl
  have lost : (Expr.not operand).losesGrouping = operand.losesGroupingAsArgument := by
    rw [losesGrouping]
    rfl
  rw [map_unlessLost, ← sameText, ← lost] at calls
  refine ⟨?_, calls.stands, fun _ => calls, fun notNegation => by cases notNegation⟩
  rw [argument_of_negation rfl]
  exact argues_of_reads calls.parenthesized

/-- A junction of one item is written like the item. -/
theorem Grouped.single (kind : Junction) {item : Expr} {term : Term}
    (grouped : item.Grouped term) : (Expr.junction kind [item]).Grouped term := by
  have sameText : (Expr.junction kind [item]).text = item.text := by
    rw [text]
  have sameLost : (Expr.junction kind [item]).losesGrouping = item.losesGrouping := by
    rw [losesGrouping]
  have sameNegation : (Expr.junction kind [item]).isNegation = item.isNegation := by
    rw [isNegation]
  have bare : (Expr.junction kind [item]).losesGroupingAsArgument =
      (item.isLength || item.losesGroupingAsArgument) := by
    rw [losesGroupingAsArgument, sameLost, isBareLength, Bool.or_assoc]
    rfl
  refine ⟨?_, ?_, ?_, ?_⟩
  · rw [bare]
    by_cases negation : item.isNegation = true
    · have inner := not_isLength_of_isNegation negation
      rw [argument_of_negation (sameNegation.trans negation), sameText, inner.1,
        losesGroupingAsArgument, inner.2, Bool.false_or, Bool.false_or]
      exact argues_of_reads (grouped.negation negation).parenthesized
    · have notNegation : item.isNegation = false := by simpa using negation
      rw [argument_of_condition rfl (sameNegation.trans notNegation), sameText]
      exact grouped.plain notNegation
  · rw [sameText, sameLost]
    exact grouped.alone
  · intro negation
    rw [sameText, sameLost]
    exact grouped.negation (sameNegation.symm.trans negation)
  · intro notNegation
    rw [sameText, bare]
    exact grouped.plain (sameNegation.symm.trans notNegation)

/-- A chain is read from its last item on, which stands in it as an argument. -/
theorem Denotes.grouped_and_chain {expr : Expr} {term : Term} (denotes : expr.Denotes term) :
    expr.Grouped term ∧ ∀ kind items, expr = .junction kind items → items ≠ [] →
      Argues (chain kind.function items) (unlessLost (anyLosesGrouping items) term) := by
  induction denotes with
  | path denotes =>
      next source term =>
      refine ⟨grouped_of_reads rfl ?_ rfl denotes.argument ?_, fun _ _ same => by cases same⟩
      · simp [isLength, denotes.argument]
      · rw [text]
        exact denotes.reads
  | length denotes =>
      next source term =>
      have calls := denotes.calls_length
      have sameText : (Expr.ref source.length).text = source.length.name := by
        rw [text]
      have isLength : (Expr.ref source.length).isLength = true := by
        have longer : "(" ++ source.length.name ++ ")" ≠ source.length.name := by
          intro same
          have lengths := congrArg String.length same
          simp only [String.length_append] at lengths
          have one : "(".length = 1 := by decide
          omega
        simpa [Expr.isLength, DataRef.argument_length] using longer
      refine ⟨⟨?_, ?_, ?_, ?_⟩, fun _ _ same => by cases same⟩
      · show Argues source.length.argument _
        rw [DataRef.argument_length]
        exact argues_of_reads calls.parenthesized
      · rw [sameText]
        exact calls.stands
      · intro negation
        cases negation
      · intro _
        rw [sameText, isLength]
        exact calls.argues
  | string tokenFree noQuote =>
      exact ⟨grouped_of_literal (reads_quote tokenFree noQuote), fun _ _ same => by cases same⟩
  | whole value =>
      exact ⟨grouped_of_literal (reads_number (isNumber_int value)),
        fun _ _ same => by cases same⟩
  | float isFinite =>
      exact ⟨grouped_of_literal (reads_number (isNumber_float isFinite)),
        fun _ _ same => by cases same⟩
  | bool value =>
      exact ⟨grouped_of_literal (reads_bool value), fun _ _ same => by cases same⟩
  | not denotes inductionHypothesis =>
      exact ⟨inductionHypothesis.1.not, fun _ _ same => by cases same⟩
  | none kind =>
      refine ⟨grouped_of_reads rfl rfl rfl (argument_of_condition rfl rfl) ?_, ?_⟩
      · rw [text, losesGrouping]
        exact reads_bool _
      · intro _ _ same nonempty
        cases same
        exact absurd rfl nonempty
  | single kind denotes inductionHypothesis =>
      refine ⟨inductionHypothesis.1.single kind, ?_⟩
      intro _ _ same _
      cases same
      rw [chain, anyLosesGrouping, anyLosesGrouping, Bool.or_false]
      exact inductionHypothesis.1.argument
  | several headDenotes restDenotes headHypothesis restHypothesis =>
      next kind head next rest first others =>
      have restArgues := restHypothesis.2 kind (next :: rest) rfl (List.cons_ne_nil _ _)
      have reads := reads_call (reads_junction kind) headHypothesis.1.argument restArgues
      refine ⟨grouped_of_reads rfl rfl rfl (argument_of_condition rfl rfl) ?_, ?_⟩
      · rw [text, chain, losesGrouping, anyLosesGrouping]
        exact reads
      · intro _ _ same _
        cases same
        rw [chain, anyLosesGrouping]
        exact argues_of_reads reads
  | compare comparison leftDenotes rightDenotes leftHypothesis rightHypothesis =>
      refine ⟨grouped_of_reads rfl rfl rfl (argument_of_condition rfl rfl) ?_,
        fun _ _ same => by cases same⟩
      rw [text, losesGrouping]
      exact reads_call (reads_comparison comparison) leftHypothesis.1.argument
        rightHypothesis.1.argument
  | hasType denotes tokenFree noQuote inductionHypothesis =>
      next operand term type =>
      have print : Reads "printf" (some [.function "printf".toList]) :=
        reads_word (by decide +kernel) rfl
      have verb : Argues (quote "%T") (unlessLost false (.string "%T".toList)) :=
        ⟨_, reads_quote (by decide +kernel) (by decide +kernel), .one _⟩
      have typeArgues : Argues (quote type) (unlessLost false (.string type.toList)) :=
        ⟨_, reads_quote tokenFree noQuote, .one _⟩
      have printed := argues_of_reads (reads_call print verb inductionHypothesis.1.argument)
      have reads := reads_call (reads_comparison .equal) typeArgues printed
      have sameText : (Expr.hasType operand type).text =
          "(" ++ Comparison.equal.function ++ " " ++ quote type ++ " " ++
            ("(" ++ "printf" ++ " " ++ quote "%T" ++ " " ++ operand.argument ++ ")") ++ ")" := by
        have words : " (printf " = " " ++ "(" ++ "printf" ++ " " := by decide
        have ends : "))" = ")" ++ ")" := by decide
        rw [text, words, ends]
        simp only [String.append_assoc]
        rfl
      refine ⟨grouped_of_reads rfl rfl rfl (argument_of_condition rfl rfl) ?_,
        fun _ _ same => by cases same⟩
      rw [sameText, losesGrouping]
      exact reads

theorem Denotes.grouped {expr : Expr} {term : Term} (denotes : expr.Denotes term) :
    expr.Grouped term :=
  denotes.grouped_and_chain.1

/-- What stands behind the keyword of a conditional block. -/
def condition (expr : Expr) (negated : Bool) : String :=
  (if negated then "not " else "") ++ expr.header negated

theorem ifAction_header (expr : Expr) (negated : Bool) :
    ifAction (expr.header negated) negated = action ("if " ++ expr.condition negated) := by
  have words : "if not " = "if " ++ "not " := by decide
  cases negated with
  | false => simp [ifAction, condition]
  | true =>
      simp only [ifAction, condition, if_true, words]
      rw [String.append_assoc]

/-- Reading the text of an expression gives the tree that it was built to be, and its
text as an argument is exactly one argument, if and only if no length stands as the
only condition of a junction in an argument. -/
theorem grouping_kept_unless_bare_length {expr : Expr} {term : Term}
    (denotes : expr.Denotes term) :
    readPipeline? expr.text = (if expr.losesGrouping then none else some term) ∧
    readArgument? expr.argument = (if expr.losesGroupingAsArgument then none else some term) ∧
    ∀ negated,
      ifAction (expr.header negated) negated = action ("if " ++ expr.condition negated) ∧
      readPipeline? (expr.condition negated) =
        if negated then
          if expr.losesGroupingAsArgument then none else some (.call "not".toList [term] [])
        else if expr.losesGrouping then none else some term := by
  have grouped := denotes.grouped
  refine ⟨grouped.alone.readPipeline?, grouped.argument.readArgument?, ?_⟩
  intro negated
  refine ⟨ifAction_header expr negated, ?_⟩
  cases negated with
  | false =>
      have sameText : expr.condition false = expr.text := by
        simp [condition, header]
      rw [sameText]
      exact grouped.alone.readPipeline?
  | true =>
      have sameText : expr.condition true = (Expr.not expr).text := by
        rw [text]
        rfl
      have lost : (Expr.not expr).losesGrouping = expr.losesGroupingAsArgument := by
        rw [losesGrouping]
        rfl
      rw [sameText, ← lost]
      exact grouped.not.alone.readPipeline?

/-- Whether as many items as `count` says are three. -/
def countsThree (count : Expr) : Expr :=
  .compare .equal count (.literal (.whole 3))

def itemCount : Expr :=
  .ref (DataRef.length ⟨".items"⟩)

def threeItems : Term :=
  .call "eq".toList [.call "len".toList [.name ".items".toList] [], .number "3".toList] []

theorem denotes_itemCount : itemCount.Denotes (.call "len".toList [.name ".items".toList] []) :=
  .length (.root ⟨by decide +kernel, '.', "items".toList, by decide +kernel, Or.inl rfl⟩)

theorem denotes_countsThree {count : Expr}
    (denotes : count.Denotes (.call "len".toList [.name ".items".toList] [])) :
    (countsThree count).Denotes threeItems :=
  .compare .equal denotes (.whole 3)

/-- The same condition on a length, which loses its grouping in a junction of one item. -/
theorem itemCount_grouping :
    readPipeline? (countsThree itemCount).text = some threeItems ∧
    readPipeline? (countsThree (.junction .all [itemCount])).text = none := by
  have direct := grouping_kept_unless_bare_length (denotes_countsThree denotes_itemCount)
  have joined := grouping_kept_unless_bare_length
    (denotes_countsThree (.single .all denotes_itemCount))
  exact ⟨direct.1, joined.1⟩

end Expr

end Sitewright.Template

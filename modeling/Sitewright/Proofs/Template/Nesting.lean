import Sitewright.Proofs.Text.Brace

/-!
Contract: texts whose template actions form properly nested blocks.

Two opening braces begin an action and the first two closing braces after them end
it. The first word of an action says whether it opens a block, splits one, or closes
one.

Owns:
- `scan`, the actions of a text from left to right;
- `Nested`, the grammar of blocks, and `closes`, a decision by a stack of open blocks;
- `Weaves`, texts put together from characters and whole actions;
- inert texts, which have no blocks, and balanced texts, whose blocks are nested.

Does not own: which texts a render writes.
-/

namespace Sitewright.Template

open Text

/-! ## Actions -/

/-- What an action does to the blocks of a template. -/
inductive ActionKind where
  | plain
  | conditional
  | loop
  | otherwise
  | close
deriving DecidableEq, Repr

/-- Whether a character belongs to a word of the template language. -/
def isWordChar (character : Char) : Bool :=
  character.isAlphanum || character = '_'

/-- The word that an action begins with, apart from white space. -/
def firstWord (pipeline : List Char) : List Char :=
  (pipeline.dropWhile Char.isWhitespace).takeWhile isWordChar

/-- The words that open, split or close a block. -/
def keywords : List (List Char) :=
  [['i', 'f'], ['r', 'a', 'n', 'g', 'e'], ['e', 'l', 's', 'e'], ['e', 'n', 'd']]

namespace ActionKind

def ofWord (word : List Char) : ActionKind :=
  if word = ['i', 'f'] then .conditional
  else if word = ['r', 'a', 'n', 'g', 'e'] then .loop
  else if word = ['e', 'l', 's', 'e'] then .otherwise
  else if word = ['e', 'n', 'd'] then .close
  else .plain

def ofPipeline (pipeline : List Char) : ActionKind :=
  ofWord (firstWord pipeline)

theorem ofWord_eq_plain {word : List Char} (noKeyword : word ∉ keywords) :
    ofWord word = .plain := by
  simp only [keywords, List.mem_cons, List.not_mem_nil, or_false, not_or] at noKeyword
  obtain ⟨noIf, noRange, noElse, noEnd⟩ := noKeyword
  unfold ofWord
  rw [if_neg noIf, if_neg noRange, if_neg noElse, if_neg noEnd]

/-- What does not begin with a keyword, apart from white space, is a plain action. -/
theorem ofPipeline_eq_plain {pipeline : List Char}
    (start : ∀ keyword ∈ keywords, ¬ keyword <+: pipeline.dropWhile Char.isWhitespace) :
    ofPipeline pipeline = .plain := by
  apply ofWord_eq_plain
  intro member
  exact start _ member (List.takeWhile_prefix isWordChar)

end ActionKind

/-- The kinds of the actions in a text, or `none` if the last action has no end. The
text may begin inside an action, whose pipeline is known up to there. -/
def scan : (inside : Option (List Char)) → List Char → Option (List ActionKind)
  | none, [] => some []
  | none, '\x7b' :: '\x7b' :: rest => scan (some []) rest
  | none, _ :: rest => scan none rest
  | some _, [] => none
  | some pipeline, '\x7d' :: '\x7d' :: rest =>
      (scan none rest).map (ActionKind.ofPipeline pipeline :: ·)
  | some pipeline, character :: rest => scan (some (pipeline ++ [character])) rest

/-! ## Blocks -/

/-- Loops and conditionals are closed, and only a conditional has an alternative,
at most one and directly inside. -/
inductive Nested : List ActionKind → Prop where
  | nil : Nested []
  | plain {rest : List ActionKind} (after : Nested rest) : Nested (.plain :: rest)
  | loop {body rest : List ActionKind} (inside : Nested body) (after : Nested rest) :
      Nested (.loop :: body ++ .close :: rest)
  | conditional {body rest : List ActionKind} (inside : Nested body) (after : Nested rest) :
      Nested (.conditional :: body ++ .close :: rest)
  | alternative {body other rest : List ActionKind} (inside : Nested body)
      (alternative : Nested other) (after : Nested rest) :
      Nested (.conditional :: body ++ .otherwise :: other ++ .close :: rest)

/-- A block that is still open. A conditional may have come to its alternative. -/
inductive OpenBlock where
  | loop
  | conditional
  | alternative
deriving DecidableEq, Repr

/-- Whether the actions close exactly the open blocks, the innermost first, and all
blocks that they open themselves. -/
def closes : List OpenBlock → List ActionKind → Bool
  | [], [] => true
  | _ :: _, [] => false
  | blocks, .plain :: rest => closes blocks rest
  | blocks, .loop :: rest => closes (.loop :: blocks) rest
  | blocks, .conditional :: rest => closes (.conditional :: blocks) rest
  | .conditional :: blocks, .otherwise :: rest => closes (.alternative :: blocks) rest
  | _, .otherwise :: _ => false
  | _ :: blocks, .close :: rest => closes blocks rest
  | [], .close :: _ => false

theorem Nested.append {front back : List ActionKind} (frontNested : Nested front)
    (backNested : Nested back) : Nested (front ++ back) := by
  induction frontNested with
  | nil => exact backNested
  | plain _ inductionHypothesis => exact .plain inductionHypothesis
  | loop inside _ _ inductionHypothesis =>
      simpa using Nested.loop inside inductionHypothesis
  | conditional inside _ _ inductionHypothesis =>
      simpa using Nested.conditional inside inductionHypothesis
  | alternative inside other _ _ _ inductionHypothesis =>
      simpa using Nested.alternative inside other inductionHypothesis

theorem nested_of_forall_plain {kinds : List ActionKind}
    (plain : ∀ kind ∈ kinds, kind = .plain) : Nested kinds := by
  induction kinds with
  | nil => exact .nil
  | cons first rest inductionHypothesis =>
      rw [plain first List.mem_cons_self]
      exact .plain
        (inductionHypothesis fun kind member => plain kind (List.mem_cons_of_mem _ member))

/-- Whole blocks do not touch the blocks around them. -/
theorem Nested.closes_append {front : List ActionKind} (nested : Nested front)
    (blocks : List OpenBlock) (back : List ActionKind) :
    closes blocks (front ++ back) = closes blocks back := by
  induction nested generalizing blocks back with
  | nil => rfl
  | plain _ inductionHypothesis => simpa [closes] using inductionHypothesis blocks back
  | loop _ _ insideHypothesis afterHypothesis =>
      simp [closes, insideHypothesis, afterHypothesis]
  | conditional _ _ insideHypothesis afterHypothesis =>
      simp [closes, insideHypothesis, afterHypothesis]
  | alternative _ _ _ insideHypothesis otherHypothesis afterHypothesis =>
      simp [closes, insideHypothesis, otherHypothesis, afterHypothesis]

/-- What actions consist of that close the open blocks. -/
def Completes : List OpenBlock → List ActionKind → Prop
  | [], kinds => Nested kinds
  | block :: blocks, kinds =>
      (∃ body rest, Nested body ∧ Completes blocks rest ∧ kinds = body ++ .close :: rest) ∨
        block = .conditional ∧ ∃ body other rest, Nested body ∧ Nested other ∧
          Completes blocks rest ∧ kinds = body ++ .otherwise :: other ++ .close :: rest

/-- A block in front of the actions belongs to the body of the innermost open block. -/
theorem Completes.prepend {front : List ActionKind} (nested : Nested front)
    {blocks : List OpenBlock} {kinds : List ActionKind} (completes : Completes blocks kinds) :
    Completes blocks (front ++ kinds) := by
  cases blocks with
  | nil => exact nested.append completes
  | cons block blocks =>
      rcases completes with ⟨body, rest, inside, after, rfl⟩ |
        ⟨isConditional, body, other, rest, inside, alternative, after, rfl⟩
      · exact Or.inl ⟨front ++ body, rest, nested.append inside, after, by simp⟩
      · exact Or.inr ⟨isConditional, front ++ body, other, rest, nested.append inside,
          alternative, after, by simp⟩

theorem completes_of_closes {blocks : List OpenBlock} {kinds : List ActionKind}
    (closed : closes blocks kinds = true) : Completes blocks kinds := by
  -- The stack changes at each action, so the induction is on the decision itself and
  -- each case gives back the block that the action opened, split or closed.
  fun_induction closes blocks kinds with
  | case1 => exact .nil
  | case2 => cases closed
  | case3 blocks rest inductionHypothesis =>
      exact (inductionHypothesis closed).prepend (.plain .nil)
  | case4 blocks rest inductionHypothesis =>
      rcases inductionHypothesis closed with ⟨body, rest, inside, after, rfl⟩ | ⟨absurd, -⟩
      · simpa using after.prepend (.loop inside .nil)
      · cases absurd
  | case5 blocks rest inductionHypothesis =>
      rcases inductionHypothesis closed with ⟨body, rest, inside, after, rfl⟩ |
        ⟨-, body, other, rest, inside, alternative, after, rfl⟩
      · simpa using after.prepend (.conditional inside .nil)
      · simpa using after.prepend (.alternative inside alternative .nil)
  | case6 blocks rest inductionHypothesis =>
      -- A second alternative of the same conditional is impossible.
      rcases inductionHypothesis closed with ⟨body, rest, inside, after, rfl⟩ | ⟨absurd, -⟩
      · exact Or.inr ⟨rfl, [], body, rest, .nil, inside, after, rfl⟩
      · cases absurd
  | case7 => cases closed
  | case8 block blocks rest inductionHypothesis =>
      exact Or.inl ⟨[], rest, .nil, inductionHypothesis closed, rfl⟩
  | case9 => cases closed

/-- The grammar and the stack of open blocks agree. -/
theorem nested_iff {kinds : List ActionKind} : Nested kinds ↔ closes [] kinds = true := by
  constructor
  · intro nested
    have whole := nested.closes_append [] []
    simpa [closes] using whole
  · exact completes_of_closes

instance : DecidablePred Nested := fun _ => decidable_of_iff _ nested_iff.symm

/-- A text whose actions are all closed and form properly nested blocks. -/
def WellNested (text : String) : Prop :=
  ∃ kinds, scan none text.toList = some kinds ∧ Nested kinds

instance : DecidablePred WellNested := fun text =>
  match scanned : scan none text.toList with
  | none => .isFalse (by simp [WellNested, scanned])
  | some kinds => decidable_of_iff (Nested kinds) (by simp [WellNested, scanned])

example : WellNested
    "\x7b\x7bif .a\x7d\x7d\x7b\x7b.b\x7d\x7d\x7b\x7belse\x7d\x7d\x7b \x7b\x7bend\x7d\x7d" := by
  decide +kernel
example : ¬ WellNested
    "\x7b\x7brange .a\x7d\x7d\x7b\x7belse\x7d\x7d\x7b\x7bend\x7d\x7d" := by
  decide +kernel

/-! ## Texts put together from characters and actions -/

/-- Characters and whole actions in a row. A single opening brace must be followed by
another character, so that what is put behind the text cannot complete it. -/
inductive Weaves : List Char → List ActionKind → Prop where
  | nil : Weaves [] []
  | character {character : Char} {rest : List Char} {kinds : List ActionKind}
      (different : character ≠ '\x7b') (after : Weaves rest kinds) :
      Weaves (character :: rest) kinds
  | brace {character : Char} {rest : List Char} {kinds : List ActionKind}
      (different : character ≠ '\x7b') (after : Weaves rest kinds) :
      Weaves ('\x7b' :: character :: rest) kinds
  | action {pipeline rest : List Char} {kinds : List ActionKind}
      (free : ∀ character ∈ pipeline, ¬ IsBrace character) (after : Weaves rest kinds) :
      Weaves ('\x7b' :: '\x7b' :: pipeline ++ '\x7d' :: '\x7d' :: rest)
        (.ofPipeline pipeline :: kinds)

/-- The first two closing braces end the action. -/
theorem scan_pipeline {pipeline : List Char} (free : ∀ character ∈ pipeline, ¬ IsBrace character)
    (start rest : List Char) :
    scan (some start) (pipeline ++ '\x7d' :: '\x7d' :: rest) =
      (scan none rest).map (ActionKind.ofPipeline (start ++ pipeline) :: ·) := by
  induction pipeline generalizing start with
  | nil => simp [scan]
  | cons first others inductionHypothesis =>
      have notClosing : first ≠ '\x7d' := fun same => free first List.mem_cons_self (Or.inr same)
      have othersFree : ∀ character ∈ others, ¬ IsBrace character :=
        fun character member => free character (List.mem_cons_of_mem _ member)
      have step : scan (some start) (first :: (others ++ '\x7d' :: '\x7d' :: rest)) =
          scan (some (start ++ [first])) (others ++ '\x7d' :: '\x7d' :: rest) := by
        rw [scan]
        simp [notClosing]
      rw [List.cons_append, step, inductionHypothesis othersFree, List.append_assoc,
        List.singleton_append]

theorem Weaves.scan {characters : List Char} {kinds : List ActionKind}
    (weaves : Weaves characters kinds) : scan none characters = some kinds := by
  induction weaves with
  | nil => rfl
  | @character first rest kinds different _ inductionHypothesis =>
      rw [Template.scan]
      · exact inductionHypothesis
      · simp [different]
  | @brace second rest kinds different _ inductionHypothesis =>
      -- The character behind the brace keeps it from beginning an action.
      have afterBrace : Template.scan none (second :: rest) = some kinds := by
        rw [Template.scan]
        · exact inductionHypothesis
        · simp [different]
      rw [Template.scan]
      · exact afterBrace
      · simp [different]
  | action free _ inductionHypothesis =>
      rw [List.cons_append, List.cons_append, Template.scan, scan_pipeline free,
        inductionHypothesis]
      rfl

theorem Weaves.append {front back : List Char} {frontKinds backKinds : List ActionKind}
    (frontWeaves : Weaves front frontKinds) (backWeaves : Weaves back backKinds) :
    Weaves (front ++ back) (frontKinds ++ backKinds) := by
  induction frontWeaves with
  | nil => exact backWeaves
  | character different _ inductionHypothesis => exact .character different inductionHypothesis
  | brace different _ inductionHypothesis => exact .brace different inductionHypothesis
  | action free _ inductionHypothesis =>
      simpa using Weaves.action free inductionHypothesis

theorem weaves_of_free {characters : List Char}
    (free : ∀ character ∈ characters, ¬ IsBrace character) : Weaves characters [] := by
  induction characters with
  | nil => exact .nil
  | cons first rest inductionHypothesis =>
      have notOpening : first ≠ '\x7b' := fun same => free first List.mem_cons_self (Or.inl same)
      have restFree : ∀ character ∈ rest, ¬ IsBrace character :=
        fun character member => free character (List.mem_cons_of_mem _ member)
      exact .character notOpening (inductionHypothesis restFree)

/-- A text without blocks, in which references may be written. -/
def Inert (text : String) : Prop :=
  ∃ kinds, Weaves text.toList kinds ∧ ∀ kind ∈ kinds, kind = .plain

/-- A text whose blocks are properly nested wherever it stands. -/
def Balanced (text : String) : Prop :=
  ∃ kinds, Weaves text.toList kinds ∧ Nested kinds

theorem Inert.balanced {text : String} (inert : Inert text) : Balanced text := by
  obtain ⟨kinds, weaves, plain⟩ := inert
  exact ⟨kinds, weaves, nested_of_forall_plain plain⟩

theorem Balanced.wellNested {text : String} (balanced : Balanced text) : WellNested text := by
  obtain ⟨kinds, weaves, nested⟩ := balanced
  exact ⟨kinds, weaves.scan, nested⟩

theorem inert_of_braceFree {text : String} (free : BraceFree text) : Inert text :=
  ⟨[], weaves_of_free free, by simp⟩

theorem Inert.append {left right : String} (leftInert : Inert left) (rightInert : Inert right) :
    Inert (left ++ right) := by
  obtain ⟨leftKinds, leftWeaves, leftPlain⟩ := leftInert
  obtain ⟨rightKinds, rightWeaves, rightPlain⟩ := rightInert
  refine ⟨leftKinds ++ rightKinds, ?_, ?_⟩
  · rw [String.toList_append]
    exact leftWeaves.append rightWeaves
  · intro kind member
    rcases List.mem_append.mp member with inLeft | inRight
    · exact leftPlain kind inLeft
    · exact rightPlain kind inRight

theorem Balanced.append {left right : String} (leftBalanced : Balanced left)
    (rightBalanced : Balanced right) : Balanced (left ++ right) := by
  obtain ⟨leftKinds, leftWeaves, leftNested⟩ := leftBalanced
  obtain ⟨rightKinds, rightWeaves, rightNested⟩ := rightBalanced
  refine ⟨leftKinds ++ rightKinds, ?_, leftNested.append rightNested⟩
  rw [String.toList_append]
  exact leftWeaves.append rightWeaves

theorem Inert.joinWith {separator : String} {texts : List String} (separatorInert : Inert separator)
    (inert : ∀ text ∈ texts, Inert text) : Inert (Text.joinWith separator texts) := by
  fun_induction Text.joinWith separator texts with
  | case1 => exact inert_of_braceFree braceFree_empty
  | case2 last => exact inert last (by simp)
  | case3 head next rest inductionHypothesis =>
      have headInert : Inert head := inert head (by simp)
      have restInert := inductionHypothesis fun text member => inert text (by simp_all)
      exact (headInert.append separatorInert).append restInert

/-! ## What the library writes -/

theorem weaves_action {pipeline : String} (free : BraceFree pipeline) :
    Weaves (action pipeline).toList [.ofPipeline pipeline.toList] := by
  have written := Weaves.action free .nil
  simpa [action] using written

theorem inert_action {pipeline : String} (free : BraceFree pipeline)
    (plain : ActionKind.ofPipeline pipeline.toList = .plain) : Inert (action pipeline) := by
  refine ⟨_, weaves_action free, ?_⟩
  intro kind member
  rw [List.mem_singleton.mp member]
  exact plain

theorem weaves_endAction : Weaves endAction.toList [.close] := by
  have free : BraceFree "end" := by decide
  have kind : ActionKind.ofPipeline "end".toList = .close := by decide
  rw [← kind]
  exact weaves_action free

theorem weaves_elseAction : Weaves (action "else").toList [.otherwise] := by
  have free : BraceFree "else" := by decide
  have kind : ActionKind.ofPipeline "else".toList = .otherwise := by decide
  rw [← kind]
  exact weaves_action free

theorem weaves_lineBreak : Weaves "\n".toList [] :=
  weaves_of_free (by decide : BraceFree "\n")

theorem weaves_ifAction {condition : String} (free : BraceFree condition) (negated : Bool) :
    Weaves (ifAction condition negated).toList [.conditional] := by
  cases negated with
  | true =>
      have keyword : BraceFree "if not " := by decide
      have kind : ActionKind.ofPipeline ("if not " ++ condition).toList = .conditional := by
        rw [String.toList_append]
        rfl
      rw [← kind]
      exact weaves_action (keyword.append free)
  | false =>
      have keyword : BraceFree "if " := by decide
      have kind : ActionKind.ofPipeline ("if " ++ condition).toList = .conditional := by
        rw [String.toList_append]
        rfl
      rw [← kind]
      exact weaves_action (keyword.append free)

/-- The header of a loop. -/
theorem rangeHeader_loop {position element source : String} (positionFree : BraceFree position)
    (elementFree : BraceFree element) (sourceFree : BraceFree source) :
    BraceFree ("range " ++ position ++ ", " ++ element ++ " := " ++ source) ∧
      ActionKind.ofPipeline
        ("range " ++ position ++ ", " ++ element ++ " := " ++ source).toList = .loop := by
  have keyword : BraceFree "range " := by decide
  have comma : BraceFree ", " := by decide
  have binding : BraceFree " := " := by decide
  constructor
  · exact ((((keyword.append positionFree).append comma).append elementFree).append
      binding).append sourceFree
  · rw [String.append_assoc, String.append_assoc, String.append_assoc, String.append_assoc,
      String.toList_append]
    rfl

/-- A loop around a balanced body. -/
theorem balanced_rangeBlock {position element source body : String}
    (positionFree : BraceFree position) (elementFree : BraceFree element)
    (sourceFree : BraceFree source) (balanced : Balanced body) :
    Balanced (rangeBlock position element source body) := by
  obtain ⟨header, kind⟩ := rangeHeader_loop positionFree elementFree sourceFree
  obtain ⟨kinds, weaves, nested⟩ := balanced
  have opened := weaves_action header
  rw [kind] at opened
  refine ⟨_, ?_, Nested.loop nested .nil⟩
  have whole := (((opened.append weaves_lineBreak).append weaves).append weaves_lineBreak).append
    weaves_endAction
  simpa [rangeBlock] using whole

/-- A conditional around a balanced body and a balanced alternative. -/
theorem balanced_ifBlock {condition body : String} {alternative : Option String}
    (free : BraceFree condition) (negated : Bool) (balanced : Balanced body)
    (alternativeBalanced : ∀ other ∈ alternative, Balanced other) :
    Balanced (ifBlock condition negated body alternative) := by
  obtain ⟨kinds, weaves, nested⟩ := balanced
  have opened := ((weaves_ifAction free negated).append weaves_lineBreak).append
    (weaves.append weaves_lineBreak)
  cases alternative with
  | none =>
      refine ⟨_, ?_, Nested.conditional nested .nil⟩
      have whole := opened.append weaves_endAction
      simpa [ifBlock] using whole
  | some other =>
      obtain ⟨otherKinds, otherWeaves, otherNested⟩ := alternativeBalanced other rfl
      refine ⟨_, ?_, Nested.alternative nested otherNested .nil⟩
      have split := (weaves_elseAction.append weaves_lineBreak).append
        (otherWeaves.append weaves_lineBreak)
      have whole := opened.append (split.append weaves_endAction)
      simpa [ifBlock] using whole

end Sitewright.Template

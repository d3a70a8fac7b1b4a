import Sitewright.Proofs.Template.Variables

/-!
Contract: texts whose loop variables are used inside the blocks of their loops.

Owns:
- `actions`, the pipelines of a text from left to right;
- `LoopsInScope`, a decision by a stack of the variables of open blocks;
- `Spells`, texts put together from characters and whole actions;
- texts that speak only of given variables, and texts whose blocks are settled.

Does not own: which texts a render writes.
-/

namespace Sitewright.Template

open Text

/-! ## Scopes -/

/-- The pipelines of the actions in a text, or `none` if the last action has no end.
The text may begin inside an action, whose pipeline is known up to there. -/
def actions : (inside : Option (List Char)) → List Char → Option (List (List Char))
  | none, [] => some []
  | none, '\x7b' :: '\x7b' :: rest => actions (some []) rest
  | none, _ :: rest => actions none rest
  | some _, [] => none
  | some pipeline, '\x7d' :: '\x7d' :: rest => (actions none rest).map (pipeline :: ·)
  | some pipeline, character :: rest => actions (some (pipeline ++ [character])) rest

/-- Whether one of the open blocks declares the variable. -/
def isVisible (blocks : List (List Variable)) (name : Variable) : Bool :=
  blocks.any fun names => names.contains name

/-- Whether every action uses only variables of blocks that are open there, and the
actions close exactly the open blocks and those that they open themselves. -/
def inScope : (blocks : List (List Variable)) → (pipelines : List (List Char)) → Bool
  | blocks, [] => blocks.isEmpty
  | blocks, pipeline :: rest =>
      (used pipeline).all (isVisible blocks) &&
        match ActionKind.ofPipeline pipeline, blocks with
        | .plain, blocks => inScope blocks rest
        | .otherwise, blocks => inScope blocks rest
        | .conditional, blocks => inScope ([] :: blocks) rest
        | .loop, blocks => inScope (declared pipeline :: blocks) rest
        | .close, _ :: outer => inScope outer rest
        | .close, [] => false

/-- A text in which every loop variable is used inside the block of the loop that
declares it, and no two loops declare the same. -/
def LoopsInScope (text : String) : Prop :=
  ∃ pipelines, actions none text.toList = some pipelines ∧ inScope [] pipelines = true ∧
    (pipelines.flatMap declared).Nodup

instance : DecidablePred LoopsInScope := fun text =>
  match read : actions none text.toList with
  | none => .isFalse (by simp [LoopsInScope, read])
  | some pipelines =>
      decidable_of_iff (inScope [] pipelines = true ∧ (pipelines.flatMap declared).Nodup)
        (by simp [LoopsInScope, read])

example : LoopsInScope
    "\x7b\x7brange $_i0_key, $_i0 := .a\x7d\x7d\x7b\x7b$_i0.b\x7d\x7d\x7b\x7bend\x7d\x7d" := by
  decide +kernel
example : ¬ LoopsInScope
    "\x7b\x7brange $_i0_key, $_i0 := .a\x7d\x7d\x7b\x7bend\x7d\x7d\x7b\x7b$_i0.b\x7d\x7d" := by
  decide +kernel

/-! ## Texts put together from characters and actions -/

/-- Characters and whole actions in a row, as in `Weaves`, with the pipelines kept. -/
inductive Spells : List Char → List (List Char) → Prop where
  | nil : Spells [] []
  | character {character : Char} {rest : List Char} {pipelines : List (List Char)}
      (different : character ≠ '\x7b') (after : Spells rest pipelines) :
      Spells (character :: rest) pipelines
  | brace {character : Char} {rest : List Char} {pipelines : List (List Char)}
      (different : character ≠ '\x7b') (after : Spells rest pipelines) :
      Spells ('\x7b' :: character :: rest) pipelines
  | action {pipeline rest : List Char} {pipelines : List (List Char)}
      (free : ∀ character ∈ pipeline, ¬ IsBrace character) (after : Spells rest pipelines) :
      Spells ('\x7b' :: '\x7b' :: pipeline ++ '\x7d' :: '\x7d' :: rest) (pipeline :: pipelines)

/-- The first two closing braces end the action. -/
theorem actions_pipeline {pipeline : List Char}
    (free : ∀ character ∈ pipeline, ¬ IsBrace character) (start rest : List Char) :
    actions (some start) (pipeline ++ '\x7d' :: '\x7d' :: rest) =
      (actions none rest).map ((start ++ pipeline) :: ·) := by
  induction pipeline generalizing start with
  | nil => simp [actions]
  | cons first others inductionHypothesis =>
      have notClosing : first ≠ '\x7d' := fun same => free first List.mem_cons_self (Or.inr same)
      have othersFree : ∀ character ∈ others, ¬ IsBrace character :=
        fun character member => free character (List.mem_cons_of_mem _ member)
      have step : actions (some start) (first :: (others ++ '\x7d' :: '\x7d' :: rest)) =
          actions (some (start ++ [first])) (others ++ '\x7d' :: '\x7d' :: rest) := by
        rw [actions]
        simp [notClosing]
      rw [List.cons_append, step, inductionHypothesis othersFree, List.append_assoc,
        List.singleton_append]

namespace Spells

theorem actions {characters : List Char} {pipelines : List (List Char)}
    (spells : Spells characters pipelines) : actions none characters = some pipelines := by
  induction spells with
  | nil => rfl
  | @character first rest pipelines different _ inductionHypothesis =>
      rw [Template.actions]
      · exact inductionHypothesis
      · simp [different]
  | @brace second rest pipelines different _ inductionHypothesis =>
      -- The character behind the brace keeps it from beginning an action.
      have afterBrace : Template.actions none (second :: rest) = some pipelines := by
        rw [Template.actions]
        · exact inductionHypothesis
        · simp [different]
      rw [Template.actions]
      · exact afterBrace
      · simp [different]
  | action free _ inductionHypothesis =>
      rw [List.cons_append, List.cons_append, Template.actions, actions_pipeline free,
        inductionHypothesis]
      rfl

theorem weaves {characters : List Char} {pipelines : List (List Char)}
    (spells : Spells characters pipelines) :
    Weaves characters (pipelines.map ActionKind.ofPipeline) := by
  induction spells with
  | nil => exact .nil
  | character different _ inductionHypothesis => exact .character different inductionHypothesis
  | brace different _ inductionHypothesis => exact .brace different inductionHypothesis
  | action free _ inductionHypothesis => exact .action free inductionHypothesis

theorem append {front back : List Char} {frontPipelines backPipelines : List (List Char)}
    (frontSpells : Spells front frontPipelines) (backSpells : Spells back backPipelines) :
    Spells (front ++ back) (frontPipelines ++ backPipelines) := by
  induction frontSpells with
  | nil => exact backSpells
  | character different _ inductionHypothesis => exact .character different inductionHypothesis
  | brace different _ inductionHypothesis => exact .brace different inductionHypothesis
  | action free _ inductionHypothesis =>
      simpa using Spells.action free inductionHypothesis

theorem of_free {characters : List Char}
    (free : ∀ character ∈ characters, ¬ IsBrace character) : Spells characters [] := by
  induction characters with
  | nil => exact .nil
  | cons first rest inductionHypothesis =>
      have notOpening : first ≠ '\x7b' := fun same => free first List.mem_cons_self (Or.inl same)
      have restFree : ∀ character ∈ rest, ¬ IsBrace character :=
        fun character member => free character (List.mem_cons_of_mem _ member)
      exact .character notOpening (inductionHypothesis restFree)

theorem of_action {pipeline : String} (free : BraceFree pipeline) :
    Spells (Template.action pipeline).toList [pipeline.toList] := by
  have written := Spells.action free .nil
  simpa [Template.action] using written

theorem infix_of_mem {characters pipeline : List Char} {pipelines : List (List Char)}
    (spells : Spells characters pipelines) (member : pipeline ∈ pipelines) :
    pipeline <:+: characters := by
  induction spells with
  | nil => cases member
  | character _ _ inductionHypothesis =>
      exact (inductionHypothesis member).trans (List.suffix_cons _ _).isInfix
  | @brace second rest _ _ _ inductionHypothesis =>
      have ending : rest <:+ '\x7b' :: second :: rest := ⟨['\x7b', second], rfl⟩
      exact (inductionHypothesis member).trans ending.isInfix
  | @action written rest others _ _ inductionHypothesis =>
      rcases List.mem_cons.mp member with rfl | inOthers
      · exact ⟨['\x7b', '\x7b'], '\x7d' :: '\x7d' :: rest, by simp⟩
      · have ending : rest <:+ '\x7b' :: '\x7b' :: written ++ '\x7d' :: '\x7d' :: rest :=
          ⟨'\x7b' :: '\x7b' :: written ++ ['\x7d', '\x7d'], by simp⟩
        exact (inductionHypothesis inOthers).trans ending.isInfix

end Spells

/-- What is put together has pipelines for its actions. -/
theorem Weaves.spells {characters : List Char} {kinds : List ActionKind}
    (weaves : Weaves characters kinds) :
    ∃ pipelines, Spells characters pipelines ∧ pipelines.map ActionKind.ofPipeline = kinds := by
  induction weaves with
  | nil => exact ⟨[], .nil, rfl⟩
  | character different _ inductionHypothesis =>
      obtain ⟨pipelines, spells, same⟩ := inductionHypothesis
      exact ⟨pipelines, .character different spells, same⟩
  | brace different _ inductionHypothesis =>
      obtain ⟨pipelines, spells, same⟩ := inductionHypothesis
      exact ⟨pipelines, .brace different spells, same⟩
  | action free _ inductionHypothesis =>
      obtain ⟨pipelines, spells, same⟩ := inductionHypothesis
      exact ⟨_, .action free spells, by rw [List.map_cons, same]⟩

/-! ## Texts without blocks -/

/-- A text without blocks whose actions use only the given loop variables. -/
def Speaks (names : Names) (text : String) : Prop :=
  ∃ pipelines, Spells text.toList pipelines ∧ ∀ pipeline ∈ pipelines,
    ActionKind.ofPipeline pipeline = .plain ∧ ∀ name ∈ loopVariables pipeline, names name

namespace Speaks

variable {names : Names} {text : String}

theorem mono {more : Names} (included : ∀ name, names name → more name)
    (speaks : Speaks names text) : Speaks more text := by
  obtain ⟨pipelines, spells, plain⟩ := speaks
  refine ⟨pipelines, spells, ?_⟩
  intro pipeline member
  obtain ⟨kind, uses⟩ := plain pipeline member
  exact ⟨kind, fun name inPipeline => included name (uses name inPipeline)⟩

theorem inert (speaks : Speaks names text) : Inert text := by
  obtain ⟨pipelines, spells, plain⟩ := speaks
  refine ⟨_, spells.weaves, ?_⟩
  intro kind member
  obtain ⟨pipeline, inPipelines, rfl⟩ := List.mem_map.mp member
  exact (plain pipeline inPipelines).1

theorem of_braceFree (free : BraceFree text) : Speaks names text :=
  ⟨[], .of_free free, by simp⟩

theorem of_action {pipeline : String} (free : BraceFree pipeline)
    (kind : ActionKind.ofPipeline pipeline.toList = .plain) (uses : UsesOnly names pipeline) :
    Speaks names (action pipeline) := by
  refine ⟨[pipeline.toList], .of_action free, ?_⟩
  intro other member
  rw [List.mem_singleton.mp member]
  exact ⟨kind, uses⟩

theorem append {left right : String} (leftSpeaks : Speaks names left)
    (rightSpeaks : Speaks names right) : Speaks names (left ++ right) := by
  obtain ⟨leftPipelines, leftSpells, leftPlain⟩ := leftSpeaks
  obtain ⟨rightPipelines, rightSpells, rightPlain⟩ := rightSpeaks
  refine ⟨leftPipelines ++ rightPipelines, ?_, ?_⟩
  · rw [String.toList_append]
    exact leftSpells.append rightSpells
  · intro pipeline member
    rcases List.mem_append.mp member with inLeft | inRight
    · exact leftPlain pipeline inLeft
    · exact rightPlain pipeline inRight

theorem joinWith {separator : String} {texts : List String} (separatorSpeaks : Speaks names separator)
    (speaks : ∀ text ∈ texts, Speaks names text) : Speaks names (Text.joinWith separator texts) := by
  fun_induction Text.joinWith separator texts with
  | case1 => exact of_braceFree braceFree_empty
  | case2 last => exact speaks last (by simp)
  | case3 head next rest inductionHypothesis =>
      have headSpeaks : Speaks names head := speaks head (by simp)
      have restSpeaks := inductionHypothesis fun text member => speaks text (by simp_all)
      exact (headSpeaks.append separatorSpeaks).append restSpeaks

end Speaks

/-- A string of the user in which no name of a loop variable is written. -/
theorem Inert.speaks_of_noLoopVariable {names : Names} {text : String} (inert : Inert text)
    (literal : ¬ ['$', '_', 'i'] <:+: text.toList) : Speaks names text := by
  obtain ⟨kinds, weaves, plain⟩ := inert
  obtain ⟨pipelines, spells, rfl⟩ := weaves.spells
  refine ⟨pipelines, spells, fun pipeline member => ⟨?_, ?_⟩⟩
  · exact plain _ (List.mem_map_of_mem member)
  · intro name isUsed
    exact absurd ((infix_of_mem_loopVariables isUsed).trans (spells.infix_of_mem member)) literal

theorem Inert.speaks {text : String} (inert : Inert text) : Speaks (fun _ => True) text := by
  obtain ⟨kinds, weaves, plain⟩ := inert
  obtain ⟨pipelines, spells, rfl⟩ := weaves.spells
  refine ⟨pipelines, spells, fun pipeline member => ⟨?_, fun _ _ => trivial⟩⟩
  exact plain _ (List.mem_map_of_mem member)

/-! ## Texts with blocks -/

/-- Actions that use only the given loop variables besides those they declare, and leave
the open blocks as they are. The variables they declare belong to different loops, with
numbers from `first` up to `last`. -/
structure Settled (names : Names) (first last : Nat) (pipelines : List (List Char)) : Prop where
  passes : ∀ (blocks : List (List Variable)) (rest : List (List Char)),
    (∀ name, names name → isVisible blocks name = true) →
      inScope blocks (pipelines ++ rest) = inScope blocks rest
  numbered : ∀ name ∈ pipelines.flatMap declared,
    ∃ number, first ≤ number ∧ number < last ∧ name ∈ variablesOfLoop number
  distinct : (pipelines.flatMap declared).Nodup

namespace Settled

variable {names : Names} {first last : Nat}

theorem nil : Settled names first last [] :=
  ⟨fun _ _ _ => rfl, by simp, by simp⟩

theorem plain {pipeline : List Char} {rest : List (List Char)}
    (kind : ActionKind.ofPipeline pipeline = .plain)
    (uses : ∀ name ∈ loopVariables pipeline, names name) (settled : Settled names first last rest) :
    Settled names first last (pipeline :: rest) := by
  have noLoop : ActionKind.ofPipeline pipeline ≠ .loop := by simp [kind]
  have declares : (pipeline :: rest).flatMap declared = rest.flatMap declared := by
    simp [declared_of_ne_loop noLoop]
  refine ⟨?_, ?_, ?_⟩
  · intro blocks others visible
    have inside : (used pipeline).all (isVisible blocks) = true := by
      rw [used_of_ne_loop noLoop, List.all_eq_true]
      exact fun name member => visible name (uses name member)
    simp only [List.cons_append, inScope, inside, kind, Bool.true_and]
    exact settled.passes blocks others visible
  · rw [declares]
    exact settled.numbered
  · rw [declares]
    exact settled.distinct

theorem widen {least most : Nat} {pipelines : List (List Char)}
    (settled : Settled names first last pipelines) (below : least ≤ first) (above : last ≤ most) :
    Settled names least most pipelines := by
  refine { settled with numbered := ?_ }
  intro name member
  obtain ⟨number, atLeast, lessThan, isName⟩ := settled.numbered name member
  exact ⟨number, by omega, by omega, isName⟩

theorem mono {more : Names} {pipelines : List (List Char)}
    (included : ∀ name, names name → more name) (settled : Settled names first last pipelines) :
    Settled more first last pipelines :=
  { settled with
    passes := fun blocks rest visible =>
      settled.passes blocks rest fun name isName => visible name (included name isName) }

/-- Actions in a row whose loops have different numbers. -/
theorem append {first' last' : Nat} {front back : List (List Char)}
    (frontSettled : Settled names first last front) (backSettled : Settled names first' last' back)
    (apart : last ≤ first' ∨ last' ≤ first) :
    Settled names (min first first') (max last last') (front ++ back) := by
  refine ⟨?_, ?_, ?_⟩
  · intro blocks rest visible
    rw [List.append_assoc, frontSettled.passes blocks _ visible,
      backSettled.passes blocks rest visible]
  · intro name member
    rw [List.flatMap_append] at member
    rcases List.mem_append.mp member with inFront | inBack
    · obtain ⟨number, atLeast, lessThan, isName⟩ := frontSettled.numbered name inFront
      exact ⟨number, by omega, by omega, isName⟩
    · obtain ⟨number, atLeast, lessThan, isName⟩ := backSettled.numbered name inBack
      exact ⟨number, by omega, by omega, isName⟩
  · rw [List.flatMap_append, List.nodup_append]
    refine ⟨frontSettled.distinct, backSettled.distinct, ?_⟩
    rintro name inFront other inBack rfl
    obtain ⟨number, atLeast, lessThan, isName⟩ := frontSettled.numbered name inFront
    obtain ⟨number', atLeast', lessThan', isName'⟩ := backSettled.numbered name inBack
    have same := eq_of_mem_variablesOfLoop isName isName'
    omega

theorem declared_end : declared "end".toList = [] :=
  declared_of_ne_loop (by decide)

theorem declared_else : declared "else".toList = [] :=
  declared_of_ne_loop (by decide)

theorem inScope_end (names : List Variable) (outer : List (List Variable))
    (rest : List (List Char)) :
    inScope (names :: outer) ("end".toList :: rest) = inScope outer rest := by
  have kind : ActionKind.ofPipeline "end".toList = .close := by decide
  have noUse : used "end".toList = [] := by decide
  simp only [inScope, kind, noUse, List.all_nil, Bool.true_and]

theorem inScope_else (blocks : List (List Variable)) (rest : List (List Char)) :
    inScope blocks ("else".toList :: rest) = inScope blocks rest := by
  have kind : ActionKind.ofPipeline "else".toList = .otherwise := by decide
  have noUse : used "else".toList = [] := by decide
  simp only [inScope, kind, noUse, List.all_nil, Bool.true_and]

/-- A loop around settled actions, which may use its variables. -/
theorem loop {header : List Char} {body : List (List Char)}
    (opens : ActionKind.ofPipeline header = .loop) (declares : declared header = variablesOfLoop first)
    (uses : ∀ name ∈ used header, names name)
    (settled : Settled (fun name => name ∈ variablesOfLoop first ∨ names name) (first + 1) last body)
    (ordered : first < last) : Settled names first last (header :: body ++ ["end".toList]) := by
  have all : (header :: body ++ ["end".toList]).flatMap declared =
      variablesOfLoop first ++ body.flatMap declared := by
    rw [List.flatMap_append, List.flatMap_cons, List.flatMap_singleton, declares, declared_end,
      List.append_nil]
  refine ⟨?_, ?_, ?_⟩
  · intro blocks rest visible
    have inside : (used header).all (isVisible blocks) = true :=
      List.all_eq_true.mpr fun name member => visible name (uses name member)
    have bodyVisible : ∀ name, name ∈ variablesOfLoop first ∨ names name →
        isVisible (declared header :: blocks) name = true := by
      rintro name (ofLoop | around)
      · simp [isVisible, declares, ofLoop]
      · simpa [isVisible] using Or.inr (visible name around)
    simp only [List.cons_append, List.append_assoc, inScope, inside, opens, Bool.true_and]
    rw [settled.passes _ _ bodyVisible, List.nil_append, inScope_end]
  · intro name member
    rw [all] at member
    rcases List.mem_append.mp member with ofLoop | ofBody
    · exact ⟨first, Nat.le_refl _, ordered, ofLoop⟩
    · obtain ⟨number, atLeast, lessThan, isName⟩ := settled.numbered name ofBody
      exact ⟨number, by omega, lessThan, isName⟩
  · rw [all, List.nodup_append]
    refine ⟨nodup_variablesOfLoop first, settled.distinct, ?_⟩
    rintro name ofLoop other ofBody rfl
    obtain ⟨number, atLeast, -, isName⟩ := settled.numbered name ofBody
    have same := eq_of_mem_variablesOfLoop ofLoop isName
    omega

/-- The action in front of an alternative. -/
theorem divider : Settled names first last ["else".toList] := by
  have declares : ["else".toList].flatMap declared = [] := by
    rw [List.flatMap_singleton, declared_else]
  refine ⟨fun blocks rest _ => inScope_else blocks rest, ?_, ?_⟩
  · rw [declares]
    simp
  · rw [declares]
    exact List.nodup_nil

/-- A conditional around settled actions, whether or not they are cut by a divider. -/
theorem conditional {header : List Char} {body : List (List Char)}
    (opens : ActionKind.ofPipeline header = .conditional)
    (uses : ∀ name ∈ loopVariables header, names name) (settled : Settled names first last body) :
    Settled names first last (header :: body ++ ["end".toList]) := by
  have noLoop : ActionKind.ofPipeline header ≠ .loop := by simp [opens]
  have all : (header :: body ++ ["end".toList]).flatMap declared = body.flatMap declared := by
    rw [List.flatMap_append, List.flatMap_cons, List.flatMap_singleton, declared_of_ne_loop noLoop,
      declared_end, List.append_nil, List.nil_append]
  refine ⟨?_, ?_, ?_⟩
  · intro blocks rest visible
    have inside : (used header).all (isVisible blocks) = true := by
      rw [used_of_ne_loop noLoop]
      exact List.all_eq_true.mpr fun name member => visible name (uses name member)
    have bodyVisible : ∀ name, names name → isVisible ([] :: blocks) name = true := by
      intro name isName
      simpa [isVisible] using visible name isName
    simp only [List.cons_append, List.append_assoc, inScope, inside, opens, Bool.true_and]
    rw [settled.passes _ _ bodyVisible, List.nil_append, inScope_end]
  · rw [all]
    exact settled.numbered
  · rw [all]
    exact settled.distinct

end Settled

/-- A text of properly nested blocks whose actions are settled. -/
def Enclosed (names : Names) (first last : Nat) (text : String) : Prop :=
  ∃ pipelines, Spells text.toList pipelines ∧ Nested (pipelines.map ActionKind.ofPipeline) ∧
    Settled names first last pipelines

theorem Speaks.enclosed {names : Names} {text : String} (speaks : Speaks names text)
    (first last : Nat) : Enclosed names first last text := by
  obtain ⟨pipelines, spells, plain⟩ := speaks
  refine ⟨pipelines, spells, ?_, ?_⟩
  · apply nested_of_forall_plain
    intro kind member
    obtain ⟨pipeline, inPipelines, rfl⟩ := List.mem_map.mp member
    exact (plain pipeline inPipelines).1
  · clear spells
    induction pipelines with
    | nil => exact .nil
    | cons pipeline rest inductionHypothesis =>
        obtain ⟨kind, uses⟩ := plain pipeline List.mem_cons_self
        exact .plain kind uses
          (inductionHypothesis fun other member => plain other (List.mem_cons_of_mem _ member))

namespace Enclosed

variable {names : Names} {first last : Nat} {text : String}

theorem balanced (enclosed : Enclosed names first last text) : Balanced text := by
  obtain ⟨pipelines, spells, nested, -⟩ := enclosed
  exact ⟨_, spells.weaves, nested⟩

theorem loopsInScope (enclosed : Enclosed .none first last text) : LoopsInScope text := by
  obtain ⟨pipelines, spells, -, settled⟩ := enclosed
  refine ⟨pipelines, spells.actions, ?_, settled.distinct⟩
  have passed := settled.passes [] [] (fun _ absurd => absurd.elim)
  rwa [List.append_nil] at passed

theorem widen {least most : Nat} (enclosed : Enclosed names first last text) (below : least ≤ first)
    (above : last ≤ most) : Enclosed names least most text := by
  obtain ⟨pipelines, spells, nested, settled⟩ := enclosed
  exact ⟨pipelines, spells, nested, settled.widen below above⟩

theorem append {first' last' : Nat} {front back : String}
    (frontEnclosed : Enclosed names first last front) (backEnclosed : Enclosed names first' last' back)
    (apart : last ≤ first' ∨ last' ≤ first) :
    Enclosed names (min first first') (max last last') (front ++ back) := by
  obtain ⟨frontPipelines, frontSpells, frontNested, frontSettled⟩ := frontEnclosed
  obtain ⟨backPipelines, backSpells, backNested, backSettled⟩ := backEnclosed
  refine ⟨frontPipelines ++ backPipelines, ?_, ?_, frontSettled.append backSettled apart⟩
  · rw [String.toList_append]
    exact frontSpells.append backSpells
  · rw [List.map_append]
    exact frontNested.append backNested

theorem append_speaks {back : String} (enclosed : Enclosed names first last text)
    (speaks : Speaks names back) : Enclosed names first last (text ++ back) := by
  -- A text without blocks has no numbers, so any bounds within the others will do.
  have whole := enclosed.append (speaks.enclosed (max first last) (min first last))
    (Or.inr (Nat.min_le_left _ _))
  exact whole.widen (by omega) (by omega)

theorem between {front back : String} (frontSpeaks : Speaks names front)
    (enclosed : Enclosed names first last text) (backSpeaks : Speaks names back) :
    Enclosed names first last (front ++ text ++ back) := by
  have opened := (frontSpeaks.enclosed (max first last) (min first last)).append enclosed
    (Or.inl (Nat.min_le_left _ _))
  exact (opened.widen (by omega) (by omega)).append_speaks backSpeaks

end Enclosed

/-! ## What the library writes -/

/-- The pipeline of the action that opens a loop. -/
def rangeHeader (numbering : Numbering) (source : String) : String :=
  "range " ++ numbering.positionName ++ ", " ++ numbering.elementName ++ " := " ++ source

/-- A keyword and two names in front of an assignment. -/
def targetsOf (position element : List Char) : List Char :=
  ['r', 'a', 'n', 'g', 'e', ' '] ++ (position ++ ',' :: ' ' :: (element ++ [' ']))

theorem loopVariables_targetsOf (position element : List Char) :
    loopVariables (targetsOf position element) = loopVariables position ++ loopVariables element := by
  have keyword : '$' ∉ ['r', 'a', 'n', 'g', 'e', ' '] := by decide
  have separated : loopVariables (',' :: ' ' :: (element ++ [' '])) =
      loopVariables (element ++ [' ']) :=
    loopVariables_append_of_noSign (by decide : '$' ∉ [',', ' ']) _
  have ended : loopVariables [' '] = [] := by decide
  rw [targetsOf, loopVariables_append_of_noSign keyword, loopVariables_append position (by decide),
    separated, loopVariables_append element (by decide), ended, List.append_nil]

section Header

variable (numbering : Numbering) (source : String)

theorem braceFree_rangeHeader (free : BraceFree source) :
    BraceFree (rangeHeader numbering source) := by
  have keyword : BraceFree "range " := by decide
  have comma : BraceFree ", " := by decide
  have binding : BraceFree " := " := by decide
  exact ((((keyword.append numbering.braceFree_positionName).append comma).append
    numbering.braceFree_elementName).append binding).append free

theorem ofPipeline_rangeHeader :
    ActionKind.ofPipeline (rangeHeader numbering source).toList = .loop := by
  unfold rangeHeader
  rw [String.append_assoc, String.append_assoc, String.append_assoc, String.append_assoc,
    String.toList_append]
  rfl

/-- The header up to its assignment. -/
def rangeTargets : List Char :=
  targetsOf numbering.positionName.toList numbering.elementName.toList

theorem toList_rangeHeader : (rangeHeader numbering source).toList =
    rangeTargets numbering ++ ':' :: '=' :: ' ' :: source.toList := by
  unfold rangeHeader rangeTargets targetsOf
  simp only [String.toList_append, List.append_assoc, List.cons_append, List.nil_append]
  rfl

theorem loopVariables_rangeTargets :
    loopVariables (rangeTargets numbering) = variablesOfLoop numbering.loops := by
  rw [rangeTargets, loopVariables_targetsOf, loopVariables_positionName, loopVariables_elementName]
  rfl

theorem noColon_rangeTargets : ':' ∉ rangeTargets numbering := by
  have noColon (name : Variable) (word : ∀ character ∈ name, isWordChar character = true) :
      ':' ∉ '$' :: name := by
    intro member
    rcases List.mem_cons.mp member with absurd | inName
    · cases absurd
    · exact absurd (word ':' inName) (by decide)
  have position := noColon (positionVariable numbering.loops) fun _ member =>
    isWordChar_of_mem_positionVariable member
  have element := noColon (elementVariable numbering.loops) fun _ member =>
    isWordChar_of_mem_elementVariable member
  rw [← toList_positionName] at position
  rw [← toList_elementName] at element
  unfold rangeTargets targetsOf
  intro member
  rcases List.mem_append.mp member with inKeyword | inNames
  · exact absurd inKeyword (by decide)
  · rcases List.mem_append.mp inNames with inPosition | inElement
    · exact position inPosition
    · rcases List.mem_append.mp (List.mem_of_ne_of_mem (by decide)
        (List.mem_of_ne_of_mem (by decide) inElement)) with inName | inSpace
      · exact element inName
      · exact absurd inSpace (by decide)

theorem cutAssignment_rangeHeader : cutAssignment (rangeHeader numbering source).toList =
    some (rangeTargets numbering, ' ' :: source.toList) := by
  rw [toList_rangeHeader]
  exact cutAssignment_append (noColon_rangeTargets numbering) _

theorem declared_rangeHeader :
    declared (rangeHeader numbering source).toList = variablesOfLoop numbering.loops := by
  simp only [declared, ofPipeline_rangeHeader, cutAssignment_rangeHeader,
    loopVariables_rangeTargets]

theorem used_rangeHeader :
    used (rangeHeader numbering source).toList = loopVariables source.toList := by
  simp only [used, ofPipeline_rangeHeader, cutAssignment_rangeHeader]
  exact loopVariables_append_of_noSign (by decide : '$' ∉ [' ']) _

end Header

/-- The pipeline of the action that opens a conditional. -/
def ifHeader (condition : String) (negated : Bool) : String :=
  (if negated then "if not " else "if ") ++ condition

theorem braceFree_ifHeader {condition : String} (free : BraceFree condition) (negated : Bool) :
    BraceFree (ifHeader condition negated) := by
  have keyword : BraceFree (if negated then "if not " else "if ") := by
    cases negated <;> decide
  exact keyword.append free

theorem usesOnly_ifHeader {names : Names} {condition : String} (uses : UsesOnly names condition)
    (negated : Bool) : UsesOnly names (ifHeader condition negated) := by
  have noSign : '$' ∉ (if negated then "if not " else "if ").toList := by
    cases negated <;> decide
  exact .behind noSign uses

theorem ofPipeline_ifHeader (condition : String) (negated : Bool) :
    ActionKind.ofPipeline (ifHeader condition negated).toList = .conditional := by
  unfold ifHeader
  rw [String.toList_append]
  cases negated <;> rfl

namespace Enclosed

variable {names : Names} {first last : Nat}

/-- A block of a loop around a text that may use its variables. -/
theorem rangeBlock {numbering : Numbering} {source body : String} (free : BraceFree source)
    (uses : UsesOnly names source)
    (enclosed : Enclosed (fun name => name ∈ variablesOfLoop numbering.loops ∨ names name)
      (numbering.loops + 1) last body) (ordered : numbering.loops < last) :
    Enclosed names numbering.loops last
      (rangeBlock numbering.positionName numbering.elementName source body) := by
  have headerFree := braceFree_rangeHeader numbering source free
  have sourceUses : ∀ name ∈ used (rangeHeader numbering source).toList, names name := by
    rw [used_rangeHeader]
    exact uses
  obtain ⟨pipelines, spells, nested, settled⟩ := enclosed
  refine ⟨(rangeHeader numbering source).toList :: pipelines ++ ["end".toList], ?_, ?_, ?_⟩
  · have lineBreak : Spells "\n".toList [] := .of_free (by decide : BraceFree "\n")
    have whole := (((Spells.of_action headerFree).append lineBreak).append spells).append
      (lineBreak.append (Spells.of_action (by decide : BraceFree "end")))
    simpa [Template.rangeBlock, rangeHeader, endAction] using whole
  · have block := Nested.loop nested .nil
    rw [List.map_append, List.map_cons, ofPipeline_rangeHeader]
    exact block
  · exact .loop (ofPipeline_rangeHeader _ _) (declared_rangeHeader _ _) sourceUses settled ordered

/-- A block of a conditional, whose branches have different loops. -/
theorem ifBlock {middle : Nat} {condition body : String} {alternative : Option String}
    (free : BraceFree condition) (uses : UsesOnly names condition) (negated : Bool)
    (bodyEnclosed : Enclosed names first middle body)
    (alternativeEnclosed : ∀ other ∈ alternative, Enclosed names middle last other)
    (below : first ≤ middle) (above : middle ≤ last) :
    Enclosed names first last (ifBlock condition negated body alternative) := by
  have lineBreak : Spells "\n".toList [] := .of_free (by decide : BraceFree "\n")
  have divider := Spells.of_action (by decide : BraceFree "else")
  have ending := Spells.of_action (by decide : BraceFree "end")
  have headerFree := braceFree_ifHeader free negated
  have headerUses := usesOnly_ifHeader uses negated
  obtain ⟨pipelines, spells, nested, settled⟩ := bodyEnclosed
  have opened := ((Spells.of_action headerFree).append lineBreak).append (spells.append lineBreak)
  cases alternative with
  | none =>
      refine ⟨(ifHeader condition negated).toList :: pipelines ++ ["end".toList], ?_, ?_, ?_⟩
      · simpa [Template.ifBlock, ifAction, ifHeader, endAction] using opened.append ending
      · have block := Nested.conditional nested .nil
        rw [List.map_append, List.map_cons, ofPipeline_ifHeader]
        exact block
      · exact .conditional (ofPipeline_ifHeader _ _) headerUses
          (settled.widen (Nat.le_refl _) above)
  | some other =>
      obtain ⟨others, otherSpells, otherNested, otherSettled⟩ := alternativeEnclosed other rfl
      have cut : Settled names middle middle ["else".toList] := .divider
      have branches := (settled.append cut (Or.inl (Nat.le_refl _))).append otherSettled
        (Or.inl (by omega))
      refine ⟨(ifHeader condition negated).toList ::
        (pipelines ++ ["else".toList] ++ others) ++ ["end".toList], ?_, ?_, ?_⟩
      · have whole := opened.append ((divider.append lineBreak).append
          ((otherSpells.append lineBreak).append ending))
        simpa [Template.ifBlock, ifAction, ifHeader, endAction] using whole
      · have block := Nested.alternative nested otherNested .nil
        rw [List.append_assoc, List.map_append, List.map_cons, ofPipeline_ifHeader,
          List.map_append, ← List.cons_append]
        exact block
      · exact .conditional (ofPipeline_ifHeader _ _) headerUses
          (branches.widen (by omega) (by omega))

end Enclosed

end Sitewright.Template

import Mathlib.Data.List.Forall2
import Sitewright.Template.Expr

/-!
Contract: what is kept of a condition that is made call by call.

A condition is written as soon as it is made. Of what it was made of, only a summary is kept: its
text, the references in it, and the first reason why it cannot be written. Every further call puts
the summaries of its arguments together in a way of its own, and the tree is never looked at again.

Owns:
- `Summary`, and one operation for each kind of call;
- `Part.Agrees`: a part that was made so has the text, the references and the defect of the tree;
- `Expr.leaves`, and the references and the defect of a tree as read off its leaves.

Does not own: what a conditional does with a condition that cannot be written.
-/

namespace Sitewright.Template

open Number

/-- What is kept of a condition. -/
structure Summary where
  text : String
  operands : List DataRef
  negated : Bool
  defect : Option String
deriving DecidableEq, Repr

/-- What a call can be made of. -/
inductive Part where
  | ref (source : DataRef)
  | literal (value : Literal)
  | condition (summary : Summary)
deriving DecidableEq, Repr

namespace Part

/-- The text that stands alone. -/
def text : Part → String
  | .ref source => source.name
  | .literal value => value.text
  | .condition summary => summary.text

def argument : Part → String
  | .ref source => source.argument
  | .literal value => value.text
  | .condition summary =>
      if summary.negated then "(" ++ summary.text ++ ")" else summary.text

def operands : Part → List DataRef
  | .ref source => [source]
  | .literal _ => []
  | .condition summary => summary.operands

def defect? : Part → Option String
  | .ref _ => none
  | .literal value => value.defect?
  | .condition summary => summary.defect

def isNegation : Part → Bool
  | .condition summary => summary.negated
  | _ => false

end Part

/-! ## Calls -/

namespace Summary

def not (operand : Part) : Summary :=
  { text := "not " ++ operand.argument
    operands := operand.operands
    negated := true
    defect := operand.defect? }

def compare (comparison : Comparison) (left right : Part) : Summary :=
  { text := "(" ++ comparison.function ++ " " ++ left.argument ++ " " ++ right.argument ++ ")"
    operands := left.operands ++ right.operands
    negated := false
    defect := left.defect?.or right.defect? }

def hasType (operand : Part) (type : String) : Summary :=
  { text := "(" ++ Comparison.equal.function ++ " " ++ quote type ++ " (printf " ++ quote "%T" ++
      " " ++ operand.argument ++ "))"
    operands := operand.operands
    negated := false
    defect := operand.defect? }

/-- Calls of `function` around the last part, from the inside out. -/
def nest (function : String) (last : Part) (others : List Part) : String :=
  others.foldr
    (fun item text => "(" ++ function ++ " " ++ item.argument ++ " " ++ text ++ ")")
    last.argument

/-- The text of conditions that are to hold all together, or any of them. A single one is written
as it is alone. -/
def junctionText (kind : Junction) (items : List Part) : String :=
  match items.getLast?, items.dropLast with
  | none, _ => Literal.boolText kind.ofNone
  | some last, [] => last.text
  | some last, others => nest kind.function last others

def junction (kind : Junction) (items : List Part) : Summary :=
  { text := junctionText kind items
    operands := items.flatMap Part.operands
    negated := match items with
      | [single] => single.isNegation
      | _ => false
    defect := items.findSome? Part.defect? }

end Summary

mutual

/-- The expression as it is made, every call from the parts that its arguments have become. -/
def Expr.made : Expr → Part
  | .ref source => .ref source
  | .literal value => .literal value
  | .not operand => .condition (.not operand.made)
  | .junction kind items => .condition (.junction kind (Expr.allMade items))
  | .compare comparison left right => .condition (.compare comparison left.made right.made)
  | .hasType operand type => .condition (.hasType operand.made type)

def Expr.allMade : List Expr → List Part
  | [] => []
  | head :: tail => head.made :: Expr.allMade tail

end

/-! ## Parts and trees -/

/-- The part says of itself what the tree says. -/
structure Part.Agrees (part : Part) (expr : Expr) : Prop where
  text : part.text = expr.text
  argument : part.argument = expr.argument
  operands : part.operands = expr.refs
  negated : part.isNegation = expr.isNegation
  defect : part.defect? = expr.defect?

namespace Part.Agrees

variable {part left right : Part} {expr first second : Expr}

theorem ref (source : DataRef) : (Part.ref source).Agrees (.ref source) where
  text := by rw [Part.text, Expr.text]
  argument := rfl
  operands := by rw [Part.operands, Expr.refs]
  negated := rfl
  defect := by rw [Part.defect?, Expr.defect?]

theorem literal (value : Literal) : (Part.literal value).Agrees (.literal value) where
  text := by rw [Part.text, Expr.text]
  argument := by
    show value.text = Expr.asArgument (.literal value) (Expr.literal value).text
    rw [Expr.text]
    rfl
  operands := by rw [Part.operands, Expr.refs]
  negated := rfl
  defect := by rw [Part.defect?, Expr.defect?]

/-- Of conditions, the text alone and the negation decide the argument. -/
theorem condition {summary : Summary} (isCondition : expr.isCondition = true)
    (text : summary.text = expr.text) (operands : summary.operands = expr.refs)
    (negated : summary.negated = expr.isNegation) (defect : summary.defect = expr.defect?) :
    (Part.condition summary).Agrees expr where
  text := text
  argument := by
    have noRef : expr.argument =
        if expr.isNegation then "(" ++ expr.text ++ ")" else expr.text := by
      cases expr with
      | ref source => cases isCondition
      | _ => rfl
    rw [noRef, ← negated, ← text]
    rfl
  operands := operands
  negated := negated
  defect := defect

theorem not (agrees : part.Agrees expr) : (Part.condition (.not part)).Agrees (.not expr) := by
  refine condition rfl ?_ ?_ rfl ?_
  · show "not " ++ part.argument = _
    rw [Expr.text, agrees.argument, Expr.argument]
  · show part.operands = _
    rw [Expr.refs, agrees.operands]
  · show part.defect? = _
    rw [Expr.defect?, agrees.defect]

theorem compare (comparison : Comparison) (leftAgrees : left.Agrees first)
    (rightAgrees : right.Agrees second) :
    (Part.condition (.compare comparison left right)).Agrees
      (.compare comparison first second) := by
  refine condition rfl ?_ ?_ rfl ?_
  · show "(" ++ comparison.function ++ " " ++ left.argument ++ " " ++ right.argument ++ ")" = _
    rw [Expr.text, leftAgrees.argument, rightAgrees.argument, Expr.argument, Expr.argument]
  · show left.operands ++ right.operands = _
    rw [Expr.refs, leftAgrees.operands, rightAgrees.operands]
  · show left.defect?.or right.defect? = _
    rw [Expr.defect?, leftAgrees.defect, rightAgrees.defect]

theorem hasType (agrees : part.Agrees expr) (type : String) :
    (Part.condition (.hasType part type)).Agrees (.hasType expr type) := by
  refine condition rfl ?_ ?_ rfl ?_
  · show "(" ++ Comparison.equal.function ++ " " ++ quote type ++ " (printf " ++ quote "%T" ++
      " " ++ part.argument ++ "))" = _
    rw [Expr.text, agrees.argument, Expr.argument]
  · show part.operands = _
    rw [Expr.refs, agrees.operands]
  · show part.defect? = _
    rw [Expr.defect?, agrees.defect]

/-! ### Junctions -/

variable {parts : List Part} {items : List Expr}

theorem flatMap_operands (agree : List.Forall₂ Agrees parts items) :
    parts.flatMap Part.operands = Expr.refsOfAll items := by
  induction agree with
  | nil => rw [Expr.refsOfAll, List.flatMap_nil]
  | cons head _ inductionHypothesis =>
      rw [Expr.refsOfAll, List.flatMap_cons, head.operands, inductionHypothesis]

theorem findSome?_defect (agree : List.Forall₂ Agrees parts items) :
    parts.findSome? Part.defect? = Expr.defectOfAll? items := by
  induction agree with
  | nil => rw [Expr.defectOfAll?, List.findSome?_nil]
  | cons head _ inductionHypothesis =>
      rw [Expr.defectOfAll?, List.findSome?_cons, inductionHypothesis, head.defect]
      cases Expr.defect? _ <;> rfl

/-- Written from the inside out, calls are nested as they are from the outside in. -/
theorem nest_eq_chain (function : String) (agree : List.Forall₂ Agrees parts items) {last : Part}
    (isLast : parts.getLast? = some last) :
    Summary.nest function last parts.dropLast = Expr.chain function items := by
  induction agree with
  | nil => cases isLast
  | @cons part expr others rest head tail inductionHypothesis =>
      cases tail with
      | nil =>
          obtain rfl := Option.some.inj isLast
          rw [Expr.chain]
          exact head.argument
      | cons next further =>
          rw [List.getLast?_cons_cons] at isLast
          rw [List.dropLast_cons_cons, Summary.nest, List.foldr_cons, ← Summary.nest,
            inductionHypothesis isLast, head.argument, Expr.chain, Expr.argument]

theorem junctionText (kind : Junction) (agree : List.Forall₂ Agrees parts items) :
    Summary.junctionText kind parts = (Expr.junction kind items).text := by
  cases agree with
  | nil =>
      rw [Expr.text]
      rfl
  | cons head tail =>
      cases tail with
      | nil =>
          rw [Expr.text]
          exact head.text
      | @cons second _ others _ next further =>
          obtain ⟨last, isLast⟩ : ∃ last, (second :: others).getLast? = some last :=
            ⟨_, List.getLast?_eq_some_getLast (List.cons_ne_nil second others)⟩
          rw [← List.getLast?_cons_cons] at isLast
          rw [Expr.text, ← nest_eq_chain kind.function (.cons head (.cons next further)) isLast,
            Summary.junctionText, isLast, List.dropLast_cons_cons]

theorem junction (kind : Junction) (agree : List.Forall₂ Agrees parts items) :
    (Part.condition (.junction kind parts)).Agrees (.junction kind items) := by
  refine condition rfl (junctionText kind agree) ?_ ?_ ?_
  · rw [Expr.refs, ← flatMap_operands agree]
    rfl
  · cases agree with
    | nil => rfl
    | cons head tail =>
        cases tail with
        | nil => exact head.negated
        | cons => rfl
  · rw [Expr.defect?, ← findSome?_defect agree]
    rfl

end Part.Agrees

mutual

/-- A part that was made call by call says of itself what the tree of all the calls says. -/
theorem Expr.agrees_made : (expr : Expr) → expr.made.Agrees expr
  | .ref source => by
      rw [Expr.made]
      exact .ref source
  | .literal value => by
      rw [Expr.made]
      exact .literal value
  | .not operand => by
      rw [Expr.made]
      exact .not operand.agrees_made
  | .junction kind items => by
      rw [Expr.made]
      exact .junction kind (Expr.agree_allMade items)
  | .compare comparison left right => by
      rw [Expr.made]
      exact .compare comparison left.agrees_made right.agrees_made
  | .hasType operand type => by
      rw [Expr.made]
      exact .hasType operand.agrees_made type

theorem Expr.agree_allMade :
    (items : List Expr) → List.Forall₂ Part.Agrees (Expr.allMade items) items
  | [] => by
      rw [Expr.allMade]
      exact .nil
  | head :: tail => by
      rw [Expr.allMade]
      exact .cons head.agrees_made (Expr.agree_allMade tail)

end

/-! ## Leaves -/

/-- What stands at a leaf of an expression. -/
inductive Leaf where
  | ref (source : DataRef)
  | literal (value : Literal)
deriving DecidableEq, Repr

namespace Leaf

def ref? : Leaf → Option DataRef
  | .ref source => some source
  | .literal _ => none

def defect? : Leaf → Option String
  | .ref _ => none
  | .literal value => value.defect?

/-- No number at the leaf is infinite or not a number. -/
def isFinite : Leaf → Bool
  | .literal (.float value) => value.isFinite
  | _ => true

theorem defect?_eq_none_iff {leaf : Leaf} : leaf.defect? = none ↔ leaf.isFinite = true := by
  unfold defect? isFinite Literal.defect?
  grind

/-- Of all leaves, only numbers that are not finite cannot be written. -/
theorem defect?_eq_some_iff {leaf : Leaf} {reason : String} :
    leaf.defect? = some reason ↔
      ∃ value : Binary64, leaf = .literal (.float value) ∧ value.isFinite = false ∧
        reason = "`" ++ value.text .plain ++ "` has no template literal form" := by
  constructor
  · intro defective
    unfold defect? Literal.defect? at defective
    split at defective
    · cases defective
    · split at defective
      · next value =>
          split at defective
          · cases defective
          · next notFinite =>
              exact ⟨value, rfl, Bool.eq_false_iff.mpr notFinite, (Option.some.inj defective).symm⟩
      · cases defective
  · rintro ⟨value, rfl, notFinite, rfl⟩
    show (if value.isFinite then none else some _) = some _
    rw [notFinite, if_neg Bool.false_ne_true]

/-- Exactly the infinities and not-a-number are not finite. -/
theorem isFinite_eq_false_iff {leaf : Leaf} :
    leaf.isFinite = false ↔ ∃ value : Binary64, leaf = .literal (.float value) ∧
      (value = .nan ∨ ∃ negative, value = .infinite negative) := by
  constructor
  · intro notFinite
    unfold isFinite at notFinite
    split at notFinite
    · next value =>
        refine ⟨value, rfl, ?_⟩
        cases value with
        | nan => exact .inl rfl
        | infinite negative => exact .inr ⟨negative, rfl⟩
        | finite => cases notFinite
    · cases notFinite
  · rintro ⟨value, rfl, rfl | ⟨negative, rfl⟩⟩ <;> rfl

end Leaf

mutual

/-- The leaves from left to right. -/
def Expr.leaves : Expr → List Leaf
  | .ref source => [.ref source]
  | .literal value => [.literal value]
  | .not operand => operand.leaves
  | .junction _ items => Expr.leavesOfAll items
  | .compare _ left right => left.leaves ++ right.leaves
  | .hasType operand _ => operand.leaves

def Expr.leavesOfAll : List Expr → List Leaf
  | [] => []
  | head :: tail => head.leaves ++ Expr.leavesOfAll tail

end

mutual

/-- No reference is lost or moved. -/
theorem Expr.refs_eq_filterMap : (expr : Expr) → expr.refs = expr.leaves.filterMap Leaf.ref?
  | .ref source => by
      rw [Expr.refs, Expr.leaves]
      rfl
  | .literal value => by
      rw [Expr.refs, Expr.leaves]
      rfl
  | .not operand => by rw [Expr.refs, Expr.leaves, operand.refs_eq_filterMap]
  | .junction _ items => by rw [Expr.refs, Expr.leaves, Expr.refsOfAll_eq_filterMap items]
  | .compare _ left right => by
      rw [Expr.refs, Expr.leaves, List.filterMap_append, left.refs_eq_filterMap,
        right.refs_eq_filterMap]
  | .hasType operand _ => by rw [Expr.refs, Expr.leaves, operand.refs_eq_filterMap]

theorem Expr.refsOfAll_eq_filterMap : (items : List Expr) →
    Expr.refsOfAll items = (Expr.leavesOfAll items).filterMap Leaf.ref?
  | [] => by
      rw [Expr.refsOfAll, Expr.leavesOfAll, List.filterMap_nil]
  | head :: tail => by
      rw [Expr.refsOfAll, Expr.leavesOfAll, List.filterMap_append, head.refs_eq_filterMap,
        Expr.refsOfAll_eq_filterMap tail]

end

mutual

/-- The first leaf that cannot be written decides. -/
theorem Expr.defect?_eq_findSome? : (expr : Expr) →
    expr.defect? = expr.leaves.findSome? Leaf.defect?
  | .ref source => by
      rw [Expr.defect?, Expr.leaves]
      rfl
  | .literal value => by
      rw [Expr.defect?, Expr.leaves, List.findSome?_singleton]
      rfl
  | .not operand => by rw [Expr.defect?, Expr.leaves, operand.defect?_eq_findSome?]
  | .junction _ items => by rw [Expr.defect?, Expr.leaves, Expr.defectOfAll?_eq_findSome? items]
  | .compare _ left right => by
      rw [Expr.defect?, Expr.leaves, List.findSome?_append, left.defect?_eq_findSome?,
        right.defect?_eq_findSome?]
  | .hasType operand _ => by rw [Expr.defect?, Expr.leaves, operand.defect?_eq_findSome?]

theorem Expr.defectOfAll?_eq_findSome? : (items : List Expr) →
    Expr.defectOfAll? items = (Expr.leavesOfAll items).findSome? Leaf.defect?
  | [] => by
      rw [Expr.defectOfAll?, Expr.leavesOfAll, List.findSome?_nil]
  | head :: tail => by
      rw [Expr.defectOfAll?, Expr.leavesOfAll, List.findSome?_append, head.defect?_eq_findSome?,
        Expr.defectOfAll?_eq_findSome? tail]

end

namespace Expr

variable {expr : Expr}

theorem defect?_eq_none_iff : expr.defect? = none ↔ ∀ leaf ∈ expr.leaves, leaf.isFinite = true := by
  rw [defect?_eq_findSome?, List.findSome?_eq_none_iff]
  exact forall₂_congr fun _ _ => Leaf.defect?_eq_none_iff

theorem defect?_isSome_iff :
    expr.defect?.isSome = true ↔
      ∃ value : Binary64, .literal (.float value) ∈ expr.leaves ∧
        (value = .nan ∨ ∃ negative, value = .infinite negative) := by
  rw [Option.isSome_iff_ne_none, ne_eq, defect?_eq_none_iff]
  constructor
  · intro notAll
    push Not at notAll
    obtain ⟨leaf, member, notFinite⟩ := notAll
    obtain ⟨value, rfl, special⟩ := Leaf.isFinite_eq_false_iff.mp (Bool.eq_false_iff.mpr notFinite)
    exact ⟨value, member, special⟩
  · rintro ⟨value, member, special⟩ allFinite
    have notFinite := Leaf.isFinite_eq_false_iff.mpr ⟨value, rfl, special⟩
    rw [allFinite _ member] at notFinite
    cases notFinite

/-- The reason is that of the leftmost number which is not finite. -/
theorem defect?_eq_some_iff {reason : String} :
    expr.defect? = some reason ↔
      ∃ (front : List Leaf) (value : Binary64) (back : List Leaf),
        expr.leaves = front ++ .literal (.float value) :: back ∧
        (∀ leaf ∈ front, leaf.isFinite = true) ∧ value.isFinite = false ∧
        reason = "`" ++ value.text .plain ++ "` has no template literal form" := by
  rw [defect?_eq_findSome?, List.findSome?_eq_some_iff]
  constructor
  · rintro ⟨front, leaf, back, divided, defective, before⟩
    obtain ⟨value, rfl, notFinite, told⟩ := Leaf.defect?_eq_some_iff.mp defective
    exact ⟨front, value, back, divided,
      fun leaf member => Leaf.defect?_eq_none_iff.mp (before leaf member), notFinite, told⟩
  · rintro ⟨front, value, back, divided, before, notFinite, told⟩
    exact ⟨front, _, back, divided, Leaf.defect?_eq_some_iff.mpr ⟨value, rfl, notFinite, told⟩,
      fun leaf member => Leaf.defect?_eq_none_iff.mpr (before leaf member)⟩

end Expr

end Sitewright.Template

import Sitewright.Proofs.Template.Nesting

/-!
Contract: what the dot stands for in the course of a template.

A document is rendered with its data as the dot. The body of a loop has the current
element as its dot, a conditional leaves the dot alone, and at the end of a block the dot
is what it was before. A name that begins with a dot is looked up from there, a name from
the dollar sign is looked up from the data wherever it stands.

Owns:
- `Dot` and the run of a template, one pass through the body of each loop;
- whole blocks, after which the dot is the same;
- texts that lead into blocks, and how many loops they lead into;
- `Shows`, a text with another one in it;
- names that reach the data of their document.

Does not own: variables, which keep their values.
-/

namespace Sitewright.Template

open Text

/-! ## Running a template -/

/-- What the dot stands for: the data of the document, or the current element of a loop.
The loop stands where the dot is another one. -/
inductive Dot where
  | data
  | element (outside : Dot)
deriving DecidableEq, Repr

/-- The dot of the body of the innermost of so many loops. -/
def Dot.inLoops (dot : Dot) : Nat → Dot
  | 0 => dot
  | loops + 1 => .element (dot.inLoops loops)

/-- The dot, and for every open block the dot that comes back with its end. -/
structure Cursor where
  dot : Dot
  outside : List Dot
deriving DecidableEq, Repr

namespace Cursor

/-- Before the first action. -/
def start : Cursor := ⟨.data, []⟩

/-- An alternative of a conditional has the dot of the conditional. -/
def step : Cursor → ActionKind → Option Cursor
  | cursor, .plain => some cursor
  | ⟨dot, outside⟩, .conditional => some ⟨dot, dot :: outside⟩
  | ⟨dot, outside⟩, .loop => some ⟨.element dot, dot :: outside⟩
  | ⟨_, before :: outside⟩, .otherwise => some ⟨before, before :: outside⟩
  | ⟨_, before :: outside⟩, .close => some ⟨before, outside⟩
  | ⟨_, []⟩, _ => none

/-- The run of actions, one pass through the body of each loop. -/
def run (cursor : Cursor) (kinds : List ActionKind) : Option Cursor :=
  kinds.foldlM step cursor

theorem run_append (cursor : Cursor) (front back : List ActionKind) :
    cursor.run (front ++ back) = (cursor.run front).bind fun middle => middle.run back :=
  List.foldlM_append

theorem run_cons (cursor : Cursor) (first : ActionKind) (rest : List ActionKind) :
    cursor.run (first :: rest) = (cursor.step first).bind fun next => next.run rest :=
  rfl

end Cursor

/-- What stands behind the text, when the text is the beginning of a document. -/
def cursorBehind (front : String) : Option Cursor :=
  (scan none front.toList).bind Cursor.start.run

/-- The dot is the same after whole blocks. -/
theorem Nested.run {kinds : List ActionKind} (nested : Nested kinds) (cursor : Cursor) :
    cursor.run kinds = some cursor := by
  induction nested generalizing cursor with
  | nil => rfl
  | plain _ inductionHypothesis =>
      rw [Cursor.run_cons]
      exact inductionHypothesis cursor
  | loop _ _ insideHypothesis afterHypothesis =>
      rw [List.cons_append, Cursor.run_cons]
      simp only [Cursor.step, Option.bind_some]
      rw [Cursor.run_append, insideHypothesis]
      exact afterHypothesis cursor
  | conditional _ _ insideHypothesis afterHypothesis =>
      rw [List.cons_append, Cursor.run_cons]
      simp only [Cursor.step, Option.bind_some]
      rw [Cursor.run_append, insideHypothesis]
      exact afterHypothesis cursor
  | alternative _ _ _ insideHypothesis otherHypothesis afterHypothesis =>
      rw [List.append_assoc, List.cons_append, Cursor.run_cons]
      simp only [Cursor.step, Option.bind_some]
      rw [Cursor.run_append, insideHypothesis, Option.bind_some, List.cons_append,
        Cursor.run_cons]
      simp only [Cursor.step, Option.bind_some]
      rw [Cursor.run_append, otherHypothesis]
      exact afterHypothesis cursor

/-! ## Texts that lead into blocks -/

theorem Dot.inLoops_inLoops (dot : Dot) (outer inner : Nat) :
    (dot.inLoops outer).inLoops inner = dot.inLoops (outer + inner) := by
  induction inner with
  | zero => rfl
  | succ inner inductionHypothesis =>
      show Dot.element ((dot.inLoops outer).inLoops inner) = .element (dot.inLoops (outer + inner))
      rw [inductionHypothesis]

/-- The dot is the data outside of all loops only. -/
theorem Dot.inLoops_data_eq_data {loops : Nat} : data.inLoops loops = data ↔ loops = 0 := by
  cases loops with
  | zero => simp [inLoops]
  | succ loops => simp [inLoops]

/-- Wherever the text stands, so many loops are open behind it that were not open before. -/
def Enters (front : String) (loops : Nat) : Prop :=
  ∃ kinds, Weaves front.toList kinds ∧ ∀ cursor : Cursor, ∃ outside,
    cursor.run kinds = some ⟨cursor.dot.inLoops loops, outside⟩

theorem Balanced.enters {front : String} (balanced : Balanced front) : Enters front 0 := by
  obtain ⟨kinds, weaves, nested⟩ := balanced
  exact ⟨kinds, weaves, fun cursor => ⟨cursor.outside, nested.run cursor⟩⟩

theorem Enters.append {front back : String} {outer inner : Nat} (frontEnters : Enters front outer)
    (backEnters : Enters back inner) : Enters (front ++ back) (outer + inner) := by
  obtain ⟨frontKinds, frontWeaves, frontRuns⟩ := frontEnters
  obtain ⟨backKinds, backWeaves, backRuns⟩ := backEnters
  refine ⟨frontKinds ++ backKinds, ?_, ?_⟩
  · rw [String.toList_append]
    exact frontWeaves.append backWeaves
  · intro cursor
    obtain ⟨middle, early⟩ := frontRuns cursor
    obtain ⟨outside, late⟩ := backRuns ⟨cursor.dot.inLoops outer, middle⟩
    refine ⟨outside, ?_⟩
    rw [Cursor.run_append, early, Option.bind_some, late, Dot.inLoops_inLoops]

theorem balanced_lineBreak : Balanced "\n" :=
  (inert_of_braceFree (by decide)).balanced

theorem enters_ifAction {condition : String} (free : BraceFree condition) (negated : Bool) :
    Enters (ifAction condition negated) 0 :=
  ⟨_, weaves_ifAction free negated, fun cursor => ⟨cursor.dot :: cursor.outside, rfl⟩⟩

/-- The alternative has the dot of the body. -/
theorem enters_else {condition body : String} (free : BraceFree condition) (negated : Bool)
    (balanced : Balanced body) :
    Enters (ifAction condition negated ++ body ++ action "else") 0 := by
  obtain ⟨kinds, weaves, nested⟩ := balanced
  refine ⟨[.conditional] ++ kinds ++ [.otherwise], ?_, ?_⟩
  · rw [String.toList_append, String.toList_append]
    exact ((weaves_ifAction free negated).append weaves).append weaves_elseAction
  · intro cursor
    refine ⟨cursor.dot :: cursor.outside, ?_⟩
    rw [Cursor.run_append, Cursor.run_append]
    have opened : cursor.run [.conditional] = some ⟨cursor.dot, cursor.dot :: cursor.outside⟩ :=
      rfl
    rw [opened, Option.bind_some, nested.run, Option.bind_some]
    rfl

theorem enters_rangeAction {position element source : String} (positionFree : BraceFree position)
    (elementFree : BraceFree element) (sourceFree : BraceFree source) :
    Enters (action ("range " ++ position ++ ", " ++ element ++ " := " ++ source)) 1 := by
  obtain ⟨header, kind⟩ := rangeHeader_loop positionFree elementFree sourceFree
  refine ⟨_, weaves_action header, ?_⟩
  intro cursor
  refine ⟨cursor.dot :: cursor.outside, ?_⟩
  rw [kind]
  rfl

theorem Enters.cursorBehind {front : String} {loops : Nat} (enters : Enters front loops) :
    ∃ outside, cursorBehind front = some ⟨Dot.data.inLoops loops, outside⟩ := by
  obtain ⟨kinds, weaves, runs⟩ := enters
  obtain ⟨outside, final⟩ := runs .start
  refine ⟨outside, ?_⟩
  unfold Template.cursorBehind
  rw [weaves.scan]
  exact final

example : cursorBehind (rangeBlock "$k" "$v" ".Items" "" ++ ifAction ".Items" false ++
    action "range $k, $v := .Items") = some ⟨.element .data, [.data, .data]⟩ := by decide

/-! ## Parts of texts -/

/-- The part stands in the text, inside of so many loops of the text. -/
def Shows (text part : String) (loops : Nat) : Prop :=
  ∃ front back, text = front ++ part ++ back ∧ Enters front loops

namespace Shows

theorem refl (text : String) : Shows text text 0 :=
  ⟨"", "", by simp, (inert_of_braceFree braceFree_empty).balanced.enters⟩

theorem trans {text middle part : String} {outer inner : Nat} (early : Shows text middle outer)
    (late : Shows middle part inner) : Shows text part (outer + inner) := by
  obtain ⟨front, back, rfl, enters⟩ := early
  obtain ⟨innerFront, innerBack, rfl, innerEnters⟩ := late
  refine ⟨front ++ innerFront, innerBack ++ back, ?_, enters.append innerEnters⟩
  simp only [String.append_assoc]

/-- What is shown outside of all loops brings no loop with it. -/
theorem part {text middle part : String} {loops : Nat} (early : Shows text middle 0)
    (late : Shows middle part loops) : Shows text part loops := by
  have shows := early.trans late
  rwa [Nat.zero_add] at shows

/-- A text that stands behind whole blocks. -/
theorem between {front : String} (balanced : Balanced front) (part back : String) :
    Shows (front ++ part ++ back) part 0 :=
  ⟨front, back, rfl, balanced.enters⟩

theorem last {front : String} (balanced : Balanced front) (part : String) :
    Shows (front ++ part) part 0 :=
  ⟨front, "", String.append_empty.symm, balanced.enters⟩

theorem first (part back : String) : Shows (part ++ back) part 0 :=
  ⟨"", back, by rw [String.empty_append],
    (inert_of_braceFree braceFree_empty).balanced.enters⟩

theorem rangeBlock {position element source : String} (positionFree : BraceFree position)
    (elementFree : BraceFree element) (sourceFree : BraceFree source) (body : String) :
    Shows (rangeBlock position element source body) body 1 := by
  have enters := (enters_rangeAction positionFree elementFree sourceFree).append
    balanced_lineBreak.enters
  refine ⟨_, "\n" ++ endAction, ?_, enters⟩
  simp only [Template.rangeBlock, String.append_assoc]

theorem ifBlock {condition : String} (free : BraceFree condition) (negated : Bool)
    (body : String) (alternative : Option String) :
    Shows (ifBlock condition negated body alternative) body 0 := by
  have enters := (enters_ifAction free negated).append balanced_lineBreak.enters
  cases alternative with
  | none =>
      refine ⟨_, "\n" ++ endAction, ?_, enters⟩
      simp only [Template.ifBlock, String.append_assoc]
  | some other =>
      refine ⟨_, "\n" ++ (action "else" ++ "\n" ++ other ++ "\n" ++ endAction), ?_, enters⟩
      simp only [Template.ifBlock, String.append_assoc]

theorem ifBlock_alternative {condition body : String} (free : BraceFree condition)
    (negated : Bool) (balanced : Balanced body) (alternative : String) :
    Shows (Template.ifBlock condition negated body (some alternative)) alternative 0 := by
  have lines := (balanced_lineBreak.append balanced).append balanced_lineBreak
  have enters := (enters_else free negated lines).append balanced_lineBreak.enters
  refine ⟨_, "\n" ++ endAction, ?_, enters⟩
  simp only [Template.ifBlock, String.append_assoc]

end Shows

/-! ## Names that reach the data -/

/-- A name that stands behind the text leads to the data of the document: it is looked up
from the data by the dollar sign, or from a dot that is the data. -/
def ReachesData (front : String) (source : DataRef) : Prop :=
  match source.name.toList with
  | ['$'] | '$' :: '.' :: _ => True
  | '.' :: _ => (cursorBehind front).map Cursor.dot = some .data
  | _ => False

/-- The name is looked up from the dot. -/
def DataRef.Relative (source : DataRef) : Prop :=
  ∃ rest, source.name.toList = '.' :: rest

/-- The fields of a relative name are relative. -/
theorem DataRef.Relative.fields {source : DataRef} (relative : source.Relative)
    (fields : List String) : (fields.foldl DataRef.field source).Relative := by
  induction fields generalizing source with
  | nil => exact relative
  | cons label others inductionHypothesis =>
      apply inductionHypothesis
      obtain ⟨rest, shape⟩ := relative
      refine ⟨rest ++ '.' :: label.toList, ?_⟩
      simp [DataRef.field, shape]

/-- A relative name reaches the data outside of all loops only. -/
theorem Enters.reachesData_iff {front : String} {loops : Nat} (enters : Enters front loops)
    {source : DataRef} (relative : source.Relative) :
    ReachesData front source ↔ loops = 0 := by
  obtain ⟨rest, shape⟩ := relative
  obtain ⟨outside, behind⟩ := enters.cursorBehind
  unfold ReachesData
  simp only [shape, behind, Option.map_some, Option.some.injEq]
  exact Dot.inLoops_data_eq_data

end Sitewright.Template

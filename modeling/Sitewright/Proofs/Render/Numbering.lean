import Sitewright.Proofs.Render.Handover
import Sitewright.Proofs.Template.Variables

/-!
Contract: which names the loops of a document have, and which ids its forms.

A document counts its loops and its forms in the order in which they are rendered. Only what is
rendered in the document counts: the templates of its regions are documents of their own, which
count from the start.

Owns:
- `Stage.Log.numbering_eq` and `Stage.Log.numbering_final`: the numbering of a document at every
  render of its log, and at the end;
- `Stage.Binds`, the variables of a loop;
- documents in which constructs alone take names and ids.

Does not own: what the ids of forms are written to, and which documents belong to a site.
-/

namespace Sitewright

open Markup Template Catalog Routing Relation

namespace Stage

open Render

/-! ## Counting -/

/-- The numbering after the renders have taken from it what they take. -/
def counted (numbering : Numbering) (stages : List Stage) : Numbering :=
  { numbering with
    loops := numbering.loops + stages.countP takesNames
    forms := numbering.forms + stages.countP takesId }

theorem counted_cons (numbering : Numbering) (first : Stage) (rest : List Stage) :
    counted numbering (first :: rest) = counted (first.draw numbering) rest := by
  unfold counted draw
  cases names : first.takesNames <;> cases id : first.takesId
  all_goals simp [names, id, Nat.add_assoc, Nat.add_comm 1]

/-- Every render begins with what the ones before it leave of the numbering. -/
def Numbered : Numbering → List Stage → Numbering → Prop
  | given, [], final => given = final
  | given, stage :: log, final => stage.state.numbering = given ∧ Numbered stage.drawn log final

theorem Log.numbered {agenda log : List Stage} (logged : Log agenda log) {given final : Numbering}
    (follow : Follow State.numbering given agenda final) : Numbered given log final := by
  induction logged generalizing given with
  | done => exact follow
  | next parted _ inductionHypothesis =>
      obtain ⟨begins, rest⟩ := follow
      exact ⟨begins, inductionHypothesis (parted.follow_numbering.append rest)⟩

theorem Numbered.final_eq {log : List Stage} {given final : Numbering}
    (numbered : Numbered given log final) : final = counted given log := by
  induction log generalizing given with
  | nil => exact numbered.symm
  | cons first rest inductionHypothesis =>
      obtain ⟨begins, later⟩ := numbered
      rw [counted_cons, ← begins]
      exact inductionHypothesis later

theorem Numbered.numbering_eq {earlier later : List Stage} {stage : Stage}
    {given final : Numbering} (numbered : Numbered given (earlier ++ stage :: later) final) :
    stage.state.numbering = counted given earlier := by
  induction earlier generalizing given with
  | nil => exact numbered.1
  | cons first rest inductionHypothesis =>
      obtain ⟨begins, behind⟩ := numbered
      rw [counted_cons, ← begins]
      exact inductionHypothesis behind

section Log

variable {document : Stage}

theorem Log.numbered_document {log : List Stage} (logged : Log [document] log) :
    Numbered document.state.numbering log document.outcome.2.numbering :=
  logged.numbered ⟨rfl, rfl⟩

/-- A render finds the numbering advanced by what the renders before it in the document have
taken. -/
theorem Log.numbering_eq {earlier later : List Stage} {stage : Stage}
    (logged : Log [document] (earlier ++ stage :: later)) :
    stage.state.numbering = counted document.state.numbering earlier :=
  logged.numbered_document.numbering_eq

/-- Nothing but the renders of its log takes from the numbering of a document. -/
theorem Log.numbering_final {log : List Stage} (logged : Log [document] log) :
    document.outcome.2.numbering = counted document.state.numbering log :=
  logged.numbered_document.final_eq

end Log

/-- What stands in this place among those that pass stands behind as many of them. -/
theorem exists_split_of_filter {passes : Stage → Bool} {log : List Stage} {place : Nat}
    {stage : Stage} (found : (log.filter passes)[place]? = some stage) :
    ∃ earlier later, log = earlier ++ stage :: later ∧ earlier.countP passes = place := by
  induction log generalizing place with
  | nil => cases found
  | cons first rest inductionHypothesis =>
      by_cases counts : passes first = true
      · rw [List.filter_cons_of_pos counts] at found
        cases place with
        | zero =>
            obtain rfl := Option.some.inj found
            exact ⟨[], rest, rfl, rfl⟩
        | succ place =>
            obtain ⟨earlier, later, rfl, counted⟩ := inductionHypothesis found
            exact ⟨first :: earlier, later, rfl, by rw [List.countP_cons_of_pos counts, counted]⟩
      · rw [List.filter_cons_of_neg counts] at found
        obtain ⟨earlier, later, rfl, counted⟩ := inductionHypothesis found
        exact ⟨first :: earlier, later, rfl, by rw [List.countP_cons_of_neg counts, counted]⟩

/-! ## Loops -/

def isLoop (stage : Stage) : Bool :=
  match stage.task with
  | .view (.loop ..) => true
  | _ => false

/-- The loop repeats its body with these variables, which it declares. -/
def Binds (stage : Stage) (element position : String) : Prop :=
  ∃ source body after, stage.task = .view (.loop source body) ∧
    (∀ inner, stage.Inner inner ↔
      inner = ⟨.view (body ⟨element⟩ ⟨position⟩), stage.setting, after⟩) ∧
    ∀ text, stage.outcome.1 = .ok text →
      ∃ content, (outcome ⟨.view (body ⟨element⟩ ⟨position⟩), stage.setting, after⟩).1 =
        .ok content ∧ text = rangeBlock position element source.name content

/-- A loop has the next names of its document. -/
theorem binds_of_isLoop {stage : Stage} (loop : stage.isLoop = true) :
    stage.Binds stage.state.numbering.elementName stage.state.numbering.positionName := by
  obtain ⟨task, setting, state⟩ := stage
  unfold isLoop at loop
  split at loop
  case h_2 => cases loop
  next source body shown =>
    obtain rfl : task = .view (.loop source body) := shown
    refine ⟨source, body, (nextLoopNames setting state).2, rfl, fun inner => ⟨fun step => ?_, ?_⟩,
      fun text ended => ?_⟩
    · cases step with
      | loop source body fresh =>
          obtain ⟨named, rfl⟩ := Prod.mk.inj fresh
          obtain rfl := Except.ok.inj named
          rfl
    · rintro rfl
      exact .loop source body rfl
    · have outcome : View.render (.loop source body) setting state = (.ok text, _) :=
        Prod.ext ended rfl
      obtain ⟨names, after, fresh, rest⟩ := ok_of_bind (ok_of_within outcome)
      obtain ⟨named, rfl⟩ := Prod.mk.inj fresh
      obtain rfl := Except.ok.inj named
      obtain ⟨content, later, shown, written⟩ := ok_of_bind rest
      exact ⟨content, congrArg Prod.fst shown, (Except.ok.inj (congrArg Prod.fst written)).symm⟩

/-- Where nothing else takes names, a loop has the names with the number of its place. -/
theorem Log.binds {document stage : Stage} {log : List Stage} {place : Nat}
    (logged : Log [document] log) (starts : document.state.numbering.loops = 0)
    (alone : ∀ stage ∈ log, stage.takesNames = stage.isLoop)
    (found : (log.filter isLoop)[place]? = some stage) :
    stage.Binds ("$_i" ++ toString place) ("$_i" ++ toString place ++ "_key") := by
  have loop : stage.isLoop = true := (List.mem_filter.mp (List.mem_of_getElem? found)).2
  obtain ⟨earlier, later, rfl, counted⟩ := exists_split_of_filter found
  have same : earlier.countP takesNames = earlier.countP isLoop :=
    List.countP_congr fun before member => by rw [alone before (List.mem_append_left _ member)]
  have number : stage.state.numbering.loops = place := by
    rw [logged.numbering_eq]
    simp only [Stage.counted, starts, same, counted, Nat.zero_add]
  have binds := binds_of_isLoop loop
  rw [Numbering.positionName, Numbering.elementName, number] at binds
  exact binds

end Stage

/-- Loops with different numbers have four different names. -/
theorem Template.nodup_loopNames {first second : Nat} (different : first ≠ second) :
    ["$_i" ++ toString first, "$_i" ++ toString first ++ "_key",
      "$_i" ++ toString second, "$_i" ++ toString second ++ "_key"].Nodup := by
  have element : ∀ number, ("$_i" ++ toString number).toList = '$' :: elementVariable number :=
    fun number => toList_elementName ⟨number, 0, ""⟩
  have position : ∀ number,
      ("$_i" ++ toString number ++ "_key").toList = '$' :: positionVariable number :=
    fun number => toList_positionName ⟨number, 0, ""⟩
  refine List.Nodup.of_map String.toList ?_
  simp only [List.map_cons, List.map_nil, element, position, List.nodup_cons, List.mem_cons,
    List.cons.injEq, true_and, List.not_mem_nil, or_false, not_or, List.nodup_nil, and_true,
    not_false_iff]
  exact ⟨⟨elementVariable_ne_positionVariable _ _,
      fun same => different (elementVariable_injective same),
      elementVariable_ne_positionVariable _ _⟩,
    ⟨Ne.symm (elementVariable_ne_positionVariable _ _),
      fun same => different (positionVariable_injective same)⟩,
    elementVariable_ne_positionVariable _ _⟩

/-! ## Components that take nothing -/

/-- The request takes nothing from the numbering of a document. -/
def Request.TakesNothing : Allowance := fun request _ =>
  match request with
  | .loopNames | .formId => False
  | _ => True

def Task.Asks (allowed : Allowance) : Task → Prop
  | .view shown => shown.Asks allowed
  | .program running => running.Asks allowed

theorem View.allAsk_iff {allowed : Allowance} {views : List View} :
    View.AllAsk allowed views ↔ ∀ view ∈ views, view.Asks allowed := by
  induction views with
  | nil => simp [View.AllAsk]
  | cons first rest inductionHypothesis => simp [View.AllAsk, inductionHypothesis]

namespace Stage

variable {allowed : Allowance}

/-- What a render starts asks nothing that it does not ask itself. -/
theorem Inner.asks {outer inner : Stage} (step : Inner outer inner)
    (kept : outer.task.keepsMarkers = true) (asks : outer.task.Asks allowed) :
    inner.task.Asks allowed := by
  cases step with
  | child sibling => exact View.allAsk_iff.mp asks _ sibling.mem
  | body | otherwise | left | template | fallback => cases kept
  | loop => exact asks _ _
  | dataRoute => exact asks _
  | shellBody => exact asks.2
  | shellHead => exact asks.1
  | hidden => exact asks.1
  | button => exact asks.2
  | readScope => exact asks _
  | ask => exact asks.2 _
  | rendering => exact asks.1
  | rendered => exact asks.2 _
  | element | switch | route | link | head | form | submit | component | output => exact asks

theorem Leaves.asks {stage : Stage} {branch : View} (leaves : Leaves stage branch)
    (asks : stage.task.Asks allowed) : branch.Asks allowed := by
  induction leaves with
  | marker => exact asks
  | inside kept step _ inductionHypothesis => exact inductionHypothesis (step.asks kept asks)
  | fallback _ _ _ inductionHypothesis => exact inductionHypothesis asks.2

theorem Parts.asks {stage : Stage} {parts : List Stage} (parted : stage.Parts parts)
    (asks : stage.task.Asks allowed) : ∀ part ∈ parts, part.task.Asks allowed := by
  intro part member
  by_cases kept : stage.task.keepsMarkers = true
  · exact (parted.inner member).asks kept asks
  cases parted with
  | @body condition setting state after body otherwise result negated writable rendered last =>
      obtain rfl := List.mem_singleton.mp member
      cases otherwise with
      | none => exact asks
      | some view => exact asks.1
  | otherwise negated view writable rendered =>
      rcases member with _ | ⟨_, _ | ⟨_, ⟨⟩⟩⟩
      · exact asks.1
      · exact asks.2
  | left negated writable rendered leaves =>
      rcases member with _ | ⟨_, _ | ⟨_, ⟨⟩⟩⟩
      · exact asks
      · exact leaves.asks asks
  | fallback view compiled recorded =>
      obtain rfl := List.mem_singleton.mp member
      exact asks.2
  | nothing alone => cases member
  | template fallback failed => cases member
  | single single step =>
      exact absurd (keepsMarkers_of_handsOn (handsOn_of_single step single)) kept
  | _ => exact absurd rfl kept

theorem Log.asks {agenda log : List Stage} (logged : Log agenda log)
    (asks : ∀ stage ∈ agenda, stage.task.Asks allowed) :
    ∀ stage ∈ log, stage.task.Asks allowed := by
  induction logged with
  | done => simp
  | next parted _ inductionHypothesis =>
      obtain ⟨first, rest⟩ := List.forall_mem_cons.mp asks
      refine List.forall_mem_cons.mpr ⟨first, inductionHypothesis ?_⟩
      exact List.forall_mem_append.mpr ⟨parted.asks first, rest⟩

/-- Where components take nothing, only loops take names. -/
theorem takesNames_of_asks {stage : Stage} (asks : stage.task.Asks Request.TakesNothing) :
    stage.takesNames = stage.isLoop := by
  obtain ⟨task, setting, state⟩ := stage
  cases task with
  | view shown => cases shown <;> rfl
  | program running =>
      cases running with
      | ask request next =>
          cases request with
          | loopNames => cases asks.1
          | _ => rfl
      | _ => rfl

end Stage

end Sitewright

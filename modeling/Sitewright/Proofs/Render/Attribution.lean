import Sitewright.Proofs.Render.Raising

/-!
Contract: which fault a render ends with, and to which component it is attributed.

The first fault that is raised ends everything. On the way out it is attributed once, to the
construct or the component in whose own render it is raised. Everything around that one passes the
fault on as it is, be it that it renders its children on its own or that it leaves that to the
renderer, and be it in another document.

This is so because components hand on the faults of what they render. One that handles such a
fault is no view; `Render.handling` is its render, and it shows what becomes of attribution then.

Owns:
- `Stage.Raised`: the fault that is raised first in the course of a render;
- `Stage.GoesOn`, the own render of a component, and `Stage.Owns`;
- `View.fault_attributed_to_raiser`: every fault of a render is that one, attributed once;
- `Render.handling`, components that handle faults, and those among them that are views.

Does not own: what becomes of the fault of a build.
-/

namespace Sitewright

open Markup Template Catalog Routing Relation

namespace Stage

open Render

/-! ## The fault that is raised first -/

/-- In the course of the first render, the second one raises the fault, and nothing was raised
before: of all renders that have started earlier, those that the second one is not part of have
ended with a text. Nothing is rendered afterwards. -/
structure Raised (start point : Stage) (source : Fault) : Prop where
  raises : point.Raises source
  first : ∃ earlier inside, Trace [start] (earlier ++ point :: inside) ∧
    Trace [point] (point :: inside) ∧
    (∀ stage ∈ earlier, stage.Ends ∨ TransGen Starts stage point) ∧ ∀ stage ∈ inside, stage.Ends

theorem Raised.course {start point : Stage} {source : Fault} (raised : Raised start point source) :
    ReflTransGen Starts start point := by
  obtain ⟨earlier, inside, traced, -⟩ := raised.first
  obtain ⟨first, listed, course⟩ := traced.course point (by simp)
  obtain rfl := List.mem_singleton.mp listed
  exact course

theorem Raised.here {stage : Stage} {phases : List Stage} {source : Fault}
    (phased : stage.Phases phases) (ends : ∀ phase ∈ phases, phase.Ends)
    (raises : stage.Raises source) : Raised stage stage source := by
  obtain ⟨inside, traced⟩ := exists_trace phases
  have whole := Trace.of_phases phased traced
  exact ⟨raises, [], inside, whole, whole, by simp, traced.ends ends⟩

/-- What is raised in the last phase is raised after everything in the phases before has ended. -/
theorem Raised.outside {stage last point : Stage} {early : List Stage} {source : Fault}
    (phased : stage.Phases (early ++ [last])) (ends : ∀ phase ∈ early, phase.Ends)
    (raised : Raised last point source) : Raised stage point source := by
  obtain ⟨before, tracedBefore⟩ := exists_trace early
  obtain ⟨earlier, inside, traced, own, around, ended⟩ := raised.first
  refine ⟨raised.raises, stage :: (before ++ earlier), inside, ?_, own, ?_, ended⟩
  · have whole := Trace.of_phases phased (tracedBefore.append traced)
    rwa [← List.append_assoc, ← List.cons_append] at whole
  · refine List.forall_mem_cons.mpr ⟨.inr ?_, fun inner member => ?_⟩
    · exact .head' ⟨_, phased, by simp⟩ raised.course
    · rcases List.mem_append.mp member with isBefore | isEarlier
      · exact .inl (tracedBefore.ends ends inner isBefore)
      · exact around inner isEarlier

/-! ## Attribution -/

/-- The own render of a component goes on. What it renders on the way is not part of that. -/
def GoesOn (outer inner : Stage) : Prop :=
  outer.Starts inner ∧ ∃ running, inner.task = .program running

/-- The construct or the component has this name, and it raises the fault in its own render. -/
structure Owns (owner point : Stage) (name : String) (source : Fault) : Prop where
  label : owner.task.label? = some name
  own : ReflTransGen GoesOn owner point
  failed : owner.outcome.1 = .error (.within name source)

/-- A program that fails is what fails in the component or in the program around it. -/
theorem GoesOn.fails {outer inner : Stage} {source : Fault} (goesOn : GoesOn outer inner)
    (failed : inner.outcome.1 = .error source) :
    outer.outcome.1 = .error (outer.task.blame source) ∧
      ((∃ running, outer.task = .program running) ∨ ∃ name, outer.task.label? = some name) := by
  obtain ⟨starts, running, isProgram⟩ := goesOn
  cases starts.inner with
  | component setting state name program =>
      exact ⟨congrArg Prod.fst (within_of_error (Prod.ext failed rfl)), .inr ⟨name, rfl⟩⟩
  | readScope setting state next => exact ⟨failed, .inl ⟨_, rfl⟩⟩
  | ask next replied =>
      exact ⟨(congrArg Prod.fst (bind_of_ok replied)).trans failed, .inl ⟨_, rfl⟩⟩
  | @rendered setting state after steps view text next rendered =>
      have finished : inScope (fun scope => scope.steps steps) view.render setting state =
          (.ok text, after) := rendered
      exact ⟨(congrArg Prod.fst (bind_of_ok finished)).trans failed, .inl ⟨_, rfl⟩⟩
  | _ => cases isProgram

end Stage

theorem Fault.attributed_of_plain {source : Fault} (plain : source.component? = none)
    (name : String) : source.attributed name = .within name source := by
  cases source with
  | within => cases plain
  | _ => rfl

namespace Stage

theorem Owns.of_blamed {owner point : Stage} {name : String} {source fault : Fault}
    (label : owner.task.label? = some name) (plain : source.component? = none)
    (own : ReflTransGen GoesOn owner point) (failed : owner.outcome.1 = .error fault)
    (blamed : fault = owner.task.blame source) :
    Owns owner point name source ∧ fault = .within name source := by
  rw [Task.blame, label] at blamed
  obtain rfl : fault = .within name source := blamed.trans (Fault.attributed_of_plain plain name)
  exact ⟨⟨label, own, failed⟩, rfl⟩

/-- Every fault is raised somewhere, and its owner is blamed for it; only in a program, whose
component is further out, nobody is blamed yet. -/
theorem exists_raised (stage : Stage) (plain : stage.task.RaisesPlain) {fault : Fault}
    (failed : stage.outcome.1 = .error fault) :
    ∃ point source, Raised stage point source ∧ source.component? = none ∧
      ((∃ owner name, ReflTransGen Starts stage owner ∧ Owns owner point name source ∧
          fault = .within name source) ∨
        (∃ running, stage.task = .program running) ∧ ReflTransGen GoesOn stage point ∧
          fault = source) := by
  induction stage using starts_wellFounded.induction generalizing fault with
  | _ stage inductionHypothesis =>
    obtain ⟨phases, phased⟩ := stage.exists_phases
    rcases phased.upToLast with ends | ⟨early, last, broken, rfl, ends, lastFailed⟩
    · -- No phase fails, so this is where the fault is raised.
      obtain ⟨source, raises, blamed⟩ := phased.exists_raises ends failed
      have sourcePlain := raises.plain plain
      refine ⟨stage, source, .here phased ends raises, sourcePlain, ?_⟩
      cases shown : stage.task with
      | program running =>
          rw [shown] at blamed
          exact .inr ⟨⟨running, rfl⟩, .refl, blamed⟩
      | view view =>
          obtain ⟨name, label⟩ := raises.exists_label shown
          exact .inl ⟨stage, name, .refl, Owns.of_blamed label sourcePlain .refl failed blamed⟩
    · have starts : stage.Starts last := ⟨_, phased, by simp⟩
      obtain ⟨point, source, raised, sourcePlain, found⟩ := inductionHypothesis last starts
        (plain.contained starts.contains.to_reflTransGen) lastFailed
      refine ⟨point, source, raised.outside phased ends, sourcePlain, ?_⟩
      rcases found with ⟨owner, name, course, owns, rfl⟩ | ⟨isProgram, own, rfl⟩
      · -- The last phase passes on a fault that is attributed already.
        have passed := starts.inner.fails lastFailed
        exact .inl ⟨owner, name, .head starts course, owns,
          Except.error.inj (failed.symm.trans passed)⟩
      · -- The last phase is a program, which goes on in this program or component.
        have goesOn : GoesOn stage last := ⟨starts, isProgram⟩
        obtain ⟨passed, around⟩ := goesOn.fails lastFailed
        have blamed := Except.error.inj (failed.symm.trans passed)
        rcases around with ⟨running, isRunning⟩ | ⟨name, label⟩
        · rw [isRunning] at blamed
          exact .inr ⟨⟨running, isRunning⟩, .head goesOn own, blamed⟩
        · exact .inl ⟨stage, name, .refl,
            Owns.of_blamed label sourcePlain (.head goesOn own) failed blamed⟩

theorem Owns.fails_of_course {start owner point : Stage} {name : String} {source : Fault}
    (owns : Owns owner point name source) (course : ReflTransGen Starts start owner) :
    start.outcome.1 = .error (.within name source) := by
  have inside : ReflTransGen Inner start owner :=
    ReflTransGen.mono (fun _ _ => Starts.inner) _ _ course
  exact Inner.fails_of_course inside owns.failed

end Stage

/-- Attribution. Take any view whose components raise no faults that are attributed already, and
render it anywhere. If it fails, its fault is the first one that is raised in the course of the
render, attributed once, and to the construct or the component in whose own render it is raised.
Everything around that one fails with this very fault. -/
theorem View.fault_attributed_to_raiser (view : View) (setting : Setting) (state : State)
    (plain : (Task.view view).RaisesPlain) {fault : Fault}
    (failed : (view.render setting state).1 = .error fault) :
    ∃ owner point name source,
      Stage.Raised ⟨.view view, setting, state⟩ point source ∧
      ReflTransGen Stage.Starts ⟨.view view, setting, state⟩ owner ∧
      owner.task.label? = some name ∧ ReflTransGen Stage.GoesOn owner point ∧
      source.component? = none ∧ fault = .within name source ∧
      ∀ between, ReflTransGen Stage.Starts between owner →
        between.outcome.1 = .error (.within name source) := by
  obtain ⟨point, source, raised, sourcePlain, found⟩ :=
    Stage.exists_raised ⟨.view view, setting, state⟩ plain failed
  rcases found with ⟨owner, name, course, owns, attributed⟩ | ⟨⟨running, isProgram⟩, -⟩
  · exact ⟨owner, point, name, source, raised, course, owns.label, owns.own, sourcePlain,
      attributed, fun between around => owns.fails_of_course around⟩
  · cases isProgram

/-- An offer without a price. -/
def priceless : View :=
  .component "Price" (.fail (.raised "no price"))

/-- A panel that renders its content on its own. The price is shown instead of the offer, by way
of a marker. -/
def offerPanel : View :=
  .component "Panel"
    (.render [] (.conditional (.ref ⟨".open"⟩) false [.text "Open", .alternative priceless] none)
      fun text => .done (.raw text))

def offersPage : View :=
  .group [.text "Offers", .loop ⟨".offers"⟩ fun _ _ => offerPanel]

theorem raisesPlain_priceless : (Task.view priceless).RaisesPlain :=
  .failing "Price" rfl

theorem raisesPlain_offerPanel : (Task.view offerPanel).RaisesPlain := by
  have marker : (Task.view (.alternative priceless)).RaisesPlain := by
    refine .of_view ?_
    rintro _ ⟨⟩
    exact raisesPlain_priceless
  have content : (Task.view (.group [.text "Open", .alternative priceless])).RaisesPlain :=
    .group (by simpa using ⟨.text "Open", marker⟩)
  refine .of_view ?_
  rintro _ ⟨⟩
  refine .of_contained (by rintro _ ⟨⟩) ?_
  rintro _ (_ | _)
  · refine .of_view ?_
    rintro _ ⟨⟩
    exact content
  · refine .of_contained (by rintro _ ⟨⟩) ?_
    rintro _ ⟨⟩
    refine .of_view ?_
    rintro _ ⟨⟩

theorem raisesPlain_offersPage : (Task.view offersPage).RaisesPlain := by
  have loop : (Task.view (.loop ⟨".offers"⟩ fun _ _ => offerPanel)).RaisesPlain := by
    refine .of_view ?_
    rintro _ ⟨⟩
    exact raisesPlain_offerPanel
  exact .group (by simpa using ⟨.text "Offers", loop⟩)

/-- Neither the conditional that renders the branch of its marker, nor the panel, nor the loop is
blamed for the missing price. -/
theorem offersPage_blames_price :
    (Task.view offersPage).RaisesPlain ∧
      (Stage.onPage offersPage).outcome.1 = .error (.within "Price" (.raised "no price")) ∧
      ∃ owner point, Stage.Raised (Stage.onPage offersPage) point (.raised "no price") ∧
        owner.task.label? = some "Price" ∧ ReflTransGen Stage.GoesOn owner point := by
  have failed : (Stage.onPage offersPage).outcome.1 =
      .error (.within "Price" (.raised "no price")) := by rfl
  obtain ⟨owner, point, name, source, raised, -, label, own, -, attributed, -⟩ :=
    View.fault_attributed_to_raiser offersPage _ _ raisesPlain_offersPage failed
  obtain ⟨rfl, rfl⟩ := Fault.within.inj attributed
  exact ⟨raisesPlain_offersPage, failed, owner, point, raised, label, own⟩

/-! ## Components that handle faults -/

/-- A component that is told how its content ended, with a text or with a fault, and goes on with
a program that may depend on either. -/
def Render.handling (name : String) (content : View) (next : Except Fault String → Program) :
    Render String :=
  within name fun setting state =>
    let outcome := content.render setting state
    (next outcome.1).run setting outcome.2

/-- The components among the views are those that hand on a fault of their content. -/
theorem View.render_component_eq_handling (name : String) (content : View)
    (next : String → Program) :
    (View.component name (.render [] content next)).render =
      Render.handling name content fun
        | .ok written => next written
        | .error fault => .fail fault := by
  rw [View.render, Render.handling]
  congr 1
  funext setting state
  rw [Program.run]
  rcases rendered : content.render setting state with ⟨fault | written, after⟩
  · exact Render.bind_of_error rendered
  · exact Render.bind_of_ok rendered

/-- Shows the content, or fails with a fault of its own in the place of that of the content. -/
def Program.retelling (own : Fault) : Except Fault String → Program
  | .ok text => .done (.raw text)
  | .error _ => .fail own

/-- A component with a fault of its own is blamed for that one, whatever was raised first. -/
theorem Render.handling_retelling {content : View} {setting : Setting} {state : State}
    {first own : Fault} (name : String) (plain : own.component? = none)
    (failed : (content.render setting state).1 = .error first) :
    (Render.handling name content (Program.retelling own) setting state).1 =
      .error (.within name own) := by
  have told : (Program.retelling own (content.render setting state).1).run setting
      (content.render setting state).2 = (.error own, (content.render setting state).2) := by
    rw [failed, Program.retelling, Program.run, Render.fail]
  rw [Render.handling, ← Fault.attributed_of_plain plain name]
  exact congrArg Prod.fst (within_of_error told)

theorem raisesPlain_retelling {own : Fault} (plain : own.component? = none)
    (outcome : Except Fault String) : (Task.program (.retelling own outcome)).RaisesPlain := by
  cases outcome with
  | ok text =>
      refine .of_contained (by rintro _ ⟨⟩) ?_
      rintro _ ⟨⟩
      refine .of_view ?_
      rintro _ ⟨⟩
  | error refusal => exact .fail plain

/-- A component that fails with a fault of its own when it is refused an asset. -/
def unstyled : View :=
  .component "Styles"
    (.ask (.storeAsset "p \x7b \x7d" "" .css) (.retelling (.raised "no styles")))

theorem raisesPlain_unstyled : (Task.view unstyled).RaisesPlain := by
  refine .of_view ?_
  rintro _ ⟨⟩
  refine .of_contained (by rintro _ ⟨⟩) ?_
  rintro _ ⟨⟩
  exact raisesPlain_retelling rfl _

def untitled : View :=
  .component "Title" (.fail (.raised "no title"))

/-- A document whose head and whose body both fail. -/
def untitledOffer : View :=
  .shell true [untitled] [priceless]

theorem raisesPlain_untitledOffer : (Task.view untitledOffer).RaisesPlain := by
  refine .of_view ?_
  rintro _ contains
  cases contains with
  | shellHead => exact .group (by simpa using .failing "Title" rfl)
  | shellBody => exact .group (by simpa using raisesPlain_priceless)

/-- The fault of a render is not always the first one from left to right. A panel that handles the
missing price is blamed for its own fault, and so is a component that handles the refusal of an
asset. Of a document with two faults, the one in the body is raised before the one in the head. -/
theorem first_fault_not_blamed :
    ((Stage.onPage priceless).outcome.1 = .error (.within "Price" (.raised "no price")) ∧
      (Render.handling "Panel" priceless (.retelling (.raised "no offer"))
        (Stage.onPage priceless).setting (Stage.onPage priceless).state).1 =
          .error (.within "Panel" (.raised "no offer"))) ∧
    ((Task.view unstyled).RaisesPlain ∧
      (Render.offerAsset "p \x7b \x7d" "" .css (Stage.onPage unstyled).setting
        (Stage.onPage unstyled).state).1 = .ok (.error (Asset.Store.unnamed "")) ∧
      (Stage.onPage unstyled).outcome.1 = .error (.within "Styles" (.raised "no styles"))) ∧
    (Task.view untitledOffer).RaisesPlain ∧
      (Stage.onPage untitled).outcome.1 = .error (.within "Title" (.raised "no title")) ∧
      (Stage.onPage untitledOffer).outcome.1 =
        .error (.within "Price" (.raised "no price")) := by
  have priceFailed : (Stage.onPage priceless).outcome.1 =
      .error (.within "Price" (.raised "no price")) := by rfl
  refine ⟨⟨priceFailed, ?panel⟩, ⟨raisesPlain_unstyled, ?refused, ?styles⟩,
    raisesPlain_untitledOffer, ?title, ?body⟩
  case panel => exact Render.handling_retelling "Panel" rfl priceFailed
  case refused => rfl
  case styles => rfl
  case title => rfl
  case body => rfl

end Sitewright

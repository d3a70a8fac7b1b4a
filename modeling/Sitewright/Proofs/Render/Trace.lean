import Sitewright.Proofs.Render.Handover
import Sitewright.Proofs.Render.Success

/-!
Contract: all renders that take place in the course of a render, in the order in which they
start, the documents of regions included.

Rendering is depth first: a render starts its phases one after another, and each of them is over
before the next one starts. A phase that fails is the last one.

Owns:
- `Stage.Phases`, the renders that a render starts, in order, and `Stage.Starts`;
- `Stage.starts_wellFounded`: no render starts others without end;
- `Stage.Trace`, a render with everything that takes place in its course.

Does not own: with which fault a render ends.
-/

namespace Sitewright

open Markup Template Catalog Routing Relation

namespace Stage

open Render

/-! ## Phases -/

/-- The renders that a render starts, in the order in which they start: its parts, and for a
region its template before its fallback. When one of them fails, it is the last one. -/
inductive Phases : Stage → List Stage → Prop where
  | parts {stage : Stage} {parts : List Stage} (inDocument : stage.task.isRegion = false)
      (parted : stage.Parts parts) : Phases stage parts
  | template {setting : Setting} {state after : State} {region : Region}
      {template : DataRef → View} {fault : Fault} (fallback : View)
      (failed : compileTemplate region.resource (template .ofFragment).render setting state =
        (.error fault, after)) :
      Phases ⟨.view (.remote region template fallback), setting, state⟩
        [⟨.view (template .ofFragment), { setting with scope := setting.scope.detached },
          { state with ledger := { state.ledger with numbering := .ofTemplate region.resource } }⟩]
  | fallback {setting : Setting} {state after later : State} {region : Region} {handle : Handle}
      {template : DataRef → View} (fallback : View)
      (compiled : compileTemplate region.resource (template .ofFragment).render setting state =
        (.ok handle, after))
      (recorded : recordRegion region handle setting after = (.ok (), later)) :
      Phases ⟨.view (.remote region template fallback), setting, state⟩
        [⟨.view (template .ofFragment), { setting with scope := setting.scope.detached },
          { state with ledger := { state.ledger with numbering := .ofTemplate region.resource } }⟩,
          ⟨.view fallback, setting, later⟩]

theorem Phases.inner {outer phase : Stage} {phases : List Stage} (phased : outer.Phases phases)
    (member : phase ∈ phases) : outer.Inner phase := by
  cases phased with
  | parts inDocument parted => exact parted.inner member
  | template fallback failed =>
      obtain rfl := List.mem_singleton.mp member
      exact .template _ _ _ _ fallback
  | fallback view compiled recorded =>
      rcases member with _ | ⟨_, _ | ⟨_, ⟨⟩⟩⟩
      · exact .template _ _ _ _ view
      · exact .fallback view compiled recorded

theorem exists_phases (stage : Stage) : ∃ phases, stage.Phases phases := by
  obtain ⟨task, setting, state⟩ := stage
  by_cases handsOn : task.handsOn = true
  · obtain ⟨parts, parted⟩ : ∃ parts, Parts ⟨task, setting, state⟩ parts := exists_parts handsOn
    refine ⟨parts, .parts ?_ parted⟩
    cases task with
    | program running => rfl
    | view shown => cases shown <;> first | rfl | cases handsOn
  cases task with
  | program running => exact absurd rfl handsOn
  | view shown =>
      cases shown with
      | alternative branch => exact ⟨[], .parts rfl (.nothing (by rintro inner ⟨⟩))⟩
      | conditional condition negated body otherwise =>
          obtain ⟨parts, parted, -⟩ := exists_parts_of_conditional condition negated otherwise
            ((Task.logged (.view (.group body))).waits { setting with scope := _ } _)
          exact ⟨parts, .parts rfl parted⟩
      | remote region template fallback =>
          rcases compiled : compileTemplate region.resource (template .ofFragment).render setting
            state with ⟨fault | handle, after⟩
          · exact ⟨_, .template fallback compiled⟩
          · exact ⟨_, .fallback fallback compiled
              (Prod.ext (recordRegion_ok region handle setting after) rfl)⟩
      | _ => exact absurd rfl handsOn

/-- The second render is one of the phases of the first one. -/
def Starts (outer inner : Stage) : Prop :=
  ∃ phases, outer.Phases phases ∧ inner ∈ phases

theorem Starts.inner {outer inner : Stage} (starts : outer.Starts inner) : outer.Inner inner := by
  obtain ⟨phases, phased, member⟩ := starts
  exact phased.inner member

/-- What is rendered is contained in what is rendered around it. The branch of a marker is, because
the marker is in the body of the conditional. -/
theorem Starts.contains {outer inner : Stage} (starts : outer.Starts inner) :
    TransGen Task.Contains outer.task inner.task := by
  by_cases kept : outer.task.keepsMarkers = true
  · exact .single (starts.inner.contains kept)
  obtain ⟨phases, phased, member⟩ := starts
  cases phased with
  | template fallback failed =>
      obtain rfl := List.mem_singleton.mp member
      exact .single (.template _ _ fallback)
  | fallback view compiled recorded =>
      rcases member with _ | ⟨_, _ | ⟨_, ⟨⟩⟩⟩
      · exact .single (.template _ _ view)
      · exact .single (.fallback _ _ view)
  | parts inDocument parted =>
      cases parted with
      | body negated writable rendered last =>
          obtain rfl := List.mem_singleton.mp member
          exact .single (.body _ negated _ _)
      | otherwise negated view writable rendered =>
          rcases member with _ | ⟨_, _ | ⟨_, ⟨⟩⟩⟩
          · exact .single (.body _ negated _ _)
          · exact .single (.otherwise _ negated _ view)
      | left negated writable rendered leaves =>
          rcases member with _ | ⟨_, _ | ⟨_, ⟨⟩⟩⟩
          · exact .single (.body _ negated _ _)
          · exact .head (.body _ negated _ _) leaves.contained
      | nothing alone => cases member
      | template | fallback => cases inDocument
      | single single step =>
          exact absurd (keepsMarkers_of_handsOn (handsOn_of_single step single)) kept
      | _ => exact absurd rfl kept

/-- No render starts others without end. -/
theorem starts_wellFounded : WellFounded fun inner outer : Stage => outer.Starts inner := by
  have contained : WellFounded (TransGen fun inner outer => Task.Contains outer inner) :=
    Task.contains_wellFounded.transGen
  refine Subrelation.wf ?_ (InvImage.wf Stage.task contained)
  intro inner outer starts
  exact transGen_swap.mp starts.contains

/-! ## Ends -/

/-- The render ends with a text. -/
def Ends (stage : Stage) : Prop :=
  stage.task.render.Ends stage.setting stage.state

theorem ends_iff {stage : Stage} : stage.Ends ↔ ∃ text, stage.outcome.1 = .ok text :=
  ⟨fun ⟨text, _, ended⟩ => ⟨text, congrArg Prod.fst ended⟩, fun ⟨text, ended⟩ =>
    ⟨text, _, Prod.ext ended rfl⟩⟩

theorem Starts.ends {outer inner : Stage} (starts : outer.Starts inner) (ends : outer.Ends) :
    inner.Ends :=
  starts.inner.ends ends

theorem Ends.of_course {start inner : Stage} (course : ReflTransGen Starts start inner)
    (ends : start.Ends) : inner.Ends := by
  induction course with
  | refl => exact ends
  | tail _ starts inductionHypothesis => exact starts.ends inductionHypothesis

theorem Ends.ne_error {stage : Stage} (ends : stage.Ends) (fault : Fault) :
    stage.outcome.1 ≠ .error fault := by
  obtain ⟨text, ended⟩ := ends_iff.mp ends
  rw [ended]
  rintro ⟨⟩

theorem ends_or_fails (stage : Stage) : stage.Ends ∨ ∃ fault, stage.outcome.1 = .error fault := by
  rcases ended : stage.outcome.1 with fault | text
  · exact .inr ⟨fault, rfl⟩
  · exact .inl (ends_iff.mpr ⟨text, ended⟩)

/-- All of the renders end with a text, except perhaps the last one. -/
def UpToLast (phases : List Stage) : Prop :=
  (∀ phase ∈ phases, phase.Ends) ∨
    ∃ early last fault, phases = early ++ [last] ∧ (∀ phase ∈ early, phase.Ends) ∧
      last.outcome.1 = .error fault

theorem UpToLast.last (last : Stage) : UpToLast [last] := by
  rcases last.ends_or_fails with ends | ⟨fault, failed⟩
  · exact .inl (by simpa using ends)
  · exact .inr ⟨[], last, fault, rfl, by simp, failed⟩

theorem UpToLast.cons {first : Stage} {rest : List Stage} (ends : first.Ends)
    (upToLast : UpToLast rest) : UpToLast (first :: rest) := by
  rcases upToLast with all | ⟨early, last, fault, rfl, before, failed⟩
  · exact .inl (List.forall_mem_cons.mpr ⟨ends, all⟩)
  · exact .inr ⟨first :: early, last, fault, rfl, List.forall_mem_cons.mpr ⟨ends, before⟩, failed⟩

theorem Siblings.upToLast {setting : Setting} {views : List View} {state : State}
    {parts : List Stage} (siblings : Siblings setting views state parts) : UpToLast parts := by
  induction siblings with
  | done state => exact .inl (by simp)
  | next rendered _ inductionHypothesis => exact .cons ⟨_, _, rendered⟩ inductionHypothesis
  | failed rest failed => exact .last _

theorem ends_of_collectBranch {setting : Setting} {state after : State} {body : List View}
    {text : String} {left : Option Branch}
    (rendered : collectBranch (View.renderAll body) setting state = (.ok (text, left), after)) :
    (ofBody setting state body).Ends := by
  obtain ⟨inner, inside⟩ := ok_of_collectBranch rendered
  exact ⟨text, inner, inside⟩

/-- A phase that fails is the last one. -/
theorem Phases.upToLast {stage : Stage} {phases : List Stage} (phased : stage.Phases phases) :
    UpToLast phases := by
  cases phased with
  | template fallback failed => exact .last _
  | fallback view compiled recorded =>
      obtain ⟨text, middle, rendered, -⟩ := ok_of_bind compiled
      refine .cons ?_ (.last _)
      exact ends_iff.mpr ⟨text, congrArg Prod.fst rendered⟩
  | parts inDocument parted =>
      cases parted with
      | group siblings => exact siblings.upToLast
      | nothing alone => exact .inl (by simp)
      | template => cases inDocument
      | single | body | fallback | shellBody | hidden | rendering => exact .last _
      | otherwise negated view writable rendered =>
          exact .cons (ends_of_collectBranch rendered) (.last _)
      | left negated writable rendered leaves =>
          exact .cons (ends_of_collectBranch rendered) (.last _)
      | shellHead head rendered =>
          obtain ⟨body, inner, inside, -, -⟩ := ok_of_collectMetaTags rendered
          obtain ⟨text, after, content, -⟩ := ok_of_bind inside
          exact .cons ⟨text, after, content⟩ (.last _)
      | button action refresh formAttributes attributes children alone fresh rendered =>
          exact .cons ⟨_, _, rendered⟩ (.last _)
      | rendered next rendered => exact .cons ⟨_, _, rendered⟩ (.last _)

/-! ## Traces -/

/-- All renders that take place in the course of those on the agenda, in the order in which they
start: the first one, then its phases with all that they start, then the rest. -/
inductive Trace : (agenda trace : List Stage) → Prop where
  | done : Trace [] []
  | next {stage : Stage} {phases rest trace : List Stage} (phased : stage.Phases phases)
      (later : Trace (phases ++ rest) trace) : Trace (stage :: rest) (stage :: trace)

theorem Trace.append {first second early late : List Stage} (before : Trace first early)
    (after : Trace second late) : Trace (first ++ second) (early ++ late) := by
  induction before with
  | done => exact after
  | next phased _ inductionHypothesis =>
      rw [List.append_assoc] at inductionHypothesis
      exact .next phased inductionHypothesis

theorem Trace.of_phases {stage : Stage} {phases trace : List Stage} (phased : stage.Phases phases)
    (inside : Trace phases trace) : Trace [stage] (stage :: trace) := by
  refine .next phased ?_
  rw [List.append_nil]
  exact inside

/-- Everything in a trace takes place in the course of a render on the agenda. -/
theorem Trace.course {agenda trace : List Stage} (traced : Trace agenda trace) :
    ∀ stage ∈ trace, ∃ first ∈ agenda, ReflTransGen Starts first stage := by
  induction traced with
  | done => simp
  | @next stage phases rest trace phased later inductionHypothesis =>
      refine List.forall_mem_cons.mpr ⟨⟨stage, List.mem_cons_self, .refl⟩, ?_⟩
      intro inner member
      obtain ⟨first, listed, course⟩ := inductionHypothesis inner member
      rcases List.mem_append.mp listed with isPhase | isRest
      · exact ⟨stage, List.mem_cons_self, .head ⟨phases, phased, isPhase⟩ course⟩
      · exact ⟨first, List.mem_cons_of_mem _ isRest, course⟩

theorem Trace.ends {agenda trace : List Stage} (traced : Trace agenda trace)
    (ends : ∀ stage ∈ agenda, stage.Ends) : ∀ stage ∈ trace, stage.Ends := by
  intro stage member
  obtain ⟨first, listed, course⟩ := traced.course stage member
  exact (ends first listed).of_course course

theorem exists_trace_of_all {agenda : List Stage}
    (traced : ∀ stage ∈ agenda, ∃ trace, Trace [stage] trace) : ∃ trace, Trace agenda trace := by
  induction agenda with
  | nil => exact ⟨[], .done⟩
  | cons first rest inductionHypothesis =>
      obtain ⟨early, before⟩ := traced first List.mem_cons_self
      obtain ⟨late, after⟩ := inductionHypothesis fun stage member =>
        traced stage (List.mem_cons_of_mem _ member)
      exact ⟨early ++ late, before.append after⟩

/-- Every course comes to an end, with a text or a fault. -/
theorem exists_trace (agenda : List Stage) : ∃ trace, Trace agenda trace := by
  refine exists_trace_of_all fun stage listed => ?_
  clear listed
  induction stage using starts_wellFounded.induction with
  | _ stage inside =>
    obtain ⟨phases, phased⟩ := stage.exists_phases
    obtain ⟨trace, later⟩ := exists_trace_of_all fun phase member =>
      inside phase ⟨phases, phased, member⟩
    exact ⟨stage :: trace, .of_phases phased later⟩

end Stage

end Sitewright

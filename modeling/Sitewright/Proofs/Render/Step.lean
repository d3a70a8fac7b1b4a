import Mathlib.Logic.Relation
import Sitewright.Proofs.Catalog.Store
import Sitewright.Proofs.Render.Closure
import Sitewright.Proofs.Routing.Matching

/-!
Contract: how a render changes the ledger, whatever is rendered.

A render is a run of small changes, one for each request that is answered. What
each change keeps, every render keeps, whether it ends with a text or with a fault.

Owns:
- `Ledger.Step`, one change, for a configuration and a pass;
- `View.render_steps`, the run of changes that rendering a view is;
- `Adds`, which routes and their record share.
-/

namespace Sitewright

open Routing Catalog Markup Relation

/-- One change of the ledger. A configuration and a pass stay the same throughout.
Unless records of islands are free, they name fragments that are stored. -/
inductive Ledger.Step (config : Config) (pass : Pass) (free : Prop) : Ledger → Ledger → Prop where
  | number (ledger : Ledger) (numbering : Numbering) :
      Step config pass free ledger { ledger with numbering }
  | require (ledger : Ledger) (resource : String) :
      Step config pass free ledger { ledger with notes := ledger.notes.require resource }
  | note (ledger : Ledger) (key : String) (value : Json) :
      Step config pass free ledger { ledger with notes := ledger.notes.note key value }
  | collect (ledger : Ledger) (metaTags : List Attributes) :
      Step config pass free ledger { ledger with metaTags }
  | storeTemplate (ledger : Ledger) (scope : Scope) (resource template : String) :
      Step config pass free ledger
        (ledger.storeTemplate { config, pass, scope } resource template).1
  | recordIsland (ledger : Ledger) (record : IslandRecord)
      (allowed : free ∨ pass = .search ∨ ledger.catalog.Stores record.fragment) :
      Step config pass free ledger (ledger.recordIsland pass record)
  | addRoute (ledger : Ledger) (entry : Entry) :
      Step config pass free ledger (ledger.addRoute pass entry)
  | seeContainer (ledger : Ledger) (container : String) :
      Step config pass free ledger (ledger.seeContainer pass container)
  | storeAsset {ledger after : Ledger} {contents name url : String} {kind : AssetKind}
      (stored : ledger.storeAsset pass contents name kind = .ok (after, url)) :
      Step config pass free ledger after
  | lookupAsset (ledger : Ledger) (name : String) :
      Step config pass free ledger (ledger.lookupAsset pass name).1

/-- Any number of changes. -/
abbrev Ledger.Steps (config : Config) (pass : Pass) (free : Prop) : Ledger → Ledger → Prop :=
  ReflTransGen (Ledger.Step config pass free)

/-- Components record islands only if that is free. -/
def Allowance.recording (free : Prop) : Allowance
  | .recordIsland _, _ => free
  | _, _ => True

/-- A branch that changes the ledger step by step. -/
def Branch.Stepwise (free : Prop) (branch : Branch) : Prop :=
  ∀ setting ledger,
    Ledger.Steps setting.config setting.pass free ledger (branch setting ledger).2

/-- A state in which a branch that changes the ledger step by step may wait. -/
def State.Stepwise (free : Prop) (state : State) : Prop :=
  ∀ branch ∈ state.branch, branch.Stepwise free

/-- A render that changes the ledger step by step. -/
def Render.Stepwise (free : Prop) {α : Type} (render : Render α) : Prop :=
  ∀ setting state, state.Stepwise free →
    Ledger.Steps setting.config setting.pass free state.ledger (render setting state).2.ledger ∧
      (render setting state).2.Stepwise free

/-- A template stored by a build is there under the id of its handle. -/
theorem Ledger.stores_storeTemplate {ledger : Ledger} {setting : Setting}
    {resource template : String} (pass : setting.pass = .build) :
    (ledger.storeTemplate setting resource template).1.catalog.Stores
      (ledger.storeTemplate setting resource template).2.id := by
  simp only [Ledger.storeTemplate, pass]
  exact Catalog.stores_storeTemplate ledger.catalog setting.config resource template

theorem State.stepwise_ofLedger (free : Prop) (ledger : Ledger) :
    (State.ofLedger ledger).Stepwise free := by
  simp [State.Stepwise, State.ofLedger]

namespace Render.Stepwise

variable {α β : Type} {free : Prop}

theorem waits {render : Render α} {setting : Setting} {state after : State}
    {result : Except Fault α} (steps : render.Stepwise free) (waits : state.Stepwise free)
    (outcome : render setting state = (result, after)) : after.Stepwise free := by
  have later := (steps setting state waits).2
  rwa [outcome] at later

theorem pure (value : α) : (Pure.pure value : Render α).Stepwise free :=
  fun _ _ waits => ⟨.refl, waits⟩

theorem fail (fault : Fault) : (Render.fail fault : Render α).Stepwise free :=
  fun _ _ waits => ⟨.refl, waits⟩

theorem bind {first : Render α} {next : α → Render β} (firstSteps : first.Stepwise free)
    (nextSteps : ∀ value, (next value).Stepwise free) : (first >>= next).Stepwise free := by
  intro setting state waits
  have steps := firstSteps setting state waits
  rcases outcome : first setting state with ⟨fault | value, after⟩
  · rw [bind_of_error outcome]
    simpa only [outcome] using steps
  · rw [bind_of_ok outcome]
    rw [outcome] at steps
    have later := nextSteps value setting after steps.2
    exact ⟨steps.1.trans later.1, later.2⟩

theorem modifyGet {change : Setting → Ledger → α × Ledger}
    (steps : ∀ setting ledger,
      Ledger.Steps setting.config setting.pass free ledger (change setting ledger).2) :
    (Render.modifyGet change).Stepwise free :=
  fun setting state waits => ⟨steps setting state.ledger, waits⟩

theorem recordIsland {record : IslandRecord} (isFree : free) :
    (Render.recordIsland record).Stepwise free :=
  modifyGet fun _ ledger => .single (.recordIsland ledger record (Or.inl isFree))

theorem reply (request : Request) (common : request.Common) : request.reply.Stepwise free := by
  cases request with
  | loopNames => exact modifyGet fun _ ledger => .single (.number ledger _)
  | formId => exact modifyGet fun _ ledger => .single (.number ledger _)
  | resource name => exact modifyGet fun _ ledger => .single (.require ledger name)
  | note key value => exact modifyGet fun _ ledger => .single (.note ledger key value)
  | storeTemplate name template =>
      exact modifyGet fun setting ledger =>
        .single (.storeTemplate ledger setting.scope name template)
  | fragmentCount =>
      refine modifyGet fun setting ledger => ?_
      split <;> exact .refl
  | islandFragment id =>
      refine modifyGet fun setting ledger => ?_
      split <;> exact .refl
  | containerOf route => exact modifyGet fun _ _ => .refl
  | addRoute route title container =>
      exact modifyGet fun _ ledger => .single (.addRoute ledger _)
  | seeContainer container => exact modifyGet fun _ ledger => .single (.seeContainer ledger _)
  | storeAsset contents name kind =>
      refine modifyGet fun setting ledger => ?_
      split
      · next stored => exact .single (.storeAsset stored)
      · exact .refl
  | lookupAsset name => exact modifyGet fun _ ledger => .single (.lookupAsset ledger name)
  | recordIsland record => exact False.elim common
  | config => exact False.elim common

theorem anyReply (request : Request) : request.reply.Stepwise True := by
  cases request with
  | recordIsland record => exact recordIsland trivial
  | config => exact bind (fun _ _ waits => ⟨.refl, waits⟩) fun _ => pure _
  | _ => exact reply _ trivial

/-- Any request of a component that is allowed to make it. -/
theorem ask {request : Request} {next : request.Reply → Program}
    (allowed : Allowance.recording free request next)
    (steps : ∀ reply, (next reply).run.Stepwise free) :
    (Program.ask request next).run.Stepwise free := by
  cases request with
  | recordIsland record => exact bind (recordIsland allowed) steps
  | config => exact bind (bind (fun _ _ waits => ⟨.refl, waits⟩) fun _ => pure _) steps
  | _ => exact bind (reply _ trivial) steps

theorem inScope (change : Scope → Scope) {render : Render α} (steps : render.Stepwise free) :
    (Render.inScope change render).Stepwise free :=
  fun setting => steps { setting with scope := change setting.scope }

theorem ofBranch {branch : Branch} (steps : branch.Stepwise free) :
    (Render.ofBranch branch).Stepwise free :=
  fun setting state waits => ⟨steps setting state.ledger, waits⟩

theorem toBranch {render : Render String} (steps : render.Stepwise free) :
    render.toBranch.Stepwise free :=
  fun setting ledger =>
    (steps setting (.ofLedger ledger) (State.stepwise_ofLedger free ledger)).1

theorem leaveBranch {render : Render String} (steps : render.Stepwise free) :
    (Render.leaveBranch render.toBranch).Stepwise free := by
  intro setting state waits
  unfold Render.leaveBranch
  split
  · exact ⟨.refl, waits⟩
  · refine ⟨.refl, ?_⟩
    rintro branch ⟨⟩
    exact toBranch steps

theorem collectedBranch {render : Render α} (steps : render.Stepwise free) :
    (Render.collectBranch render).Stepwise free := by
  intro setting state waits
  have inside := inScope Scope.inConditional steps setting { state with branch := none }
    (by simp [State.Stepwise])
  rcases outcome : Render.inScope Scope.inConditional render setting { state with branch := none }
    with ⟨fault | value, inner⟩
  all_goals rw [outcome] at inside
  · rw [collectBranch_of_error outcome]
    exact ⟨inside.1, waits⟩
  · rw [collectBranch_of_ok outcome]
    exact ⟨inside.1, waits⟩

/-- The branch that a conditional collects is as good as its body; the one that waits
further out is there again afterwards. -/
theorem collectBranch {render : Render α} {next : α × Option Branch → Render β}
    (steps : render.Stepwise free)
    (nextSteps : ∀ value left, (∀ branch ∈ left, (Render.ofBranch branch).Stepwise free) →
      (next (value, left)).Stepwise free) :
    (Render.collectBranch render >>= next).Stepwise free := by
  intro setting state waits
  have inside := inScope Scope.inConditional steps setting { state with branch := none }
    (by simp [State.Stepwise])
  rcases outcome : Render.inScope Scope.inConditional render setting { state with branch := none }
    with ⟨fault | value, inner⟩
  all_goals rw [outcome] at inside
  · rw [bind_of_error (collectBranch_of_error outcome)]
    exact ⟨inside.1, waits⟩
  · rw [bind_of_ok (collectBranch_of_ok outcome)]
    have later := nextSteps value inner.branch
      (fun branch left => ofBranch (inside.2 branch left)) setting
      { inner with branch := state.branch } waits
    exact ⟨inside.1.trans later.1, later.2⟩

theorem inDocument (numbering : Numbering) {render : Render α} (steps : render.Stepwise free) :
    (Render.inDocument numbering render).Stepwise free := by
  intro setting state waits
  have inside := steps { setting with scope := setting.scope.detached }
    { state with ledger := { state.ledger with numbering } } waits
  refine ⟨?_, inside.2⟩
  exact (ReflTransGen.head (.number state.ledger numbering) inside.1).tail (.number _ _)

theorem collectMetaTags {render : Render α} (steps : render.Stepwise free) :
    (Render.collectMetaTags render).Stepwise free := by
  intro setting state waits
  have inside := steps { setting with scope := setting.scope.inShell }
    { state with ledger := { state.ledger with metaTags := [] } } waits
  have changes := (ReflTransGen.head (.collect state.ledger []) inside.1).tail
    (.collect _ state.ledger.metaTags)
  rcases outcome : render { setting with scope := setting.scope.inShell }
      { state with ledger := { state.ledger with metaTags := [] } } with ⟨fault | value, inner⟩
  all_goals
    rw [outcome] at inside changes
    simp only [Render.collectMetaTags, Render.inScope, outcome]
    exact ⟨changes, inside.2⟩

theorem compileTemplate (resource : String) {template : Render String}
    (steps : template.Stepwise free) : (Render.compileTemplate resource template).Stepwise free :=
  bind (inDocument _ steps) fun text => reply (.storeTemplate resource text) trivial

theorem recordFreely (region : Region) (handle : Handle) :
    (Render.recordRegion region handle).Stepwise True := by
  unfold Render.recordRegion
  split
  · exact recordIsland trivial
  · exact pure ()

/-- The record of a region's island names a fragment, which must be stored. -/
theorem recordRegion {region : Region} {handle : Handle} {setting : Setting} {state : State}
    (stored : setting.pass = .search ∨ state.ledger.catalog.Stores handle.id) :
    ∃ ledger, Render.recordRegion region handle setting state =
        (.ok (), { state with ledger }) ∧
      Ledger.Steps setting.config setting.pass free state.ledger ledger := by
  unfold Render.recordRegion
  cases region.island with
  | none => exact ⟨state.ledger, rfl, .refl⟩
  | some id => exact ⟨_, rfl, .single (.recordIsland state.ledger _ (Or.inr stored))⟩

/-- A fragment is stored just before its island is recorded. -/
theorem region (region : Region) {template : Render String} {rest : Handle → Render String}
    (templateSteps : template.Stepwise free) (restSteps : ∀ handle, (rest handle).Stepwise free) :
    Render.Stepwise free (do
      let handle ← Render.compileTemplate region.resource template
      Render.recordRegion region handle
      rest handle) := by
  intro setting state waits
  -- The island may be recorded only after its fragment, so the three parts are not taken
  -- as a sequence of renders that are good by themselves.
  have steps := inDocument (.ofTemplate region.resource) templateSteps setting state waits
  rcases outcome : Render.inDocument (.ofTemplate region.resource) template setting state
    with ⟨fault | text, after⟩
  all_goals rw [outcome] at steps
  · have failed : Render.compileTemplate region.resource template setting state =
        (.error fault, after) := bind_of_error outcome
    rw [bind_of_error failed]
    exact steps
  · have finished : Render.compileTemplate region.resource template setting state =
        (.ok (after.ledger.storeTemplate setting region.resource text).2,
          { after with ledger := (after.ledger.storeTemplate setting region.resource text).1 }) :=
      bind_of_ok outcome
    have storing : Ledger.Step setting.config setting.pass free after.ledger
        (after.ledger.storeTemplate setting region.resource text).1 :=
      .storeTemplate after.ledger setting.scope region.resource text
    rw [bind_of_ok finished]
    generalize kept : after.ledger.storeTemplate setting region.resource text = stored at storing ⊢
    obtain ⟨ledger, recorded, recording⟩ : ∃ ledger,
        Render.recordRegion region stored.2 setting { after with ledger := stored.1 } =
            (.ok (), { after with ledger }) ∧
          Ledger.Steps setting.config setting.pass free stored.1 ledger := by
      apply recordRegion
      cases pass : setting.pass with
      | search => exact Or.inl rfl
      | build =>
          right
          rw [← kept]
          exact Ledger.stores_storeTemplate pass
    rw [bind_of_ok recorded]
    have later := restSteps stored.2 setting { after with ledger } steps.2
    exact ⟨(steps.1.tail storing).trans (recording.trans later.1), later.2⟩

theorem closed (free : Prop) :
    Closed (fun _ => True) (@Render.Stepwise free) (Allowance.recording free) where
  outermost := trivial
  entered := fun _ _ => trivial
  value := pure
  fault := fail
  sequence := bind
  reading := fun next steps setting =>
    steps setting.scope setting.config.fragmentHeader trivial setting
  reply := fun request common _ => reply request common
  addMetaTag := fun _ => modifyGet fun _ ledger => .single (.collect ledger _)
  inScope := fun change _ _ _ steps => inScope change steps
  within := by
    intro α component render steps setting state waits
    have inside := steps setting state waits
    unfold Render.within
    split
    all_goals
      next outcome =>
        rw [outcome] at inside
        exact inside
  leaveBranch := leaveBranch
  collectBranch := collectBranch
  inDocument := inDocument
  collectMetaTags := collectMetaTags
  region := region
  ask := ask

end Render.Stepwise

theorem View.stepwise {free : Prop} {view : View} (asks : view.Asks (.recording free)) :
    view.render.Stepwise free :=
  View.render_good (Render.Stepwise.closed free) view asks

theorem Allowance.recording_true (request : Request) (next : request.Reply → Program) :
    Allowance.recording True request next := by
  cases request <;> trivial

theorem View.render_stepwise (view : View) : view.render.Stepwise True :=
  View.stepwise (View.asks_of_forall Allowance.recording_true view)

theorem View.renderAll_stepwise (views : List View) : (View.renderAll views).Stepwise True :=
  View.renderAll_good (Render.Stepwise.closed True) views
    (View.allAsk_of_forall Allowance.recording_true views)

theorem Program.run_stepwise (program : Program) : program.run.Stepwise True :=
  Program.run_good (Render.Stepwise.closed True) program
    (Program.asks_of_forall Allowance.recording_true program)

/-- Rendering a view is a run of changes of the ledger, in which records of islands are
free. -/
theorem View.render_steps (view : View) (setting : Setting) (ledger : Ledger) :
    Ledger.Steps setting.config setting.pass True ledger
      (view.render setting (.ofLedger ledger)).2.ledger :=
  (view.render_stepwise setting (.ofLedger ledger) (State.stepwise_ofLedger True ledger)).1

/-! ## Routes -/

namespace Ledger

/-- Routes were added at the end, and their paths were recorded as found. -/
def Adds (before after : Ledger) : Prop :=
  ∃ added : List Entry,
    after.routes.entries = before.routes.entries ++ added ∧
      after.found = before.found ++ added.map Entry.path

theorem Adds.refl (ledger : Ledger) : ledger.Adds ledger := ⟨[], by simp, by simp⟩

/-- A ledger with the same routes and the same record. -/
theorem Adds.of_eq {before after : Ledger} (entries : after.routes.entries = before.routes.entries)
    (found : after.found = before.found) : before.Adds after :=
  ⟨[], by simp [entries], by simp [found]⟩

theorem Adds.trans {first second third : Ledger} (early : first.Adds second)
    (late : second.Adds third) : first.Adds third := by
  obtain ⟨earlyAdded, earlyEntries, earlyFound⟩ := early
  obtain ⟨lateAdded, lateEntries, lateFound⟩ := late
  refine ⟨earlyAdded ++ lateAdded, ?_, ?_⟩
  · rw [lateEntries, earlyEntries, List.append_assoc]
  · rw [lateFound, earlyFound, List.map_append, List.append_assoc]

theorem adds_addRoute (ledger : Ledger) (pass : Pass) (entry : Entry) :
    ledger.Adds (ledger.addRoute pass entry) := by
  unfold addRoute
  split
  · next routes registered =>
    have shape := Table.entries_of_add? registered
    exact ⟨[entry], by rw [shape], by simp⟩
  · exact Adds.refl ledger

@[simp] theorem routes_useUrl (ledger : Ledger) (url : String) :
    (ledger.useUrl url).routes = ledger.routes := by
  unfold useUrl
  split <;> rfl

@[simp] theorem found_useUrl (ledger : Ledger) (url : String) :
    (ledger.useUrl url).found = ledger.found := by
  unfold useUrl
  split <;> rfl

/-- Storing an asset leaves the routes and their record alone. -/
theorem routes_storeAsset {ledger after : Ledger} {pass : Pass} {contents name url : String}
    {kind : AssetKind} (stored : ledger.storeAsset pass contents name kind = .ok (after, url)) :
    after.routes = ledger.routes ∧ after.found = ledger.found := by
  cases pass with
  | search =>
      obtain ⟨rfl, -⟩ : ledger = after ∧ "" = url := by simpa [storeAsset] using stored
      exact ⟨rfl, rfl⟩
  | build =>
      simp only [storeAsset] at stored
      split at stored
      · simp only [Except.ok.injEq, Prod.mk.injEq] at stored
        obtain ⟨rfl, -⟩ := stored
        simp
      · cases stored

theorem routes_lookupAsset (ledger : Ledger) (pass : Pass) (name : String) :
    (ledger.lookupAsset pass name).1.routes = ledger.routes ∧
      (ledger.lookupAsset pass name).1.found = ledger.found := by
  cases pass with
  | search => exact ⟨rfl, rfl⟩
  | build =>
      simp only [lookupAsset]
      split <;> simp

theorem routes_storeTemplate (ledger : Ledger) (setting : Setting) (resource template : String) :
    (ledger.storeTemplate setting resource template).1.routes = ledger.routes ∧
      (ledger.storeTemplate setting resource template).1.found = ledger.found := by
  unfold storeTemplate
  split <;> exact ⟨rfl, rfl⟩

theorem routes_recordIsland (ledger : Ledger) (pass : Pass) (record : IslandRecord) :
    (ledger.recordIsland pass record).routes = ledger.routes ∧
      (ledger.recordIsland pass record).found = ledger.found := by
  unfold recordIsland
  split <;> exact ⟨rfl, rfl⟩

theorem Step.adds {config : Config} {pass : Pass} {free : Prop} {before after : Ledger}
    (step : Step config pass free before after) : before.Adds after := by
  cases step with
  | number | require | note | collect => exact Adds.of_eq rfl rfl
  | storeTemplate scope resource template =>
      have same := before.routes_storeTemplate { config, pass, scope } resource template
      exact Adds.of_eq (by rw [same.1]) same.2
  | recordIsland record =>
      have same := before.routes_recordIsland pass record
      exact Adds.of_eq (by rw [same.1]) same.2
  | addRoute entry => exact before.adds_addRoute pass entry
  | seeContainer container =>
      cases pass with
      | search => exact Adds.of_eq (by simp [Ledger.seeContainer]) rfl
      | build => exact Adds.of_eq rfl rfl
  | storeAsset stored =>
      have same := routes_storeAsset stored
      exact Adds.of_eq (by rw [same.1]) same.2
  | lookupAsset name =>
      have same := before.routes_lookupAsset pass name
      exact Adds.of_eq (by rw [same.1]) same.2

theorem Steps.adds {config : Config} {pass : Pass} {free : Prop} {before after : Ledger}
    (steps : Steps config pass free before after) : before.Adds after := by
  induction steps with
  | refl => exact Adds.refl before
  | tail _ step inductionHypothesis => exact inductionHypothesis.trans step.adds

theorem Step.distinct {config : Config} {pass : Pass} {free : Prop} {before after : Ledger}
    (step : Step config pass free before after) (distinct : before.routes.Distinct) :
    after.routes.Distinct := by
  cases step with
  | number | require | note | collect => exact distinct
  | storeTemplate scope resource template =>
      rwa [(before.routes_storeTemplate { config, pass, scope } resource template).1]
  | recordIsland record => rwa [(before.routes_recordIsland pass record).1]
  | addRoute entry =>
      unfold Ledger.addRoute
      split
      · next registered => exact distinct.add? registered
      · exact distinct
  | seeContainer container =>
      cases pass with
      | search => exact distinct.seeContainer container
      | build => exact distinct
  | storeAsset stored => rwa [(routes_storeAsset stored).1]
  | lookupAsset name => rwa [(before.routes_lookupAsset pass name).1]

theorem Steps.distinct {config : Config} {pass : Pass} {free : Prop} {before after : Ledger}
    (steps : Steps config pass free before after) (distinct : before.routes.Distinct) :
    after.routes.Distinct := by
  induction steps with
  | refl => exact distinct
  | tail _ step inductionHypothesis => exact step.distinct inductionHypothesis

end Ledger

end Sitewright

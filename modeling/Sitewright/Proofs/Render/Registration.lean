import Sitewright.Proofs.Render.Step

/-!
Contract: under which paths a render registers routes.

A route is registered under the current path and its own segments, and the current path
comes about from the root in the same way. So a condition on paths that the root meets and
that extension keeps is met by every route that a render registers, unless a component asks
for another one.

Owns:
- `Allowance.registering`, the requests that register routes under such paths only;
- `View.registers`, the condition on all routes that a render registers.

Does not own: any particular condition.
-/

namespace Sitewright

open Routing Catalog

/-- Components register routes only under paths that meet the condition. -/
def Allowance.registering (Known : Path → Prop) : Allowance :=
  fun request _ => request.Registers Known

/-- All routes of the ledger are registered under paths that meet the condition. -/
def Ledger.Registered (Known : Path → Prop) (ledger : Ledger) : Prop :=
  ∀ entry ∈ ledger.routes.entries, Known entry.path

def Branch.Registers (Known : Path → Prop) (branch : Branch) : Prop :=
  ∀ setting ledger, Known setting.scope.current → ledger.Registered Known →
    (branch setting ledger).2.Registered Known

/-- The routes of the ledger meet the condition, and a branch that waits keeps it. -/
structure State.Registered (Known : Path → Prop) (state : State) : Prop where
  routes : state.ledger.Registered Known
  waits : ∀ branch ∈ state.branch, branch.Registers Known

/-- A render registers routes only under paths that meet the condition. -/
def Render.Registers (Known : Path → Prop) {α : Type} (render : Render α) : Prop :=
  ∀ setting state, Known setting.scope.current → state.Registered Known →
    (render setting state).2.Registered Known

variable {Known : Path → Prop}

theorem Ledger.Registered.of_routes {before after : Ledger}
    (registered : before.Registered Known) (same : after.routes = before.routes) :
    after.Registered Known := by
  unfold Ledger.Registered
  rw [same]
  exact registered

theorem Ledger.Registered.addRoute {ledger : Ledger} (registered : ledger.Registered Known)
    (pass : Pass) {entry : Entry} (known : Known entry.path) :
    (ledger.addRoute pass entry).Registered Known := by
  unfold Ledger.addRoute
  split
  · next added =>
    intro other member
    rw [Table.entries_of_add? added] at member
    rcases List.mem_append.mp member with old | new
    · exact registered other old
    · rw [List.mem_singleton.mp new]
      exact known
  · exact registered

namespace Render.Registers

variable {α β : Type}

theorem pure (value : α) : (Pure.pure value : Render α).Registers Known :=
  fun _ _ _ registered => registered

theorem bind {first : Render α} {next : α → Render β} (firstRegisters : first.Registers Known)
    (nextRegisters : ∀ value, (next value).Registers Known) :
    (first >>= next).Registers Known := by
  intro setting state known registered
  have early := firstRegisters setting state known registered
  rcases outcome : first setting state with ⟨fault | value, after⟩
  all_goals rw [outcome] at early
  · rw [bind_of_error outcome]
    exact early
  · rw [bind_of_ok outcome]
    exact nextRegisters value setting after known early

theorem modifyGet {change : Setting → Ledger → α × Ledger}
    (keeps : ∀ setting ledger, Known setting.scope.current → ledger.Registered Known →
      (change setting ledger).2.Registered Known) :
    (Render.modifyGet change).Registers Known :=
  fun setting state known registered =>
    ⟨keeps setting state.ledger known registered.routes, registered.waits⟩

/-- A reply that leaves the routes alone. -/
theorem untouched {change : Setting → Ledger → α × Ledger}
    (same : ∀ setting ledger, (change setting ledger).2.routes = ledger.routes) :
    (Render.modifyGet change).Registers Known :=
  modifyGet fun setting ledger _ registered => registered.of_routes (same setting ledger)

theorem reply (request : Request) (allowed : request.Registers Known) :
    request.reply.Registers Known := by
  cases request with
  | loopNames => exact untouched fun _ _ => rfl
  | formId => exact untouched fun _ _ => rfl
  | resource name => exact untouched fun _ _ => rfl
  | note key value => exact untouched fun _ _ => rfl
  | storeTemplate name template =>
      exact untouched fun setting ledger => (ledger.routes_storeTemplate setting name template).1
  | recordIsland record =>
      exact untouched fun setting ledger => (ledger.routes_recordIsland setting.pass record).1
  | fragmentCount =>
      refine untouched fun setting ledger => ?_
      split <;> rfl
  | islandFragment id =>
      refine untouched fun setting ledger => ?_
      split <;> rfl
  | containerOf route => exact untouched fun _ _ => rfl
  | addRoute route title container =>
      exact modifyGet fun setting _ _ registered => registered.addRoute setting.pass allowed
  | seeContainer container =>
      refine modifyGet fun setting ledger _ registered => ?_
      show (ledger.seeContainer setting.pass container).Registered Known
      intro entry member
      cases pass : setting.pass with
      | search =>
          rw [pass] at member
          exact registered entry (by simpa [Ledger.seeContainer] using member)
      | build =>
          rw [pass] at member
          exact registered entry member
  | storeAsset contents name kind =>
      refine untouched fun setting ledger => ?_
      split
      · next stored => exact (Ledger.routes_storeAsset stored).1
      · rfl
  | lookupAsset name =>
      exact untouched fun setting ledger => (ledger.routes_lookupAsset setting.pass name).1
  | config => exact fun _ _ _ registered => registered

theorem inScope (change : Scope → Scope) {render : Render α}
    (kept : ∀ scope : Scope, Known scope.current → Known (change scope).current)
    (registers : render.Registers Known) : (Render.inScope change render).Registers Known :=
  fun setting state known => registers _ state (kept setting.scope known)

theorem leaveBranch {render : Render String} (registers : render.Registers Known) :
    (Render.leaveBranch render.toBranch).Registers Known := by
  intro setting state known registered
  unfold Render.leaveBranch
  split
  · exact registered
  · refine ⟨registered.routes, ?_⟩
    rintro branch ⟨⟩
    intro later ledger knownLater ledgerRegistered
    have whole := registers later (.ofLedger ledger) knownLater
      ⟨ledgerRegistered, by simp [State.ofLedger]⟩
    exact whole.routes

theorem collectBranch {render : Render α} {next : α × Option Branch → Render β}
    (registers : render.Registers Known)
    (nextRegisters : ∀ value left, (∀ branch ∈ left, (Render.ofBranch branch).Registers Known) →
      (next (value, left)).Registers Known) :
    (Render.collectBranch render >>= next).Registers Known := by
  intro setting state known registered
  have inside := inScope Scope.inConditional (fun _ known => known) registers setting
    { state with branch := none } known ⟨registered.routes, by simp⟩
  rcases outcome : Render.inScope Scope.inConditional render setting { state with branch := none }
    with ⟨fault | value, inner⟩
  all_goals rw [outcome] at inside
  · rw [bind_of_error (collectBranch_of_error outcome)]
    exact ⟨inside.routes, registered.waits⟩
  · rw [bind_of_ok (collectBranch_of_ok outcome)]
    have leftRegisters : ∀ branch ∈ inner.branch, (Render.ofBranch branch).Registers Known := by
      intro branch left later after knownLater afterRegistered
      exact ⟨inside.waits branch left later after.ledger knownLater afterRegistered.routes,
        afterRegistered.waits⟩
    exact nextRegisters value inner.branch leftRegisters setting
      { inner with branch := state.branch } known ⟨inside.routes, registered.waits⟩

theorem inDocument (numbering : Numbering) {render : Render α}
    (registers : render.Registers Known) :
    (Render.inDocument numbering render).Registers Known := by
  intro setting state known registered
  have inside := registers { setting with scope := setting.scope.detached }
    { state with ledger := { state.ledger with numbering } } known
    ⟨registered.routes, registered.waits⟩
  exact ⟨inside.routes, inside.waits⟩

theorem collectMetaTags {render : Render α} (registers : render.Registers Known) :
    (Render.collectMetaTags render).Registers Known := by
  intro setting state known registered
  have inside := registers { setting with scope := setting.scope.inShell }
    { state with ledger := { state.ledger with metaTags := [] } } known
    ⟨registered.routes, registered.waits⟩
  rcases outcome : render { setting with scope := setting.scope.inShell }
      { state with ledger := { state.ledger with metaTags := [] } } with ⟨fault | value, inner⟩
  all_goals
    rw [outcome] at inside
    simp only [Render.collectMetaTags, Render.inScope, outcome]
    exact ⟨inside.routes, inside.waits⟩

theorem closed (outermost : Known .root)
    (entered : ∀ {path : Path} (route : String), Known path → Known (path.extend route)) :
    Closed Known (@Render.Registers Known) (Allowance.registering Known) where
  outermost := outermost
  entered := entered
  value := pure
  fault := fun _ _ _ _ registered => registered
  sequence := bind
  reading := fun next registers setting state known =>
    registers setting.scope setting.config.fragmentHeader known setting state known
  reply := fun request _ allowed => reply request allowed
  addMetaTag := fun _ => untouched fun _ _ => rfl
  inScope := fun change _ _ kept registers => inScope change kept registers
  within := by
    intro α component render registers setting state known registered
    have inside := registers setting state known registered
    unfold Render.within
    split
    all_goals
      next outcome =>
        rw [outcome] at inside
        exact inside
  leaveBranch := leaveBranch
  collectBranch := collectBranch
  inDocument := inDocument
  collectMetaTags := collectMetaTags
  region := by
    intro region template rest templateRegisters restRegisters
    have compiled : (Render.compileTemplate region.resource template).Registers Known :=
      bind (inDocument _ templateRegisters) fun text => reply (.storeTemplate _ text) trivial
    refine bind compiled fun handle => bind ?_ fun _ => restRegisters handle
    unfold Render.recordRegion
    split
    · exact reply (.recordIsland _) trivial
    · exact pure ()
  ask := fun allowed registers => bind (reply _ allowed) registers

end Render.Registers

/-- Routes are registered only under paths that meet a condition which the root meets and
extension keeps. -/
theorem View.registers (outermost : Known .root)
    (entered : ∀ {path : Path} (route : String), Known path → Known (path.extend route))
    {view : View} (asks : view.Asks (.registering Known)) : view.render.Registers Known :=
  View.render_good (Render.Registers.closed outermost entered) view asks

end Sitewright

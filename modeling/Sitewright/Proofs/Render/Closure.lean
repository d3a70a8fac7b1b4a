import Sitewright.Render.View

/-!
Contract: what every render of a view has in common.

Each construct is put together from a few operations: values and faults, reading
the scope and the configured header, requests, and the brackets around a branch, a
document or a shell. A property of renders that these operations keep therefore
holds of the render of every view.

Owns:
- `Kept`, a property of renders that the operations keep as long as the current path is
  known to meet a condition, and one lemma for each construct that has nothing to do with forms;
- `Closed`, a property that is kept even where the form around is looked at, and the lemmas for
  forms and their buttons;
- `Asks`, a condition on the requests of all components of a view;
- the induction over views and programs.

Does not own: any particular property.
-/

namespace Sitewright

open Markup Template Catalog Routing

/-! ## Requests of components -/

/-- A condition on a request and the program that goes on with the reply. -/
abbrev Allowance := (request : Request) → (request.Reply → Program) → Prop

mutual

/-- Every request that a component of the view makes meets the condition. -/
def View.Asks (allowed : Allowance) : View → Prop
  | .blank | .text _ | .raw _ | .redirect _ | .metaTag _ | .stylesheet .. | .script _ => True
  | .group children | .element _ _ children | .switch _ _ children | .route _ _ children
  | .link _ _ _ children | .head children | .form _ _ _ children | .submit _ _ children =>
      View.AllAsk allowed children
  | .conditional _ _ body none => View.AllAsk allowed body
  | .conditional _ _ body (some otherwise) => View.AllAsk allowed body ∧ otherwise.Asks allowed
  | .alternative branch => branch.Asks allowed
  | .loop _ body => ∀ element position, (body element position).Asks allowed
  | .dataRoute _ _ _ body => ∀ source, (body source).Asks allowed
  | .shell _ head children => View.AllAsk allowed head ∧ View.AllAsk allowed children
  | .remote _ template fallback => (∀ root, (template root).Asks allowed) ∧ fallback.Asks allowed
  | .quickButton _ _ _ hidden _ children =>
      View.AllAsk allowed hidden ∧ View.AllAsk allowed children
  | .component _ program => program.Asks allowed

def View.AllAsk (allowed : Allowance) : List View → Prop
  | [] => True
  | first :: rest => first.Asks allowed ∧ View.AllAsk allowed rest

def Program.Asks (allowed : Allowance) : Program → Prop
  | .done output => output.Asks allowed
  | .fail _ => True
  | .readScope next => ∀ scope, (next scope).Asks allowed
  | .ask request next => allowed request next ∧ ∀ reply, (next reply).Asks allowed
  | .render _ view next => view.Asks allowed ∧ ∀ text, (next text).Asks allowed

end

mutual

/-- A condition that always holds is met by every view. -/
theorem View.asks_of_forall {allowed : Allowance} (always : ∀ request next, allowed request next) :
    ∀ view : View, view.Asks allowed
  | .blank | .text _ | .raw _ | .redirect _ | .metaTag _ | .stylesheet .. | .script _ => trivial
  | .group children | .element _ _ children | .switch _ _ children | .route _ _ children
  | .link _ _ _ children | .head children | .form _ _ _ children | .submit _ _ children =>
      View.allAsk_of_forall always children
  | .conditional _ _ body none => View.allAsk_of_forall always body
  | .conditional _ _ body (some otherwise) =>
      ⟨View.allAsk_of_forall always body, View.asks_of_forall always otherwise⟩
  | .alternative branch => View.asks_of_forall always branch
  | .loop _ body => fun element position => View.asks_of_forall always (body element position)
  | .dataRoute _ _ _ body => fun source => View.asks_of_forall always (body source)
  | .shell _ head children =>
      ⟨View.allAsk_of_forall always head, View.allAsk_of_forall always children⟩
  | .remote _ template fallback =>
      ⟨fun root => View.asks_of_forall always (template root),
        View.asks_of_forall always fallback⟩
  | .quickButton _ _ _ hidden _ children =>
      ⟨View.allAsk_of_forall always hidden, View.allAsk_of_forall always children⟩
  | .component _ program => Program.asks_of_forall always program

theorem View.allAsk_of_forall {allowed : Allowance}
    (always : ∀ request next, allowed request next) : ∀ views : List View,
      View.AllAsk allowed views
  | [] => trivial
  | first :: rest => ⟨View.asks_of_forall always first, View.allAsk_of_forall always rest⟩

theorem Program.asks_of_forall {allowed : Allowance}
    (always : ∀ request next, allowed request next) : ∀ program : Program, program.Asks allowed
  | .done output => View.asks_of_forall always output
  | .fail _ => trivial
  | .readScope next => fun scope => Program.asks_of_forall always (next scope)
  | .ask request next =>
      ⟨always request next, fun reply => Program.asks_of_forall always (next reply)⟩
  | .render _ view next =>
      ⟨View.asks_of_forall always view, fun text => Program.asks_of_forall always (next text)⟩

end

/-! ## Closed properties -/

/-- A request whose reply does not depend on who asks. The configuration is read by
components only, and constructs record an island only together with its fragment. -/
def Request.Common : Request → Prop
  | .config | .recordIsland _ => False
  | _ => True

/-- A request to register a route does so under a path that meets the condition. -/
def Request.Registers (Known : Path → Prop) : Request → Prop
  | .addRoute route _ _ => Known route
  | _ => True

/-- The scope without the form around. -/
def Scope.withoutForm (scope : Scope) : Scope :=
  { scope with form := none }

/-- Where the steps of a component lead does not depend on the form around. -/
theorem Scope.withoutForm_steps (steps : List Step) (scope : Scope) :
    (scope.withoutForm.steps steps).withoutForm = (scope.steps steps).withoutForm := by
  induction steps generalizing scope with
  | nil => rfl
  | cons first rest inductionHypothesis =>
      have same : (scope.withoutForm.step first).withoutForm = (scope.step first).withoutForm := by
        cases first <;> rfl
      calc ((scope.withoutForm.step first).steps rest).withoutForm
          = ((scope.withoutForm.step first).withoutForm.steps rest).withoutForm :=
            (inductionHypothesis _).symm
        _ = ((scope.step first).withoutForm.steps rest).withoutForm := by rw [same]
        _ = ((scope.step first).steps rest).withoutForm := inductionHypothesis _

theorem eq_ok_of_toOption {ε α : Type} {outcome : Except ε α} {value : α}
    (found : outcome.toOption = some value) : outcome = .ok value := by
  cases outcome with
  | error fault => cases found
  | ok other => rw [Option.some.inj found]

namespace Render

/-- A value handed on is substituted. -/
theorem value_bind {α β : Type} (value : α) (next : α → Render β) :
    (pure value >>= next) = next value := rfl

theorem bind_of_ok {α β : Type} {first : Render α} {next : α → Render β} {setting : Setting}
    {state after : State} {value : α} (outcome : first setting state = (.ok value, after)) :
    (first >>= next) setting state = next value setting after := by
  simp [bind, outcome]

theorem bind_of_error {α β : Type} {first : Render α} {next : α → Render β} {setting : Setting}
    {state after : State} {fault : Fault} (outcome : first setting state = (.error fault, after)) :
    (first >>= next) setting state = (.error fault, after) := by
  simp [bind, outcome]

theorem conditional_of_writable {condition : Expr} (writable : condition.defect? = none)
    (negated : Bool) (body : Render String) (otherwise : Option (Render String)) :
    conditional condition negated body otherwise = (do
      let (text, left) ← collectBranch body
      let chosen ← chooseAlternative otherwise left
      let alternative ← alternativeText chosen
      return ifBlock (condition.header negated) negated text alternative) := by
  unfold conditional
  simp only [writable]

/-- A condition that cannot be written is all that a conditional comes to. -/
theorem conditional_of_defect {condition : Expr} {reason : String}
    (defective : condition.defect? = some reason) (negated : Bool) (body : Render String)
    (otherwise : Option (Render String)) :
    conditional condition negated body otherwise = misuse .conditional reason := by
  unfold conditional
  simp only [defective]

/-- Both parts of a sequence that ends with a value do so. -/
theorem ok_of_bind {α β : Type} {first : Render α} {next : α → Render β} {setting : Setting}
    {state final : State} {result : β}
    (outcome : (first >>= next) setting state = (.ok result, final)) :
    ∃ value after, first setting state = (.ok value, after) ∧
      next value setting after = (.ok result, final) := by
  rcases early : first setting state with ⟨fault | value, after⟩
  · rw [bind_of_error early] at outcome
    cases outcome
  · rw [bind_of_ok early] at outcome
    exact ⟨value, after, rfl, outcome⟩

/-- What comes last only makes a value of the one before. -/
theorem ok_of_last {α β : Type} {first : Render α} {value : α → β} {setting : Setting}
    {state final : State} {result : β}
    (outcome : (first >>= fun before => pure (value before)) setting state =
      (.ok result, final)) :
    ∃ before, first setting state = (.ok before, final) ∧ value before = result := by
  obtain ⟨before, after, early, late⟩ := ok_of_bind outcome
  obtain ⟨made, rfl⟩ := Prod.mk.inj late
  exact ⟨before, early, Except.ok.inj made⟩

theorem ok_of_within {α : Type} {component : String} {render : Render α} {setting : Setting}
    {state final : State} {result : α}
    (outcome : within component render setting state = (.ok result, final)) :
    render setting state = (.ok result, final) := by
  unfold within at outcome
  split at outcome
  · next inside => rw [inside, outcome]
  · cases outcome

/-- The attribution of faults leaves the state alone. -/
theorem state_within {α : Type} (component : String) (render : Render α) (setting : Setting)
    (state : State) : (within component render setting state).2 = (render setting state).2 := by
  unfold within
  split
  all_goals next outcome => rw [outcome]

theorem collectBranch_of_ok {α : Type} {render : Render α} {setting : Setting}
    {state inner : State} {value : α}
    (outcome : inScope Scope.inConditional render setting { state with branch := none } =
      (.ok value, inner)) :
    collectBranch render setting state =
      (.ok (value, inner.branch), { inner with branch := state.branch }) := by
  simp [collectBranch, outcome]

theorem collectBranch_of_error {α : Type} {render : Render α} {setting : Setting}
    {state inner : State} {fault : Fault}
    (outcome : inScope Scope.inConditional render setting { state with branch := none } =
      (.error fault, inner)) :
    collectBranch render setting state = (.error fault, { inner with branch := state.branch }) := by
  simp [collectBranch, outcome]

theorem ok_of_collectBranch {α : Type} {render : Render α} {setting : Setting}
    {state final : State} {value : α} {left : Option Branch}
    (outcome : collectBranch render setting state = (.ok (value, left), final)) :
    ∃ inner, render { setting with scope := setting.scope.inConditional }
      { state with branch := none } = (.ok value, inner) := by
  unfold collectBranch at outcome
  split at outcome
  · next result inner ended =>
    obtain ⟨rfl, -⟩ := Prod.mk.inj (Except.ok.inj (Prod.mk.inj outcome).1)
    exact ⟨inner, ended⟩
  · cases outcome

/-- Inside of a shell no meta tags wait at first. Those that do in the end are collected, and
outside the same wait as before. -/
theorem ok_of_collectMetaTags {α : Type} {render : Render α} {setting : Setting}
    {state after : State} {result : α × List Attributes}
    (outcome : collectMetaTags render setting state = (.ok result, after)) :
    ∃ value inner, render { setting with scope := setting.scope.inShell }
        { state with ledger := { state.ledger with metaTags := [] } } = (.ok value, inner) ∧
      result = (value, inner.ledger.metaTags) ∧
        after = { inner with ledger := { inner.ledger with metaTags := state.ledger.metaTags } } := by
  simp only [collectMetaTags] at outcome
  split at outcome
  · next value ended =>
    obtain ⟨results, rfl⟩ := Prod.mk.inj outcome
    exact ⟨value, _, Prod.ext ended rfl, (Except.ok.inj results).symm, rfl⟩
  · cases outcome

/-- The setting is what a read of it yields. -/
theorem setting_bind {α : Type} (next : Setting → Render α) :
    (setting >>= next) = fun current => next current current := rfl

/-- A property of renders that the operations keep. Of the setting, constructs read the header of
fragment requests and the scope, though not the form around, and they change the scope without
regard to it. The current path of every scope is known to meet a condition, and routes are
registered only under such paths. -/
structure Kept (Known : Path → Prop) (Good : {α : Type} → Render α → Prop) : Prop where
  outermost : Known .root
  entered : ∀ {path : Path} (route : String), Known path → Known (path.extend route)
  value : ∀ {α : Type} (value : α), Good (pure value : Render α)
  fault : ∀ {α : Type} (fault : Fault), Good (fail fault : Render α)
  sequence : ∀ {α β : Type} {first : Render α} {next : α → Render β},
    Good first → (∀ value, Good (next value)) → Good (first >>= next)
  glancing : ∀ {α : Type} (next : Scope → String → Render α),
    (∀ scope header, next scope.withoutForm header = next scope header) →
      (∀ scope header, Known scope.current → Good (next scope header)) →
        Good (fun setting => next setting.scope setting.config.fragmentHeader setting)
  reply : ∀ request : Request, request.Common → request.Registers Known → Good request.reply
  addMetaTag : ∀ attributes, Good (addMetaTag attributes)
  inScope : ∀ {α : Type} (change : Scope → Scope) {render : Render α},
    (∀ scope : Scope, (change scope.withoutForm).withoutForm = (change scope).withoutForm) →
      (∀ scope : Scope, Known scope.current → Known (change scope).current) →
        Good render → Good (inScope change render)
  within : ∀ {α : Type} (component : String) {render : Render α},
    Good render → Good (within component render)
  leaveBranch : ∀ {render : Render String}, Good render → Good (leaveBranch render.toBranch)
  collectBranch : ∀ {α β : Type} {render : Render α} {next : α × Option Branch → Render β},
    Good render →
      (∀ value left, (∀ branch ∈ left, Good (ofBranch branch)) → Good (next (value, left))) →
        Good (collectBranch render >>= next)
  inDocument : ∀ {α : Type} (numbering : Numbering) {render : Render α},
    Good render → Good (inDocument numbering render)
  collectMetaTags : ∀ {α : Type} {render : Render α},
    Good render → Good (collectMetaTags render)
  region : ∀ (region : Region) {template : Render String} {rest : Handle → Render String},
    Good template → (∀ handle, Good (rest handle)) →
      Good (do
        let handle ← compileTemplate region.resource template
        recordRegion region handle
        rest handle)

/-- Outside of forms a form may be opened. -/
theorem requireNoForm_of_alone (construct : Construct) {setting : Setting}
    (alone : setting.scope.form = none) (state : State) :
    requireNoForm construct setting state = (.ok (), state) := by
  simp only [requireNoForm, setting_bind, alone]
  rfl

/-- The setting of which a render is given nothing but a scope. -/
def bareSetting (scope : Scope) : Setting :=
  { config := .standard, pass := .search, scope }

/-- A render that reads nothing of its setting but the scope does so with that alone. -/
theorem setting_bind_of_only {α : Type} {next : Setting → Render α}
    (only : ∀ current : Setting, next current = next (bareSetting current.scope)) :
    (Render.setting >>= next) = fun current => next (bareSetting current.scope) current := by
  rw [setting_bind]
  funext current
  rw [← only current]

namespace Kept

variable {Known : Path → Prop} {Good : {α : Type} → Render α → Prop} (kept : Kept Known @Good)

include kept

theorem misuse {α : Type} (construct : Construct) (reason : String) :
    Good (Render.misuse construct reason : Render α) :=
  kept.fault _

/-- A render that reads nothing of its setting but the scope, and not the form around. -/
theorem glancingScope {α : Type} {next : Setting → Render α}
    (only : ∀ current : Setting, next current = next (bareSetting current.scope))
    (blind : ∀ scope : Scope, next (bareSetting scope.withoutForm) = next (bareSetting scope))
    (good : ∀ scope, Known scope.current → Good (next (bareSetting scope))) :
    Good (Render.setting >>= next) := by
  rw [setting_bind_of_only only]
  exact kept.glancing (fun scope _ => next (bareSetting scope)) (fun scope _ => blind scope)
    fun scope _ known => good scope known

/-- A change of scope that leaves the current path alone. -/
theorem inPlace {α : Type} (change : Scope → Scope) {render : Render α}
    (blind : ∀ scope : Scope,
      (change scope.withoutForm).withoutForm = (change scope).withoutForm)
    (stays : ∀ scope : Scope, (change scope).current = scope.current) (good : Good render) :
    Good (Render.inScope change render) := by
  refine kept.inScope change blind (fun scope known => ?_) good
  rw [stays]
  exact known

/-- The steps of a component lead from the current path into routes, or start anew. -/
theorem inSteps {α : Type} (steps : List Scope.Step) {render : Render α} (good : Good render) :
    Good (Render.inScope (fun scope => scope.steps steps) render) := by
  refine kept.inScope _ (Scope.withoutForm_steps steps) (fun scope known => ?_) good
  unfold Scope.steps
  induction steps generalizing scope with
  | nil => exact known
  | cons first rest inductionHypothesis =>
      apply inductionHypothesis
      cases first with
      | probe selected => exact kept.outermost
      | page route title => exact kept.outermost
      | enter route => exact kept.entered route known
      | inRouter container => exact known

theorem construct {α : Type} (construct : Construct) {render : Render α} (good : Good render) :
    Good (Render.construct construct render) :=
  kept.within _ good

theorem element (tag : String) (attributes : Attributes) {content : Render String}
    (good : Good content) : Good (Render.element tag attributes content) :=
  kept.sequence good fun _ => kept.value _

theorem ofExcept {α : Type} (outcome : Except Fault α) : Good (Render.ofExcept outcome) := by
  cases outcome with
  | ok value => exact kept.value value
  | error fault => exact kept.fault fault

/-! ## Conditionals and loops -/

theorem alternativeText {chosen : Option (Render String)}
    (good : ∀ render ∈ chosen, Good render) : Good (Render.alternativeText chosen) := by
  cases chosen with
  | none => exact kept.value none
  | some render =>
      exact kept.sequence (kept.inPlace _ (fun _ => rfl) (fun _ => rfl) (good render rfl)) fun _ =>
        kept.value _

/-- What is left of a conditional once its body is rendered. The choice only looks at
which of the two alternatives there are. -/
theorem afterBody (condition : Expr) (negated : Bool) (text : String)
    {otherwise : Option (Render String)} {left : Option Branch}
    (otherwiseGood : ∀ render ∈ otherwise, Good render)
    (leftGood : ∀ branch ∈ left, Good (ofBranch branch)) :
    Good (do
      let chosen ← chooseAlternative otherwise left
      let alternative ← Render.alternativeText chosen
      return ifBlock (condition.header negated) negated text alternative) := by
  have written : ∀ chosen : Option (Render String), (∀ render ∈ chosen, Good render) →
      Good (Render.alternativeText chosen >>= fun alternative =>
        pure (ifBlock (condition.header negated) negated text alternative)) :=
    fun _ good => kept.sequence (kept.alternativeText good) fun _ => kept.value _
  cases otherwise with
  | none =>
      cases left with
      | none => exact written none (by simp)
      | some branch => exact written (some (ofBranch branch)) (by simpa using leftGood)
  | some given =>
      cases left with
      | none => exact written (some given) otherwiseGood
      | some branch => exact kept.misuse _ _

theorem conditional (condition : Expr) (negated : Bool) {body : Render String}
    {otherwise : Option (Render String)} (bodyGood : Good body)
    (otherwiseGood : ∀ render ∈ otherwise, Good render) :
    Good (Render.conditional condition negated body otherwise) := by
  unfold Render.conditional
  split
  · exact kept.misuse _ _
  · exact kept.collectBranch bodyGood fun text left leftGood =>
      kept.afterBody condition negated text otherwiseGood leftGood

theorem alternative {branch : Render String} (good : Good branch) :
    Good (Render.alternative branch) := by
  refine kept.glancingScope (fun _ => rfl) (fun _ => rfl) fun scope known => ?_
  split
  · refine kept.sequence (kept.leaveBranch good) fun accepted => ?_
    split
    · exact kept.value _
    · exact kept.misuse _ _
  · exact kept.misuse _ _

theorem loop (source : DataRef) {body : (element position : DataRef) → Render String}
    (good : ∀ element position, Good (body element position)) :
    Good (Render.loop source body) :=
  kept.sequence (kept.reply .loopNames trivial trivial) fun _ =>
    kept.sequence (good _ _) fun _ => kept.value _

/-! ## Regions -/

theorem remote (region : Region) {template : DataRef → Render String} {fallback : Render String}
    (templateGood : ∀ root, Good (template root)) (fallbackGood : Good fallback) :
    Good (Render.remote region template fallback) := by
  unfold Render.remote
  rw [setting_bind]
  exact kept.glancing (fun scope header => do
      let handle ← Render.compileTemplate region.resource (template .ofFragment)
      Render.recordRegion region handle
      Render.element "div"
        (region.loading.placeholderAttributes header scope.current.text handle.url) fallback)
    (fun _ _ => rfl) fun scope header _ =>
      kept.region region (templateGood _) fun handle => kept.element _ _ fallbackGood

/-! ## Routes -/

theorem switch (id : String) (attributes : Attributes) {children : Render String}
    (good : Good children) : Good (Render.switch id attributes children) :=
  kept.sequence (kept.reply (.seeContainer id) trivial trivial) fun _ =>
    kept.inPlace _ (fun _ => rfl) (fun _ => rfl) (kept.element _ _ good)

theorem route (path title : String) {content : Render String} (good : Good content) :
    Good (Render.route path title content) := by
  refine kept.glancingScope (fun _ => rfl) (fun _ => rfl) fun scope known => ?_
  split
  · exact kept.misuse _ _
  · refine kept.sequence
      (kept.reply (.addRoute _ _ _) trivial (kept.entered path known)) fun _ => ?_
    split
    · exact kept.inScope _ (fun _ => rfl) (fun scope known => kept.entered path known) good
    · exact kept.value _

theorem withResource (resource : String) {content : DataRef → Render String}
    (good : ∀ source, Good (content source)) : Good (Render.withResource resource content) :=
  kept.sequence (kept.reply (.resource resource) trivial trivial) fun _ => good _

theorem link (target : String) (locale : Option String) (attributes : Attributes)
    {children : Render String} (good : Good children) :
    Good (Render.link target locale attributes children) := by
  exact kept.glancingScope (fun _ => rfl) (fun _ => rfl) fun scope _ =>
    kept.sequence (kept.reply (.containerOf _) trivial trivial) fun _ => kept.element _ _ good

theorem redirect (target : String) : Good (Render.redirect target) :=
  kept.sequence (kept.reply (.note _ _) trivial trivial) fun _ =>
    kept.sequence (kept.reply (.note _ _) trivial trivial) fun _ => kept.value _

/-! ## The document around a page -/

theorem head {content : Render String} (good : Good content) : Good (Render.head content) :=
  kept.element _ _ (kept.sequence good fun _ => kept.value _)

theorem headWithMetaTags (tags : List Attributes) {content : Render String}
    (good : Good content) :
    Good (Render.construct .head (Render.head (withMetaTags tags content))) :=
  kept.construct _ (kept.head (kept.sequence good fun _ => kept.value _))

theorem shell (morph : Bool) {headContent children : Render String} (headGood : Good headContent)
    (childrenGood : Good children) : Good (Render.shell morph headContent children) :=
  kept.sequence (kept.collectMetaTags (kept.element _ _ childrenGood)) fun collected =>
    kept.sequence (kept.headWithMetaTags collected.2 headGood) fun _ => kept.value _

theorem metaTag (attributes : Attributes) : Good (Render.metaTag attributes) := by
  refine kept.glancingScope (fun _ => rfl) (fun _ => rfl) fun scope known => ?_
  split
  · exact kept.sequence (kept.addMetaTag _) fun _ => kept.value _
  · exact kept.misuse _ _

theorem storeAsset (contents name : String) (kind : AssetKind) :
    Good (Render.storeAsset contents name kind) :=
  kept.sequence (kept.reply (.storeAsset contents name kind) trivial trivial) fun _ =>
    kept.ofExcept _

theorem stylesheet (name contents : String) (inlined : Bool) :
    Good (Render.stylesheet name contents inlined) := by
  unfold Render.stylesheet
  split
  · exact kept.value _
  · exact kept.sequence (kept.storeAsset _ _ _) fun _ => kept.value _

theorem script (source : ScriptSource) : Good (Render.script source) := by
  unfold Render.script
  split
  · split
    · exact kept.value _
    · exact kept.sequence (kept.storeAsset _ _ _) fun _ => kept.value _
  · refine kept.sequence (kept.reply (.lookupAsset _) trivial trivial) fun found => ?_
    split
    · exact kept.value _
    · refine kept.glancingScope (fun _ => rfl) (fun _ => rfl) fun scope known => ?_
      split
      · exact kept.fault _
      · exact kept.value _

end Kept

/-- A property that is also kept by reading the form around, and by the requests of components that
are allowed. -/
structure Closed (Known : Path → Prop) (Good : {α : Type} → Render α → Prop)
    (allowed : Allowance) : Prop extends Kept Known @Good where
  reading : ∀ {α : Type} (next : Scope → String → Render α),
    (∀ scope header, Known scope.current → Good (next scope header)) →
      Good (fun setting => next setting.scope setting.config.fragmentHeader setting)
  ask : ∀ {request : Request} {next : request.Reply → Program}, allowed request next →
    (∀ reply, Good (next reply).run) → Good (Program.ask request next).run
  glancing := fun next _ good => reading next good

namespace Closed

variable {Known : Path → Prop} {Good : {α : Type} → Render α → Prop} {allowed : Allowance}
  (closed : Closed Known @Good allowed)

include closed

/-- A render that reads nothing of its setting but the scope. -/
theorem readingScope {α : Type} {next : Setting → Render α}
    (only : ∀ current : Setting, next current = next (bareSetting current.scope))
    (good : ∀ scope, Known scope.current → Good (next (bareSetting scope))) :
    Good (Render.setting >>= next) := by
  rw [setting_bind_of_only only]
  exact closed.reading (fun scope _ => next (bareSetting scope))
    fun scope _ known => good scope known

/-! ### Forms -/

theorem requireNoForm (construct : Construct) : Good (Render.requireNoForm construct) := by
  refine closed.readingScope (fun _ => rfl) fun scope known => ?_
  split
  · exact closed.misuse _ _
  · exact closed.value _

theorem form (action : Action) (refresh : Refresh) (attributes : Attributes)
    {children : Render String} (good : Good children) :
    Good (Render.form action refresh attributes children) :=
  closed.sequence (closed.requireNoForm _) fun _ =>
    closed.sequence (closed.reply .formId trivial trivial) fun _ =>
      closed.inPlace _ (fun _ => rfl) (fun _ => rfl) (closed.element _ _ good)

theorem submit (action : Action) (attributes : Attributes) {children : Render String}
    (good : Good children) : Good (Render.submit action attributes children) := by
  refine closed.readingScope (fun _ => rfl) fun scope known => ?_
  split
  · exact closed.misuse _ _
  · split
    · exact closed.element _ _ good
    · exact closed.misuse _ _

theorem quickButton (action : Action) (refresh : Refresh) (formAttributes : Attributes)
    {hidden : Render String} (attributes : Attributes) {children : Render String}
    (hiddenGood : Good hidden) (childrenGood : Good children) :
    Good (Render.quickButton action refresh formAttributes hidden attributes children) := by
  refine closed.sequence (closed.requireNoForm _) fun _ =>
    closed.sequence (closed.reply .formId trivial trivial) fun id => ?_
  exact closed.readingScope (fun _ => rfl) fun scope _ =>
    closed.element _ _ (closed.sequence hiddenGood fun _ =>
      closed.sequence (closed.element _ _ childrenGood) fun _ => closed.value _)

end Closed

end Render

/-! ## Views -/

section Induction

variable {Known : Path → Prop} {Good : {α : Type} → Render α → Prop} {allowed : Allowance}
  (closed : Render.Closed Known @Good allowed)

include closed

mutual

/-- What the operations keep holds of every view whose components only make allowed
requests. -/
theorem View.render_good : ∀ view : View, view.Asks allowed → Good view.render
  | .blank, _ => closed.value _
  | .text _, _ => closed.value _
  | .raw _, _ => closed.value _
  | .group children, asks => View.renderAll_good children asks
  | .element _ _ children, asks => closed.element _ _ (View.renderAll_good children asks)
  | .conditional _ _ body none, asks =>
      closed.construct _ (closed.conditional _ _ (View.renderAll_good body asks) (by simp))
  | .conditional _ _ body (some otherwise), asks =>
      closed.construct _ (closed.conditional _ _ (View.renderAll_good body asks.1)
        (by simpa using View.render_good otherwise asks.2))
  | .alternative branch, asks =>
      closed.construct _ (closed.alternative (View.render_good branch asks))
  | .loop _ body, asks =>
      closed.construct _ (closed.loop _ fun element position =>
        View.render_good (body element position) (asks element position))
  | .switch _ _ children, asks =>
      closed.construct _ (closed.switch _ _ (View.renderAll_good children asks))
  | .route _ _ children, asks =>
      closed.construct _ (closed.route _ _ (View.renderAll_good children asks))
  | .dataRoute _ _ _ body, asks =>
      closed.construct _ (closed.route _ _ (closed.withResource _ fun source =>
        View.render_good (body source) (asks source)))
  | .link _ _ _ children, asks =>
      closed.construct _ (closed.link _ _ _ (View.renderAll_good children asks))
  | .redirect _, _ => closed.construct _ (closed.redirect _)
  | .shell _ head children, asks =>
      closed.construct _ (closed.shell _ (View.renderAll_good head asks.1)
        (View.renderAll_good children asks.2))
  | .head children, asks => closed.construct _ (closed.head (View.renderAll_good children asks))
  | .metaTag _, _ => closed.construct _ (closed.metaTag _)
  | .stylesheet .., _ => closed.construct _ (closed.stylesheet _ _ _)
  | .script _, _ => closed.construct _ (closed.script _)
  | .remote region template fallback, asks =>
      closed.construct _ (closed.remote region
        (fun root => View.render_good (template root) (asks.1 root))
        (View.render_good fallback asks.2))
  | .form _ _ _ children, asks =>
      closed.construct _ (closed.form _ _ _ (View.renderAll_good children asks))
  | .submit _ _ children, asks =>
      closed.construct _ (closed.submit _ _ (View.renderAll_good children asks))
  | .quickButton _ _ _ hidden _ children, asks =>
      closed.construct _ (closed.quickButton _ _ _ _ (View.renderAll_good hidden asks.1)
        (View.renderAll_good children asks.2))
  | .component _ program, asks => closed.within _ (Program.run_good program asks)

theorem View.renderAll_good : ∀ views : List View, View.AllAsk allowed views →
    Good (View.renderAll views)
  | [], _ => closed.value _
  | first :: rest, asks =>
      closed.sequence (View.render_good first asks.1) fun _ =>
        closed.sequence (View.renderAll_good rest asks.2) fun _ => closed.value _

theorem Program.run_good : ∀ program : Program, program.Asks allowed → Good program.run
  | .done output, asks => View.render_good output asks
  | .fail _, _ => closed.fault _
  | .readScope next, asks =>
      closed.reading (fun scope _ => (next scope).run) fun scope _ _ =>
        Program.run_good (next scope) (asks scope)
  | .ask _ next, asks =>
      closed.ask asks.1 fun reply => Program.run_good (next reply) (asks.2 reply)
  | .render steps view next, asks =>
      closed.sequence
        (closed.inSteps steps (View.render_good view asks.1)) fun text =>
          Program.run_good (next text) (asks.2 text)

end

end Induction

end Sitewright

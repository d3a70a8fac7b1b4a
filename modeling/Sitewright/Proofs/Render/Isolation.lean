import Sitewright.Proofs.Render.Earlier
import Sitewright.Proofs.Render.Stage

/-!
Contract: a render does not depend on what was stored earlier.

All that a view sees of catalog and store are the answers to lookups of assets and to
the questions of components. If these are the same with and without earlier entries,
wherever they are asked in the course of a render, then the render ends in the same way
and stores the same, on top of the earlier entries.

Owns:
- `Stage.Guard`, a condition on renders that passes to all they start, and under which
  their answers are the same;
- `Render.Isolated`, the property of one render in one state, and one lemma for each
  operation and each construct;
- `View.isolated`, the induction over views and programs;
- the two guards in use: that all answers are the same in the course of a render, and that
  a view asks nothing.

Does not own: which answers are the same.
-/

namespace Sitewright

open Markup Template Catalog Routing Relation

/-- Whether the answer to a request may come from what is stored. -/
def Request.isQuestion : Request → Bool
  | .lookupAsset _ | .fragmentCount | .islandFragment _ => true
  | _ => false

/-- The request that a task begins with. Of the constructs, only a script that names an
asset stored elsewhere asks a question. -/
def Task.asks? : Task → Option Request
  | .view (.script source) =>
      if source.contents.isNone then some (.lookupAsset source.name) else none
  | .program (.ask request _) => some request
  | _ => none

/-- The state with a ledger on top of earlier entries. A branch that waits is the same. -/
def State.above (state : State) (earlier : Earlier) : State :=
  { state with ledger := state.ledger.above earlier }

variable (earlier : Earlier)

/-- A question that the task begins with gets the same answer on top of earlier entries. -/
def Stage.Answered (stage : Stage) : Prop :=
  ∀ request ∈ stage.task.asks?, request.isQuestion = true →
    (request.reply stage.setting (stage.state.above earlier)).1 =
      (request.reply stage.setting stage.state).1

/-- Whether the task takes a branch that is left for it. -/
def Task.takesBranch : Task → Bool
  | .view (.conditional _ _ _ none) => true
  | _ => false

/-- A condition on renders under which what they ask gets the same answers, and which
passes to all that they start. -/
structure Stage.Guard (holds : Stage → Prop) : Prop where
  answered : ∀ {stage : Stage}, holds stage → stage.Answered earlier
  inner : ∀ {outer inner : Stage}, holds outer → outer.task.takesBranch = false →
    Stage.Inner outer inner → holds inner
  body : ∀ {condition : Expr} {negated : Bool} {body : List View} {setting : Setting}
    {state : State},
    holds ⟨.view (.conditional condition negated body none), setting, state⟩ →
      condition.defect? = none →
        holds ⟨.view (.group body), { setting with scope := setting.scope.inConditional },
          { state with branch := none }⟩
  /-- The branch that a marker leaves may be started by a conditional. -/
  branch : ∀ {branch : View} {setting other : Setting} {state : State} {ledger : Ledger}
    {outer : Stage}, holds ⟨.view (.alternative branch), setting, state⟩ → holds outer →
      Stage.Inner outer ⟨.view branch, other, .ofLedger ledger⟩ →
        holds ⟨.view branch, other, .ofLedger ledger⟩
  /-- Behind the first of several views come the others. -/
  rest : ∀ {first : View} {rest : List View} {setting : Setting} {state after : State}
    {text : String}, holds ⟨.view (.group (first :: rest)), setting, state⟩ →
      first.render setting state = (.ok text, after) →
        holds ⟨.view (.group rest), setting, after⟩

/-- The render ends in the same way on top of earlier entries, and in the same state but
for these. -/
def Render.SameAbove {α : Type} (render : Render α) (setting : Setting) (state : State) : Prop :=
  render setting (state.above earlier) =
    ((render setting state).1, (render setting state).2.above earlier)

variable (holds : Stage → Prop)

/-- A view whose render is the same on top of earlier entries wherever a conditional takes
it as a branch. -/
def View.FitsAbove (view : View) : Prop :=
  ∀ outer setting ledger, holds outer →
    Stage.Inner outer ⟨.view view, setting, .ofLedger ledger⟩ →
      view.render.SameAbove earlier setting (.ofLedger ledger)

/-- A branch that waits is that of a view that fits. -/
def State.Waits (state : State) : Prop :=
  ∀ branch ∈ state.branch, ∃ view : View, branch = view.render.toBranch ∧
    view.FitsAbove earlier holds

structure Render.Isolated {α : Type} (render : Render α) (setting : Setting) (state : State) :
    Prop where
  same : render.SameAbove earlier setting state
  waits : (render setting state).2.Waits earlier holds

variable {earlier holds}

theorem State.waits_ofLedger (ledger : Ledger) :
    (State.ofLedger ledger).Waits earlier holds := by
  simp [State.Waits, State.ofLedger]

namespace Render.Isolated

variable {α β : Type} {setting : Setting} {state : State}

/-! ## Operations -/

theorem value (value : α) (waits : state.Waits earlier holds) :
    (pure value : Render α).Isolated earlier holds setting state :=
  ⟨rfl, waits⟩

theorem fault (fault : Fault) (waits : state.Waits earlier holds) :
    (Render.fail fault : Render α).Isolated earlier holds setting state :=
  ⟨rfl, waits⟩

theorem misuse (construct : Construct) (reason : String) (waits : state.Waits earlier holds) :
    (Render.misuse construct reason : Render α).Isolated earlier holds setting state :=
  fault _ waits

theorem sequence {first : Render α} {next : α → Render β}
    (firstIsolated : first.Isolated earlier holds setting state)
    (nextIsolated : ∀ value after, first setting state = (.ok value, after) →
      after.Waits earlier holds → (next value).Isolated earlier holds setting after) :
    (first >>= next).Isolated earlier holds setting state := by
  have same := firstIsolated.same
  have waits := firstIsolated.waits
  unfold SameAbove at same
  rcases outcome : first setting state with ⟨fault | value, after⟩
  all_goals rw [outcome] at same waits
  · constructor
    · unfold SameAbove
      rw [bind_of_error outcome, bind_of_error same]
    · rw [bind_of_error outcome]
      exact waits
  · have rest := nextIsolated value after outcome waits
    constructor
    · unfold SameAbove
      rw [bind_of_ok outcome, bind_of_ok same]
      exact rest.same
    · rw [bind_of_ok outcome]
      exact rest.waits

theorem reading {next : Setting → Render α}
    (isolated : (next setting).Isolated earlier holds setting state) :
    (Render.setting >>= next).Isolated earlier holds setting state :=
  ⟨isolated.same, isolated.waits⟩

theorem modifyGet {change : Setting → Ledger → α × Ledger}
    (same : change setting (state.ledger.above earlier) =
      ((change setting state.ledger).1, (change setting state.ledger).2.above earlier))
    (waits : state.Waits earlier holds) :
    (Render.modifyGet change).Isolated earlier holds setting state where
  same := by
    unfold SameAbove Render.modifyGet
    simp only [State.above, same]
  waits := waits

theorem modify {change : Setting → Ledger → Ledger}
    (same : change setting (state.ledger.above earlier) =
      (change setting state.ledger).above earlier)
    (waits : state.Waits earlier holds) :
    (Render.modify change).Isolated earlier holds setting state := by
  unfold Render.modify
  exact modifyGet (by rw [same]) waits

theorem inScope {change : Scope → Scope} {render : Render α}
    (isolated : render.Isolated earlier holds
      { setting with scope := change setting.scope } state) :
    (Render.inScope change render).Isolated earlier holds setting state :=
  ⟨isolated.same, isolated.waits⟩

theorem within (component : String) {render : Render α}
    (isolated : render.Isolated earlier holds setting state) :
    (Render.within component render).Isolated earlier holds setting state := by
  obtain ⟨same, waits⟩ := isolated
  unfold SameAbove at same
  rcases outcome : render setting state with ⟨fault | value, after⟩
  all_goals
    rw [outcome] at same waits
    constructor
    · unfold SameAbove Render.within
      simp only [outcome, same]
    · unfold Render.within
      simp only [outcome]
      exact waits

theorem ofExcept (outcome : Except Fault α) (waits : state.Waits earlier holds) :
    (Render.ofExcept outcome).Isolated earlier holds setting state := by
  cases outcome with
  | ok result => exact value result waits
  | error reason => exact fault reason waits

theorem element (tag : String) (attributes : Attributes) {content : Render String}
    (isolated : content.Isolated earlier holds setting state) :
    (Render.element tag attributes content).Isolated earlier holds setting state :=
  sequence isolated fun _ _ _ waits => value _ waits

/-! ## Requests -/

theorem nextLoopNames (waits : state.Waits earlier holds) :
    Render.nextLoopNames.Isolated earlier holds setting state := by
  refine modifyGet ?_ waits
  rfl

theorem nextFormId (waits : state.Waits earlier holds) :
    Render.nextFormId.Isolated earlier holds setting state := by
  refine modifyGet ?_ waits
  rfl

theorem require (resource : String) (waits : state.Waits earlier holds) :
    (Render.require resource).Isolated earlier holds setting state := by
  refine modifyGet ?_ waits
  rfl

theorem note (key : String) (content : Json) (waits : state.Waits earlier holds) :
    (Render.note key content).Isolated earlier holds setting state := by
  refine modify ?_ waits
  rfl

theorem containerOf (route : Path) (waits : state.Waits earlier holds) :
    (Render.containerOf route).Isolated earlier holds setting state := by
  refine modifyGet ?_ waits
  rfl

theorem addMetaTag (attributes : Attributes) (waits : state.Waits earlier holds) :
    (Render.addMetaTag attributes).Isolated earlier holds setting state := by
  refine modify ?_ waits
  rfl

theorem storeTemplate (resource template : String) (waits : state.Waits earlier holds) :
    (Render.storeTemplate resource template).Isolated earlier holds setting state := by
  refine modifyGet ?_ waits
  simp only [Ledger.storeTemplate_above]

theorem recordIsland (record : IslandRecord) (waits : state.Waits earlier holds) :
    (Render.recordIsland record).Isolated earlier holds setting state := by
  exact modify (Ledger.recordIsland_above _ _ _ _) waits

theorem addRoute (entry : Entry) (waits : state.Waits earlier holds) :
    (Render.addRoute entry).Isolated earlier holds setting state := by
  exact modify (Ledger.addRoute_above _ _ _ _) waits

theorem seeContainer (container : String) (waits : state.Waits earlier holds) :
    (Render.seeContainer container).Isolated earlier holds setting state := by
  exact modify (Ledger.seeContainer_above _ _ _ _) waits

theorem offerAsset (contents name : String) (kind : AssetKind) (waits : state.Waits earlier holds) :
    (Render.offerAsset contents name kind).Isolated earlier holds setting state := by
  refine modifyGet ?_ waits
  simp only [Ledger.storeAsset_above]
  cases state.ledger.storeAsset setting.pass contents name kind <;> rfl

theorem storeAsset (contents name : String) (kind : AssetKind) (waits : state.Waits earlier holds) :
    (Render.storeAsset contents name kind).Isolated earlier holds setting state :=
  sequence (offerAsset contents name kind waits) fun offered _ _ => ofExcept offered

theorem lookupAsset (name : String) (waits : state.Waits earlier holds)
    (answered : (Render.lookupAsset name setting (state.above earlier)).1 =
      (Render.lookupAsset name setting state).1) :
    (Render.lookupAsset name).Isolated earlier holds setting state := by
  refine modifyGet ?_ waits
  simp only [Ledger.lookupAsset_above _ _ _ _ (Except.ok.inj answered)]

/-- A question about the catalog changes nothing. -/
theorem askCatalog {question : Catalog → α} (waits : state.Waits earlier holds)
    (answered : (Render.askCatalog question setting (state.above earlier)).1 =
      (Render.askCatalog question setting state).1) :
    (Render.askCatalog question).Isolated earlier holds setting state := by
  refine modifyGet ?_ waits
  have asked := Except.ok.inj answered
  rcases setting with ⟨config, pass, scope⟩
  cases pass with
  | search => rfl
  | build => exact Prod.ext asked rfl

/-- Every request whose answer is the same leaves the same ledger. -/
theorem reply {request : Request} (waits : state.Waits earlier holds)
    (answered : request.isQuestion = true →
      (request.reply setting (state.above earlier)).1 = (request.reply setting state).1) :
    request.reply.Isolated earlier holds setting state := by
  cases request with
  | loopNames => exact nextLoopNames waits
  | formId => exact nextFormId waits
  | resource name => exact require name waits
  | note key content => exact note key content waits
  | storeTemplate name template => exact storeTemplate name template waits
  | recordIsland record => exact recordIsland record waits
  | fragmentCount => exact askCatalog waits (answered rfl)
  | islandFragment id => exact askCatalog waits (answered rfl)
  | containerOf route => exact containerOf route waits
  | addRoute route title container => exact addRoute _ waits
  | seeContainer container => exact seeContainer container waits
  | storeAsset contents name kind => exact offerAsset contents name kind waits
  | lookupAsset name => exact lookupAsset name waits (answered rfl)
  | config => exact ⟨rfl, waits⟩

/-! ## Branches, documents and shells -/

/-- The branch of a view that is rendered in the same way on top of earlier entries. -/
theorem leaveBranch {view : View} (waits : state.Waits earlier holds)
    (fits : view.FitsAbove earlier holds) :
    (Render.leaveBranch view.render.toBranch).Isolated earlier holds setting state := by
  obtain ⟨ledger, branch⟩ := state
  cases branch with
  | some branch => exact ⟨rfl, waits⟩
  | none =>
      refine ⟨rfl, ?_⟩
      intro branch left
      obtain rfl := Option.some.inj left
      exact ⟨view, rfl, fits⟩

theorem ofBranch {view : View} (waits : state.Waits earlier holds)
    (same : view.render.SameAbove earlier setting (.ofLedger state.ledger)) :
    (Render.ofBranch view.render.toBranch).Isolated earlier holds setting state where
  same := by
    have inside : view.render setting (.ofLedger (state.ledger.above earlier)) =
        ((view.render setting (.ofLedger state.ledger)).1,
          (view.render setting (.ofLedger state.ledger)).2.above earlier) := same
    unfold SameAbove Render.ofBranch toBranch
    simp only [State.above, inside]
  waits := waits

/-- What comes behind a body is told which branch the body has left. -/
theorem collectBranch {render : Render α} {next : α × Option Branch → Render β}
    (waits : state.Waits earlier holds)
    (inside : render.Isolated earlier holds { setting with scope := setting.scope.inConditional }
      { state with branch := none })
    (behind : ∀ value left after,
      Render.collectBranch render setting state = (.ok (value, left), after) →
        after.Waits earlier holds → State.Waits earlier holds ⟨after.ledger, left⟩ →
          (next (value, left)).Isolated earlier holds setting after) :
    (Render.collectBranch render >>= next).Isolated earlier holds setting state := by
  have same := inside.same
  have innerWaits := inside.waits
  unfold SameAbove at same
  rcases outcome : Render.inScope Scope.inConditional render setting { state with branch := none }
    with ⟨fault | value, inner⟩
  all_goals
    have lower : render { setting with scope := setting.scope.inConditional }
      { state with branch := none } = _ := outcome
    rw [lower] at same innerWaits
    have upper : Render.inScope Scope.inConditional render setting
      { state.above earlier with branch := none } = _ := same
  · constructor
    · unfold SameAbove
      rw [bind_of_error (collectBranch_of_error outcome),
        bind_of_error (collectBranch_of_error upper)]
      rfl
    · rw [bind_of_error (collectBranch_of_error outcome)]
      exact waits
  · have rest := behind value inner.branch { inner with branch := state.branch }
      (collectBranch_of_ok outcome) waits innerWaits
    constructor
    · unfold SameAbove
      rw [bind_of_ok (collectBranch_of_ok outcome), bind_of_ok (collectBranch_of_ok upper)]
      exact rest.same
    · rw [bind_of_ok (collectBranch_of_ok outcome)]
      exact rest.waits

theorem inDocument {numbering : Numbering} {render : Render α}
    (isolated : render.Isolated earlier holds { setting with scope := setting.scope.detached }
      { state with ledger := { state.ledger with numbering } }) :
    (Render.inDocument numbering render).Isolated earlier holds setting state where
  same := by
    have inside : render { setting with scope := setting.scope.detached }
      { state.above earlier with
        ledger := { (state.above earlier).ledger with numbering } } = _ := isolated.same
    unfold SameAbove Render.inDocument Render.inScope
    simp only [inside]
    rfl
  waits := isolated.waits

theorem collectMetaTags {render : Render α}
    (isolated : render.Isolated earlier holds { setting with scope := setting.scope.inShell }
      { state with ledger := { state.ledger with metaTags := [] } }) :
    (Render.collectMetaTags render).Isolated earlier holds setting state := by
  obtain ⟨same, waits⟩ := isolated
  rcases outcome : render { setting with scope := setting.scope.inShell }
    { state with ledger := { state.ledger with metaTags := [] } } with ⟨fault | value, inner⟩
  all_goals
    have inside : render { setting with scope := setting.scope.inShell }
      { state.above earlier with
        ledger := { (state.above earlier).ledger with metaTags := [] } } = _ := same
    rw [outcome] at inside waits
    constructor
    · unfold SameAbove Render.collectMetaTags Render.inScope
      simp only [outcome, inside]
      rfl
    · unfold Render.collectMetaTags Render.inScope
      simp only [outcome]
      exact waits

/-! ## Conditionals and loops -/

theorem conditional {condition : Expr} {negated : Bool} {body : Render String}
    {otherwise : Option (Render String)} (waits : state.Waits earlier holds)
    (bodyIsolated : condition.defect? = none →
      body.Isolated earlier holds { setting with scope := setting.scope.inConditional }
        { state with branch := none })
    (otherwiseIsolated : ∀ given ∈ otherwise, condition.defect? = none → ∀ text after,
      Render.collectBranch body setting state = (.ok (text, none), after) →
        after.Waits earlier holds →
          given.Isolated earlier holds
            { setting with scope := setting.scope.outsideConditional } after)
    (leftSame : otherwise = none → condition.defect? = none → ∀ text (view : View) after,
      Render.collectBranch body setting state = (.ok (text, some view.render.toBranch), after) →
        view.FitsAbove earlier holds → view.render.SameAbove earlier
          { setting with scope := setting.scope.outsideConditional } (.ofLedger after.ledger)) :
    (Render.conditional condition negated body otherwise).Isolated earlier holds setting state := by
  -- An alternative that has been chosen is rendered outside of the conditional.
  have shown : ∀ {chosen : Render String} {text : String} {after : State},
      chosen.Isolated earlier holds
        { setting with scope := setting.scope.outsideConditional } after →
        (do
          let alternative ← alternativeText (some chosen)
          return ifBlock (condition.header negated) negated text alternative
            : Render String).Isolated earlier holds setting after := by
    intro chosen text after isolated
    exact sequence (sequence (inScope isolated) fun _ _ _ => value _) fun _ _ _ => value _
  unfold Render.conditional
  split
  · exact misuse _ _ waits
  · next writable =>
    refine collectBranch waits (bodyIsolated writable) ?_
    intro text left after rendered afterWaits leftWaits
    cases otherwise with
    | none =>
        cases left with
        | none => exact value _ afterWaits
        | some branch =>
            obtain ⟨view, rfl, fits⟩ := leftWaits branch rfl
            exact shown (ofBranch afterWaits (leftSame rfl writable text view after rendered fits))
    | some given =>
        cases left with
        | none => exact shown (otherwiseIsolated given rfl writable text after rendered afterWaits)
        | some branch => exact misuse _ _ afterWaits

theorem alternative {view : View} (waits : state.Waits earlier holds)
    (fits : view.FitsAbove earlier holds) :
    (Render.alternative view.render).Isolated earlier holds setting state := by
  refine reading ?_
  split
  · refine sequence (leaveBranch waits fits) fun accepted after _ afterWaits => ?_
    split
    · exact value _ afterWaits
    · exact misuse _ _ afterWaits
  · exact misuse _ _ waits

theorem loop {source : DataRef} {body : (element position : DataRef) → Render String}
    (waits : state.Waits earlier holds)
    (bodyIsolated : ∀ names after, Render.nextLoopNames setting state = (.ok names, after) →
      after.Waits earlier holds →
        (body ⟨names.1⟩ ⟨names.2⟩).Isolated earlier holds setting after) :
    (Render.loop source body).Isolated earlier holds setting state :=
  sequence (nextLoopNames waits) fun names after fresh afterWaits =>
    sequence (bodyIsolated names after fresh afterWaits) fun _ _ _ => value _

/-! ## Forms -/

/-- Inside of no form, a form goes on. -/
theorem requireNoForm {construct : Construct} {rest : Render α} (waits : state.Waits earlier holds)
    (isolated : setting.scope.form = none → rest.Isolated earlier holds setting state) :
    (Render.requireNoForm construct >>= fun _ => rest).Isolated earlier holds setting state := by
  have required : (Render.requireNoForm construct).Isolated earlier holds setting state := by
    refine reading ?_
    split
    · exact misuse _ _ waits
    · exact value _ waits
  refine sequence required fun _ after passed _ => ?_
  cases around : setting.scope.form with
  | none =>
      have unchanged := Render.requireNoForm_of_alone construct around state
      rw [passed] at unchanged
      obtain rfl := (Prod.mk.inj unchanged).2
      exact isolated around
  | some form =>
      have fails : (Render.requireNoForm construct setting state).1 =
          .error (.misuse construct.label "form actions cannot be nested") := by
        simp only [Render.requireNoForm, setting_bind, around]
        rfl
      rw [passed] at fails
      cases fails

theorem form {action : Action} {refresh : Refresh} {attributes : Attributes}
    {children : Render String} (waits : state.Waits earlier holds)
    (isolated : setting.scope.form = none → ∀ id after,
      Render.nextFormId setting state = (.ok id, after) → after.Waits earlier holds →
        children.Isolated earlier holds
          { setting with scope := setting.scope.inForm (openForm action refresh id) } after) :
    (Render.form action refresh attributes children).Isolated earlier holds setting state :=
  requireNoForm waits fun alone =>
    sequence (nextFormId waits) fun id after fresh afterWaits =>
      inScope (element _ _ (isolated alone id after fresh afterWaits))

theorem submit {action : Action} {attributes : Attributes} {children : Render String}
    (waits : state.Waits earlier holds)
    (isolated : ∀ form, setting.scope.form = some form → form.action = action.identity →
      children.Isolated earlier holds setting state) :
    (Render.submit action attributes children).Isolated earlier holds setting state := by
  refine reading ?_
  split
  · exact misuse _ _ waits
  · next form inside =>
    split
    · next same => exact element _ _ (isolated form inside same)
    · exact misuse _ _ waits

theorem quickButton {action : Action} {refresh : Refresh} {formAttributes attributes : Attributes}
    {hidden children : Render String} (waits : state.Waits earlier holds)
    (hiddenIsolated : setting.scope.form = none → ∀ id after,
      Render.nextFormId setting state = (.ok id, after) → after.Waits earlier holds →
        hidden.Isolated earlier holds setting after)
    (childrenIsolated : setting.scope.form = none → ∀ id after inputs later,
      Render.nextFormId setting state = (.ok id, after) →
        hidden setting after = (.ok inputs, later) → later.Waits earlier holds →
          children.Isolated earlier holds setting later) :
    (Render.quickButton action refresh formAttributes hidden attributes children).Isolated
      earlier holds setting state := by
  refine requireNoForm waits fun alone => ?_
  refine sequence (nextFormId waits) fun id after fresh afterWaits => ?_
  refine reading (element _ _ ?_)
  refine sequence (hiddenIsolated alone id after fresh afterWaits) ?_
  intro inputs later rendered laterWaits
  exact sequence (element _ _ (childrenIsolated alone id after inputs later fresh rendered
    laterWaits)) fun _ _ _ => value _

/-! ## Regions -/

theorem compileTemplate {resource : String} {template : Render String}
    (isolated : template.Isolated earlier holds { setting with scope := setting.scope.detached }
      { state with ledger := { state.ledger with numbering := .ofTemplate resource } }) :
    (Render.compileTemplate resource template).Isolated earlier holds setting state :=
  sequence (inDocument isolated) fun text _ _ => storeTemplate resource text

theorem recordRegion (region : Region) (handle : Handle) (waits : state.Waits earlier holds) :
    (Render.recordRegion region handle).Isolated earlier holds setting state := by
  unfold Render.recordRegion
  split
  · exact recordIsland _ waits
  · exact value _ waits

theorem remote {region : Region} {template : DataRef → Render String} {fallback : Render String}
    (templateIsolated : (template .ofFragment).Isolated earlier holds
      { setting with scope := setting.scope.detached }
      { state with ledger := { state.ledger with numbering := .ofTemplate region.resource } })
    (fallbackIsolated : ∀ handle after later,
      Render.compileTemplate region.resource (template .ofFragment) setting state =
        (.ok handle, after) →
        Render.recordRegion region handle setting after = (.ok (), later) →
          later.Waits earlier holds → fallback.Isolated earlier holds setting later) :
    (Render.remote region template fallback).Isolated earlier holds setting state := by
  refine reading (sequence (compileTemplate templateIsolated) ?_)
  intro handle after compiled afterWaits
  refine sequence (recordRegion region handle afterWaits) ?_
  intro _ later recorded laterWaits
  exact element _ _ (fallbackIsolated handle after later compiled recorded laterWaits)

/-! ## Routes -/

theorem switch {id : String} {attributes : Attributes} {children : Render String}
    (waits : state.Waits earlier holds)
    (isolated : ∀ after, Render.seeContainer id setting state = (.ok (), after) →
      after.Waits earlier holds →
        children.Isolated earlier holds { setting with scope := setting.scope.inRouter id } after) :
    (Render.switch id attributes children).Isolated earlier holds setting state :=
  sequence (seeContainer id waits) fun _ after seen afterWaits =>
    inScope (element _ _ (isolated after seen afterWaits))

theorem route {path title : String} {content : Render String} (waits : state.Waits earlier holds)
    (isolated : ∀ container after, setting.scope.container = some container →
      Render.addRoute { path := setting.scope.current.extend path, title, container }
        setting state = (.ok (), after) →
        setting.scope.selects path = true → after.Waits earlier holds →
          content.Isolated earlier holds { setting with scope := setting.scope.enter path } after) :
    (Render.route path title content).Isolated earlier holds setting state := by
  refine reading ?_
  split
  · exact misuse _ _ waits
  · next container inside =>
    refine sequence (addRoute _ waits) fun _ after added afterWaits => ?_
    split
    · next selected => exact inScope (isolated container after inside added selected afterWaits)
    · exact value _ afterWaits

theorem withResource {resource : String} {content : DataRef → Render String}
    (waits : state.Waits earlier holds)
    (isolated : ∀ key after, Render.require resource setting state = (.ok key, after) →
      after.Waits earlier holds →
        (content ⟨"." ++ key⟩).Isolated earlier holds setting after) :
    (Render.withResource resource content).Isolated earlier holds setting state :=
  sequence (require resource waits) fun key after required afterWaits =>
    isolated key after required afterWaits

theorem link {target : String} {locale : Option String} {attributes : Attributes}
    {children : Render String} (waits : state.Waits earlier holds)
    (isolated : children.Isolated earlier holds setting state) :
    (Render.link target locale attributes children).Isolated earlier holds setting state := by
  refine reading (sequence (containerOf _ waits) fun container after asked _ => ?_)
  obtain rfl : state = after := (Prod.mk.inj asked).2
  exact element _ _ isolated

theorem redirect (target : String) (waits : state.Waits earlier holds) :
    (Render.redirect target).Isolated earlier holds setting state :=
  sequence (note _ _ waits) fun _ _ _ afterWaits =>
    sequence (note _ _ afterWaits) fun _ _ _ => value _

/-! ## The document around a page -/

theorem head {content : Render String} (isolated : content.Isolated earlier holds setting state) :
    (Render.head content).Isolated earlier holds setting state :=
  element _ _ (sequence isolated fun _ _ _ => value _)

theorem shell {morph : Bool} {headContent children : Render String}
    (bodyIsolated : children.Isolated earlier holds { setting with scope := setting.scope.inShell }
      { state with ledger := { state.ledger with metaTags := [] } })
    (headIsolated : ∀ collected after,
      Render.collectMetaTags (Render.element "body" (bodyAttributes morph) children) setting
        state = (.ok collected, after) →
        after.Waits earlier holds → headContent.Isolated earlier holds setting after) :
    (Render.shell morph headContent children).Isolated earlier holds setting state := by
  refine sequence (collectMetaTags (element _ _ bodyIsolated)) ?_
  intro collected after rendered afterWaits
  have tagged : (withMetaTags collected.2 headContent).Isolated earlier holds setting after :=
    sequence (headIsolated collected after rendered afterWaits) fun _ _ _ => value _
  exact sequence (within _ (head tagged)) fun _ _ _ => value _

theorem metaTag (attributes : Attributes) (waits : state.Waits earlier holds) :
    (Render.metaTag attributes).Isolated earlier holds setting state := by
  refine reading ?_
  split
  · exact sequence (addMetaTag attributes waits) fun _ _ _ => value _
  · exact misuse _ _ waits

theorem stylesheet (name contents : String) (inlined : Bool) (waits : state.Waits earlier holds) :
    (Render.stylesheet name contents inlined).Isolated earlier holds setting state := by
  unfold Render.stylesheet
  split
  · exact value _ waits
  · exact sequence (storeAsset _ _ _ waits) fun _ _ _ => value _

theorem script {source : ScriptSource} (waits : state.Waits earlier holds)
    (answered : source.contents = none →
      (Render.lookupAsset source.name setting (state.above earlier)).1 =
        (Render.lookupAsset source.name setting state).1) :
    (Render.script source).Isolated earlier holds setting state := by
  unfold Render.script
  split
  · split
    · exact value _ waits
    · exact sequence (storeAsset _ _ _ waits) fun _ _ _ => value _
  · next reference =>
    refine sequence (lookupAsset _ waits (answered reference)) ?_
    intro found after _ afterWaits
    split
    · exact value _ afterWaits
    · refine reading ?_
      split
      · exact fault _ afterWaits
      · exact value _ afterWaits

end Render.Isolated

/-! ## Views -/

section Induction

variable (guard : Stage.Guard earlier holds)

include guard

mutual

/-- A view under a guard is rendered in the same way on top of earlier entries. -/
theorem View.isolated : ∀ (view : View) (setting : Setting) (state : State),
    state.Waits earlier holds → holds ⟨.view view, setting, state⟩ →
      view.render.Isolated earlier holds setting state
  | .blank, _, _, waits, _ => .value _ waits
  | .text _, _, _, waits, _ => .value _ waits
  | .raw _, _, _, waits, _ => .value _ waits
  | .group children, setting, state, waits, guarded =>
      View.allIsolated children setting state waits guarded
  | .element _ _ children, setting, state, waits, guarded =>
      .element _ _ (View.allIsolated children setting state waits
        (guard.inner guarded rfl (.element setting state _ _ children)))
  | .conditional condition negated body none, setting, state, waits, guarded =>
      .within _ (.conditional waits
        (fun writable => View.allIsolated body _ _ (by simp [State.Waits])
          (guard.body guarded writable))
        (by simp)
        (fun _ writable _ _ _ rendered fits =>
          fits _ _ _ guarded (.left negated writable rendered)))
  | .conditional condition negated body (some otherwise), setting, state, waits, guarded =>
      .within _ (.conditional waits
        (fun writable => View.allIsolated body _ _ (by simp [State.Waits])
          (guard.inner guarded rfl (.body setting state negated body (some otherwise) writable)))
        (by
          rintro _ ⟨⟩ writable text after rendered afterWaits
          exact View.isolated otherwise _ after afterWaits
            (guard.inner guarded rfl (.otherwise negated otherwise writable rendered)))
        (by simp))
  | .alternative branch, _, _, waits, guarded =>
      .within _ (.alternative waits fun _ setting ledger outerGuarded step =>
        (View.isolated branch setting (.ofLedger ledger) (State.waits_ofLedger ledger)
          (guard.branch guarded outerGuarded step)).same)
  | .loop source body, setting, _, waits, guarded =>
      .within _ (.loop waits fun names after fresh afterWaits =>
        View.isolated (body ⟨names.1⟩ ⟨names.2⟩) setting after afterWaits
          (guard.inner guarded rfl (.loop source body fresh)))
  | .switch _ attributes children, _, _, waits, guarded =>
      .within _ (.switch waits fun after seen afterWaits =>
        View.allIsolated children _ after afterWaits
          (guard.inner guarded rfl (.switch attributes children seen)))
  | .route _ _ children, _, _, waits, guarded =>
      .within _ (.route waits fun _ after inside added selected afterWaits =>
        View.allIsolated children _ after afterWaits
          (guard.inner guarded rfl (.route children inside added selected)))
  | .dataRoute _ _ _ body, _, _, waits, guarded =>
      .within _ (.route waits fun _ after inside added selected afterWaits =>
        .withResource afterWaits fun key later required laterWaits =>
          View.isolated (body ⟨"." ++ key⟩) _ later laterWaits
            (guard.inner guarded rfl (.dataRoute body inside added selected required)))
  | .link target locale attributes children, setting, state, waits, guarded =>
      .within _ (.link waits (View.allIsolated children setting state waits
        (guard.inner guarded rfl (.link setting state target locale attributes children))))
  | .redirect target, _, _, waits, _ =>
      .within Construct.redirect.label (.redirect target waits)
  | .shell morph head children, setting, state, waits, guarded =>
      .within _ (.shell
        (View.allIsolated children _ _ waits
          (guard.inner guarded rfl (.shellBody setting state morph head children)))
        fun _ after rendered afterWaits => View.allIsolated head setting after afterWaits
          (guard.inner guarded rfl (.shellHead head rendered)))
  | .head children, setting, state, waits, guarded =>
      .within _ (.head (View.allIsolated children setting state waits
        (guard.inner guarded rfl (.head setting state children))))
  | .metaTag _, _, _, waits, _ => .within _ (.metaTag _ waits)
  | .stylesheet .., _, _, waits, _ => .within _ (.stylesheet _ _ _ waits)
  | .script source, _, _, waits, guarded =>
      .within _ (.script waits fun reference =>
        guard.answered guarded (.lookupAsset source.name) (by simp [Task.asks?, reference]) rfl)
  | .remote region template fallback, setting, state, waits, guarded =>
      .within _ (.remote
        (View.isolated (template .ofFragment) _ _ waits
          (guard.inner guarded rfl (.template setting state region template fallback)))
        fun _ _ later compiled recorded laterWaits =>
          View.isolated fallback setting later laterWaits
            (guard.inner guarded rfl (.fallback fallback compiled recorded)))
  | .form action refresh attributes children, _, _, waits, guarded =>
      .within _ (.form waits fun alone _ after fresh afterWaits =>
        View.allIsolated children _ after afterWaits
          (guard.inner guarded rfl (.form action refresh attributes children alone fresh)))
  | .submit _ attributes children, setting, state, waits, guarded =>
      .within _ (.submit waits fun _ inside same =>
        View.allIsolated children setting state waits
          (guard.inner guarded rfl (.submit state attributes children inside same)))
  | .quickButton action refresh formAttributes hidden attributes children, setting, _, waits,
      guarded =>
      .within _ (.quickButton waits
        (fun alone _ after fresh afterWaits => View.allIsolated hidden setting after afterWaits
          (guard.inner guarded rfl (.hidden action refresh formAttributes attributes hidden
            children alone fresh)))
        fun alone _ _ _ later fresh rendered laterWaits =>
          View.allIsolated children setting later laterWaits
            (guard.inner guarded rfl (.button action refresh formAttributes attributes children
              alone fresh rendered)))
  | .component name program, setting, state, waits, guarded =>
      .within _ (Program.isolated program setting state waits
        (guard.inner guarded rfl (.component setting state name program)))

theorem View.allIsolated : ∀ (views : List View) (setting : Setting) (state : State),
    state.Waits earlier holds → holds ⟨.view (.group views), setting, state⟩ →
      (View.renderAll views).Isolated earlier holds setting state
  | [], _, _, waits, _ => .value _ waits
  | first :: rest, setting, state, waits, guarded =>
      .sequence
        (View.isolated first setting state waits
          (guard.inner guarded rfl (.child (.here first rest state))))
        fun _ after rendered afterWaits =>
          .sequence (View.allIsolated rest setting after afterWaits (guard.rest guarded rendered))
            fun _ _ _ => .value _

theorem Program.isolated : ∀ (program : Program) (setting : Setting) (state : State),
    state.Waits earlier holds → holds ⟨.program program, setting, state⟩ →
      program.run.Isolated earlier holds setting state
  | .done output, setting, state, waits, guarded =>
      View.isolated output setting state waits
        (guard.inner guarded rfl (.output setting state output))
  | .fail _, _, _, waits, _ => .fault _ waits
  | .readScope next, setting, state, waits, guarded => by
      have inner := Program.isolated (next setting.scope) setting state waits
        (guard.inner guarded rfl (.readScope setting state next))
      exact ⟨inner.same, inner.waits⟩
  | .ask request next, setting, _, waits, guarded =>
      .sequence (.reply waits (guard.answered guarded request rfl))
        fun reply after replied afterWaits =>
          Program.isolated (next reply) setting after afterWaits
            (guard.inner guarded rfl (.ask next replied))
  | .render steps view next, setting, state, waits, guarded =>
      .sequence
        (.inScope (View.isolated view _ state waits
          (guard.inner guarded rfl (.rendering setting state steps view next))))
        fun text after rendered afterWaits =>
          Program.isolated (next text) setting after afterWaits
            (guard.inner guarded rfl (.rendered next rendered))

end

end Induction

/-! ## Guards -/

/-- In the course of the render, every question gets the same answer on top of earlier
entries. -/
def Stage.AnsweredThroughout (earlier : Earlier) (stage : Stage) : Prop :=
  ∀ inner, ReflTransGen Stage.Inner stage inner → inner.Answered earlier

/-- What a render starts, it starts in its own course. -/
theorem Stage.guard_answeredThroughout (earlier : Earlier) :
    Stage.Guard earlier (Stage.AnsweredThroughout earlier) where
  answered := fun throughout => throughout _ .refl
  inner := fun throughout _ step inner reached => throughout inner (.head step reached)
  body := fun throughout writable inner reached =>
    throughout inner (.head (.body _ _ _ _ none writable) reached)
  branch := fun _ throughout step inner reached => throughout inner (.head step reached)
  rest := by
    intro first rest setting state after text throughout rendered inner reached
    rcases ReflTransGen.cases_head reached with rfl | ⟨next, step, later⟩
    · intro request asked
      simp [Task.asks?] at asked
    · cases step with
      | child sibling => exact throughout inner (.head (.child (.later rendered sibling)) later)

mutual

/-- Nothing in the view is a component or a script that names an asset stored elsewhere,
so that it asks nothing about what is stored. -/
def View.Unasking : View → Prop
  | .blank | .text _ | .raw _ | .redirect _ | .metaTag _ | .stylesheet .. => True
  | .script source => source.contents.isSome = true
  | .group children | .element _ _ children | .switch _ _ children | .route _ _ children
  | .link _ _ _ children | .head children | .form _ _ _ children | .submit _ _ children =>
      View.AllUnasking children
  | .conditional _ _ body none => View.AllUnasking body
  | .conditional _ _ body (some otherwise) => View.AllUnasking body ∧ otherwise.Unasking
  | .alternative branch => branch.Unasking
  | .loop _ body => ∀ element position, (body element position).Unasking
  | .dataRoute _ _ _ body => ∀ source, (body source).Unasking
  | .shell _ tags children => View.AllUnasking tags ∧ View.AllUnasking children
  | .remote _ template fallback => (∀ root, (template root).Unasking) ∧ fallback.Unasking
  | .quickButton _ _ _ hidden _ children => View.AllUnasking hidden ∧ View.AllUnasking children
  | .component .. => False

def View.AllUnasking : List View → Prop
  | [] => True
  | first :: rest => first.Unasking ∧ View.AllUnasking rest

end

/-- The task is to render a view that asks nothing. -/
def Stage.Unasking (stage : Stage) : Prop :=
  ∃ view, stage.task = .view view ∧ view.Unasking

theorem Stage.Sibling.unasking {setting : Setting} {views : List View} {state inner : State}
    {view : View} (sibling : Sibling setting views state view inner)
    (unasking : View.AllUnasking views) : view.Unasking := by
  induction sibling with
  | here view rest state => exact unasking.1
  | later rendered sibling inductionHypothesis => exact inductionHypothesis unasking.2

theorem Stage.Unasking.inner {outer inner : Stage} (unasking : outer.Unasking)
    (own : outer.task.takesBranch = false) (step : Stage.Inner outer inner) :
    inner.Unasking := by
  obtain ⟨view, shown, asksNothing⟩ := unasking
  cases step <;> simp only [Task.view.injEq, reduceCtorEq] at shown
  all_goals subst shown
  case child sibling => exact ⟨_, rfl, sibling.unasking asksNothing⟩
  case body otherwise writable =>
    cases otherwise with
    | none => cases own
    | some view => exact ⟨_, rfl, asksNothing.1⟩
  case otherwise => exact ⟨_, rfl, asksNothing.2⟩
  case left => cases own
  case loop => exact ⟨_, rfl, asksNothing _ _⟩
  case dataRoute => exact ⟨_, rfl, asksNothing _⟩
  case shellBody => exact ⟨_, rfl, asksNothing.2⟩
  case shellHead => exact ⟨_, rfl, asksNothing.1⟩
  case template => exact ⟨_, rfl, asksNothing.1 _⟩
  case fallback => exact ⟨_, rfl, asksNothing.2⟩
  case hidden => exact ⟨_, rfl, asksNothing.1⟩
  case button => exact ⟨_, rfl, asksNothing.2⟩
  case component => cases asksNothing
  all_goals exact ⟨_, rfl, asksNothing⟩

/-- What asks nothing is isolated from whatever was stored before. -/
theorem Stage.guard_unasking (earlier : Earlier) : Stage.Guard earlier Stage.Unasking where
  answered := by
    rintro ⟨_, setting, state⟩ ⟨view, rfl, asksNothing⟩ request asked
    cases view with
    | script source =>
        have contents : source.contents.isSome = true := asksNothing
        have stored : source.contents.isNone = false := by
          cases known : source.contents with
          | none => rw [known] at contents; cases contents
          | some _ => rfl
        simp only [Task.asks?, stored, Bool.false_eq_true, if_false] at asked
        cases asked
    | _ => simp [Task.asks?] at asked
  inner := Stage.Unasking.inner
  body := by
    rintro condition negated body setting state ⟨view, shown, asksNothing⟩ -
    cases shown
    exact ⟨_, rfl, asksNothing⟩
  branch := by
    rintro branch setting other state ledger outer ⟨view, shown, asksNothing⟩ - -
    cases shown
    exact ⟨_, rfl, asksNothing⟩
  rest := by
    rintro first rest setting state after text ⟨view, shown, asksNothing⟩ -
    cases shown
    exact ⟨_, rfl, asksNothing.2⟩

end Sitewright

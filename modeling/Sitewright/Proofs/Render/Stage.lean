import Sitewright.Proofs.Render.Step

/-!
Contract: which renders take place in the course of a render, and in which states.

Owns:
- `Stage`, a render that is about to start;
- `Stage.Inner`, the renders that a construct or a component starts, each in the state
  that has come about by then;
- `Stage.Leads`: when an inner render is over, the ledger only changes step by step
  until the outer one is over.

Does not own: what the renders write.
-/

namespace Sitewright

open Markup Template Catalog Routing Relation

/-- A view, or what is left of the program of a component. -/
inductive Task where
  | view (shown : View)
  | program (running : Program)

def Task.render : Task → Render String
  | .view shown => shown.render
  | .program running => running.run

theorem Task.render_stepwise (task : Task) : task.render.Stepwise True := by
  cases task with
  | view shown => exact shown.render_stepwise
  | program running => exact running.run_stepwise

/-- A render about to start. -/
structure Stage where
  task : Task
  setting : Setting
  state : State

namespace Stage

def outcome (stage : Stage) : Except Fault String × State :=
  stage.task.render stage.setting stage.state

/-- One of several views that are rendered one after another, and the state in which
its render starts. -/
inductive Sibling (setting : Setting) : List View → State → View → State → Prop where
  | here (view : View) (rest : List View) (state : State) :
      Sibling setting (view :: rest) state view state
  | later {first view : View} {rest : List View} {state after inner : State} {text : String}
      (rendered : first.render setting state = (.ok text, after))
      (sibling : Sibling setting rest after view inner) :
      Sibling setting (first :: rest) state view inner

theorem Sibling.mem {setting : Setting} {views : List View} {state inner : State} {view : View}
    (sibling : Sibling setting views state view inner) : view ∈ views := by
  induction sibling with
  | here view rest state => exact List.mem_cons_self
  | later rendered sibling inductionHypothesis => exact List.mem_cons_of_mem _ inductionHypothesis

/-- The first render starts the second one. Several views are rendered as a group. -/
inductive Inner : Stage → Stage → Prop where
  | child {setting : Setting} {state inner : State} {views : List View} {view : View}
      (sibling : Sibling setting views state view inner) :
      Inner ⟨.view (.group views), setting, state⟩ ⟨.view view, setting, inner⟩
  | element (setting : Setting) (state : State) (tag : String) (attributes : Attributes)
      (children : List View) :
      Inner ⟨.view (.element tag attributes children), setting, state⟩
        ⟨.view (.group children), setting, state⟩
  | body {condition : Expr} (setting : Setting) (state : State) (negated : Bool)
      (body : List View) (otherwise : Option View) (writable : condition.defect? = none) :
      Inner ⟨.view (.conditional condition negated body otherwise), setting, state⟩
        ⟨.view (.group body), { setting with scope := setting.scope.inConditional },
          { state with branch := none }⟩
  | otherwise {condition : Expr} {setting : Setting} {state after : State} {body : List View}
      {text : String} (negated : Bool) (otherwise : View) (writable : condition.defect? = none)
      (rendered : Render.collectBranch (View.renderAll body) setting state =
        (.ok (text, none), after)) :
      Inner ⟨.view (.conditional condition negated body (some otherwise)), setting, state⟩
        ⟨.view otherwise, { setting with scope := setting.scope.outsideConditional }, after⟩
  /-- The branch of a marker, which was left in the body. -/
  | left {condition : Expr} {setting : Setting} {state after : State} {body : List View}
      {text : String} {branch : View} (negated : Bool) (writable : condition.defect? = none)
      (rendered : Render.collectBranch (View.renderAll body) setting state =
        (.ok (text, some branch.render.toBranch), after)) :
      Inner ⟨.view (.conditional condition negated body none), setting, state⟩
        ⟨.view branch, { setting with scope := setting.scope.outsideConditional },
          .ofLedger after.ledger⟩
  | loop {setting : Setting} {state after : State} {names : String × String} (source : DataRef)
      (body : (element position : DataRef) → View)
      (fresh : Render.nextLoopNames setting state = (.ok names, after)) :
      Inner ⟨.view (.loop source body), setting, state⟩
        ⟨.view (body ⟨names.1⟩ ⟨names.2⟩), setting, after⟩
  | switch {setting : Setting} {state after : State} {id : String} (attributes : Attributes)
      (children : List View) (seen : Render.seeContainer id setting state = (.ok (), after)) :
      Inner ⟨.view (.switch id attributes children), setting, state⟩
        ⟨.view (.group children), { setting with scope := setting.scope.inRouter id }, after⟩
  | route {setting : Setting} {state after : State} {path title container : String}
      (children : List View) (inside : setting.scope.container = some container)
      (added : Render.addRoute { path := setting.scope.current.extend path, title, container }
        setting state = (.ok (), after))
      (selected : setting.scope.selects path = true) :
      Inner ⟨.view (.route path title children), setting, state⟩
        ⟨.view (.group children), { setting with scope := setting.scope.enter path }, after⟩
  | dataRoute {setting : Setting} {state after later : State}
      {path title container resource key : String} (body : DataRef → View)
      (inside : setting.scope.container = some container)
      (added : Render.addRoute { path := setting.scope.current.extend path, title, container }
        setting state = (.ok (), after))
      (selected : setting.scope.selects path = true)
      (required : Render.require resource { setting with scope := setting.scope.enter path } after =
        (.ok key, later)) :
      Inner ⟨.view (.dataRoute path title resource body), setting, state⟩
        ⟨.view (body ⟨"." ++ key⟩), { setting with scope := setting.scope.enter path }, later⟩
  | link (setting : Setting) (state : State) (target : String) (locale : Option String)
      (attributes : Attributes) (children : List View) :
      Inner ⟨.view (.link target locale attributes children), setting, state⟩
        ⟨.view (.group children), setting, state⟩
  | shellBody (setting : Setting) (state : State) (morph : Bool) (head children : List View) :
      Inner ⟨.view (.shell morph head children), setting, state⟩
        ⟨.view (.group children), { setting with scope := setting.scope.inShell },
          { state with ledger := { state.ledger with metaTags := [] } }⟩
  | shellHead {setting : Setting} {state after : State} {morph : Bool} {children : List View}
      {collected : String × List Attributes} (head : List View)
      (rendered : Render.collectMetaTags
        (Render.element "body" (Render.bodyAttributes morph) (View.renderAll children))
        setting state = (.ok collected, after)) :
      Inner ⟨.view (.shell morph head children), setting, state⟩
        ⟨.view (.group head), setting, after⟩
  | head (setting : Setting) (state : State) (children : List View) :
      Inner ⟨.view (.head children), setting, state⟩ ⟨.view (.group children), setting, state⟩
  | template (setting : Setting) (state : State) (region : Region) (template : DataRef → View)
      (fallback : View) :
      Inner ⟨.view (.remote region template fallback), setting, state⟩
        ⟨.view (template .ofFragment), { setting with scope := setting.scope.detached },
          { state with ledger := { state.ledger with numbering := .ofTemplate region.resource } }⟩
  | fallback {setting : Setting} {state after later : State} {region : Region} {handle : Handle}
      {template : DataRef → View} (fallback : View)
      (compiled : Render.compileTemplate region.resource (template .ofFragment).render setting
        state = (.ok handle, after))
      (recorded : Render.recordRegion region handle setting after = (.ok (), later)) :
      Inner ⟨.view (.remote region template fallback), setting, state⟩
        ⟨.view fallback, setting, later⟩
  | form {setting : Setting} {state after : State} {id : String} (action : Action)
      (refresh : Refresh) (attributes : Attributes) (children : List View)
      (alone : setting.scope.form = none)
      (fresh : Render.nextFormId setting state = (.ok id, after)) :
      Inner ⟨.view (.form action refresh attributes children), setting, state⟩
        ⟨.view (.group children),
          { setting with scope := setting.scope.inForm (Render.openForm action refresh id) }, after⟩
  | submit {setting : Setting} {form : OpenForm} {action : Action} (state : State)
      (attributes : Attributes) (children : List View) (inside : setting.scope.form = some form)
      (same : form.action = action.identity) :
      Inner ⟨.view (.submit action attributes children), setting, state⟩
        ⟨.view (.group children), setting, state⟩
  | hidden {setting : Setting} {state after : State} {id : String} (action : Action)
      (refresh : Refresh) (formAttributes attributes : Attributes) (hidden children : List View)
      (alone : setting.scope.form = none)
      (fresh : Render.nextFormId setting state = (.ok id, after)) :
      Inner ⟨.view (.quickButton action refresh formAttributes hidden attributes children),
          setting, state⟩
        ⟨.view (.group hidden), setting, after⟩
  | button {setting : Setting} {state after later : State} {id inputs : String} {hidden : List View}
      (action : Action) (refresh : Refresh) (formAttributes attributes : Attributes)
      (children : List View) (alone : setting.scope.form = none)
      (fresh : Render.nextFormId setting state = (.ok id, after))
      (rendered : View.renderAll hidden setting after = (.ok inputs, later)) :
      Inner ⟨.view (.quickButton action refresh formAttributes hidden attributes children),
          setting, state⟩
        ⟨.view (.group children), setting, later⟩
  | component (setting : Setting) (state : State) (name : String) (program : Program) :
      Inner ⟨.view (.component name program), setting, state⟩ ⟨.program program, setting, state⟩
  | output (setting : Setting) (state : State) (output : View) :
      Inner ⟨.program (.done output), setting, state⟩ ⟨.view output, setting, state⟩
  | readScope (setting : Setting) (state : State) (next : Scope → Program) :
      Inner ⟨.program (.readScope next), setting, state⟩
        ⟨.program (next setting.scope), setting, state⟩
  | ask {setting : Setting} {state after : State} {request : Request} {reply : request.Reply}
      (next : request.Reply → Program)
      (replied : request.reply setting state = (.ok reply, after)) :
      Inner ⟨.program (.ask request next), setting, state⟩ ⟨.program (next reply), setting, after⟩
  | rendering (setting : Setting) (state : State) (steps : List Scope.Step) (view : View)
      (next : String → Program) :
      Inner ⟨.program (.render steps view next), setting, state⟩
        ⟨.view view, { setting with scope := setting.scope.steps steps }, state⟩
  | rendered {setting : Setting} {state after : State} {steps : List Scope.Step} {view : View}
      {text : String} (next : String → Program)
      (rendered : view.render { setting with scope := setting.scope.steps steps } state =
        (.ok text, after)) :
      Inner ⟨.program (.render steps view next), setting, state⟩
        ⟨.program (next text), setting, after⟩

end Stage

/-! ## Inner renders end before outer ones -/

/-- From this ledger on, the ledger changes step by step until the render is over. -/
def Render.Passes {α : Type} (render : Render α) (setting : Setting) (state : State)
    (ledger : Ledger) : Prop :=
  Ledger.Steps setting.config setting.pass True ledger (render setting state).2.ledger

namespace Render.Passes

variable {α β : Type} {setting : Setting} {state after : State} {ledger : Ledger}

theorem whole (render : Render α) (setting : Setting) (state : State) :
    render.Passes setting state (render setting state).2.ledger :=
  .refl

/-- What is passed in the first part is passed as a whole. -/
theorem first {first : Render α} {next : α → Render β} (waits : state.Stepwise True)
    (firstSteps : first.Stepwise True) (nextSteps : ∀ value, (next value).Stepwise True)
    (passes : first.Passes setting state ledger) :
    (first >>= next).Passes setting state ledger := by
  have steps := firstSteps setting state waits
  unfold Passes at passes ⊢
  rcases outcome : first setting state with ⟨fault | value, after⟩
  all_goals rw [outcome] at passes steps
  · rw [bind_of_error outcome]
    exact passes
  · rw [bind_of_ok outcome]
    exact passes.trans (nextSteps value setting after steps.2).1

/-- What is passed after the first part is passed as a whole. -/
theorem next {first : Render α} {next : α → Render β} {value : α}
    (outcome : first setting state = (.ok value, after))
    (passes : (next value).Passes setting after ledger) :
    (first >>= next).Passes setting state ledger := by
  unfold Passes
  rw [bind_of_ok outcome]
  exact passes

theorem within (component : String) {render : Render α}
    (passes : render.Passes setting state ledger) :
    (Render.within component render).Passes setting state ledger := by
  unfold Passes Render.within at *
  split
  all_goals
    next outcome =>
      rw [outcome] at passes
      exact passes

theorem element (tag : String) (attributes : Attributes) {content : Render String}
    (waits : state.Stepwise True) (steps : content.Stepwise True)
    (passes : content.Passes setting state ledger) :
    (Render.element tag attributes content).Passes setting state ledger :=
  first waits steps (fun _ => .pure _) passes

theorem collectBranch {render : Render α} {next : α × Option Branch → Render β}
    (waits : state.Stepwise True) (steps : render.Stepwise True)
    (nextSteps : ∀ value left, (∀ branch ∈ left, (Render.ofBranch branch).Stepwise True) →
      (next (value, left)).Stepwise True)
    (passes : render.Passes { setting with scope := setting.scope.inConditional }
      { state with branch := none } ledger) :
    (Render.collectBranch render >>= next).Passes setting state ledger := by
  have inside := Stepwise.inScope Scope.inConditional steps setting { state with branch := none }
    (by simp [State.Stepwise])
  rcases outcome : Render.inScope Scope.inConditional render setting { state with branch := none }
    with ⟨fault | value, inner⟩
  all_goals
    unfold Render.inScope at outcome
    unfold Passes at passes ⊢
    rw [outcome] at passes
  · rw [bind_of_error (collectBranch_of_error outcome)]
    exact passes
  · rw [bind_of_ok (collectBranch_of_ok outcome)]
    unfold Render.inScope at inside
    rw [outcome] at inside
    have later := nextSteps value inner.branch
      (fun branch left => Stepwise.ofBranch (inside.2 branch left)) setting
      { inner with branch := state.branch } waits
    exact passes.trans later.1

theorem collectMetaTags {render : Render α}
    (passes : render.Passes { setting with scope := setting.scope.inShell }
      { state with ledger := { state.ledger with metaTags := [] } } ledger) :
    (Render.collectMetaTags render).Passes setting state ledger := by
  unfold Passes at passes ⊢
  rcases outcome : render { setting with scope := setting.scope.inShell }
      { state with ledger := { state.ledger with metaTags := [] } } with ⟨fault | value, inner⟩
  all_goals
    rw [outcome] at passes
    simp only [Render.collectMetaTags, Render.inScope, outcome]
    exact passes.tail (.collect _ state.ledger.metaTags)

theorem inDocument (numbering : Numbering) {render : Render α}
    (passes : render.Passes { setting with scope := setting.scope.detached }
      { state with ledger := { state.ledger with numbering } } ledger) :
    (Render.inDocument numbering render).Passes setting state ledger :=
  passes.tail (.number _ state.ledger.numbering)

/-- A conditional that can be written is its body and what is left after that. -/
theorem conditional {condition : Expr} {negated : Bool} {body : Render String}
    {otherwise : Option (Render String)} (writable : condition.defect? = none)
    (passes : Render.Passes (do
      let (text, left) ← Render.collectBranch body
      let chosen ← chooseAlternative otherwise left
      let alternative ← alternativeText chosen
      return ifBlock (condition.header negated) negated text alternative) setting state ledger) :
    (Render.conditional condition negated body otherwise).Passes setting state ledger := by
  rw [conditional_of_writable writable]
  exact passes

/-- The alternative of a conditional, be it given or left in the body. -/
theorem alternative {condition : Expr} {negated : Bool} {body chosen : Render String}
    {otherwise : Option (Render String)} {left : Option Branch} {text : String}
    (writable : condition.defect? = none)
    (rendered : Render.collectBranch body setting state = (.ok (text, left), after))
    (choice : chooseAlternative otherwise left = pure (some chosen))
    (waits : after.Stepwise True) (steps : chosen.Stepwise True)
    (passes : chosen.Passes { setting with scope := setting.scope.outsideConditional } after
      ledger) :
    (Render.conditional condition negated body otherwise).Passes setting state ledger := by
  refine conditional writable (next rendered ?_)
  show Render.Passes (do
    let chosen ← chooseAlternative otherwise left
    let alternative ← alternativeText chosen
    return ifBlock (condition.header negated) negated text alternative) setting after ledger
  rw [choice, value_bind]
  have whole : (alternativeText (some chosen)).Passes setting after ledger :=
    first waits (Stepwise.inScope _ steps) (fun _ => .pure _) passes
  exact first waits (Stepwise.bind (Stepwise.inScope _ steps) fun _ => .pure _)
    (fun _ => .pure _) whole

theorem route {path title container : String} {content : Render String}
    (inside : setting.scope.container = some container)
    (added : Render.addRoute { path := setting.scope.current.extend path, title, container }
      setting state = (.ok (), after))
    (selected : setting.scope.selects path = true)
    (passes : content.Passes { setting with scope := setting.scope.enter path } after ledger) :
    (Render.route path title content).Passes setting state ledger := by
  have entered : (do
      Render.addRoute { path := setting.scope.current.extend path, title, container }
      if setting.scope.selects path then
        Render.inScope (fun scope => scope.enter path) content
      else nothing : Render String).Passes setting state ledger := by
    refine next added ?_
    rw [if_pos selected]
    exact passes
  unfold Passes Render.route at *
  rw [setting_bind]
  simp only [inside]
  exact entered

theorem inScope (change : Scope → Scope) {render : Render α}
    (passes : render.Passes { setting with scope := change setting.scope } state ledger) :
    (Render.inScope change render).Passes setting state ledger :=
  passes

theorem reading {next : Setting → Render α} (passes : (next setting).Passes setting state ledger) :
    (Render.setting >>= next).Passes setting state ledger :=
  passes

theorem loop {names : String × String} {source : DataRef}
    {body : (element position : DataRef) → Render String}
    (fresh : Render.nextLoopNames setting state = (.ok names, after))
    (waits : after.Stepwise True) (steps : (body ⟨names.1⟩ ⟨names.2⟩).Stepwise True)
    (passes : (body ⟨names.1⟩ ⟨names.2⟩).Passes setting after ledger) :
    (Render.loop source body).Passes setting state ledger :=
  next fresh (first waits steps (fun _ => .pure _) passes)

theorem switch {id : String} {attributes : Attributes} {children : Render String}
    (seen : Render.seeContainer id setting state = (.ok (), after)) (waits : after.Stepwise True)
    (steps : children.Stepwise True)
    (passes : children.Passes { setting with scope := setting.scope.inRouter id } after ledger) :
    (Render.switch id attributes children).Passes setting state ledger :=
  next seen (inScope _ (element _ _ waits steps passes))

theorem link {target : String} {locale : Option String} {attributes : Attributes}
    {children : Render String} (waits : state.Stepwise True) (steps : children.Stepwise True)
    (passes : children.Passes setting state ledger) :
    (Render.link target locale attributes children).Passes setting state ledger := by
  refine reading ?_
  have asked : Render.containerOf (linkTarget (Path.ofText target) setting.scope.current)
      setting state = (.ok (state.ledger.routes.containerOf
        (linkTarget (Path.ofText target) setting.scope.current)), state) := rfl
  exact next asked (element _ _ waits steps passes)

/-! ### Documents -/

theorem head {content : Render String} (waits : state.Stepwise True)
    (steps : content.Stepwise True) (passes : content.Passes setting state ledger) :
    (Render.head content).Passes setting state ledger :=
  element _ _ waits (.bind steps fun _ => .pure _) (first waits steps (fun _ => .pure _) passes)

theorem shellBody {morph : Bool} {headContent children : Render String}
    (waits : state.Stepwise True) (headSteps : headContent.Stepwise True)
    (steps : children.Stepwise True)
    (passes : children.Passes { setting with scope := setting.scope.inShell }
      { state with ledger := { state.ledger with metaTags := [] } } ledger) :
    (Render.shell morph headContent children).Passes setting state ledger := by
  have closed := Stepwise.closed True
  have bodySteps : (Render.element "body" (bodyAttributes morph) children).Stepwise True :=
    closed.element _ _ steps
  refine first waits (Stepwise.collectMetaTags bodySteps) (fun collected => ?_)
    (collectMetaTags (element _ _ waits steps passes))
  exact .bind (closed.headWithMetaTags collected.2 headSteps) fun _ => .pure _

theorem shellHead {morph : Bool} {headContent children : Render String}
    {collected : String × List Attributes}
    (rendered : Render.collectMetaTags (Render.element "body" (bodyAttributes morph) children)
      setting state = (.ok collected, after))
    (waits : after.Stepwise True) (headSteps : headContent.Stepwise True)
    (passes : headContent.Passes setting after ledger) :
    (Render.shell morph headContent children).Passes setting state ledger := by
  have closed := Stepwise.closed True
  have tagged : (withMetaTags collected.2 headContent).Passes setting after ledger :=
    first waits headSteps (fun _ => .pure _) passes
  refine next rendered (first waits (closed.headWithMetaTags collected.2 headSteps)
    (fun _ => .pure _) (within _ (head waits ?_ tagged)))
  exact .bind headSteps fun _ => .pure _

/-! ### Regions -/

theorem compileTemplate {resource : String} {template : Render String}
    (waits : state.Stepwise True) (steps : template.Stepwise True)
    (passes : template.Passes { setting with scope := setting.scope.detached }
      { state with ledger := { state.ledger with numbering := .ofTemplate resource } } ledger) :
    (Render.compileTemplate resource template).Passes setting state ledger :=
  first waits (Stepwise.inDocument _ steps)
    (fun text => Stepwise.reply (.storeTemplate resource text) trivial) (inDocument _ passes)

/-- All that is left of a region once its template is compiled. -/
theorem compiled {region : Region} {template : DataRef → Render String}
    {fallback : Render String} (waits : state.Stepwise True)
    (templateSteps : (template .ofFragment).Stepwise True) (steps : fallback.Stepwise True)
    (passes : (Render.compileTemplate region.resource (template .ofFragment)).Passes setting state
      ledger) :
    (Render.remote region template fallback).Passes setting state ledger := by
  refine reading (first waits ?_ (fun handle => ?_) passes)
  · exact Stepwise.compileTemplate region.resource templateSteps
  · exact .bind (Stepwise.recordFreely region handle) fun _ =>
      (Stepwise.closed True).element _ _ steps

theorem fallback {region : Region} {handle : Handle} {later : State}
    {template : DataRef → Render String} {fallback : Render String}
    (compiled : Render.compileTemplate region.resource (template .ofFragment) setting state =
      (.ok handle, after))
    (recorded : Render.recordRegion region handle setting after = (.ok (), later))
    (waits : later.Stepwise True) (steps : fallback.Stepwise True)
    (passes : fallback.Passes setting later ledger) :
    (Render.remote region template fallback).Passes setting state ledger :=
  reading (next compiled (next recorded (element _ _ waits steps passes)))

/-! ### Forms -/

theorem requireNoForm {construct : Construct} {rest : Render α} (alone : setting.scope.form = none)
    (passes : rest.Passes setting state ledger) :
    (Render.requireNoForm construct >>= fun _ => rest).Passes setting state ledger :=
  next (requireNoForm_of_alone construct alone state) passes

theorem form {action : Action} {refresh : Refresh} {attributes : Attributes}
    {children : Render String} {id : String} (alone : setting.scope.form = none)
    (fresh : Render.nextFormId setting state = (.ok id, after)) (waits : after.Stepwise True)
    (steps : children.Stepwise True)
    (passes : children.Passes
      { setting with scope := setting.scope.inForm (openForm action refresh id) } after ledger) :
    (Render.form action refresh attributes children).Passes setting state ledger :=
  requireNoForm alone (next fresh (inScope _ (element _ _ waits steps passes)))

theorem submit {action : Action} {attributes : Attributes} {children : Render String}
    {form : OpenForm} (inside : setting.scope.form = some form)
    (same : form.action = action.identity) (waits : state.Stepwise True)
    (steps : children.Stepwise True) (passes : children.Passes setting state ledger) :
    (Render.submit action attributes children).Passes setting state ledger := by
  unfold Render.submit
  refine reading ?_
  simp only [inside, same]
  exact element _ _ waits steps passes

/-- The button of a form, behind the inputs that come first. -/
theorem buttonSteps {attributes : Attributes} {children : Render String}
    (steps : children.Stepwise True) (inputs : String) :
    (Render.element "button" attributes children >>= fun button =>
      (Pure.pure (inputs ++ button) : Render String)).Stepwise True :=
  .bind ((Stepwise.closed True).element _ _ steps) fun _ => .pure _

theorem hidden {action : Action} {refresh : Refresh} {formAttributes attributes : Attributes}
    {hidden children : Render String} {id : String} (alone : setting.scope.form = none)
    (fresh : Render.nextFormId setting state = (.ok id, after)) (waits : after.Stepwise True)
    (hiddenSteps : hidden.Stepwise True) (steps : children.Stepwise True)
    (passes : hidden.Passes setting after ledger) :
    (Render.quickButton action refresh formAttributes hidden attributes children).Passes setting
      state ledger := by
  refine requireNoForm alone (next fresh (reading (element _ _ waits ?_ ?_)))
  · exact .bind hiddenSteps (buttonSteps steps)
  · exact first waits hiddenSteps (buttonSteps steps) passes

theorem button {action : Action} {refresh : Refresh} {formAttributes attributes : Attributes}
    {hidden children : Render String} {id inputs : String} {later : State}
    (alone : setting.scope.form = none)
    (fresh : Render.nextFormId setting state = (.ok id, after))
    (rendered : hidden setting after = (.ok inputs, later)) (waits : after.Stepwise True)
    (laterWaits : later.Stepwise True) (hiddenSteps : hidden.Stepwise True)
    (steps : children.Stepwise True) (passes : children.Passes setting later ledger) :
    (Render.quickButton action refresh formAttributes hidden attributes children).Passes setting
      state ledger := by
  have shown := first laterWaits ((Stepwise.closed True).element "button"
    (action.buttonAttributes id setting.scope.current.text (refresh.islandIds action)
      refresh.items attributes) steps)
    (fun button => .pure (inputs ++ button)) (element _ _ laterWaits steps passes)
  refine requireNoForm alone (next fresh (reading (element _ _ waits ?_ (next rendered shown))))
  exact .bind hiddenSteps (buttonSteps steps)

end Render.Passes

namespace Stage

open Render

/-- The inner render is under the same configuration and in the same pass, and when it
is over, the ledger only changes step by step until the outer one is over. -/
structure Leads (outer inner : Stage) : Prop where
  config : inner.setting.config = outer.setting.config
  pass : inner.setting.pass = outer.setting.pass
  waits : inner.state.Stepwise True
  passes : outer.task.render.Passes outer.setting outer.state inner.outcome.2.ledger

theorem Leads.refl {stage : Stage} (waits : stage.state.Stepwise True) : stage.Leads stage :=
  ⟨rfl, rfl, waits, .whole _ _ _⟩

theorem Leads.trans {outer middle inner : Stage} (early : outer.Leads middle)
    (late : middle.Leads inner) : outer.Leads inner where
  config := late.config.trans early.config
  pass := late.pass.trans early.pass
  waits := late.waits
  passes := by
    have steps := late.passes
    unfold Passes at steps
    rw [early.config, early.pass] at steps
    exact steps.trans early.passes

theorem Sibling.passes {setting : Setting} {views : List View} {state inner : State} {view : View}
    (sibling : Sibling setting views state view inner) (waits : state.Stepwise True) :
    inner.Stepwise True ∧
      (View.renderAll views).Passes setting state (view.render setting inner).2.ledger := by
  induction sibling with
  | here view rest state =>
      refine ⟨waits, .first waits view.render_stepwise (fun text => ?_) (.whole _ _ _)⟩
      exact .bind (View.renderAll_stepwise rest) fun _ => .pure _
  | later rendered sibling inductionHypothesis =>
      have afterWaits := (View.render_stepwise _).waits waits rendered
      obtain ⟨innerWaits, passes⟩ := inductionHypothesis afterWaits
      refine ⟨innerWaits, .next rendered ?_⟩
      exact .first afterWaits (View.renderAll_stepwise _) (fun _ => .pure _) passes

/-- An inner render is over before the outer one is. -/
theorem Inner.leads {outer inner : Stage} (step : Inner outer inner)
    (waits : outer.state.Stepwise True) : outer.Leads inner := by
  have closed := Stepwise.closed True
  cases step with
  | child sibling =>
      obtain ⟨innerWaits, passes⟩ := sibling.passes waits
      exact ⟨rfl, rfl, innerWaits, passes⟩
  | element setting state tag attributes children =>
      exact ⟨rfl, rfl, waits,
        .element tag attributes waits (View.renderAll_stepwise children) (.whole _ _ _)⟩
  | @body condition setting state negated body otherwise writable =>
      refine ⟨rfl, rfl, by simp [State.Stepwise], ?_⟩
      -- The body ends before either kind of alternative begins.
      have passes : ∀ given : Option (Render String), (∀ render ∈ given, render.Stepwise True) →
          (Render.conditional condition negated (View.renderAll body) given).Passes setting state
            ((View.renderAll body) { setting with scope := setting.scope.inConditional }
              { state with branch := none }).2.ledger := by
        intro given givenSteps
        refine .conditional writable (.collectBranch waits (View.renderAll_stepwise body) ?_ .refl)
        intro text left leftSteps
        exact closed.afterBody condition negated text givenSteps leftSteps
      cases otherwise with
      | none => exact .within _ (passes none (by simp))
      | some view =>
          exact .within _ (passes (some view.render) (by simpa using view.render_stepwise))
  | otherwise negated view writable rendered =>
      have afterWaits := (Stepwise.collectedBranch (View.renderAll_stepwise _)).waits waits rendered
      exact ⟨rfl, rfl, afterWaits, .within _
        (.alternative writable rendered rfl afterWaits view.render_stepwise (.whole _ _ _))⟩
  | @left condition setting state after body text branch negated writable rendered =>
      have afterWaits := (Stepwise.collectedBranch (View.renderAll_stepwise _)).waits waits rendered
      have branchSteps : (Render.ofBranch branch.render.toBranch).Stepwise True :=
        Stepwise.ofBranch (Stepwise.toBranch branch.render_stepwise)
      exact ⟨rfl, rfl, State.stepwise_ofLedger True _, .within _
        (.alternative writable rendered rfl afterWaits branchSteps .refl)⟩
  | loop source body fresh =>
      have afterWaits := (Stepwise.reply .loopNames trivial).waits waits fresh
      exact ⟨rfl, rfl, afterWaits,
        .within _ (.loop fresh afterWaits (View.render_stepwise _) (.whole _ _ _))⟩
  | switch attributes children seen =>
      have afterWaits := (Stepwise.reply (.seeContainer _) trivial).waits waits seen
      exact ⟨rfl, rfl, afterWaits,
        .within _ (.switch seen afterWaits (View.renderAll_stepwise children) (.whole _ _ _))⟩
  | route children inside added selected =>
      have afterWaits := (Stepwise.reply (.addRoute _ _ _) trivial).waits waits added
      exact ⟨rfl, rfl, afterWaits, .within _ (.route inside added selected (.whole _ _ _))⟩
  | dataRoute body inside added selected required =>
      have afterWaits := (Stepwise.reply (.addRoute _ _ _) trivial).waits waits added
      have laterWaits := (Stepwise.reply (.resource _) trivial).waits afterWaits required
      exact ⟨rfl, rfl, laterWaits,
        .within _ (.route inside added selected (.next required (.whole _ _ _)))⟩
  | link setting state target locale attributes children =>
      exact ⟨rfl, rfl, waits,
        .within _ (.link waits (View.renderAll_stepwise children) (.whole _ _ _))⟩
  | shellBody setting state morph head children =>
      exact ⟨rfl, rfl, waits, .within _ (.shellBody waits (View.renderAll_stepwise head)
        (View.renderAll_stepwise children) (.whole _ _ _))⟩
  | shellHead head rendered =>
      have afterWaits := (Stepwise.collectMetaTags
        (closed.element _ _ (View.renderAll_stepwise _))).waits waits rendered
      exact ⟨rfl, rfl, afterWaits, .within _
        (.shellHead rendered afterWaits (View.renderAll_stepwise head) (.whole _ _ _))⟩
  | head setting state children =>
      exact ⟨rfl, rfl, waits,
        .within _ (.head waits (View.renderAll_stepwise children) (.whole _ _ _))⟩
  | template setting state region template fallback =>
      have templateSteps := (template .ofFragment).render_stepwise
      exact ⟨rfl, rfl, waits, .within _ (.compiled waits templateSteps fallback.render_stepwise
        (.compileTemplate waits templateSteps (.whole _ _ _)))⟩
  | @fallback setting state after later region handle template fallback compiled recorded =>
      have afterWaits := (Stepwise.compileTemplate region.resource
        (template .ofFragment).render_stepwise).waits waits compiled
      have laterWaits := (Stepwise.recordFreely region handle).waits afterWaits recorded
      exact ⟨rfl, rfl, laterWaits, .within _
        (.fallback compiled recorded laterWaits fallback.render_stepwise (.whole _ _ _))⟩
  | form action refresh attributes children alone fresh =>
      have afterWaits := (Stepwise.reply .formId trivial).waits waits fresh
      exact ⟨rfl, rfl, afterWaits,
        .within _ (.form alone fresh afterWaits (View.renderAll_stepwise children) (.whole _ _ _))⟩
  | submit state attributes children inside same =>
      exact ⟨rfl, rfl, waits,
        .within _ (.submit inside same waits (View.renderAll_stepwise children) (.whole _ _ _))⟩
  | hidden action refresh formAttributes attributes hidden children alone fresh =>
      have afterWaits := (Stepwise.reply .formId trivial).waits waits fresh
      exact ⟨rfl, rfl, afterWaits, .within _ (.hidden alone fresh afterWaits
        (View.renderAll_stepwise hidden) (View.renderAll_stepwise children) (.whole _ _ _))⟩
  | button action refresh formAttributes attributes children alone fresh rendered =>
      have afterWaits := (Stepwise.reply .formId trivial).waits waits fresh
      have laterWaits := (View.renderAll_stepwise _).waits afterWaits rendered
      exact ⟨rfl, rfl, laterWaits, .within _ (.button alone fresh rendered afterWaits laterWaits
        (View.renderAll_stepwise _) (View.renderAll_stepwise children) (.whole _ _ _))⟩
  | component setting state name program =>
      exact ⟨rfl, rfl, waits, .within _ (.whole _ _ _)⟩
  | output setting state output => exact ⟨rfl, rfl, waits, .whole _ _ _⟩
  | readScope setting state next => exact ⟨rfl, rfl, waits, .whole _ _ _⟩
  | @ask setting state after request reply next replied =>
      have afterWaits := (Stepwise.anyReply request).waits waits replied
      exact ⟨rfl, rfl, afterWaits, .next replied (.whole _ _ _)⟩
  | rendering setting state steps view next =>
      refine ⟨rfl, rfl, waits, .first waits (.inScope _ view.render_stepwise) ?_ (.whole _ _ _)⟩
      exact fun text => (next text).run_stepwise
  | @rendered setting state after steps view text next rendered =>
      have afterWaits := view.render_stepwise.waits waits rendered
      have finished : Render.inScope (fun scope => scope.steps steps) view.render setting state =
          (.ok text, after) := rendered
      exact ⟨rfl, rfl, afterWaits, .next finished (.whole _ _ _)⟩

/-- What is rendered in the course of a render is over before that is. -/
theorem leads_of_course {start stage : Stage} (course : ReflTransGen Inner start stage)
    (waits : start.state.Stepwise True) : start.Leads stage := by
  induction course with
  | refl => exact .refl waits
  | tail _ step inductionHypothesis =>
      exact inductionHypothesis.trans (step.leads inductionHypothesis.waits)

end Stage

end Sitewright

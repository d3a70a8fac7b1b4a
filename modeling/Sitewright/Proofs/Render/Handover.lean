import Sitewright.Proofs.Render.Contents
import Sitewright.Proofs.Render.Thread

/-!
Contract: in a document, every render begins with what the one before it hands on.

The numbering passes through all renders of a document, and through no other ones: the template
of a region has a numbering of its own, after which the one of the host is put back. The
alternative that waits passes through all but conditionals, markers and regions. The meta tags
that wait pass through all but the bodies of shells.

Owns:
- `Stage.draw`, what a render itself takes from the numbering before its parts start, and
  `Stage.gathered`, the meta tags with its own;
- `Stage.Alone`, the renders that start no other one, and how those leave their state;
- `Stage.Follow`: the parts of a render hand on the numbering, `Stage.Parts.follow_numbering`;
- `Stage.exists_log`: every document has a log, whether its render succeeds or fails.

Does not own: how much a whole document takes from its numbering.
-/

namespace Sitewright

open Markup Template Catalog Routing Relation

/-- A page shell, whose body has a head of its own. -/
def Task.isShell : Task → Bool
  | .view (.shell ..) => true
  | _ => false

/-- The attributes of a meta tag. -/
def Task.metaTag? : Task → Option Attributes
  | .view (.metaTag attributes) => some attributes
  | _ => none

/-- A region, whose template is a document of its own. -/
def Task.isRegion : Task → Bool
  | .view (.remote ..) => true
  | _ => false

/-- A task whose parts hand on the alternative that waits: all but conditionals, markers and
regions. -/
def Task.handsOn : Task → Bool
  | .view (.alternative _) => false
  | task => task.keepsMarkers

namespace Stage

open Render

/-! ## Draws -/

/-- The render takes the names of a loop from the numbering of its document. -/
def takesNames (stage : Stage) : Bool :=
  match stage.task with
  | .view (.loop ..) | .program (.ask .loopNames _) => true
  | _ => false

/-- The render takes the id of a form from the numbering of its document. In the element of
another form, a form takes none, for it fails. -/
def takesId (stage : Stage) : Bool :=
  match stage.task with
  | .view (.form ..) | .view (.quickButton ..) => stage.setting.scope.form.isNone
  | .program (.ask .formId _) => true
  | _ => false

/-- The numbering after what the render takes from it for itself. -/
def draw (stage : Stage) (numbering : Numbering) : Numbering :=
  { numbering with
    loops := numbering.loops + stage.takesNames.toNat
    forms := numbering.forms + stage.takesId.toNat }

/-- The numbering with which the parts of a render start. -/
def drawn (stage : Stage) : Numbering :=
  stage.draw stage.state.numbering

/-- The meta tag that the render itself adds to those that wait for the head of the shell. -/
def metaTag? (stage : Stage) : Option Attributes :=
  stage.task.metaTag?.filter fun _ => stage.setting.scope.shell

/-- The meta tags that wait when the parts of a render start. -/
def gathered (stage : Stage) : List Attributes :=
  match stage.metaTag? with
  | some attributes => stage.state.metaTags ++ [attributes]
  | none => stage.state.metaTags

theorem drawn_of_ask (setting : Setting) (state : State) (request : Request)
    (next : request.Reply → Program) :
    drawn ⟨.program (.ask request next), setting, state⟩ = request.draw state.numbering := by
  cases request <;> rfl

theorem drawn_of_id {stage : Stage} (names : stage.takesNames = false)
    (id : stage.takesId = true) : stage.drawn = stage.state.numbering.afterForm := by
  rw [drawn, draw, names, id]
  rfl

theorem drawn_of_nothing {stage : Stage} (names : stage.takesNames = false)
    (id : stage.takesId = false) : stage.drawn = stage.state.numbering := by
  rw [drawn, draw, names, id]
  rfl

/-- The only render that a render starts begins with what that one has drawn. -/
theorem Inner.carried_of_single {outer inner : Stage} (step : Inner outer inner)
    (single : outer.task.isSingle = true) :
    inner.state.carried = ((outer.drawn, outer.gathered), outer.state.branch) := by
  cases step with
  | element | link | head | submit | component | output | readScope => rfl
  | @loop setting state after names source body fresh =>
      rw [← show _ = after from congrArg Prod.snd fresh]
      exact carried_reply .loopNames setting state
  | @switch setting state after id attributes children seen =>
      rw [← show _ = after from congrArg Prod.snd seen]
      exact carried_reply (.seeContainer id) setting state
  | @route setting state after path title container children inside added selected =>
      rw [← show _ = after from congrArg Prod.snd added]
      exact carried_reply (.addRoute _ title container) setting state
  | @dataRoute setting state after later path title container resource key body inside added
      selected required =>
      rw [← show _ = later from congrArg Prod.snd required,
        ← show _ = after from congrArg Prod.snd added]
      exact carried_reply (.addRoute _ title container) setting state
  | @form setting state after id action refresh attributes children alone fresh =>
      rw [← show _ = after from congrArg Prod.snd fresh,
        drawn_of_id rfl (by simp [takesId, alone])]
      exact carried_reply .formId setting state
  | @ask setting state after request reply next replied =>
      rw [← show _ = after from congrArg Prod.snd replied]
      rw [drawn_of_ask]
      exact carried_reply request setting state
  | _ => cases single

/-- The only render that a render starts is the last thing that changes the state. -/
theorem Inner.state_of_single {outer inner : Stage} (step : Inner outer inner)
    (single : outer.task.isSingle = true) : outer.outcome.2 = inner.outcome.2 := by
  cases step with
  | element => exact state_element _ _ _ _ _
  | loop source body fresh =>
      refine (state_within _ _ _ _).trans ?_
      refine (congrArg Prod.snd (bind_of_ok fresh)).trans ?_
      exact state_last _ (fun _ => rfl) _ _
  | switch attributes children seen =>
      refine (state_within _ _ _ _).trans ?_
      refine (congrArg Prod.snd (bind_of_ok seen)).trans ?_
      exact state_element _ _ _ _ _
  | route children inside added selected =>
      exact (state_within _ _ _ _).trans (state_route inside added selected)
  | dataRoute body inside added selected required =>
      refine (state_within _ _ _ _).trans ((state_route inside added selected).trans ?_)
      exact congrArg Prod.snd (bind_of_ok required)
  | link =>
      refine (state_within _ _ _ _).trans ?_
      exact state_element _ _ _ _ _
  | head =>
      refine (state_within _ _ _ _).trans ((state_element _ _ _ _ _).trans ?_)
      exact state_last _ (fun _ => rfl) _ _
  | form action refresh attributes children alone fresh =>
      refine (state_within _ _ _ _).trans ?_
      refine (congrArg Prod.snd (bind_of_ok (requireNoForm_of_alone .form alone _))).trans ?_
      refine (congrArg Prod.snd (bind_of_ok fresh)).trans ?_
      exact state_element _ _ _ _ _
  | submit state attributes children inside same =>
      refine (state_within _ _ _ _).trans ?_
      unfold Render.submit
      rw [setting_bind]
      simp only [inside, same, if_true]
      exact state_element _ _ _ _ _
  | component => exact state_within _ _ _ _
  | output | readScope => rfl
  | ask next replied => exact congrArg Prod.snd (bind_of_ok replied)
  | _ => cases single

theorem handsOn_of_isShell {task : Task} (shell : task.isShell = true) : task.handsOn = true := by
  unfold Task.isShell at shell
  split at shell
  · rfl
  · cases shell

theorem not_handsOn_of_isRegion {task : Task} (region : task.isRegion = true) :
    task.handsOn = false := by
  unfold Task.isRegion at region
  split at region
  · rfl
  · cases region

theorem not_isShell_of_single {task : Task} (single : task.isSingle = true) :
    task.isShell = false := by
  unfold Task.isShell
  split
  · cases single
  · rfl

/-- A shell starts with its body. -/
theorem exists_inner_of_isShell {stage : Stage} (shell : stage.task.isShell = true) :
    ∃ body, stage.Inner body := by
  obtain ⟨task, setting, state⟩ := stage
  unfold Task.isShell at shell
  split at shell
  next morph head children shown =>
    obtain rfl : task = .view (.shell morph head children) := shown
    exact ⟨_, .shellBody setting state morph head children⟩
  · cases shell

/-! ## From one part to the next -/

/-- The renders follow one another: the first one begins with what is given, and each one hands
on what it ends with, as far as it is seen. -/
def Follow {α : Type} (see : State → α) : α → List Stage → α → Prop
  | given, [], final => given = final
  | given, stage :: rest, final =>
      see stage.state = given ∧ Follow see (see stage.outcome.2) rest final

theorem Follow.append {α : Type} {see : State → α} {given between final : α}
    {first second : List Stage} (early : Follow see given first between)
    (late : Follow see between second final) : Follow see given (first ++ second) final := by
  induction first generalizing given with
  | nil =>
      obtain rfl : given = between := early
      exact late
  | cons stage rest inductionHypothesis => exact ⟨early.1, inductionHypothesis early.2⟩

theorem Follow.map {α β : Type} {see : State → α} {given final : α} {stages : List Stage}
    (value : α → β) (follow : Follow see given stages final) :
    Follow (fun state => value (see state)) (value given) stages (value final) := by
  induction stages generalizing given with
  | nil => exact congrArg value follow
  | cons stage rest inductionHypothesis =>
      exact ⟨congrArg value follow.1, inductionHypothesis follow.2⟩

theorem Siblings.follow {setting : Setting} {views : List View} {state : State}
    {parts : List Stage} (siblings : Siblings setting views state parts) :
    Follow id state parts (View.renderAll views setting state).2 := by
  induction siblings with
  | done state => rfl
  | @next first rest state after text later rendered _ inductionHypothesis =>
      have whole : (View.renderAll (first :: rest) setting state).2 =
          (View.renderAll rest setting after).2 :=
        (congrArg Prod.snd (bind_of_ok rendered)).trans (state_last _ (fun _ => rfl) _ _)
      have ended : (Stage.outcome ⟨.view first, setting, state⟩).2 = after :=
        congrArg Prod.snd rendered
      refine ⟨rfl, ?_⟩
      rw [ended, whole]
      exact inductionHypothesis
  | failed rest failed =>
      refine ⟨rfl, ?_⟩
      show (View.render _ _ _).2 = _
      rw [View.renderAll, bind_of_error failed, failed]

/-! ## Renders that start no other one -/

/-- A render that starts no other one: there is nothing to render inside of it, or it is not
rendered here, or the render fails before. -/
inductive Alone (setting : Setting) : Task → Prop where
  | blank : Alone setting (.view .blank)
  | text (content : String) : Alone setting (.view (.text content))
  | raw (content : String) : Alone setting (.view (.raw content))
  | group : Alone setting (.view (.group []))
  | defective {condition : Expr} {reason : String} (defective : condition.defect? = some reason)
      (negated : Bool) (body : List View) (otherwise : Option View) :
      Alone setting (.view (.conditional condition negated body otherwise))
  | alternative (branch : View) : Alone setting (.view (.alternative branch))
  | route {path : String} (passed : ∀ container, setting.scope.container = some container →
        setting.scope.selects path = false) (title : String) (children : List View) :
      Alone setting (.view (.route path title children))
  | dataRoute {path : String} (passed : ∀ container, setting.scope.container = some container →
        setting.scope.selects path = false) (title resource : String) (body : DataRef → View) :
      Alone setting (.view (.dataRoute path title resource body))
  | redirect (target : String) : Alone setting (.view (.redirect target))
  | metaTag (attributes : Attributes) : Alone setting (.view (.metaTag attributes))
  | stylesheet (name contents : String) (inlined : Bool) :
      Alone setting (.view (.stylesheet name contents inlined))
  | script (source : ScriptSource) : Alone setting (.view (.script source))
  | form {around : OpenForm} (opened : setting.scope.form = some around) (action : Action)
      (refresh : Refresh) (attributes : Attributes) (children : List View) :
      Alone setting (.view (.form action refresh attributes children))
  | submit {action : Action} (refused : ∀ form, setting.scope.form = some form →
        form.action ≠ action.identity) (attributes : Attributes) (children : List View) :
      Alone setting (.view (.submit action attributes children))
  | quickButton {around : OpenForm} (opened : setting.scope.form = some around) (action : Action)
      (refresh : Refresh) (formAttributes attributes : Attributes) (hidden children : List View) :
      Alone setting (.view (.quickButton action refresh formAttributes hidden attributes children))
  | fail (fault : Fault) : Alone setting (.program (.fail fault))

theorem alone_of_not_inner {stage : Stage} (alone : ∀ inner, ¬ stage.Inner inner) :
    Alone stage.setting stage.task := by
  obtain ⟨task, setting, state⟩ := stage
  cases task with
  | view shown =>
      cases shown with
      | blank => exact .blank
      | text content => exact .text content
      | raw content => exact .raw content
      | group views =>
          cases views with
          | nil => exact .group
          | cons first rest => exact absurd (.child (.here _ _ _)) (alone _)
      | element tag attributes children => exact absurd (.element _ _ _ _ _) (alone _)
      | conditional condition negated body otherwise =>
          cases writable : condition.defect? with
          | none => exact absurd (.body _ _ _ _ _ writable) (alone _)
          | some reason => exact .defective writable negated body otherwise
      | alternative branch => exact .alternative branch
      | loop source body => exact absurd (.loop source body rfl) (alone _)
      | switch id attributes children => exact absurd (.switch _ _ rfl) (alone _)
      | route path title children =>
          refine .route (fun container inside => ?_) title children
          rw [Bool.eq_false_iff]
          exact fun selected => alone _ (.route _ inside rfl selected)
      | dataRoute path title resource body =>
          refine .dataRoute (fun container inside => ?_) title resource body
          rw [Bool.eq_false_iff]
          exact fun selected => alone _ (.dataRoute _ inside rfl selected rfl)
      | link target locale attributes children => exact absurd (.link _ _ _ _ _ _) (alone _)
      | redirect target => exact .redirect target
      | shell morph head children => exact absurd (.shellBody _ _ _ head _) (alone _)
      | head children => exact absurd (.head _ _ _) (alone _)
      | metaTag attributes => exact .metaTag attributes
      | stylesheet name contents inlined => exact .stylesheet name contents inlined
      | script source => exact .script source
      | remote region template fallback => exact absurd (.template _ _ _ _ _) (alone _)
      | form action refresh attributes children =>
          cases around : setting.scope.form with
          | none => exact absurd (.form _ _ _ _ around rfl) (alone _)
          | some form => exact .form around action refresh attributes children
      | submit action attributes children =>
          exact .submit (fun form around same => alone _ (.submit _ _ _ around same))
            attributes children
      | quickButton action refresh formAttributes hidden attributes children =>
          cases around : setting.scope.form with
          | none => exact absurd (.hidden _ _ _ _ _ _ around rfl) (alone _)
          | some form => exact .quickButton around action refresh formAttributes attributes _ _
      | component name program => exact absurd (.component _ _ _ _) (alone _)
  | program running =>
      cases running with
      | done output => exact absurd (.output _ _ _) (alone _)
      | fail fault => exact .fail fault
      | readScope next => exact absurd (.readScope _ _ _) (alone _)
      | ask request next =>
          obtain ⟨reply, answered⟩ := reply_ok request setting state
          exact absurd (.ask next (Prod.ext answered rfl)) (alone _)
      | render steps view next => exact absurd (.rendering _ _ _ _ _) (alone _)

theorem state_conditional_of_defect {condition : Expr} {reason : String}
    (defective : condition.defect? = some reason) (negated : Bool) (body : List View)
    (otherwise : Option View) (setting : Setting) (state : State) :
    (outcome ⟨.view (.conditional condition negated body otherwise), setting, state⟩).2 =
      state := by
  cases otherwise
  all_goals
    refine (state_within _ _ _ _).trans ?_
    rw [conditional_of_defect defective]
    rfl

theorem state_form_of_open {setting : Setting} {around : OpenForm}
    (opened : setting.scope.form = some around) (action : Action) (refresh : Refresh)
    (attributes : Attributes) (children : List View) (state : State) :
    (outcome ⟨.view (.form action refresh attributes children), setting, state⟩).2 = state := by
  refine (state_within _ _ _ _).trans ?_
  unfold Render.form
  rw [bind_of_error (requireNoForm_of_open .form opened state)]

theorem state_quickButton_of_open {setting : Setting} {around : OpenForm}
    (opened : setting.scope.form = some around) (action : Action) (refresh : Refresh)
    (formAttributes attributes : Attributes) (hidden children : List View) (state : State) :
    (outcome ⟨.view (.quickButton action refresh formAttributes hidden attributes children),
      setting, state⟩).2 = state := by
  refine (state_within _ _ _ _).trans ?_
  unfold Render.quickButton
  rw [bind_of_error (requireNoForm_of_open .quickButton opened state)]

theorem state_submit_of_refused {setting : Setting} {action : Action}
    (refused : ∀ form, setting.scope.form = some form → form.action ≠ action.identity)
    (attributes : Attributes) (children : List View) (state : State) :
    (outcome ⟨.view (.submit action attributes children), setting, state⟩).2 = state := by
  refine (state_within _ _ _ _).trans ?_
  unfold Render.submit
  rw [setting_bind]
  cases around : setting.scope.form with
  | none =>
      simp only [around]
      rfl
  | some form =>
      simp only [around, refused form around, if_false]
      rfl

/-- A render that starts no other one only draws from the numbering and adds its own meta tag,
unless it is a marker. -/
theorem carried_of_alone {stage : Stage} (alone : ∀ inner, ¬ stage.Inner inner)
    (unmarked : ∀ branch, stage.task ≠ .view (.alternative branch)) :
    stage.outcome.2.carried = ((stage.drawn, stage.gathered), stage.state.branch) := by
  obtain ⟨task, setting, state⟩ := stage
  have isAlone : Alone setting task := alone_of_not_inner alone
  cases isAlone with
  | blank | text | raw | group | redirect | fail => rfl
  | defective defective negated body otherwise =>
      exact congrArg State.carried (state_conditional_of_defect defective _ _ _ _ _)
  | alternative branch => exact absurd rfl (unmarked branch)
  | route passed =>
      exact (congrArg State.carried (state_within _ _ _ _)).trans
        (carried_route_of_passed passed state)
  | dataRoute passed =>
      exact (congrArg State.carried (state_within _ _ _ _)).trans
        (carried_route_of_passed passed state)
  | metaTag attributes =>
      refine (congrArg State.carried (state_within _ _ _ _)).trans ?_
      rw [carried_metaTag]
      cases around : setting.scope.shell <;> simp only [gathered, metaTag?, around] <;> rfl
  | stylesheet =>
      exact (congrArg State.carried (state_within _ _ _ _)).trans (carried_stylesheet _ _ _ _ _)
  | script => exact (congrArg State.carried (state_within _ _ _ _)).trans (carried_script _ _ _)
  | form opened =>
      rw [state_form_of_open opened, drawn_of_nothing rfl (by simp [takesId, opened])]
      rfl
  | submit refused => exact congrArg State.carried (state_submit_of_refused refused _ _ _)
  | quickButton opened =>
      rw [state_quickButton_of_open opened, drawn_of_nothing rfl (by simp [takesId, opened])]
      rfl

theorem carried_quickButton {setting : Setting} {state after : State} {id : String}
    (alone : setting.scope.form = none) (fresh : nextFormId setting state = (.ok id, after))
    (action : Action) (refresh : Refresh) (formAttributes attributes : Attributes)
    (hidden children : List View) :
    after.carried =
      ((drawn ⟨.view (.quickButton action refresh formAttributes hidden attributes children),
        setting, state⟩, state.metaTags), state.branch) := by
  rw [← show _ = after from congrArg Prod.snd fresh,
    drawn_of_id rfl (by simp [takesId, alone])]
  exact carried_reply .formId setting state

/-- Every part but the first one begins with the state in which the one before it ends, and the
render ends in the state of the last one, unless the body of a shell sets meta tags aside or a
document or conditional of its own sets aside something else. -/
theorem Parts.follow_state {stage part : Stage} {rest : List Stage}
    (parted : stage.Parts (part :: rest)) (handsOn : stage.task.handsOn = true)
    (shared : stage.task.isShell = false) :
    Follow id part.state (part :: rest) stage.outcome.2 := by
  cases parted with
  | group siblings => exact ⟨rfl, siblings.follow.2⟩
  | single single step => exact ⟨rfl, (step.state_of_single single).symm⟩
  | body | otherwise | left | fallback => cases handsOn
  | shellBody | shellHead => cases shared
  | hidden action refresh formAttributes attributes children alone fresh failed =>
      refine ⟨rfl, Eq.trans ?_ (state_within _ _ _ _).symm⟩
      refine Eq.trans ?_ (state_quickButton alone fresh).symm
      exact (congrArg Prod.snd failed).trans (congrArg Prod.snd (bind_of_error failed)).symm
  | button action refresh formAttributes attributes children alone fresh rendered =>
      refine ⟨rfl, congrArg Prod.snd rendered.symm, Eq.trans ?_ (state_within _ _ _ _).symm⟩
      refine Eq.trans ?_ (state_quickButton alone fresh).symm
      refine Eq.trans ?_ (congrArg Prod.snd (bind_of_ok rendered)).symm
      exact ((state_last _ (fun _ => rfl) _ _).trans (state_element _ _ _ _ _)).symm
  | @rendering setting state after steps view fault next failed =>
      have ended : inScope (fun scope => scope.steps steps) view.render setting state =
          (.error fault, after) := failed
      exact ⟨rfl, (congrArg Prod.snd failed).trans (congrArg Prod.snd (bind_of_error ended)).symm⟩
  | @rendered setting state after steps view text next rendered =>
      have ended : inScope (fun scope => scope.steps steps) view.render setting state =
          (.ok text, after) := rendered
      have whole : (Program.render steps view next).run setting state =
          (next text).run setting after := bind_of_ok ended
      exact ⟨rfl, congrArg Prod.snd rendered.symm, congrArg Prod.snd whole.symm⟩

/-- The first part begins with what the render has drawn. -/
theorem Parts.carried_of_first {stage part : Stage} {rest : List Stage}
    (parted : stage.Parts (part :: rest)) (handsOn : stage.task.handsOn = true)
    (shared : stage.task.isShell = false) :
    part.state.carried = ((stage.drawn, stage.gathered), stage.state.branch) := by
  cases parted with
  | group siblings => exact congrArg State.carried siblings.follow.1
  | single single step => exact step.carried_of_single single
  | body | otherwise | left | fallback => cases handsOn
  | shellBody | shellHead => cases shared
  | hidden action refresh formAttributes attributes children alone fresh failed =>
      exact carried_quickButton alone fresh _ _ _ _ _ _
  | button action refresh formAttributes attributes children alone fresh rendered =>
      exact carried_quickButton alone fresh _ _ _ _ _ _
  | rendering | rendered => rfl

theorem Parts.alone_of_nil {stage : Stage} (parted : stage.Parts [])
    (inDocument : stage.task.isRegion = false) : ∀ inner, ¬ stage.Inner inner := by
  cases parted with
  | nothing alone => exact alone
  | template => cases inDocument
  | group siblings =>
      cases siblings
      rintro inner ⟨⟨⟩⟩

/-- From one part to the next in the same shell, all is handed on. -/
theorem Parts.follow_carried {stage : Stage} {parts : List Stage} (parted : stage.Parts parts)
    (handsOn : stage.task.handsOn = true) (shared : stage.task.isShell = false) :
    Follow State.carried ((stage.drawn, stage.gathered), stage.state.branch) parts
      stage.outcome.2.carried := by
  cases parts with
  | nil =>
      have inDocument : stage.task.isRegion = false := by
        rw [Bool.eq_false_iff]
        exact fun region => absurd handsOn (by simp [not_handsOn_of_isRegion region])
      refine (carried_of_alone (parted.alone_of_nil inDocument) ?_).symm
      rintro branch isMarker
      rw [isMarker] at handsOn
      cases handsOn
  | cons part rest =>
      have follow := (parted.follow_state handsOn shared).map State.carried
      rwa [parted.carried_of_first handsOn shared] at follow

/-- From one part to the next, the numbering and the alternative that waits are handed on. -/
theorem Parts.follow_thread {stage : Stage} {parts : List Stage} (parted : stage.Parts parts)
    (handsOn : stage.task.handsOn = true) :
    Follow State.thread (stage.drawn, stage.state.branch) parts stage.outcome.2.thread := by
  cases shared : stage.task.isShell with
  | false =>
      exact (parted.follow_carried handsOn shared).map fun carried => (carried.1.1, carried.2)
  | true =>
      cases parted with
      | shellBody head failed =>
          refine ⟨rfl, (thread_of_shellBody failed).trans ?_⟩
          refine congrArg State.thread (Eq.trans ?_ (state_within _ _ _ _).symm)
          exact (state_shell_of_error failed).symm
      | shellHead head rendered =>
          refine ⟨rfl, (thread_of_shellBody rendered).symm, ?_⟩
          refine congrArg State.thread (Eq.trans ?_ (state_within _ _ _ _).symm)
          exact (state_shell_of_ok rendered).symm
      | nothing alone => exact absurd (exists_inner_of_isShell shared) (not_exists.mpr alone)
      | single single step => exact absurd (not_isShell_of_single single) (by simp [shared])
      | _ => cases shared

/-- A render that starts no other one only draws from the numbering and adds its own meta tag. -/
theorem document_of_alone {stage : Stage} (alone : ∀ inner, ¬ stage.Inner inner) :
    stage.outcome.2.document = (stage.drawn, stage.gathered) := by
  by_cases marked : ∃ branch, stage.task = .view (.alternative branch)
  · obtain ⟨branch, isMarker⟩ := marked
    obtain ⟨task, setting, state⟩ := stage
    obtain rfl : task = .view (.alternative branch) := isMarker
    have ended := ledger_alternative branch.render setting state
    have outer := congrArg State.ledger (state_within Construct.alternative.label
      (Render.alternative branch.render) setting state)
    exact congrArg Ledger.document (outer.trans ended)
  · exact congrArg Prod.fst (carried_of_alone alone (not_exists.mp marked))

theorem handsOn_of_single {outer inner : Stage} (step : Inner outer inner)
    (single : outer.task.isSingle = true) : outer.task.handsOn = true := by
  cases step <;> first | rfl | cases single

/-- Without an alternative to render, a conditional ends where its body does. -/
theorem state_of_body {condition : Expr} {negated : Bool} {setting : Setting}
    {state after : State} {body : List View} {otherwise : Option View}
    {result : Except Fault (String × Option Branch)} (writable : condition.defect? = none)
    (rendered : collectBranch (View.renderAll body) setting state = (result, after))
    (last : ∀ text left, result = .ok (text, left) → left.isSome = otherwise.isSome) :
    (outcome ⟨.view (.conditional condition negated body otherwise), setting, state⟩).2 =
      after := by
  cases otherwise
  all_goals
    exact (state_within _ _ _ _).trans (state_conditional_of_last writable rendered last)

/-- The body of a conditional hands its ledger on to what comes after it. -/
theorem ledger_of_body {setting : Setting} {state after : State} {body : List View}
    {result : Except Fault (String × Option Branch)}
    (ended : collectBranch (View.renderAll body) setting state = (result, after)) :
    (ofBody setting state body).outcome.2.ledger = after.ledger := by
  have same := ledger_collectBranch (View.renderAll body) setting state
  rw [ended] at same
  exact same.symm

/-- The ledger is handed on even through a conditional, which only sets alternatives aside. -/
theorem Parts.follow_ledger {stage part : Stage} {rest : List Stage}
    (parted : stage.Parts (part :: rest)) (shared : stage.task.isShell = false)
    (local_ : stage.task.isRegion = false) :
    Follow State.ledger part.state.ledger (part :: rest) stage.outcome.2.ledger := by
  by_cases handsOn : stage.task.handsOn = true
  · exact (parted.follow_state handsOn shared).map State.ledger
  cases parted with
  | single single step => exact absurd (handsOn_of_single step single) handsOn
  | body negated writable rendered last =>
      refine ⟨rfl, (ledger_of_body rendered).trans ?_⟩
      exact congrArg State.ledger (state_of_body writable rendered last).symm
  | otherwise negated view writable rendered =>
      refine ⟨rfl, (ledger_of_body rendered).symm, congrArg State.ledger ?_⟩
      refine Eq.trans ?_ (state_within _ _ _ _).symm
      exact (state_conditional writable rendered rfl).symm
  | @left condition setting state after body text branch negated writable rendered leaves =>
      refine ⟨rfl, (ledger_of_body rendered).symm, ?_⟩
      have ended : (conditional condition negated (View.renderAll body) none setting state).2 =
          (ofBranch branch.render.toBranch
            { setting with scope := setting.scope.outsideConditional } after).2 :=
        state_conditional writable rendered rfl
      have whole := (state_within Construct.conditional.label _ setting state).trans ended
      exact (congrArg State.ledger whole).symm
  | fallback => cases local_
  | _ => exact absurd rfl handsOn

theorem Parts.document_of_first {stage part : Stage} {rest : List Stage}
    (parted : stage.Parts (part :: rest)) (shared : stage.task.isShell = false)
    (local_ : stage.task.isRegion = false) :
    part.state.document = (stage.drawn, stage.gathered) := by
  by_cases handsOn : stage.task.handsOn = true
  · exact congrArg Prod.fst (parted.carried_of_first handsOn shared)
  cases parted with
  | single single step => exact absurd (handsOn_of_single step single) handsOn
  | body | otherwise | left => rfl
  | fallback => cases local_
  | _ => exact absurd rfl handsOn

/-- From one part to the next, the numbering and the meta tags are handed on, except that the
body of a shell has meta tags of its own, and the template of a region a numbering of its own. -/
theorem Parts.follow_document {stage : Stage} {parts : List Stage} (parted : stage.Parts parts)
    (shared : stage.task.isShell = false) (local_ : stage.task.isRegion = false) :
    Follow State.document (stage.drawn, stage.gathered) parts stage.outcome.2.document := by
  cases parts with
  | nil => exact (document_of_alone (parted.alone_of_nil local_)).symm
  | cons part rest =>
      have follow := (parted.follow_ledger shared local_).map Ledger.document
      rwa [show part.state.ledger.document = _ from parted.document_of_first shared local_]
        at follow

/-- From one part to the next, the numbering is handed on. Templates of regions have numberings
of their own. -/
theorem Parts.follow_numbering {stage : Stage} {parts : List Stage} (parted : stage.Parts parts) :
    Follow State.numbering stage.drawn parts stage.outcome.2.numbering := by
  by_cases handsOn : stage.task.handsOn = true
  · exact (parted.follow_thread handsOn).map Prod.fst
  have shared : stage.task.isShell = false := by
    rw [Bool.eq_false_iff]
    exact fun isShell => handsOn (handsOn_of_isShell isShell)
  cases local_ : stage.task.isRegion with
  | false => exact (parted.follow_document shared local_).map Prod.fst
  | true =>
      cases parted with
      | @template setting state after region template fault fallback failed =>
          have restored := carried_compileTemplate region.resource (template .ofFragment).render
            setting state rfl
          rw [failed] at restored
          refine (congrArg (fun carried => carried.1.1) restored).symm.trans ?_
          refine congrArg State.numbering ?_
          refine Eq.trans ?_ (state_within _ _ _ _).symm
          exact (state_remote_of_error failed).symm
      | @fallback setting state after later region handle template fallback compiled recorded =>
          have restored := carried_compileTemplate region.resource (template .ofFragment).render
            setting state rfl
          have kept := carried_recordRegion region handle setting after
          rw [compiled] at restored
          rw [recorded] at kept
          refine ⟨congrArg (fun carried => carried.1.1) (kept.trans restored), ?_⟩
          refine congrArg State.numbering ?_
          refine Eq.trans ?_ (state_within _ _ _ _).symm
          exact (state_remote compiled recorded).symm
      | nothing alone => exact (congrArg Prod.fst (document_of_alone alone)).symm
      | single single step => exact absurd (handsOn_of_single step single) handsOn
      | _ => cases local_

end Stage

/-! ## Every document has a log -/

namespace Scope

theorem conditional_of_steps {scope : Scope} {steps : List Step}
    (around : (scope.steps steps).conditional = true) : scope.conditional = true := by
  unfold Scope.steps at around
  induction steps generalizing scope with
  | nil => exact around
  | cons first rest inductionHypothesis =>
      have later := inductionHypothesis around
      cases first with
      | probe selected | page route title => cases later
      | enter route | inRouter container => exact later

end Scope

namespace Stage

open Render

/-- The alternative that waits is as it was, or it is the branch of a marker in the render. -/
def Waits (stage : Stage) : Prop :=
  stage.outcome.2.branch = stage.state.branch ∨
    stage.setting.scope.conditional = true ∧
      ∃ branch : View, stage.Leaves branch ∧ stage.outcome.2.branch = some branch.render.toBranch

/-- Outside of conditionals no marker is accepted. -/
theorem Waits.branch_eq {stage : Stage} (waits : stage.Waits)
    (outside : stage.setting.scope.conditional = false) :
    stage.outcome.2.branch = stage.state.branch := by
  rcases waits with same | ⟨inside, -⟩
  · exact same
  · rw [outside] at inside
    cases inside

theorem Inner.conditional_around {outer inner : Stage} (step : Inner outer inner)
    (handsOn : outer.task.handsOn = true) (around : inner.setting.scope.conditional = true) :
    outer.setting.scope.conditional = true := by
  cases step with
  | rendering => exact Scope.conditional_of_steps around
  | body | otherwise | left | template | fallback => cases handsOn
  | _ => exact around

theorem keepsMarkers_of_handsOn {task : Task} (handsOn : task.handsOn = true) :
    task.keepsMarkers = true := by
  cases task with
  | view shown => cases shown <;> first | rfl | exact handsOn
  | program running => exact handsOn

/-- What waits after the parts of a render waited before, or one of them has left it. -/
theorem Follow.waits {stage : Stage} (handsOn : stage.task.handsOn = true) {parts : List Stage}
    {given final : Option Branch} (follow : Follow State.branch given parts final)
    (started : ∀ part ∈ parts, stage.Inner part) (waits : ∀ part ∈ parts, part.Waits) :
    final = given ∨ stage.setting.scope.conditional = true ∧
      ∃ branch : View, stage.Leaves branch ∧ final = some branch.render.toBranch := by
  induction parts generalizing given with
  | nil => exact Or.inl follow.symm
  | cons part rest inductionHypothesis =>
      obtain ⟨begins, later⟩ := follow
      have step := started part List.mem_cons_self
      rcases inductionHypothesis later (fun other member => started other (.tail part member))
        (fun other member => waits other (.tail part member)) with kept | left
      · rcases waits part List.mem_cons_self with same | ⟨inside, branch, leaves, left⟩
        · exact Or.inl (kept.trans (same.trans begins))
        · exact Or.inr ⟨step.conditional_around handsOn inside, branch,
            .inside (keepsMarkers_of_handsOn handsOn) step leaves, kept.trans left⟩
      · exact Or.inr left

theorem exists_siblings (setting : Setting) (views : List View) (state : State) :
    ∃ parts, Siblings setting views state parts := by
  induction views generalizing state with
  | nil => exact ⟨[], .done state⟩
  | cons first rest inductionHypothesis =>
      rcases outcome : first.render setting state with ⟨fault | text, after⟩
      · exact ⟨_, .failed rest outcome⟩
      · obtain ⟨later, siblings⟩ := inductionHypothesis after
        exact ⟨_, .next outcome siblings⟩

/-- Every render that hands on has its parts. -/
theorem exists_parts {stage : Stage} (handsOn : stage.task.handsOn = true) :
    ∃ parts, stage.Parts parts := by
  by_cases starts : ∃ inner, stage.Inner inner
  swap
  · exact ⟨[], .nothing (not_exists.mp starts)⟩
  obtain ⟨inner, step⟩ := starts
  by_cases single : stage.task.isSingle = true
  · exact ⟨[inner], .single single step⟩
  cases step with
  | @child setting state inner views view sibling =>
      obtain ⟨parts, siblings⟩ := exists_siblings setting views state
      exact ⟨parts, .group siblings⟩
  | shellBody setting state morph head children =>
      rcases outcome : collectMetaTags
        (Render.element "body" (bodyAttributes morph) (View.renderAll children)) setting state
        with ⟨fault | collected, after⟩
      · exact ⟨_, .shellBody head outcome⟩
      · exact ⟨_, .shellHead head outcome⟩
  | shellHead head rendered => exact ⟨_, .shellHead head rendered⟩
  | @hidden setting state after id action refresh formAttributes attributes hidden children alone
      fresh =>
      rcases outcome : View.renderAll hidden setting after with ⟨fault | inputs, later⟩
      · exact ⟨_, .hidden action refresh formAttributes attributes children alone fresh outcome⟩
      · exact ⟨_, .button action refresh formAttributes attributes children alone fresh outcome⟩
  | button action refresh formAttributes attributes children alone fresh rendered =>
      exact ⟨_, .button action refresh formAttributes attributes children alone fresh rendered⟩
  | rendering setting state steps view next =>
      rcases outcome : view.render { setting with scope := setting.scope.steps steps } state
        with ⟨fault | text, after⟩
      · exact ⟨_, .rendering next outcome⟩
      · exact ⟨_, .rendered next outcome⟩
  | rendered next rendered => exact ⟨_, .rendered next rendered⟩
  | body | otherwise | left | template | fallback => cases handsOn
  | _ => exact absurd rfl single

/-- The parts of a conditional are its body and an alternative, which is given or left. -/
theorem exists_parts_of_conditional {setting : Setting} {state : State} {body : List View}
    (condition : Expr) (negated : Bool) (otherwise : Option View)
    (waits : (ofBody setting state body).Waits) :
    ∃ parts, Parts ⟨.view (.conditional condition negated body otherwise), setting, state⟩ parts ∧
      ∀ part ∈ parts, part = ofBody setting state body ∨
        (∃ view ∈ otherwise, part.task = .view view) ∨
          ∃ branch, Leaves (ofBody setting state body) branch ∧ part.task = .view branch := by
  cases writable : condition.defect? with
  | some reason =>
      refine ⟨[], .nothing ?_, by simp⟩
      intro inner step
      have defective : condition.defect? ≠ none := by simp [writable]
      cases step with
      | body _ _ _ _ _ sound => exact defective sound
      | otherwise _ _ sound => exact defective sound
      | left _ sound => exact defective sound
  | none =>
      have left_eq : ∀ text left after,
          collectBranch (View.renderAll body) setting state = (.ok (text, left), after) →
            (ofBody setting state body).outcome.2.branch = left := by
        intro text left after rendered
        obtain ⟨inner, inside⟩ := ok_of_collectBranch rendered
        have collected := collectBranch_of_ok inside
        rw [rendered] at collected
        have same : left = inner.branch :=
          (Prod.mk.inj (Except.ok.inj (Prod.mk.inj collected).1)).2
        rw [same]
        exact congrArg (fun outcome => State.branch outcome.2) inside
      rcases rendered : collectBranch (View.renderAll body) setting state
        with ⟨fault | ⟨text, left⟩, after⟩
      · exact ⟨_, .body negated writable rendered (by simp), by simp⟩
      · rcases otherwise with _ | view <;> rcases left with _ | branch
        · exact ⟨_, .body negated writable rendered (by simp), by simp⟩
        · have isLeft := left_eq _ _ _ rendered
          rcases waits with same | ⟨-, view, leaves, ended⟩
          · rw [isLeft] at same
            cases same
          · obtain rfl := Option.some.inj (isLeft.symm.trans ended)
            exact ⟨_, .left negated writable rendered leaves, by simp [leaves]⟩
        · exact ⟨_, .otherwise negated view writable rendered, by simp⟩
        · exact ⟨_, .body negated writable rendered (by simp), by simp⟩

/-- After a conditional that alternative waits which waited before. -/
theorem branch_of_conditional {condition : Expr} {setting : Setting} {state : State}
    {body : List View} {negated : Bool} {otherwise : Option View} {parts : List Stage}
    (parted : Parts ⟨.view (.conditional condition negated body otherwise), setting, state⟩ parts)
    (waits : ∀ view ∈ otherwise, ∀ setting state, Waits ⟨.view view, setting, state⟩) :
    (outcome ⟨.view (.conditional condition negated body otherwise), setting, state⟩).2.branch =
      state.branch := by
  have collected := branch_collectBranch (View.renderAll body) setting state
  cases parted with
  | nothing alone =>
      exact congrArg Prod.snd (carried_of_alone alone (by simp))
  | single single => cases single
  | body negated writable rendered last =>
      rw [rendered] at collected
      rw [state_of_body writable rendered last]
      exact collected
  | otherwise negated view writable rendered =>
      rw [rendered] at collected
      have ended : (Render.conditional condition negated (View.renderAll body) (some view.render)
          setting state).2 = (view.render
            { setting with scope := setting.scope.outsideConditional } _).2 :=
        state_conditional writable rendered rfl
      refine (congrArg State.branch ((state_within _ _ _ _).trans ended)).trans ?_
      exact ((waits view rfl _ _).branch_eq rfl).trans collected
  | left negated writable rendered leaves =>
      rw [rendered] at collected
      have ended : (Render.conditional condition negated (View.renderAll body) none
          setting state).2 = (ofBranch _
            { setting with scope := setting.scope.outsideConditional } _).2 :=
        state_conditional writable rendered rfl
      exact (congrArg State.branch ((state_within _ _ _ _).trans ended)).trans collected

theorem exists_log_of_parts {parts : List Stage} (logged : ∀ part ∈ parts, ∃ log, Log [part] log) :
    ∃ log, Log parts log := by
  induction parts with
  | nil => exact ⟨[], .done⟩
  | cons part rest inductionHypothesis =>
      obtain ⟨log, early⟩ := logged part List.mem_cons_self
      obtain ⟨more, late⟩ := inductionHypothesis fun other member =>
        logged other (.tail part member)
      exact ⟨log ++ more, early.append late⟩

theorem exists_log_of_parted {stage : Stage} {parts : List Stage} (parted : stage.Parts parts)
    (logged : ∀ part ∈ parts, ∃ log, Log [part] log) : ∃ log, Log [stage] log := by
  obtain ⟨log, inside⟩ := exists_log_of_parts logged
  refine ⟨stage :: log, .next parted ?_⟩
  rw [List.append_nil]
  exact inside

end Stage

/-- Wherever the task is carried out, the render has a log, and so have the branches that it
leaves; nothing else waits afterwards than before or such a branch. -/
structure Task.Logged (task : Task) : Prop where
  log : ∀ setting state, ∃ log, Stage.Log [⟨task, setting, state⟩] log
  left : ∀ setting state branch, Stage.Leaves ⟨task, setting, state⟩ branch →
    ∀ later after, ∃ log, Stage.Log [⟨.view branch, later, after⟩] log
  waits : ∀ setting state, Stage.Waits ⟨task, setting, state⟩

namespace Task.Logged

open Stage Render

/-- A task that hands on has a log if all has that it starts. -/
theorem of_inner {task : Task} (handsOn : task.handsOn = true)
    (inside : ∀ {setting : Setting} {state : State} {inner : Stage},
      Inner ⟨task, setting, state⟩ inner → inner.task.Logged) : task.Logged where
  log setting state := by
    obtain ⟨parts, parted⟩ : ∃ parts, Stage.Parts ⟨task, setting, state⟩ parts :=
      exists_parts handsOn
    exact exists_log_of_parted parted fun part member => (inside (parted.inner member)).log _ _
  left setting state branch leaves := by
    cases leaves with
    | marker => cases handsOn
    | inside kept step leaves => exact (inside step).left _ _ branch leaves
    | fallback => cases handsOn
  waits setting state := by
    obtain ⟨parts, parted⟩ : ∃ parts, Stage.Parts ⟨task, setting, state⟩ parts :=
      exists_parts handsOn
    have follow := (parted.follow_thread handsOn).map Prod.snd
    exact follow.waits handsOn (fun part member => parted.inner member)
      fun part member => (inside (parted.inner member)).waits _ _

theorem marker {branch : View} (logged : (Task.view branch).Logged) :
    (Task.view (.alternative branch)).Logged where
  log setting state := ⟨_, .next (.nothing (by rintro inner ⟨⟩)) .done⟩
  left setting state other leaves := by
    cases leaves with
    | marker => exact logged.log
    | inside kept step leaves => cases step
  waits setting state := by
    have whole : (Stage.outcome ⟨.view (.alternative branch), setting, state⟩).2 =
        (Render.alternative branch.render setting state).2 := state_within _ _ _ _
    rcases branch_alternative branch.render setting state with same | ⟨inside, left⟩
    · exact Or.inl ((congrArg State.branch whole).trans same)
    · exact Or.inr ⟨inside, branch, .marker setting state branch,
        (congrArg State.branch whole).trans left⟩

theorem conditional {condition : Expr} {body : List View} {otherwise : Option View}
    (negated : Bool) (bodyLogged : (Task.view (.group body)).Logged)
    (otherwiseLogged : ∀ view ∈ otherwise, (Task.view view).Logged) :
    (Task.view (.conditional condition negated body otherwise)).Logged where
  log setting state := by
    obtain ⟨parts, parted, known⟩ := exists_parts_of_conditional condition negated otherwise
      (bodyLogged.waits _ _)
    refine exists_log_of_parted parted ?_
    rintro ⟨task, inner, begin⟩ member
    rcases known _ member with same | ⟨view, given, rfl⟩ | ⟨branch, leaves, rfl⟩
    · rw [same]
      exact bodyLogged.log _ _
    · exact (otherwiseLogged view given).log _ _
    · exact bodyLogged.left _ _ branch leaves _ _
  left setting state branch leaves := by
    cases leaves with
    | inside kept step leaves => cases kept
  waits setting state := by
    obtain ⟨parts, parted, -⟩ := exists_parts_of_conditional condition negated otherwise
      (bodyLogged.waits _ _)
    exact Or.inl (branch_of_conditional parted fun view given => (otherwiseLogged view given).waits)

/-- The template of a region is not part of the document, and no marker leaves it. -/
theorem remote {region : Region} {template : DataRef → View} {fallback : View}
    (templateWaits : ∀ setting state, Waits ⟨.view (template .ofFragment), setting, state⟩)
    (logged : (Task.view fallback).Logged) :
    (Task.view (.remote region template fallback)).Logged := by
  have restored : ∀ setting state, (compileTemplate region.resource (template .ofFragment).render
      setting state).2.branch = state.branch := fun setting state =>
    (congrArg Prod.snd (carried_compileTemplate region.resource _ setting state rfl)).trans
      ((templateWaits _ _).branch_eq rfl)
  refine ⟨fun setting state => ?_, fun setting state branch leaves => ?_, fun setting state => ?_⟩
  · rcases compiled : compileTemplate region.resource (template .ofFragment).render setting state
      with ⟨fault | handle, after⟩
    · exact exists_log_of_parted (.template fallback compiled) (by simp)
    · have recorded : recordRegion region handle setting after = (.ok (), _) :=
        Prod.ext (recordRegion_ok region handle setting after) rfl
      refine exists_log_of_parted (.fallback fallback compiled recorded) fun part member => ?_
      obtain rfl := List.mem_singleton.mp member
      exact logged.log _ _
  · cases leaves with
    | inside kept step leaves => cases kept
    | fallback compiled recorded leaves => exact logged.left _ _ branch leaves
  · have ends := restored setting state
    rcases compiled : compileTemplate region.resource (template .ofFragment).render setting state
      with ⟨fault | handle, after⟩
    all_goals rw [compiled] at ends
    · refine Or.inl ((congrArg State.branch ((state_within _ _ _ _).trans ?_)).trans ends)
      exact state_remote_of_error compiled
    · have recorded : recordRegion region handle setting after = (.ok (), _) :=
        Prod.ext (recordRegion_ok region handle setting after) rfl
      have begins : (recordRegion region handle setting after).2.branch = state.branch :=
        (congrArg Prod.snd (carried_recordRegion region handle setting after)).trans ends
      have whole := (state_within region.construct.label
        (Render.remote region (fun value => (template value).render) fallback.render) setting
        state).trans (state_remote compiled recorded)
      rcases logged.waits setting (recordRegion region handle setting after).2 with
        same | ⟨inside, branch, leaves, left⟩
      · exact Or.inl ((congrArg State.branch whole).trans (same.trans begins))
      · exact Or.inr ⟨inside, branch, .fallback compiled recorded leaves,
          (congrArg State.branch whole).trans left⟩

end Task.Logged

/-- By induction on what tasks contain: every render leads into a part of its task. -/
theorem Task.logged (task : Task) : task.Logged := by
  induction task using Task.contains_wellFounded.induction with
  | _ task inside =>
    by_cases handsOn : task.handsOn = true
    · exact .of_inner handsOn fun step =>
        inside _ (step.contains (Stage.keepsMarkers_of_handsOn handsOn))
    cases task with
    | program running => exact absurd rfl handsOn
    | view shown =>
        cases shown with
        | alternative branch => exact .marker (inside _ (.branch branch))
        | conditional condition negated body otherwise =>
            refine .conditional negated (inside _ (.body condition negated body otherwise)) ?_
            rintro view ⟨⟩
            exact inside _ (.otherwise condition negated body view)
        | remote region template fallback =>
            exact .remote (inside _ (.template region template fallback)).waits
              (inside _ (.fallback region template fallback))
        | _ => exact absurd rfl handsOn

/-- Every document has a log, whether its render succeeds or fails. -/
theorem Stage.exists_log (stage : Stage) : ∃ log, Log [stage] log :=
  stage.task.logged.log stage.setting stage.state

end Sitewright

import Sitewright.Proofs.Render.Forms
import Sitewright.Proofs.Render.Trace

/-!
Contract: which renders fail by themselves, and with which faults.

A construct raises a fault where it is not allowed or where it is refused an asset, and a component
where its own program fails. Every other render that fails does so because one of its phases fails.

Owns:
- `Stage.Raises`, the faults that renders raise by themselves, and where;
- `Task.RaisesPlain`, for components that raise no attributed faults;
- `Stage.Phases.exists_raises`: a render that fails while none of its phases does raises its fault,
  and is blamed for it.

Does not own: what becomes of the fault further out.
-/

namespace Sitewright

open Markup Template Catalog Routing Relation

/-! ## Raising -/

/-- The name of the construct or component that a task renders, if it is one. -/
def Task.label? : Task → Option String
  | .view shown => shown.label?
  | .program _ => none

/-- What becomes of a fault that is raised when the task is rendered. -/
def Task.blame (task : Task) (source : Fault) : Fault :=
  match task.label? with
  | some name => source.attributed name
  | none => source

/-- The components of the task raise no faults that are attributed already. -/
def Task.RaisesPlain (task : Task) : Prop :=
  ∀ fault, ReflTransGen Contains task (.program (.fail fault)) → fault.component? = none

theorem Task.RaisesPlain.of_contained {task : Task}
    (own : ∀ fault, task = .program (.fail fault) → fault.component? = none)
    (inside : ∀ inner, Contains task inner → inner.RaisesPlain) : task.RaisesPlain := by
  intro fault contained
  rcases contained.cases_head with isFail | ⟨inner, contains, further⟩
  · exact own fault isFail
  · exact inside inner contains fault further

theorem Task.RaisesPlain.of_view {shown : View}
    (inside : ∀ inner, Contains (.view shown) inner → inner.RaisesPlain) :
    (Task.view shown).RaisesPlain :=
  .of_contained (by rintro _ ⟨⟩) inside

theorem Task.RaisesPlain.group {views : List View}
    (plain : ∀ view ∈ views, (Task.view view).RaisesPlain) :
    (Task.view (.group views)).RaisesPlain :=
  .of_view fun _ contains => by cases contains with | child member => exact plain _ member

theorem Task.RaisesPlain.text (content : String) : (Task.view (.text content)).RaisesPlain :=
  .of_view (by rintro _ ⟨⟩)

theorem Task.RaisesPlain.fail {source : Fault} (plain : source.component? = none) :
    (Task.program (.fail source)).RaisesPlain :=
  .of_contained (by rintro _ ⟨⟩; exact plain) (by rintro _ ⟨⟩)

theorem Task.RaisesPlain.failing (name : String) {source : Fault}
    (plain : source.component? = none) :
    (Task.view (.component name (.fail source))).RaisesPlain :=
  .of_view fun _ contains => by cases contains with | component => exact .fail plain

theorem Task.RaisesPlain.contained {outer inner : Task} (plain : outer.RaisesPlain)
    (contains : ReflTransGen Contains outer inner) : inner.RaisesPlain :=
  fun fault inside => plain fault (contains.trans inside)

namespace Stage

open Render

/-- The render fails with the fault by itself, and not because another render inside of it does. -/
inductive Raises : Stage → Fault → Prop where
  /-- The condition cannot be written. -/
  | condition {condition : Expr} {reason : String} (setting : Setting) (state : State)
      (negated : Bool) (body : List View) (otherwise : Option View)
      (defective : condition.defect? = some reason) :
      Raises ⟨.view (.conditional condition negated body otherwise), setting, state⟩
        (.misuse Construct.conditional.label reason)
  | twoAlternatives {condition : Expr} {setting : Setting} {state after : State}
      {body : List View} {text : String} {branch : Branch} (negated : Bool) (otherwise : View)
      (writable : condition.defect? = none)
      (rendered : collectBranch (View.renderAll body) setting state =
        (.ok (text, some branch), after)) :
      Raises ⟨.view (.conditional condition negated body (some otherwise)), setting, state⟩
        (.misuse Construct.alternative.label
          "the conditional already has an inline else branch")
  | strayMarker {setting : Setting} (state : State) (branch : View)
      (outside : setting.scope.conditional = false) :
      Raises ⟨.view (.alternative branch), setting, state⟩
        (.misuse Construct.alternative.label "else marker used outside of any conditional")
  | secondMarker {setting : Setting} {state : State} (branch : View)
      (inside : setting.scope.conditional = true) (waiting : state.branch.isSome = true) :
      Raises ⟨.view (.alternative branch), setting, state⟩
        (.misuse Construct.alternative.label "a conditional accepts a single else branch")
  | strayRoute {setting : Setting} (state : State) (path title : String) (children : List View)
      (outside : setting.scope.container = none) :
      Raises ⟨.view (.route path title children), setting, state⟩
        (.misuse Construct.route.label "route used outside of any switch")
  | strayDataRoute {setting : Setting} (state : State) (path title resource : String)
      (body : DataRef → View) (outside : setting.scope.container = none) :
      Raises ⟨.view (.dataRoute path title resource body), setting, state⟩
        (.misuse Construct.route.label "route used outside of any switch")
  | nestedForm {stage : Stage} {construct : Construct}
      (shown : stage.task.formConstruct? = some construct)
      (around : stage.setting.scope.form.isSome = true) :
      Raises stage (.misuse construct.label "form actions cannot be nested")
  | straySubmit {setting : Setting} (state : State) (action : Action) (attributes : Attributes)
      (children : List View) (outside : setting.scope.form = none) :
      Raises ⟨.view (.submit action attributes children), setting, state⟩
        (.misuse Construct.submit.label "submit button used outside of any form")
  | foreignSubmit {setting : Setting} {form : OpenForm} {action : Action} (state : State)
      (attributes : Attributes) (children : List View) (inside : setting.scope.form = some form)
      (foreign : form.action ≠ action.identity) :
      Raises ⟨.view (.submit action attributes children), setting, state⟩
        (.misuse Construct.submit.label
          "the submit button must be a child of its own action's form")
  | strayMetaTag {setting : Setting} (state : State) (attributes : Attributes)
      (outside : setting.scope.shell = false) :
      Raises ⟨.view (.metaTag attributes), setting, state⟩
        (.misuse Construct.metaTag.label "meta tags need an enclosing Html")
  | stylesheet {setting : Setting} {state after : State} {name contents : String} {fault : Fault}
      (refused : offerAsset (stylesheetText name contents) name .css setting state =
        (.ok (.error fault), after)) :
      Raises ⟨.view (.stylesheet name contents false), setting, state⟩ fault
  | script {setting : Setting} {state after : State} {source : ScriptSource} {contents : String}
      {fault : Fault} (given : source.contents = some contents) (linked : source.inlined = false)
      (refused : offerAsset contents source.name .js setting state =
        (.ok (.error fault), after)) :
      Raises ⟨.view (.script source), setting, state⟩ fault
  | unknownScript {setting : Setting} {state after : State} {source : ScriptSource}
      (named : source.contents = none) (building : setting.scope.building = true)
      (unknown : lookupAsset source.name setting state = (.ok none, after)) :
      Raises ⟨.view (.script source), setting, state⟩
        (.asset source.name "no asset registered under this name")
  /-- The program of a component fails. -/
  | program (setting : Setting) (state : State) (fault : Fault) :
      Raises ⟨.program (.fail fault), setting, state⟩ fault

/-- An asset is refused with a fault of its own. -/
theorem plain_of_offerAsset {contents name : String} {kind : AssetKind} {setting : Setting}
    {state after : State} {fault : Fault}
    (refused : offerAsset contents name kind setting state = (.ok (.error fault), after)) :
    fault.component? = none := by
  unfold offerAsset Render.modifyGet at refused
  obtain ⟨answered, -⟩ := Prod.mk.inj refused
  have named : ∀ assets : Asset.Store, assets.register contents name kind = .error fault →
      fault.component? = none := by
    intro assets failed
    unfold Asset.Store.register at failed
    split at failed
    · obtain rfl := Except.error.inj failed
      rfl
    · cases failed
  cases stored : state.ledger.storeAsset setting.pass contents name kind with
  | ok kept =>
      simp only [stored] at answered
      cases answered
  | error refusal =>
      simp only [stored] at answered
      obtain rfl := Except.error.inj (Except.ok.inj answered)
      unfold Ledger.storeAsset at stored
      split at stored
      · cases stored
      · split at stored
        · cases stored
        · next failed =>
            obtain rfl := Except.error.inj stored
            exact named _ failed

/-- Constructs raise faults that are not attributed yet, and so do components with plain faults. -/
theorem Raises.plain {stage : Stage} {source : Fault} (raises : stage.Raises source)
    (plain : stage.task.RaisesPlain) : source.component? = none := by
  cases raises with
  | stylesheet refused => exact plain_of_offerAsset refused
  | script given linked refused => exact plain_of_offerAsset refused
  | program setting state => exact plain source .refl
  | _ => rfl

theorem label_of_formConstruct {task : Task} {construct : Construct}
    (shown : task.formConstruct? = some construct) : task.label? = some construct.label := by
  unfold Task.formConstruct? at shown
  split at shown
  · obtain rfl := Option.some.inj shown
    rfl
  · obtain rfl := Option.some.inj shown
    rfl
  · cases shown

/-- Of views, only constructs raise faults by themselves. -/
theorem Raises.exists_label {stage : Stage} {source : Fault} {shown : View}
    (raises : stage.Raises source) (isView : stage.task = .view shown) :
    ∃ name, stage.task.label? = some name := by
  cases raises with
  | nestedForm isForm around => exact ⟨_, label_of_formConstruct isForm⟩
  | program => cases isView
  | _ => exact ⟨_, rfl⟩

/-! ## Renders that fail by themselves -/

theorem ends_of_single {outer inner : Stage} (step : Inner outer inner)
    (single : outer.task.isSingle = true) (ends : inner.Ends) : outer.Ends := by
  cases step with
  | element => exact Ends.element ends
  | loop source body fresh => exact .labelled (.bind fresh (.last ends))
  | switch attributes children seen => exact .labelled (.bind seen (.element ends))
  | route children inside added selected => exact .labelled (.route inside added selected ends)
  | dataRoute body inside added selected required =>
      exact .labelled (.route inside added selected (.bind required ends))
  | link => exact .labelled (.reading (.bind rfl (.element ends)))
  | head => exact .labelled (.element (.last ends))
  | form action refresh attributes children alone fresh =>
      exact .labelled (.bind (requireNoForm_of_alone .form alone _) (.bind fresh (.element ends)))
  | submit state attributes children inside same => exact .labelled (.submit inside same ends)
  | component => exact .labelled ends
  | output | readScope => exact ends
  | ask next replied => exact .bind replied ends
  | _ => cases single

/-- What the construct does ends with a value, or the construct raises a fault by itself. -/
def EndsOrRaises (stage : Stage) (operation : Render String) : Prop :=
  operation.Ends stage.setting stage.state ∨
    ∃ source, stage.Raises source ∧ (operation stage.setting stage.state).1 = .error source

/-- A construct that fails by itself is blamed for that. -/
theorem EndsOrRaises.blamed {stage : Stage} {name : String} {operation : Render String}
    {fault : Fault} (endsOrRaises : stage.EndsOrRaises operation)
    (labelled : stage.task.label? = some name)
    (written : stage.task.render = within name operation)
    (failed : stage.outcome.1 = .error fault) :
    ∃ source, stage.Raises source ∧ fault = stage.task.blame source := by
  have same : stage.outcome = within name operation stage.setting stage.state :=
    congrFun (congrFun written _) _
  rw [same] at failed
  rcases endsOrRaises with ends | ⟨source, raises, raised⟩
  · obtain ⟨text, final, ended⟩ := ends.labelled
    rw [ended] at failed
    cases failed
  · rw [within_of_error (Prod.ext raised rfl)] at failed
    refine ⟨source, raises, ?_⟩
    rw [Task.blame, labelled]
    exact (Except.error.inj failed).symm

section Constructs

variable {setting : Setting} {state : State}

theorem endsOrRaises_alternative (branch : View) :
    EndsOrRaises ⟨.view (.alternative branch), setting, state⟩
      (Render.alternative branch.render) := by
  unfold EndsOrRaises Render.alternative
  cases inside : setting.scope.conditional with
  | false =>
      refine .inr ⟨_, .strayMarker state branch inside, ?_⟩
      simp only [setting_bind, inside]
      rfl
  | true =>
      cases waiting : state.branch with
      | some earlier =>
          refine .inr ⟨_, .secondMarker branch inside (by rw [waiting]; rfl), ?_⟩
          have refused : leaveBranch branch.render.toBranch setting state = (.ok false, state) := by
            simp only [leaveBranch, waiting]
          simp only [setting_bind, if_pos inside]
          rw [bind_of_ok refused]
          rfl
      | none =>
          have left : leaveBranch branch.render.toBranch setting state =
              (.ok true, { state with branch := some branch.render.toBranch }) := by
            simp only [leaveBranch, waiting]
          refine .inl (.reading ?_)
          rw [if_pos inside]
          exact .bind left (.value "")

/-- A route that is not selected ends with nothing, if there is a router around it. -/
theorem endsOrRaises_route {stage : Stage} {path title : String} {content : Render String}
    (stray : stage.setting.scope.container = none →
      stage.Raises (.misuse Construct.route.label "route used outside of any switch"))
    (passed : ∀ container, stage.setting.scope.container = some container →
      stage.setting.scope.selects path = false) :
    stage.EndsOrRaises (route path title content) := by
  unfold EndsOrRaises route
  cases inside : stage.setting.scope.container with
  | none =>
      refine .inr ⟨_, stray inside, ?_⟩
      simp only [setting_bind, inside]
      rfl
  | some container =>
      refine .inl (.reading ?_)
      simp only [inside, passed container inside]
      exact .bind rfl (.value "")

theorem endsOrRaises_metaTag (attributes : Attributes) :
    EndsOrRaises ⟨.view (.metaTag attributes), setting, state⟩ (Render.metaTag attributes) := by
  unfold EndsOrRaises Render.metaTag
  cases inside : setting.scope.shell with
  | false =>
      refine .inr ⟨_, .strayMetaTag state attributes inside, ?_⟩
      simp only [setting_bind, inside]
      rfl
  | true =>
      refine .inl (.reading ?_)
      rw [if_pos inside]
      exact .bind rfl (.value "")

/-- An asset is stored, or it is refused. -/
theorem storeAsset_or_refused (contents name : String) (kind : AssetKind) :
    (storeAsset contents name kind).Ends setting state ∨
      ∃ fault after, offerAsset contents name kind setting state = (.ok (.error fault), after) ∧
        storeAsset contents name kind setting state = (.error fault, after) := by
  obtain ⟨answer, answered⟩ := reply_ok (.storeAsset contents name kind) setting state
  have offered : offerAsset contents name kind setting state = (.ok answer, _) :=
    Prod.ext answered rfl
  unfold storeAsset
  cases answer with
  | ok address => exact .inl (.bind offered (.value address))
  | error fault => exact .inr ⟨fault, _, offered, bind_of_ok offered⟩

theorem endsOrRaises_stylesheet (name contents : String) (inlined : Bool) :
    EndsOrRaises ⟨.view (.stylesheet name contents inlined), setting, state⟩
      (Render.stylesheet name contents inlined) := by
  cases inlined with
  | true => exact .inl (.value _)
  | false =>
      rcases storeAsset_or_refused (stylesheetText name contents) name .css with
        stored | ⟨source, after, refused, failed⟩
      · exact .inl stored.last
      · exact .inr ⟨source, .stylesheet refused, congrArg Prod.fst (bind_of_error failed)⟩

theorem endsOrRaises_script (source : ScriptSource) :
    EndsOrRaises ⟨.view (.script source), setting, state⟩ (Render.script source) := by
  unfold EndsOrRaises Render.script
  cases given : source.contents with
  | some contents =>
      cases linked : source.inlined with
      | true =>
          refine .inl ?_
          simp only [if_true]
          exact .value _
      | false =>
          rcases storeAsset_or_refused contents source.name .js with
            stored | ⟨fault, after, refused, failed⟩
          · exact .inl stored.last
          · exact .inr ⟨fault, .script given linked refused,
              congrArg Prod.fst (bind_of_error failed)⟩
  | none =>
      obtain ⟨found, answered⟩ := reply_ok (.lookupAsset source.name) setting state
      have looked : lookupAsset source.name setting state = (.ok found, _) :=
        Prod.ext answered rfl
      cases found with
      | some address => exact .inl (.bind looked (.value _))
      | none =>
          cases building : setting.scope.building with
          | false =>
              refine .inl (.bind looked (.reading ?_))
              simp only [building]
              exact .value ""
          | true =>
              refine .inr ⟨_, .unknownScript given building looked, ?_⟩
              dsimp only
              rw [bind_of_ok looked]
              simp only [setting_bind, building]
              rfl

theorem endsOrRaises_submit {action : Action} {attributes : Attributes} {children : List View}
    (alone : ∀ inner, ¬ Inner ⟨.view (.submit action attributes children), setting, state⟩ inner) :
    EndsOrRaises ⟨.view (.submit action attributes children), setting, state⟩
      (Render.submit action attributes (View.renderAll children)) := by
  unfold EndsOrRaises Render.submit
  cases around : setting.scope.form with
  | none =>
      refine .inr ⟨_, .straySubmit state action attributes children around, ?_⟩
      simp only [setting_bind, around]
      rfl
  | some form =>
      by_cases same : form.action = action.identity
      · exact absurd (.submit _ _ _ around same) (alone _)
      refine .inr ⟨_, .foreignSubmit state attributes children around same, ?_⟩
      simp only [setting_bind, around, if_neg same]
      rfl

end Constructs

/-- A form that starts nothing stands in the element of another one. -/
theorem exists_raises_of_form {stage : Stage} {construct : Construct} {fault : Fault}
    (shown : stage.task.formConstruct? = some construct) (alone : ∀ inner, ¬ stage.Inner inner)
    (failed : stage.outcome.1 = .error fault) :
    ∃ source, stage.Raises source ∧ fault = stage.task.blame source := by
  cases around : stage.setting.scope.form with
  | none =>
      obtain ⟨content, step⟩ := inner_of_alone shown around
      exact absurd step (alone content)
  | some form =>
      have isOpen : stage.setting.scope.form.isSome = true := by rw [around]; rfl
      refine ⟨_, .nestedForm shown isOpen, ?_⟩
      rw [outcome_of_open shown isOpen] at failed
      rw [Task.blame, label_of_formConstruct shown]
      exact (Except.error.inj failed).symm

/-- A render that starts no other one and fails raises the fault by itself. -/
theorem exists_raises_of_alone {stage : Stage} {fault : Fault}
    (alone : ∀ inner, ¬ stage.Inner inner) (failed : stage.outcome.1 = .error fault) :
    ∃ source, stage.Raises source ∧ fault = stage.task.blame source := by
  obtain ⟨task, setting, state⟩ := stage
  cases task with
  | view shown =>
      cases shown with
      | blank | text | raw | redirect => cases failed
      | group views =>
          cases views with
          | nil => cases failed
          | cons first rest => exact absurd (.child (.here _ _ _)) (alone _)
      | element tag attributes children => exact absurd (.element _ _ _ _ _) (alone _)
      | conditional condition negated body otherwise =>
          cases writable : condition.defect? with
          | none => exact absurd (.body _ _ _ _ _ writable) (alone _)
          | some reason =>
              have raised : ∀ given, (Render.conditional condition negated (View.renderAll body)
                  given setting state).1 = .error (.misuse Construct.conditional.label reason) := by
                intro given
                rw [conditional_of_defect writable]
                rfl
              have endsOrRaises : ∀ given, EndsOrRaises
                  ⟨.view (.conditional condition negated body otherwise), setting, state⟩
                  (Render.conditional condition negated (View.renderAll body) given) :=
                fun given => .inr ⟨_, .condition setting state negated body otherwise writable,
                  raised given⟩
              cases otherwise
              all_goals exact (endsOrRaises _).blamed rfl rfl failed
      | alternative branch => exact (endsOrRaises_alternative branch).blamed rfl rfl failed
      | loop source body => exact absurd (.loop source body rfl) (alone _)
      | switch id attributes children => exact absurd (.switch _ _ rfl) (alone _)
      | route path title children =>
          refine (endsOrRaises_route (.strayRoute state path title children) ?_).blamed rfl rfl
            failed
          exact fun container inside => Bool.eq_false_iff.mpr fun selected =>
            alone _ (.route _ inside rfl selected)
      | dataRoute path title resource body =>
          refine (endsOrRaises_route (.strayDataRoute state path title resource body)
            ?_).blamed rfl rfl failed
          exact fun container inside => Bool.eq_false_iff.mpr fun selected =>
            alone _ (.dataRoute _ inside rfl selected rfl)
      | link target locale attributes children =>
          exact absurd (.link _ _ _ _ _ _) (alone _)
      | shell morph head children => exact absurd (.shellBody _ _ _ head _) (alone _)
      | head children => exact absurd (.head _ _ _) (alone _)
      | metaTag attributes => exact (endsOrRaises_metaTag attributes).blamed rfl rfl failed
      | stylesheet name contents inlined =>
          exact (endsOrRaises_stylesheet name contents inlined).blamed rfl rfl failed
      | script source => exact (endsOrRaises_script source).blamed rfl rfl failed
      | remote region template fallback => exact absurd (.template _ _ _ _ _) (alone _)
      | form action refresh attributes children => exact exists_raises_of_form rfl alone failed
      | submit action attributes children =>
          exact (endsOrRaises_submit alone).blamed rfl rfl failed
      | quickButton action refresh formAttributes hidden attributes children =>
          exact exists_raises_of_form rfl alone failed
      | component name program => exact absurd (.component _ _ _ _) (alone _)
  | program running =>
      cases running with
      | done output => exact absurd (.output _ _ _) (alone _)
      | fail source =>
          refine ⟨source, .program setting state source, ?_⟩
          exact (Except.error.inj failed).symm
      | readScope next => exact absurd (.readScope _ _ _) (alone _)
      | ask request next =>
          obtain ⟨reply, answered⟩ := reply_ok request setting state
          exact absurd (.ask next (Prod.ext answered rfl)) (alone _)
      | render steps view next => exact absurd (.rendering _ _ _ _ _) (alone _)

/-! ### Renders of which no phase fails -/

theorem Siblings.ends {setting : Setting} {views : List View} {state : State}
    {parts : List Stage} (siblings : Siblings setting views state parts)
    (ends : ∀ part ∈ parts, part.Ends) : (View.renderAll views).Ends setting state := by
  induction siblings with
  | done state => exact .value ""
  | next rendered _ inductionHypothesis =>
      exact .bind rendered (inductionHypothesis fun part member => ends part (.tail _ member)).last
  | failed rest failed =>
      exact (Render.Ends.not_failed (ends _ List.mem_cons_self) failed).elim

/-- The whole of a conditional whose body leaves as much as it is given: nothing, which it ends
with, or a second alternative, which is a misuse. -/
theorem exists_raises_of_body {condition : Expr} {setting : Setting} {state after : State}
    {body : List View} {otherwise : Option View} {text : String} {left : Option Branch}
    {fault : Fault} (negated : Bool) (writable : condition.defect? = none)
    (rendered : collectBranch (View.renderAll body) setting state = (.ok (text, left), after))
    (last : left.isSome = otherwise.isSome)
    (failed : (outcome ⟨.view (.conditional condition negated body otherwise), setting,
      state⟩).1 = .error fault) :
    ∃ source,
      Raises ⟨.view (.conditional condition negated body otherwise), setting, state⟩ source ∧
      fault = (Task.view (.conditional condition negated body otherwise)).blame source := by
  cases otherwise with
  | none =>
      obtain rfl : left = none := by cases left <;> first | rfl | cases last
      have ends : (Render.conditional condition negated (View.renderAll body) none).Ends setting
          state := by
        rw [conditional_of_writable writable]
        exact .bind rendered (.value _)
      have whole : Ends ⟨.view (.conditional condition negated body none), setting, state⟩ :=
        .labelled ends
      exact absurd failed (whole.ne_error fault)
  | some view =>
      obtain ⟨branch, rfl⟩ : ∃ branch, left = some branch := by
        cases left with
        | none => cases last
        | some branch => exact ⟨branch, rfl⟩
      have endsOrRaises : EndsOrRaises
          ⟨.view (.conditional condition negated body (some view)), setting, state⟩
          (Render.conditional condition negated (View.renderAll body) (some view.render)) := by
        refine .inr ⟨_, .twoAlternatives negated view writable rendered, ?_⟩
        rw [conditional_of_writable writable, bind_of_ok rendered]
        rfl
      exact endsOrRaises.blamed rfl rfl failed

/-- A render that fails while none of its phases does raises the fault by itself. -/
theorem Phases.exists_raises {stage : Stage} {phases : List Stage} {fault : Fault}
    (phased : stage.Phases phases) (ends : ∀ phase ∈ phases, phase.Ends)
    (failed : stage.outcome.1 = .error fault) :
    ∃ source, stage.Raises source ∧ fault = stage.task.blame source := by
  have absurdly : stage.Ends → ∃ source, stage.Raises source ∧ fault = stage.task.blame source :=
    fun ends => absurd failed (ends.ne_error fault)
  -- Only renders without phases, and conditionals with two alternatives, can fail like that.
  cases phased with
  | @template setting state after region template refusal fallback broken =>
      have compiled : (compileTemplate region.resource (template .ofFragment).render).Ends setting
          state := by
        obtain ⟨text, after, written⟩ := Render.Ends.inDocument (ends _ List.mem_cons_self)
        exact .bind written ⟨_, _, rfl⟩
      exact (compiled.not_failed broken).elim
  | fallback view compiled recorded =>
      have shown := ends _ (List.mem_cons_of_mem _ List.mem_cons_self)
      refine absurdly (.labelled (.reading (.bind compiled (.bind recorded ?_))))
      exact .element shown
  | parts inDocument parted =>
      cases parted with
      | group siblings => exact absurdly (siblings.ends ends)
      | nothing alone => exact exists_raises_of_alone alone failed
      | single single step =>
          exact absurdly (ends_of_single step single (ends _ List.mem_cons_self))
      | body negated writable rendered last =>
          obtain ⟨⟨text, left⟩, after, collected⟩ :=
            Render.Ends.collectBranch (ends _ List.mem_cons_self)
          obtain ⟨rfl, rfl⟩ := Prod.mk.inj (collected.symm.trans rendered)
          exact exists_raises_of_body negated writable collected (last text left rfl) failed
      | otherwise negated view writable rendered =>
          have shown := ends _ (List.mem_cons_of_mem _ List.mem_cons_self)
          exact absurdly (.labelled (.alternative writable rendered rfl shown))
      | left negated writable rendered leaves =>
          have shown := ends _ (List.mem_cons_of_mem _ List.mem_cons_self)
          exact absurdly (.labelled (.alternative writable rendered rfl (.ofBranch shown)))
      | shellBody head broken =>
          have body := ends _ List.mem_cons_self
          exact (Render.Ends.not_failed (.collectMetaTags (.element body)) broken).elim
      | shellHead head rendered =>
          have shown := ends _ (List.mem_cons_of_mem _ List.mem_cons_self)
          exact absurdly (.labelled (.shell rendered shown))
      | template | fallback => cases inDocument
      | hidden action refresh formAttributes attributes children alone fresh broken =>
          exact (Render.Ends.not_failed (ends _ List.mem_cons_self) broken).elim
      | button action refresh formAttributes attributes children alone fresh rendered =>
          have shown := ends _ (List.mem_cons_of_mem _ List.mem_cons_self)
          exact absurdly (.labelled (.quickButton alone fresh rendered shown))
      | rendering next broken =>
          exact (Render.Ends.not_failed (ends _ List.mem_cons_self) broken).elim
      | rendered next rendered =>
          have shown := ends _ (List.mem_cons_of_mem _ List.mem_cons_self)
          exact absurdly (.bind rendered shown)

end Stage

end Sitewright

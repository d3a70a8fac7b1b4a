import Sitewright.Proofs.Render.Balance
import Sitewright.Proofs.Render.Stage
import Sitewright.Proofs.Template.Dot

/-!
Contract: where the text of a render stands in the document around it.

The text of most inner renders is a part of the text of the outer one. What stands in
front of it opens blocks, and among them as many loops as there are loops around the inner
render: everything else that comes first consists of whole blocks.

Owns:
- renders whose text has that of another one in it;
- tidy renders, and `Stage.Encloses`, the renders whose texts stand in one document;
- one lemma for each construct and the induction along the renders in between.

Does not own: templates of regions, which are documents of their own, and components.
-/

namespace Sitewright

open Text Template Markup Routing Catalog

theorem Template.Shows.element {tag : String} {attributes : Attributes} (tagInert : Inert tag)
    (inert : attributes.Inert) (content : String) :
    Shows (elementText tag attributes content) content 0 := by
  obtain ⟨front, back, shape, balanced, -⟩ := elementText_around tagInert inert content
  exact ⟨front, back, shape, balanced.enters⟩

/-! ## Renders whose text is a part -/

/-- If the render ends with a text, so does the part, whose text stands in it. -/
def Render.Holds (render : Render String) (setting : Setting) (state : State)
    (part : Except Fault String) (loops : Nat) : Prop :=
  ∀ text after, render setting state = (.ok text, after) →
    ∃ inner, part = .ok inner ∧ Shows text inner loops

namespace Render.Holds

variable {setting : Setting} {state after : State} {part : Except Fault String} {loops : Nat}

theorem whole (render : Render String) (setting : Setting) (state : State) :
    render.Holds setting state (render setting state).1 0 := by
  intro text after outcome
  exact ⟨text, by rw [outcome], .refl text⟩

theorem trans {render other : Render String} {otherSetting : Setting} {otherState : State}
    {outer : Nat} (early : render.Holds setting state (other otherSetting otherState).1 outer)
    (late : other.Holds otherSetting otherState part loops) :
    render.Holds setting state part (outer + loops) := by
  intro text after outcome
  obtain ⟨middle, isText, shows⟩ := early text after outcome
  obtain ⟨inner, isPart, within⟩ := late middle _ (Prod.ext isText rfl)
  exact ⟨inner, isPart, shows.trans within⟩

theorem next {α : Type} {first : Render α} {next : α → Render String} {value : α}
    (outcome : first setting state = (.ok value, after))
    (holds : (next value).Holds setting after part loops) :
    (first >>= next).Holds setting state part loops := by
  intro text final ended
  rw [bind_of_ok outcome] at ended
  exact holds text final ended

/-- What is made of a text may show it inside of further loops. -/
theorem first {first : Render String} {next : String → Render String} {outer : Nat}
    (holds : first.Holds setting state part loops)
    (around : ∀ text middle result final, first setting state = (.ok text, middle) →
      next text setting middle = (.ok result, final) → Shows result text outer) :
    (first >>= next).Holds setting state part (outer + loops) := by
  intro result final ended
  obtain ⟨text, middle, began, rest⟩ := ok_of_bind ended
  obtain ⟨inner, isPart, shows⟩ := holds text middle began
  exact ⟨inner, isPart, (around text middle result final began rest).trans shows⟩

theorem mapped {first : Render String} {change : String → String} {outer : Nat}
    (holds : first.Holds setting state part loops)
    (around : ∀ text, Shows (change text) text outer) :
    (first >>= fun text => pure (change text)).Holds setting state part (outer + loops) := by
  refine Holds.first holds ?_
  intro text middle result final _ ended
  obtain rfl := Except.ok.inj (Prod.mk.inj ended).1
  exact around text

theorem framed {first : Render String} {change : String → String}
    (holds : first.Holds setting state part loops) (around : ∀ text, Shows (change text) text 0) :
    (first >>= fun text => pure (change text)).Holds setting state part loops := by
  have shown := mapped holds around
  rwa [Nat.zero_add] at shown

theorem within {component : String} {render : Render String}
    (holds : render.Holds setting state part loops) :
    (Render.within component render).Holds setting state part loops :=
  fun text after outcome => holds text after (ok_of_within outcome)

theorem inScope (change : Scope → Scope) {render : Render String}
    (holds : render.Holds { setting with scope := change setting.scope } state part loops) :
    (Render.inScope change render).Holds setting state part loops :=
  holds

theorem reading {next : Setting → Render String}
    (holds : (next setting).Holds setting state part loops) :
    (Render.setting >>= next).Holds setting state part loops :=
  holds

theorem element {tag : String} {attributes : Attributes} {content : Render String}
    (tagInert : Inert tag) (inert : attributes.Inert)
    (holds : content.Holds setting state part loops) :
    (Render.element tag attributes content).Holds setting state part loops :=
  holds.framed fun text => Shows.element tagInert inert text

/-! ### Conditionals and loops -/

/-- The body of a conditional, whatever alternative it has. -/
theorem conditional {condition : Expr} {negated : Bool} {body : Render String}
    {otherwise : Option (Render String)} (free : condition.BraceFree)
    (writable : condition.defect? = none)
    (holds : body.Holds { setting with scope := setting.scope.inConditional }
      { state with branch := none } part loops) :
    (Render.conditional condition negated body otherwise).Holds setting state part loops := by
  intro result final ended
  rw [conditional_of_writable writable] at ended
  obtain ⟨⟨text, left⟩, middle, collected, rest⟩ := ok_of_bind ended
  obtain ⟨chosen, later, -, rest⟩ := ok_of_bind rest
  obtain ⟨alternative, last, -, written⟩ := ok_of_bind rest
  obtain rfl := Except.ok.inj (Prod.mk.inj written).1
  obtain ⟨inner, outcome⟩ := ok_of_collectBranch collected
  obtain ⟨shown, isPart, shows⟩ := holds text inner outcome
  exact ⟨shown, isPart,
    (Shows.ifBlock (free.header negated) negated text alternative).part shows⟩

/-- The alternative of a conditional, behind its body. -/
theorem alternative {condition : Expr} {negated : Bool} {body chosen : Render String}
    {otherwise : Option (Render String)} {left : Option Branch} {text : String}
    (free : condition.BraceFree) (writable : condition.defect? = none)
    (rendered : Render.collectBranch body setting state = (.ok (text, left), after))
    (balanced : Balanced text)
    (choice : chooseAlternative otherwise left = pure (some chosen))
    (holds : chosen.Holds { setting with scope := setting.scope.outsideConditional } after part
      loops) :
    (Render.conditional condition negated body otherwise).Holds setting state part loops := by
  intro result final ended
  rw [conditional_of_writable writable] at ended
  rw [bind_of_ok rendered] at ended
  simp only [choice, value_bind] at ended
  obtain ⟨alternative, last, rest, written⟩ := ok_of_bind ended
  obtain ⟨other, later, outcome, given⟩ := ok_of_bind rest
  obtain rfl := Except.ok.inj (Prod.mk.inj written).1
  obtain rfl := Except.ok.inj (Prod.mk.inj given).1
  obtain ⟨shown, isPart, shows⟩ := holds other later outcome
  exact ⟨shown, isPart,
    (Shows.ifBlock_alternative (free.header negated) negated balanced other).part shows⟩

theorem ofBranch {render : Render String}
    (holds : render.Holds setting (.ofLedger state.ledger) part loops) :
    (Render.ofBranch render.toBranch).Holds setting state part loops := by
  intro text after outcome
  obtain ⟨isText, -⟩ := Prod.mk.inj outcome
  exact holds text (render setting (.ofLedger state.ledger)).2 (Prod.ext isText rfl)

theorem loop {names : String × String} {source : DataRef}
    {body : (element position : DataRef) → Render String}
    (fresh : Render.nextLoopNames setting state = (.ok names, after))
    (positionFree : BraceFree names.2) (elementFree : BraceFree names.1)
    (sourceFree : BraceFree source.name)
    (holds : (body ⟨names.1⟩ ⟨names.2⟩).Holds setting after part loops) :
    (Render.loop source body).Holds setting state part (1 + loops) :=
  next fresh (holds.mapped fun text => Shows.rangeBlock positionFree elementFree sourceFree text)

/-! ### Routes -/

theorem switch {id : String} {attributes : Attributes} {children : Render String}
    (idInert : Inert id) (inert : attributes.Inert)
    (seen : Render.seeContainer id setting state = (.ok (), after))
    (holds : children.Holds { setting with scope := setting.scope.inRouter id } after part loops) :
    (Render.switch id attributes children).Holds setting state part loops :=
  next seen (inScope _ (element (inert_of_braceFree (by decide))
    (inert_switchAttributes idInert inert) holds))

theorem route {path title container : String} {content : Render String}
    (inside : setting.scope.container = some container)
    (added : Render.addRoute { path := setting.scope.current.extend path, title, container }
      setting state = (.ok (), after))
    (selected : setting.scope.selects path = true)
    (holds : content.Holds { setting with scope := setting.scope.enter path } after part loops) :
    (Render.route path title content).Holds setting state part loops := by
  unfold Render.route
  refine reading ?_
  simp only [inside]
  refine next added ?_
  rw [if_pos selected]
  exact inScope _ holds

theorem link {target : String} {locale : Option String} {attributes : Attributes}
    {children : Render String} (targetInert : Inert target)
    (localeInert : ∀ language ∈ locale, Inert language) (inert : attributes.Inert)
    (tidy : state.Tidy) (holds : children.Holds setting state part loops) :
    (Render.link target locale attributes children).Holds setting state part loops := by
  refine reading ?_
  have asked : Render.containerOf (linkTarget (Path.ofText target) setting.scope.current)
      setting state = (.ok (state.ledger.routes.containerOf
        (linkTarget (Path.ofText target) setting.scope.current)), state) := rfl
  have containerInert := tidy.ledger.routes.inert_containerOf
    (linkTarget (Path.ofText target) setting.scope.current)
  exact next asked (element (inert_of_braceFree (by decide))
    (inert_linkAttributes targetInert containerInert localeInert inert) holds)

/-! ### Documents -/

theorem balanced_loader : Balanced (elementText "script" loaderAttributes "") :=
  balanced_elementText (inert_of_braceFree (by decide)) inert_loaderAttributes
    (inert_of_braceFree braceFree_empty).balanced

theorem head {content : Render String} (holds : content.Holds setting state part loops) :
    (Render.head content).Holds setting state part loops :=
  element (inert_of_braceFree (by decide)) Attributes.inert_nil
    (holds.framed fun text => .last balanced_loader text)

theorem withMetaTags (tags : List Attributes) {content : Render String}
    (holds : content.Holds setting state part loops) :
    (Render.withMetaTags tags content).Holds setting state part loops :=
  holds.framed fun text => .first text (metaTagsText tags)

theorem balanced_html : Balanced "<html>" :=
  (inert_of_braceFree (by decide)).balanced

/-- The body comes behind the head, though it is rendered first. -/
theorem shellBody {morph : Bool} {headContent children : Render String}
    (settingTidy : setting.Tidy) (stateTidy : state.Tidy)
    (headYields : Render.Yields Balanced headContent) (yields : Render.Yields Balanced children)
    (holds : children.Holds { setting with scope := setting.scope.inShell }
      { state with ledger := { state.ledger with metaTags := [] } } part loops) :
    (Render.shell morph headContent children).Holds setting state part loops := by
  have tag : Inert "body" := inert_of_braceFree (by decide)
  have inert := inert_bodyAttributes morph
  intro result final ended
  obtain ⟨⟨body, tags⟩, middle, collected, rest⟩ := ok_of_bind ended
  obtain ⟨headText, last, headed, written⟩ := ok_of_bind rest
  obtain rfl := Except.ok.inj (Prod.mk.inj written).1
  obtain ⟨⟨-, tagsInert⟩, middleTidy⟩ := Yields.collectMetaTags (Yields.element tag inert yields)
    _ _ _ _ settingTidy stateTidy collected
  have headBalanced : Balanced headText :=
    (Yields.construct (Yields.head (Yields.withMetaTags tagsInert headYields))
      _ _ _ _ settingTidy middleTidy headed).1
  obtain ⟨_, inner, outcome, ⟨⟩, -⟩ := ok_of_collectMetaTags collected
  obtain ⟨shown, isPart, shows⟩ := element tag inert holds body inner outcome
  have front := balanced_html.append headBalanced
  exact ⟨shown, isPart, (Shows.between front body "</html>").part shows⟩

theorem shellHead {morph : Bool} {headContent children : Render String}
    {collected : String × List Attributes}
    (rendered : Render.collectMetaTags (Render.element "body" (bodyAttributes morph) children)
      setting state = (.ok collected, after))
    (holds : headContent.Holds setting after part loops) :
    (Render.shell morph headContent children).Holds setting state part loops := by
  have tagged : (Render.construct .head (Render.head
      (Render.withMetaTags collected.2 headContent))).Holds setting after part loops :=
    within (head (withMetaTags collected.2 holds))
  refine next rendered (tagged.framed fun text => ?_)
  have shown := Shows.between balanced_html text (collected.1 ++ "</html>")
  rwa [← String.append_assoc] at shown

/-! ### Regions and forms -/

theorem fallback {region : Region} {handle : Handle} {later : State}
    {template : DataRef → Render String} {fallback : Render String}
    (settingTidy : setting.Tidy) (loading : region.loading.Tidy) (address : BraceFree handle.url)
    (compiled : Render.compileTemplate region.resource (template .ofFragment) setting state =
      (.ok handle, after))
    (recorded : Render.recordRegion region handle setting after = (.ok (), later))
    (holds : fallback.Holds setting later part loops) :
    (Render.remote region template fallback).Holds setting state part loops := by
  have inert := inert_placeholderAttributes loading settingTidy.config.fragmentHeader
    settingTidy.scope.inert_current (inert_of_braceFree address)
  exact reading (next compiled (next recorded
    (element (inert_of_braceFree (by decide)) inert holds)))

theorem requireNoForm {construct : Construct} {rest : Render String}
    (alone : setting.scope.form = none) (holds : rest.Holds setting state part loops) :
    (Render.requireNoForm construct >>= fun _ => rest).Holds setting state part loops :=
  next (requireNoForm_of_alone construct alone state) holds

theorem form {action : Action} {refresh : Refresh} {attributes : Attributes}
    {children : Render String} {id : String} (inert : attributes.Inert) (idFree : BraceFree id)
    (alone : setting.scope.form = none)
    (fresh : Render.nextFormId setting state = (.ok id, after))
    (holds : children.Holds
      { setting with scope := setting.scope.inForm (openForm action refresh id) } after part
      loops) :
    (Render.form action refresh attributes children).Holds setting state part loops :=
  requireNoForm alone (next fresh (inScope _ (element (inert_of_braceFree (by decide))
    (inert_withId inert (inert_of_braceFree idFree)) holds)))

theorem submit {action : Action} {attributes : Attributes} {children : Render String}
    {form : OpenForm} (settingTidy : setting.Tidy) (tidy : action.Tidy)
    (inert : attributes.Inert) (inside : setting.scope.form = some form)
    (same : form.action = action.identity) (holds : children.Holds setting state part loops) :
    (Render.submit action attributes children).Holds setting state part loops := by
  have formTidy := settingTidy.scope.form form inside
  have buttonInert := inert_buttonAttributes tidy formTidy.id settingTidy.scope.inert_current
    formTidy.islands formTidy.items inert
  unfold Render.submit
  refine reading ?_
  simp only [inside, same]
  exact element (inert_of_braceFree (by decide)) buttonInert holds

theorem hidden {action : Action} {refresh : Refresh} {formAttributes attributes : Attributes}
    {hidden children : Render String} {id : String} (inert : formAttributes.Inert)
    (idFree : BraceFree id) (alone : setting.scope.form = none)
    (fresh : Render.nextFormId setting state = (.ok id, after))
    (holds : hidden.Holds setting after part loops) :
    (Render.quickButton action refresh formAttributes hidden attributes children).Holds setting
      state part loops := by
  refine requireNoForm alone (next fresh (reading (element (inert_of_braceFree (by decide))
    (inert_withId inert (inert_of_braceFree idFree)) ?_)))
  rw [← Nat.zero_add loops]
  refine Holds.first holds ?_
  intro text middle result final _ ended
  obtain ⟨button, last, -, written⟩ := ok_of_bind ended
  obtain rfl := Except.ok.inj (Prod.mk.inj written).1
  exact .first text button

theorem button {action : Action} {refresh : Refresh} {formAttributes attributes : Attributes}
    {hidden children : Render String} {id inputs : String} {later : State}
    (settingTidy : setting.Tidy) (tidy : action.Tidy) (refreshTidy : refresh.Tidy)
    (formInert : formAttributes.Inert) (inert : attributes.Inert) (idFree : BraceFree id)
    (inputsBalanced : Balanced inputs) (alone : setting.scope.form = none)
    (fresh : Render.nextFormId setting state = (.ok id, after))
    (rendered : hidden setting after = (.ok inputs, later))
    (holds : children.Holds setting later part loops) :
    (Render.quickButton action refresh formAttributes hidden attributes children).Holds setting
      state part loops := by
  have idInert := inert_of_braceFree idFree
  have buttonInert := inert_buttonAttributes tidy idInert settingTidy.scope.inert_current
    (inert_islandIds tidy refreshTidy) refreshTidy.items inert
  have tag : Inert "button" := inert_of_braceFree (by decide)
  have shown := (element tag buttonInert holds).framed fun text => .last inputsBalanced text
  exact requireNoForm alone (next fresh (reading (element (inert_of_braceFree (by decide))
    (inert_withId formInert idInert) (next rendered shown))))

end Render.Holds

/-! ## Renders in one document -/

namespace Setting.Tidy

variable {setting : Setting} (tidy : setting.Tidy)

include tidy

theorem inConditional :
    Setting.Tidy { setting with scope := setting.scope.inConditional } :=
  ⟨tidy.config, tidy.scope.inConditional⟩

theorem outsideConditional :
    Setting.Tidy { setting with scope := setting.scope.outsideConditional } :=
  ⟨tidy.config, tidy.scope.outsideConditional⟩

theorem inShell : Setting.Tidy { setting with scope := setting.scope.inShell } :=
  ⟨tidy.config, tidy.scope.inShell⟩

theorem inRouter {id : String} (inert : Inert id) :
    Setting.Tidy { setting with scope := setting.scope.inRouter id } :=
  ⟨tidy.config, tidy.scope.inRouter inert⟩

theorem enter {path : String} (free : BraceFree path) :
    Setting.Tidy { setting with scope := setting.scope.enter path } :=
  ⟨tidy.config, tidy.scope.enter free⟩

theorem inForm {form : OpenForm} (formTidy : form.Tidy) :
    Setting.Tidy { setting with scope := setting.scope.inForm form } :=
  ⟨tidy.config, tidy.scope.inForm formTidy⟩

end Setting.Tidy

/-- Whether the text of every inner render is a part, inside of no further loop. What a
component makes of the texts that it renders is its own affair. -/
def Task.isPlain : Task → Bool
  | .view (.loop ..) | .view (.remote ..) | .view (.component ..)
  | .view (.conditional _ _ _ none) | .program _ => false
  | _ => true

namespace Stage

open Render

/-- A tidy view about to be rendered in tidy surroundings. -/
structure Tidy (stage : Stage) : Prop where
  view : ∃ view, stage.task = .view view ∧ view.Tidy
  setting : stage.setting.Tidy
  state : stage.state.Tidy

/-- The text of the inner render is a part of that of the outer one, inside of so many
loops. The branch of a marker stands in the conditional that takes it, not where the
marker is. The template of a region stands in another document. -/
inductive Encloses : Stage → Nat → Stage → Prop where
  | self (stage : Stage) : Encloses stage 0 stage
  | part {outer next inner : Stage} {loops : Nat} (plain : outer.task.isPlain = true)
      (step : Inner outer next) (inside : Encloses next loops inner) : Encloses outer loops inner
  | loop {source : DataRef} {body : (element position : DataRef) → View} {setting : Setting}
      {state : State} {next inner : Stage} {loops : Nat}
      (step : Inner ⟨.view (.loop source body), setting, state⟩ next)
      (inside : Encloses next loops inner) :
      Encloses ⟨.view (.loop source body), setting, state⟩ (1 + loops) inner
  | body {condition : Expr} {negated : Bool} {body : List View} {setting : Setting}
      {state : State} {inner : Stage} {loops : Nat} (writable : condition.defect? = none)
      (inside : Encloses ⟨.view (.group body),
        { setting with scope := setting.scope.inConditional }, { state with branch := none }⟩
        loops inner) :
      Encloses ⟨.view (.conditional condition negated body none), setting, state⟩ loops inner
  | left {condition : Expr} {negated : Bool} {body : List View} {branch : View} {text : String}
      {setting other : Setting} {state after waiting : State} {inner : Stage}
      {depth loops : Nat} (writable : condition.defect? = none)
      (rendered : Render.collectBranch (View.renderAll body) setting state =
        (.ok (text, some branch.render.toBranch), after))
      (marker : Encloses ⟨.view (.group body),
        { setting with scope := setting.scope.inConditional }, { state with branch := none }⟩
        depth ⟨.view (.alternative branch), other, waiting⟩)
      (inside : Encloses ⟨.view branch,
        { setting with scope := setting.scope.outsideConditional }, .ofLedger after.ledger⟩
        loops inner) :
      Encloses ⟨.view (.conditional condition negated body none), setting, state⟩ loops inner
  | fallback {region : Region} {handle : Handle} {template : DataRef → View} {fallback : View}
      {setting : Setting} {state after later : State} {inner : Stage} {loops : Nat}
      (compiled : Render.compileTemplate region.resource (template .ofFragment).render setting
        state = (.ok handle, after))
      (recorded : Render.recordRegion region handle setting after = (.ok (), later))
      (inside : Encloses ⟨.view fallback, setting, later⟩ loops inner) :
      Encloses ⟨.view (.remote region template fallback), setting, state⟩ loops inner

theorem Encloses.trans {outer middle inner : Stage} {first second : Nat}
    (early : outer.Encloses first middle) (late : middle.Encloses second inner) :
    outer.Encloses (first + second) inner := by
  induction early with
  | self =>
      rw [Nat.zero_add]
      exact late
  | part plain step _ inductionHypothesis => exact .part plain step (inductionHypothesis late)
  | loop step _ inductionHypothesis =>
      rw [Nat.add_assoc]
      exact .loop step (inductionHypothesis late)
  | body writable _ inductionHypothesis => exact .body writable (inductionHypothesis late)
  | left writable rendered marker _ _ inductionHypothesis =>
      exact .left writable rendered marker (inductionHypothesis late)
  | fallback compiled recorded _ inductionHypothesis =>
      exact .fallback compiled recorded (inductionHypothesis late)

theorem Encloses.leads {outer inner : Stage} {loops : Nat} (encloses : outer.Encloses loops inner)
    (waits : outer.state.Stepwise True) : outer.Leads inner := by
  induction encloses with
  | self => exact .refl waits
  | part _ step _ inductionHypothesis | loop step _ inductionHypothesis =>
      have leads := step.leads waits
      exact leads.trans (inductionHypothesis leads.waits)
  | body writable _ inductionHypothesis =>
      have leads := (Inner.body _ _ _ _ none writable).leads waits
      exact leads.trans (inductionHypothesis leads.waits)
  | left writable rendered _ _ _ inductionHypothesis =>
      have leads := (Inner.left _ writable rendered).leads waits
      exact leads.trans (inductionHypothesis leads.waits)
  | fallback compiled recorded _ inductionHypothesis =>
      have leads := (Inner.fallback _ compiled recorded).leads waits
      exact leads.trans (inductionHypothesis leads.waits)

/-- The outer render holds the text of the inner one. -/
def Holds (outer inner : Stage) (loops : Nat) : Prop :=
  outer.task.render.Holds outer.setting outer.state inner.outcome.1 loops

theorem Sibling.tidy_holds {setting : Setting} {views : List View} {state inner : State}
    {view : View} (sibling : Sibling setting views state view inner)
    (settingTidy : setting.Tidy) (stateTidy : state.Tidy) (tidy : View.AllTidy views) :
    (view.Tidy ∧ inner.Tidy) ∧
      (View.renderAll views).Holds setting state (view.render setting inner).1 0 := by
  induction sibling with
  | here view rest state =>
      refine ⟨⟨tidy.1, stateTidy⟩, ?_⟩
      have whole := Render.Holds.whole view.render setting state
      refine Render.Holds.first whole (?_ : ∀ text middle result final, _ → _ → Shows _ _ 0)
      intro text middle result final _ ended
      obtain ⟨others, last, -, written⟩ := ok_of_bind ended
      obtain rfl := Except.ok.inj (Prod.mk.inj written).1
      exact .first text others
  | @later first view rest state after inner text rendered sibling inductionHypothesis =>
      obtain ⟨balanced, afterTidy⟩ :=
        View.render_yields first tidy.1 _ _ _ _ settingTidy stateTidy rendered
      obtain ⟨innerTidy, holds⟩ := inductionHypothesis afterTidy tidy.2
      refine ⟨innerTidy, .next rendered ?_⟩
      exact holds.framed fun others => .last balanced others

/-- What a tidy render starts is tidy, and its text is a part. -/
theorem Inner.tidy_holds {outer inner : Stage} (step : Inner outer inner)
    (plain : outer.task.isPlain = true) (tidy : outer.Tidy) :
    inner.Tidy ∧ outer.Holds inner 0 := by
  obtain ⟨⟨view, shown, viewTidy⟩, settingTidy, stateTidy⟩ := tidy
  cases step <;> simp only [Task.view.injEq, reduceCtorEq] at shown
  all_goals subst shown
  case child sibling =>
    obtain ⟨⟨innerView, innerState⟩, holds⟩ :=
      sibling.tidy_holds settingTidy stateTidy viewTidy
    exact ⟨⟨⟨_, rfl, innerView⟩, settingTidy, innerState⟩, holds⟩
  case element setting state tag attributes children =>
    exact ⟨⟨⟨_, rfl, viewTidy.2.2⟩, settingTidy, stateTidy⟩,
      .element viewTidy.1 viewTidy.2.1 (.whole _ _ _)⟩
  case body condition setting state negated body otherwise writable =>
    cases otherwise with
    | none => cases plain
    | some view =>
        have cleared : State.Tidy { state with branch := none } := ⟨stateTidy.ledger, by simp⟩
        exact ⟨⟨⟨_, rfl, viewTidy.2.1⟩, settingTidy.inConditional, cleared⟩,
          .within (.conditional viewTidy.1 writable (.whole _ _ _))⟩
  case otherwise condition setting state after body text negated view writable rendered =>
    obtain ⟨⟨balanced, -⟩, afterTidy⟩ :=
      Yields.collectBranch (View.renderAll_yields body viewTidy.2.1) _ _ _ _ settingTidy stateTidy
        rendered
    exact ⟨⟨⟨_, rfl, viewTidy.2.2⟩, settingTidy.outsideConditional, afterTidy⟩,
      .within (.alternative viewTidy.1 writable rendered balanced rfl (.whole _ _ _))⟩
  case switch setting state after id attributes children seen =>
    have afterTidy := (Yields.seeContainer viewTidy.1 _ _ _ _ settingTidy stateTidy seen).2
    exact ⟨⟨⟨_, rfl, viewTidy.2.2⟩, settingTidy.inRouter viewTidy.1, afterTidy⟩,
      .within (.switch viewTidy.1 viewTidy.2.1 seen (.whole _ _ _))⟩
  case route setting state after path title container children inside added selected =>
    have containerInert := settingTidy.scope.container container inside
    have afterTidy := (Yields.addRoute containerInert _ _ _ _ settingTidy stateTidy added).2
    exact ⟨⟨⟨_, rfl, viewTidy.2⟩, settingTidy.enter viewTidy.1, afterTidy⟩,
      .within (.route inside added selected (.whole _ _ _))⟩
  case dataRoute setting state after later path title container resource key body inside added
      selected required =>
    have containerInert := settingTidy.scope.container container inside
    have afterTidy := (Yields.addRoute containerInert _ _ _ _ settingTidy stateTidy added).2
    have entered := settingTidy.enter viewTidy.1
    obtain ⟨rfl, laterTidy⟩ := Yields.require resource _ _ _ _ entered afterTidy required
    exact ⟨⟨⟨_, rfl, viewTidy.2⟩, entered, laterTidy⟩,
      .within (.route inside added selected (.next required (.whole _ _ _)))⟩
  case link setting state target locale attributes children =>
    exact ⟨⟨⟨_, rfl, viewTidy.2.2.2⟩, settingTidy, stateTidy⟩,
      .within (.link viewTidy.1 viewTidy.2.1 viewTidy.2.2.1 stateTidy (.whole _ _ _))⟩
  case shellBody setting state morph head children =>
    have cleared : State.Tidy { state with ledger := { state.ledger with metaTags := [] } } :=
      ⟨{ stateTidy.ledger with metaTags := by simp }, stateTidy.branch⟩
    exact ⟨⟨⟨_, rfl, viewTidy.2⟩, settingTidy.inShell, cleared⟩,
      .within (.shellBody settingTidy stateTidy (View.renderAll_yields head viewTidy.1)
        (View.renderAll_yields children viewTidy.2) (.whole _ _ _))⟩
  case shellHead setting state after morph children collected head rendered =>
    have tag : Inert "body" := inert_of_braceFree (by decide)
    have body := Yields.element tag (inert_bodyAttributes morph)
      (View.renderAll_yields children viewTidy.2)
    have afterTidy := (Yields.collectMetaTags body _ _ _ _ settingTidy stateTidy rendered).2
    exact ⟨⟨⟨_, rfl, viewTidy.1⟩, settingTidy, afterTidy⟩,
      .within (.shellHead rendered (.whole _ _ _))⟩
  case head setting state children =>
    exact ⟨⟨⟨_, rfl, viewTidy⟩, settingTidy, stateTidy⟩, .within (.head (.whole _ _ _))⟩
  case form setting state after id action refresh attributes children alone fresh =>
    obtain ⟨idFree, afterTidy⟩ := Yields.nextFormId _ _ _ _ settingTidy stateTidy fresh
    have opened : OpenForm.Tidy (openForm action refresh id) :=
      ⟨inert_of_braceFree idFree, inert_islandIds viewTidy.1 viewTidy.2.1, viewTidy.2.1.items⟩
    exact ⟨⟨⟨_, rfl, viewTidy.2.2.2⟩, settingTidy.inForm opened, afterTidy⟩,
      .within (.form viewTidy.2.2.1 idFree alone fresh (.whole _ _ _))⟩
  case submit setting form action state attributes children inside same =>
    exact ⟨⟨⟨_, rfl, viewTidy.2.2⟩, settingTidy, stateTidy⟩,
      .within (.submit settingTidy viewTidy.1 viewTidy.2.1 inside same (.whole _ _ _))⟩
  case hidden setting state after id action refresh formAttributes attributes hidden children alone
      fresh =>
    obtain ⟨actionTidy, refreshTidy, formInert, hiddenTidy, inert, childrenTidy⟩ := viewTidy
    obtain ⟨idFree, afterTidy⟩ := Yields.nextFormId _ _ _ _ settingTidy stateTidy fresh
    exact ⟨⟨⟨_, rfl, hiddenTidy⟩, settingTidy, afterTidy⟩,
      .within (.hidden formInert idFree alone fresh (.whole _ _ _))⟩
  case button setting state after later id inputs hidden action refresh formAttributes attributes
      children alone fresh rendered =>
    obtain ⟨actionTidy, refreshTidy, formInert, hiddenTidy, inert, childrenTidy⟩ := viewTidy
    obtain ⟨idFree, afterTidy⟩ := Yields.nextFormId _ _ _ _ settingTidy stateTidy fresh
    obtain ⟨inputsBalanced, laterTidy⟩ :=
      View.renderAll_yields hidden hiddenTidy _ _ _ _ settingTidy afterTidy rendered
    exact ⟨⟨⟨_, rfl, childrenTidy⟩, settingTidy, laterTidy⟩,
      .within (.button settingTidy actionTidy refreshTidy formInert inert idFree inputsBalanced
        alone fresh rendered (.whole _ _ _))⟩
  all_goals cases plain

theorem Tidy.of_body {condition : Expr} {negated : Bool} {body : List View} {setting : Setting}
    {state : State}
    (tidy : Tidy ⟨.view (.conditional condition negated body none), setting, state⟩) :
    Tidy ⟨.view (.group body), { setting with scope := setting.scope.inConditional },
      { state with branch := none }⟩ := by
  obtain ⟨⟨view, shown, viewTidy⟩, settingTidy, stateTidy⟩ := tidy
  obtain rfl := Task.view.inj shown
  exact ⟨⟨_, rfl, viewTidy.2⟩, settingTidy.inConditional, stateTidy.ledger, by simp⟩

/-- What stands in the document of a tidy render is tidy, and its text stands inside of so
many loops. -/
theorem Encloses.tidy_holds {outer inner : Stage} {loops : Nat}
    (encloses : outer.Encloses loops inner) (tidy : outer.Tidy) :
    inner.Tidy ∧ outer.Holds inner loops := by
  induction encloses with
  | self stage => exact ⟨tidy, .whole _ _ _⟩
  | part plain step _ inductionHypothesis =>
      obtain ⟨nextTidy, early⟩ := step.tidy_holds plain tidy
      obtain ⟨innerTidy, late⟩ := inductionHypothesis nextTidy
      have holds := Render.Holds.trans early late
      rw [Nat.zero_add] at holds
      exact ⟨innerTidy, holds⟩
  | @loop source body setting state next inner loops step _ inductionHypothesis =>
      obtain ⟨⟨view, shown, viewTidy⟩, settingTidy, stateTidy⟩ := tidy
      obtain rfl := Task.view.inj shown
      cases step with
      | loop _ _ fresh =>
          obtain ⟨⟨numbering, rfl⟩, afterTidy⟩ :=
            Yields.nextLoopNames _ _ _ _ settingTidy stateTidy fresh
          obtain ⟨innerTidy, late⟩ :=
            inductionHypothesis ⟨⟨_, rfl, viewTidy.2 numbering⟩, settingTidy, afterTidy⟩
          exact ⟨innerTidy, .within (.loop fresh numbering.braceFree_positionName
            numbering.braceFree_elementName viewTidy.1 late)⟩
  | body writable _ inductionHypothesis =>
      obtain ⟨innerTidy, late⟩ := inductionHypothesis tidy.of_body
      obtain ⟨⟨view, shown, viewTidy⟩, -, -⟩ := tidy
      obtain rfl := Task.view.inj shown
      exact ⟨innerTidy, .within (.conditional viewTidy.1 writable late)⟩
  | @left condition negated body branch text setting other state after waiting inner depth loops
      writable rendered _ _ markerHypothesis inductionHypothesis =>
      -- The branch is as tidy as its marker, which stands in the body.
      obtain ⟨⟨⟨marker, marked, markerTidy⟩, -, -⟩, -⟩ := markerHypothesis tidy.of_body
      obtain rfl := Task.view.inj marked
      obtain ⟨⟨view, shown, viewTidy⟩, settingTidy, stateTidy⟩ := tidy
      obtain rfl := Task.view.inj shown
      obtain ⟨⟨balanced, -⟩, afterTidy⟩ := Yields.collectBranch
        (View.renderAll_yields body viewTidy.2) _ _ _ _ settingTidy stateTidy rendered
      obtain ⟨innerTidy, late⟩ := inductionHypothesis
        ⟨⟨branch, rfl, markerTidy⟩, settingTidy.outsideConditional,
          State.tidy_ofLedger afterTidy.ledger⟩
      exact ⟨innerTidy, .within
        (.alternative viewTidy.1 writable rendered balanced rfl (.ofBranch late))⟩
  | fallback compiled recorded _ inductionHypothesis =>
      obtain ⟨⟨view, shown, viewTidy⟩, settingTidy, stateTidy⟩ := tidy
      obtain rfl := Task.view.inj shown
      obtain ⟨loading, templateTidy, fallbackTidy⟩ := viewTidy
      have template := View.render_yields _ templateTidy
      obtain ⟨address, afterTidy⟩ :=
        Yields.compileTemplate _ template _ _ _ _ settingTidy stateTidy compiled
      have laterTidy := (Yields.recordRegion _ _ _ _ _ _ settingTidy afterTidy recorded).2
      obtain ⟨innerTidy, late⟩ :=
        inductionHypothesis ⟨⟨_, rfl, fallbackTidy⟩, settingTidy, laterTidy⟩
      exact ⟨innerTidy, .within (.fallback settingTidy loading address compiled recorded late)⟩

end Stage

end Sitewright

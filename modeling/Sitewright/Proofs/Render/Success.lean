import Sitewright.Proofs.Render.Stage

/-!
Contract: the first fault ends everything.

Nothing catches faults: a fault of an inner render is the fault of the outer one, at most
attributed on the way. So what an outer render does not end with, no render in its course
ends with.

Owns:
- `Avoids`, for renders that do not end with a fault of a kind;
- `Stage.Inner.avoids`: renders inside of one that avoids a kind of faults avoid it, too;
- `Ends`, for renders that end with a value, with its rule for each construct, and what it means
  for renders inside;
- `Stage.Inner.fails`: a fault that is attributed already is passed on unchanged.

Does not own: which renders fail.
-/

namespace Sitewright

open Markup Template Catalog Routing

/-- A kind of faults that attribution does not lead out of. -/
def Fault.Stable (kind : Fault → Prop) : Prop :=
  ∀ component fault, kind fault → kind (fault.attributed component)

/-- The render does not end with a fault of the kind. -/
def Render.Avoids {α : Type} (kind : Fault → Prop) (render : Render α) (setting : Setting)
    (state : State) : Prop :=
  ∀ fault final, render setting state = (.error fault, final) → ¬ kind fault

/-- The render ends with a value. -/
def Render.Ends {α : Type} (render : Render α) (setting : Setting) (state : State) : Prop :=
  ∃ value final, render setting state = (.ok value, final)

theorem Render.within_of_error {α : Type} {component : String} {render : Render α}
    {setting : Setting} {state after : State} {fault : Fault}
    (failed : render setting state = (.error fault, after)) :
    Render.within component render setting state =
      (.error (fault.attributed component), after) := by
  simp only [within, failed]

namespace Render.Avoids

variable {α β : Type} {kind : Fault → Prop} {setting : Setting} {state after : State}

theorem first {first : Render α} {next : α → Render β}
    (avoids : (first >>= next).Avoids kind setting state) :
    first.Avoids kind setting state := by
  intro fault final outcome
  exact avoids fault final (bind_of_error outcome)

theorem next {first : Render α} {next : α → Render β} {value : α}
    (avoids : (first >>= next).Avoids kind setting state)
    (outcome : first setting state = (.ok value, after)) :
    (next value).Avoids kind setting after := by
  intro fault final ended
  exact avoids fault final ((bind_of_ok outcome).trans ended)

theorem within {component : String} {render : Render α} (stable : Fault.Stable kind)
    (avoids : (Render.within component render).Avoids kind setting state) :
    render.Avoids kind setting state := by
  intro fault final outcome isKind
  exact avoids _ _ (within_of_error outcome) (stable component fault isKind)

theorem element {tag : String} {attributes : Attributes} {content : Render String}
    (avoids : (Render.element tag attributes content).Avoids kind setting state) :
    content.Avoids kind setting state :=
  avoids.first

theorem collectBranch {render : Render α}
    (avoids : (Render.collectBranch render).Avoids kind setting state) :
    render.Avoids kind { setting with scope := setting.scope.inConditional }
      { state with branch := none } := by
  intro fault final outcome
  exact avoids fault _ (collectBranch_of_error outcome)

theorem collectMetaTags {render : Render α}
    (avoids : (Render.collectMetaTags render).Avoids kind setting state) :
    render.Avoids kind { setting with scope := setting.scope.inShell }
      { state with ledger := { state.ledger with metaTags := [] } } := by
  intro fault final outcome
  have failed : (Render.collectMetaTags render setting state).1 = .error fault := by
    simp only [Render.collectMetaTags, Render.inScope, outcome]
  exact avoids fault _ (Prod.ext failed rfl)

theorem inDocument {numbering : Numbering} {render : Render α}
    (avoids : (Render.inDocument numbering render).Avoids kind setting state) :
    render.Avoids kind { setting with scope := setting.scope.detached }
      { state with ledger := { state.ledger with numbering } } := by
  intro fault final outcome
  have failed : (Render.inDocument numbering render setting state).1 = .error fault := by
    simp only [Render.inDocument, Render.inScope, outcome]
  exact avoids fault _ (Prod.ext failed rfl)

theorem ofBranch {render : Render String}
    (avoids : (Render.ofBranch render.toBranch).Avoids kind setting state) :
    render.Avoids kind setting (.ofLedger state.ledger) := by
  intro fault final outcome
  have failed : (Render.ofBranch render.toBranch setting state).1 = .error fault := by
    simp only [Render.ofBranch, Render.toBranch, outcome]
  exact avoids fault _ (Prod.ext failed rfl)

/-! ## Constructs -/

theorem conditional {condition : Expr} {negated : Bool} {body : Render String}
    {otherwise : Option (Render String)} (writable : condition.defect? = none)
    (avoids : (Render.conditional condition negated body otherwise).Avoids kind setting state) :
    Render.Avoids kind (do
      let (text, left) ← Render.collectBranch body
      let chosen ← chooseAlternative otherwise left
      let alternative ← Render.alternativeText chosen
      return ifBlock (condition.header negated) negated text alternative) setting state := by
  rw [conditional_of_writable writable] at avoids
  exact avoids

/-- What comes after the body of a conditional renders the alternative that is chosen. -/
theorem alternative {condition : Expr} {negated : Bool} {body chosen : Render String}
    {otherwise : Option (Render String)} {left : Option Branch} {text : String}
    (writable : condition.defect? = none)
    (rendered : Render.collectBranch body setting state = (.ok (text, left), after))
    (choice : chooseAlternative otherwise left = pure (some chosen))
    (avoids : (Render.conditional condition negated body otherwise).Avoids kind setting state) :
    chosen.Avoids kind { setting with scope := setting.scope.outsideConditional } after := by
  have later := (avoids.conditional writable).next rendered
  simp only [choice, value_bind] at later
  exact later.first.first

theorem route {path title container : String} {content : Render String}
    (inside : setting.scope.container = some container)
    (added : Render.addRoute { path := setting.scope.current.extend path, title, container }
      setting state = (.ok (), after))
    (selected : setting.scope.selects path = true)
    (avoids : (Render.route path title content).Avoids kind setting state) :
    content.Avoids kind { setting with scope := setting.scope.enter path } after := by
  intro fault final outcome
  refine avoids fault final ?_
  unfold Render.route
  rw [setting_bind]
  simp only [inside]
  rw [bind_of_ok added, if_pos selected]
  exact outcome

/-- Reading the setting never fails. -/
theorem reading {next : Setting → Render α}
    (avoids : (Render.setting >>= next).Avoids kind setting state) :
    (next setting).Avoids kind setting state :=
  avoids

theorem requireNoForm {construct : Construct} {rest : Render α} (alone : setting.scope.form = none)
    (avoids : Render.Avoids kind (do Render.requireNoForm construct; rest) setting state) :
    rest.Avoids kind setting state :=
  avoids.next (requireNoForm_of_alone construct alone state)

theorem submit {action : Action} {attributes : Attributes} {children : Render String}
    {form : OpenForm} (inside : setting.scope.form = some form)
    (same : form.action = action.identity)
    (avoids : (Render.submit action attributes children).Avoids kind setting state) :
    children.Avoids kind setting state := by
  unfold Render.submit at avoids
  have around := avoids.reading
  simp only [inside, same, if_true] at around
  exact around.element

end Render.Avoids

namespace Stage

variable {kind : Fault → Prop}

theorem Sibling.avoids {setting : Setting} {views : List View} {state inner : State} {view : View}
    (sibling : Sibling setting views state view inner)
    (avoids : (View.renderAll views).Avoids kind setting state) :
    view.render.Avoids kind setting inner := by
  induction sibling with
  | here view rest state => exact avoids.first
  | later rendered _ inductionHypothesis =>
      exact inductionHypothesis (avoids.next rendered).first

/-- No render inside of one that avoids a kind of faults ends with a fault of the kind. -/
theorem Inner.avoids {outer inner : Stage} (step : Inner outer inner) (stable : Fault.Stable kind)
    (avoids : outer.task.render.Avoids kind outer.setting outer.state) :
    inner.task.render.Avoids kind inner.setting inner.state := by
  cases step with
  | child sibling => exact sibling.avoids avoids
  | element => exact avoids.first
  | @body condition setting state negated body otherwise writable =>
      cases otherwise with
      | none => exact ((avoids.within stable).conditional writable).first.collectBranch
      | some view => exact ((avoids.within stable).conditional writable).first.collectBranch
  | otherwise negated view writable rendered =>
      exact (avoids.within stable).alternative writable rendered rfl
  | left negated writable rendered =>
      exact ((avoids.within stable).alternative writable rendered rfl).ofBranch
  | loop source body fresh => exact ((avoids.within stable).next fresh).first
  | switch attributes children seen => exact ((avoids.within stable).next seen).element
  | route children inside added selected =>
      exact (avoids.within stable).route inside added selected
  | dataRoute body inside added selected required =>
      exact ((avoids.within stable).route inside added selected).next required
  | link => exact (avoids.within stable).reading.next rfl |>.element
  | shellBody => exact (avoids.within stable).first.collectMetaTags.element
  | @shellHead setting state after morph children collected head rendered =>
      obtain ⟨body, tags⟩ := collected
      have later := (((avoids.within stable).next rendered).first.within stable).element.first
      exact later.first
  | head => exact (avoids.within stable).element.first
  | template => exact (avoids.within stable).reading.first.first.inDocument
  | fallback view compiled recorded =>
      exact (((avoids.within stable).reading.next compiled).next recorded).element
  | form action refresh attributes children alone fresh =>
      exact (((avoids.within stable).requireNoForm alone).next fresh).element
  | submit state attributes children inside same =>
      exact (avoids.within stable).submit inside same
  | hidden action refresh formAttributes attributes hidden children alone fresh =>
      exact (((avoids.within stable).requireNoForm alone).next fresh).reading.element.first
  | button action refresh formAttributes attributes children alone fresh rendered =>
      exact ((((avoids.within stable).requireNoForm alone).next fresh).reading.element.next
        rendered).first.element
  | component => exact avoids.within stable
  | output => exact avoids
  | readScope => exact avoids
  | ask next replied => exact avoids.next replied
  | rendering => exact avoids.first
  | rendered next rendered => exact avoids.next rendered

end Stage

/-! ## Values -/

/-- A render that avoids all faults ends with a value. -/
theorem Render.ends_iff_avoids {α : Type} {render : Render α} {setting : Setting} {state : State} :
    render.Ends setting state ↔ render.Avoids (fun _ => True) setting state := by
  rcases outcome : render setting state with ⟨fault | value, final⟩
  · simp [Ends, Avoids, outcome]
  · simp [Ends, Avoids, outcome]

theorem Render.Ends.within {α : Type} {component : String} {render : Render α} {setting : Setting}
    {state : State} (ends : (Render.within component render).Ends setting state) :
    render.Ends setting state :=
  ends_iff_avoids.mpr ((ends_iff_avoids.mp ends).within fun _ _ _ => trivial)

namespace Render.Ends

variable {α β : Type} {setting : Setting} {state after : State}

theorem not_failed {render : Render α} {fault : Fault} (ends : render.Ends setting state)
    (failed : render setting state = (.error fault, after)) : False := by
  obtain ⟨value, final, ended⟩ := ends
  cases (Prod.mk.inj (ended.symm.trans failed)).1

theorem value (result : α) : (pure result : Render α).Ends setting state :=
  ⟨result, state, rfl⟩

theorem bind {first : Render α} {next : α → Render β} {value : α}
    (rendered : first setting state = (.ok value, after)) (ends : (next value).Ends setting after) :
    (first >>= next).Ends setting state := by
  obtain ⟨result, final, ended⟩ := ends
  exact ⟨result, final, (bind_of_ok rendered).trans ended⟩

/-- What comes last only makes a value. -/
theorem last {first : Render α} {result : α → β} (ends : first.Ends setting state) :
    (first >>= fun value => pure (result value)).Ends setting state := by
  obtain ⟨value, after, rendered⟩ := ends
  exact .bind rendered (.value _)

theorem reading {next : Setting → Render α} (ends : (next setting).Ends setting state) :
    (Render.setting >>= next).Ends setting state :=
  ends

theorem element {tag : String} {attributes : Attributes} {content : Render String}
    (ends : content.Ends setting state) :
    (Render.element tag attributes content).Ends setting state :=
  ends.last

theorem labelled {component : String} {render : Render α} (ends : render.Ends setting state) :
    (Render.within component render).Ends setting state := by
  obtain ⟨value, after, rendered⟩ := ends
  exact ⟨value, after, by simp only [Render.within, rendered]⟩

theorem collectBranch {render : Render α}
    (ends : render.Ends { setting with scope := setting.scope.inConditional }
      { state with branch := none }) : (Render.collectBranch render).Ends setting state := by
  obtain ⟨value, inner, rendered⟩ := ends
  exact ⟨(value, inner.branch), _, collectBranch_of_ok rendered⟩

theorem ofBranch {render : Render String} (ends : render.Ends setting (.ofLedger state.ledger)) :
    (Render.ofBranch render.toBranch).Ends setting state := by
  obtain ⟨text, final, rendered⟩ := ends
  exact ⟨text, { state with ledger := final.ledger },
    by simp only [Render.ofBranch, Render.toBranch, rendered]⟩

theorem collectMetaTags {render : Render α}
    (ends : render.Ends { setting with scope := setting.scope.inShell }
      { state with ledger := { state.ledger with metaTags := [] } }) :
    (Render.collectMetaTags render).Ends setting state := by
  obtain ⟨value, inner, rendered⟩ := ends
  refine ⟨(value, inner.ledger.metaTags), _, Prod.ext ?_ rfl⟩
  simp only [Render.collectMetaTags, Render.inScope, rendered]

theorem inDocument {numbering : Numbering} {render : Render α}
    (ends : render.Ends { setting with scope := setting.scope.detached }
      { state with ledger := { state.ledger with numbering } }) :
    (Render.inDocument numbering render).Ends setting state := by
  obtain ⟨value, inner, rendered⟩ := ends
  refine ⟨value, _, Prod.ext ?_ rfl⟩
  simp only [Render.inDocument, Render.inScope, rendered]

theorem route {path title container : String} {content : Render String}
    (inside : setting.scope.container = some container)
    (added : Render.addRoute { path := setting.scope.current.extend path, title, container }
      setting state = (.ok (), after))
    (selected : setting.scope.selects path = true)
    (ends : content.Ends { setting with scope := setting.scope.enter path } after) :
    (Render.route path title content).Ends setting state := by
  unfold Render.route
  refine .reading ?_
  simp only [inside]
  refine .bind added ?_
  rw [if_pos selected]
  exact ends

/-- A conditional ends with its alternative, be it given or left in the body. -/
theorem alternative {condition : Expr} {negated : Bool} {body chosen : Render String}
    {otherwise : Option (Render String)} {left : Option Branch} {text : String}
    (writable : condition.defect? = none)
    (rendered : Render.collectBranch body setting state = (.ok (text, left), after))
    (choice : chooseAlternative otherwise left = pure (some chosen))
    (ends : chosen.Ends { setting with scope := setting.scope.outsideConditional } after) :
    (Render.conditional condition negated body otherwise).Ends setting state := by
  rw [conditional_of_writable writable]
  refine .bind rendered ?_
  simp only [choice, value_bind]
  have shown : (alternativeText (some chosen)).Ends setting after := .last ends
  exact shown.last

theorem submit {action : Action} {attributes : Attributes} {children : Render String}
    {form : OpenForm} (inside : setting.scope.form = some form)
    (same : form.action = action.identity) (ends : children.Ends setting state) :
    (Render.submit action attributes children).Ends setting state := by
  unfold Render.submit
  refine .reading ?_
  simp only [inside, same, if_true]
  exact ends.element

/-- A shell ends with its head. -/
theorem shell {morph : Bool} {headContent children : Render String}
    {collected : String × List Attributes}
    (rendered : Render.collectMetaTags (Render.element "body" (bodyAttributes morph) children)
      setting state = (.ok collected, after))
    (ends : headContent.Ends setting after) :
    (Render.shell morph headContent children).Ends setting state := by
  obtain ⟨body, tags⟩ := collected
  have tagged : (withMetaTags tags headContent).Ends setting after := ends.last
  have shown : (construct .head (head (withMetaTags tags headContent))).Ends setting after :=
    tagged.last.element.labelled
  exact .bind rendered shown.last

theorem quickButton {action : Action} {refresh : Refresh} {formAttributes attributes : Attributes}
    {hidden children : Render String} {id inputs : String} {later : State}
    (alone : setting.scope.form = none)
    (fresh : Render.nextFormId setting state = (.ok id, after))
    (rendered : hidden setting after = (.ok inputs, later)) (ends : children.Ends setting later) :
    (Render.quickButton action refresh formAttributes hidden attributes children).Ends setting
      state := by
  refine .bind (requireNoForm_of_alone .quickButton alone state) (.bind fresh (.reading ?_))
  refine .element (.bind rendered ?_)
  exact ends.element.last

end Render.Ends

namespace Stage

/-- A render that one inside of it keeps from ending with a value does not end with one. -/
theorem Inner.ends {outer inner : Stage} (step : Inner outer inner)
    (ends : outer.task.render.Ends outer.setting outer.state) :
    inner.task.render.Ends inner.setting inner.state :=
  Render.ends_iff_avoids.mpr
    (step.avoids (fun _ _ _ => trivial) (Render.ends_iff_avoids.mp ends))

/-! ## Faults -/

/-- A fault that is attributed to a component stays the same up to the outside. -/
theorem Inner.fails {outer inner : Stage} {component : String} {source : Fault}
    (step : Inner outer inner) (failed : inner.outcome.1 = .error (.within component source)) :
    outer.outcome.1 = .error (.within component source) := by
  by_contra otherwise
  have avoids : outer.task.render.Avoids (· = .within component source) outer.setting
      outer.state := by
    rintro fault final outcome rfl
    exact otherwise (congrArg Prod.fst outcome)
  have stable : Fault.Stable (· = .within component source) := by
    rintro label fault rfl
    rfl
  exact step.avoids stable avoids _ _ (Prod.ext failed rfl) rfl

end Stage

end Sitewright

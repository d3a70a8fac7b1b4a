import Sitewright.Proofs.Render.Selection
import Sitewright.Proofs.Render.Success

/-!
Contract: what is rendered of a plain view, depending on the path that is selected.

A plain view is markup with routers, routes and links. The path selected decides which
routes are entered, and nothing else decides what is rendered: if something is rendered
while one path is selected, it is rendered while another one is selected if and only if
that one lies within the current path.

Owns:
- `View.IsPlain`, `Stage.Runs` and what passes to all renders in the course of a run;
- `Stage.Twin` and `Stage.Runs.twin_iff`: what two runs of a view have in common;
- `Stage.Enters`, and the router and the route that are nearest around a render;
- where the text of a render stands in that of the whole.

Does not own: the routes that are registered.
-/

namespace Sitewright

open Markup Routing Relation

/-- Markup, routers, routes and links. -/
inductive View.IsPlain : View → Prop where
  | blank : IsPlain .blank
  | text (content : String) : IsPlain (.text content)
  | raw (content : String) : IsPlain (.raw content)
  | group {children : List View} (inside : ∀ child ∈ children, IsPlain child) :
      IsPlain (.group children)
  | element (tag : String) (attributes : Attributes) {children : List View}
      (inside : ∀ child ∈ children, IsPlain child) : IsPlain (.element tag attributes children)
  | switch (id : String) (attributes : Attributes) {children : List View}
      (inside : ∀ child ∈ children, IsPlain child) : IsPlain (.switch id attributes children)
  | route (path title : String) {children : List View}
      (inside : ∀ child ∈ children, IsPlain child) : IsPlain (.route path title children)
  | link (target : String) (locale : Option String) (attributes : Attributes)
      {children : List View} (inside : ∀ child ∈ children, IsPlain child) :
      IsPlain (.link target locale attributes children)

theorem View.IsPlain.ofText (content : String) :
    ∀ child ∈ [View.text content], child.IsPlain :=
  List.forall_mem_singleton.mpr (.text content)

theorem Scope.named_of_selects {scope : Scope} {route : String}
    (selects : scope.selects route = true) : 1 ≤ (Path.ofText route).length := by
  unfold Scope.selects at selects
  rw [Bool.and_eq_true, Bool.not_eq_true', List.isEmpty_eq_false_iff] at selects
  exact List.length_pos_iff.mpr selects.1

/-- A link is an element with the container that the ledger has for it. -/
theorem Render.link_eq_element (target : String) (locale : Option String) (attributes : Attributes)
    (children : Render String) (setting : Setting) (state : State) :
    Render.link target locale attributes children setting state =
      Render.element "a" (Render.linkAttributes target
        (state.ledger.routes.containerOf (linkTarget (Path.ofText target) setting.scope.current))
        locale attributes) children setting state := by
  unfold Render.link
  rw [Render.setting_bind]
  exact Render.bind_of_ok rfl

namespace Stage

/-! ## Runs -/

/-- A plain view is rendered under a selected path, and the render ends with a text. -/
structure Runs (selected : Path) (stage : Stage) : Prop where
  plain : ∃ view, stage.task = .view view ∧ view.IsPlain
  reached : stage.setting.scope.Reached selected
  ends : stage.task.render.Ends stage.setting stage.state

variable {selected : Path} {start outer inner stage : Stage}

theorem Inner.plain (step : Inner outer inner)
    (plain : ∃ view, outer.task = .view view ∧ view.IsPlain) :
    ∃ view, inner.task = .view view ∧ view.IsPlain := by
  obtain ⟨view, shown, isPlain⟩ := plain
  cases step <;> simp only [Task.view.injEq, reduceCtorEq] at shown
  all_goals
    subst shown
    cases isPlain
  case child.group sibling inside => exact ⟨_, rfl, inside _ sibling.mem⟩
  all_goals
    next inside => exact ⟨_, rfl, .group inside⟩

/-- What a run starts runs under the same path. -/
theorem Runs.step (runs : outer.Runs selected) (step : Inner outer inner) :
    inner.Runs selected where
  plain := step.plain runs.plain
  reached := by
    refine runs.reached.moves (step.moves fun steps view next asked => ?_)
    obtain ⟨shown, isView, -⟩ := runs.plain
    rw [isView] at asked
    cases asked
  ends := step.ends runs.ends

theorem Runs.course (runs : start.Runs selected) (course : ReflTransGen Inner start stage) :
    stage.Runs selected := by
  induction course with
  | refl => exact runs
  | tail _ step inductionHypothesis => exact inductionHypothesis.step step

/-- A run is where the selected path leads. -/
theorem Runs.within (runs : stage.Runs selected) :
    selected.isWithin stage.setting.scope.current = true :=
  runs.reached.tracks.within

/-- Plain views change two things for what they start: a router the container, and a route the
current path. -/
inductive Inner.Change (outer inner : Stage) : Prop where
  | none (current : inner.setting.scope.current = outer.setting.scope.current)
      (container : inner.setting.scope.container = outer.setting.scope.container)
  | router {id : String} {attributes : Attributes} {children : List View}
      (shown : outer.task = .view (.switch id attributes children))
      (current : inner.setting.scope.current = outer.setting.scope.current)
      (container : inner.setting.scope.container = some id)
  | route {path title : String} {children : List View}
      (shown : outer.task = .view (.route path title children))
      (current : inner.setting.scope.current = outer.setting.scope.current.extend path)
      (container : inner.setting.scope.container = outer.setting.scope.container)

theorem Runs.change (runs : outer.Runs selected) (step : Inner outer inner) :
    Inner.Change outer inner := by
  obtain ⟨view, shown, isPlain⟩ := runs.plain
  cases step <;> simp only [Task.view.injEq, reduceCtorEq] at shown
  all_goals
    subst shown
    cases isPlain
  case child.group | element.element | link.link => exact .none rfl rfl
  case switch.switch => exact .router rfl rfl rfl
  case route.route => exact .route rfl rfl rfl

theorem Runs.current_begins_step (runs : outer.Runs selected) (step : Inner outer inner) :
    outer.setting.scope.current.segments <+: inner.setting.scope.current.segments := by
  cases runs.change step with
  | none current | router shown current => exact ⟨[], by rw [current, List.append_nil]⟩
  | route shown current => exact ⟨_, by rw [current, Path.segments_extend]⟩

/-- The current path only gets longer. -/
theorem Runs.current_begins (runs : start.Runs selected)
    (course : ReflTransGen Inner start stage) :
    start.setting.scope.current.segments <+: stage.setting.scope.current.segments := by
  induction course with
  | refl => exact List.prefix_refl _
  | tail before step inductionHypothesis =>
      exact inductionHypothesis.trans ((runs.course before).current_begins_step step)

/-! ## Two runs of one view -/

/-- The same task at the same place. -/
structure Twin (stage other : Stage) : Prop where
  task : other.task = stage.task
  current : other.setting.scope.current = stage.setting.scope.current
  container : other.setting.scope.container = stage.setting.scope.container

variable {other : Stage}

/-- Each of several views that are rendered to a text has its turn. -/
theorem Sibling.exists_of_mem {setting : Setting} {views : List View} {view : View} {state : State}
    (member : view ∈ views) (ends : (View.renderAll views).Ends setting state) :
    ∃ inner, Sibling setting views state view inner := by
  induction views generalizing state with
  | nil => cases member
  | cons first rest inductionHypothesis =>
      obtain ⟨text, final, outcome⟩ := ends
      obtain ⟨early, after, rendered, later⟩ := Render.ok_of_bind outcome
      rcases List.mem_cons.mp member with rfl | behind
      · exact ⟨state, .here view rest state⟩
      · obtain ⟨others, final, restRendered, -⟩ := Render.ok_of_bind later
        obtain ⟨inner, sibling⟩ := inductionHypothesis behind ⟨others, final, restRendered⟩
        exact ⟨inner, .later rendered sibling⟩

/-- What a run starts, its twin starts, unless a route is not selected there. -/
theorem Runs.twin_step {path : Path} (runs : outer.Runs selected) (otherRuns : other.Runs path)
    (twin : outer.Twin other) (step : Inner outer inner)
    (leads : path.isWithin inner.setting.scope.current = true) :
    ∃ twinInner, Inner other twinInner ∧ inner.Twin twinInner := by
  obtain ⟨view, shown, isPlain⟩ := runs.plain
  have tracks := otherRuns.reached.tracks
  have ends := otherRuns.ends
  obtain ⟨task, setting, state⟩ := other
  obtain ⟨rfl, current, container⟩ := twin
  cases step <;> simp only [Task.view.injEq, reduceCtorEq] at shown
  all_goals
    subst shown
    cases isPlain
  case child.group sibling inside =>
    obtain ⟨turn, twinSibling⟩ := Sibling.exists_of_mem sibling.mem ends
    exact ⟨_, .child twinSibling, rfl, current, container⟩
  case element.element tag attributes children inside =>
    exact ⟨_, .element setting state tag attributes children, rfl, current, container⟩
  case switch.switch attributes children seen inside =>
    exact ⟨_, .switch attributes children rfl, rfl, current, rfl⟩
  case route.route before _ _ route _ _ children around added isSelected inside =>
    have named := ((runs.reached.tracks.selects_iff route).mp isSelected).1
    have selects : setting.scope.selects route = true := by
      refine (tracks.selects_iff route).mpr ⟨named, ?_⟩
      rw [current]
      exact leads
    have entered : setting.scope.current.extend route = before.scope.current.extend route := by
      rw [current]
    exact ⟨_, .route children (container.trans around) rfl selects, rfl, entered, container⟩
  case link.link target locale attributes children inside =>
    exact ⟨_, .link setting state target locale attributes children, rfl, current, container⟩

/-- What is met in one run has a twin in another run of the same view if and only if the path
selected there leads to it. -/
theorem Runs.twin_iff {path : Path} (runs : start.Runs selected) (otherRuns : other.Runs path)
    (twin : start.Twin other) (course : ReflTransGen Inner start stage) :
    (∃ twinStage, ReflTransGen Inner other twinStage ∧ stage.Twin twinStage) ↔
      path.isWithin stage.setting.scope.current = true := by
  constructor
  · rintro ⟨twinStage, twinCourse, met⟩
    rw [← met.current]
    exact (otherRuns.course twinCourse).within
  · intro leads
    induction course with
    | refl => exact ⟨other, .refl, twin⟩
    | @tail middle last before step inductionHypothesis =>
        have middleRuns := runs.course before
        have leadsBefore : path.isWithin middle.setting.scope.current = true :=
          Path.isWithin_of_prefix (middleRuns.current_begins_step step) leads
        obtain ⟨twinMiddle, twinCourse, met⟩ := inductionHypothesis leadsBefore
        obtain ⟨twinLast, twinStep, metLast⟩ :=
          middleRuns.twin_step (otherRuns.course twinCourse) met step leads
        exact ⟨twinLast, twinCourse.tail twinStep, metLast⟩

/-! ## Routes entered -/

/-- A route with this full path is rendered, and its content with it. -/
structure Enters (stage content : Stage) (full : Path) : Prop where
  shown : ∃ path title children, stage.task = .view (.route path title children) ∧
    stage.setting.scope.current.extend path = full
  step : Inner stage content

/-- The content of a route is rendered if and only if the route is inside a router and
selected. -/
theorem inner_route_iff {path title : String} {children : List View}
    (shown : stage.task = .view (.route path title children)) :
    (∃ content, Inner stage content) ↔
      (∃ container, stage.setting.scope.container = some container) ∧
        stage.setting.scope.selects path = true := by
  obtain ⟨task, setting, state⟩ := stage
  subst shown
  constructor
  · rintro ⟨content, step⟩
    cases step with
    | route children inside added isSelected => exact ⟨⟨_, inside⟩, isSelected⟩
  · rintro ⟨⟨container, inside⟩, isSelected⟩
    exact ⟨_, .route children inside rfl isSelected⟩

/-- What is entered lies below the root. -/
theorem Enters.ne_root {content : Stage} {full : Path} (enters : stage.Enters content full) :
    full ≠ .root := by
  obtain ⟨path, title, children, shown, rfl⟩ := enters.shown
  obtain ⟨-, selects⟩ := (inner_route_iff shown).mp ⟨content, enters.step⟩
  intro isRoot
  have segments := congrArg Path.length isRoot
  unfold Path.length at segments
  rw [Path.segments_extend, List.length_append] at segments
  have named := Scope.named_of_selects selects
  unfold Path.length at named
  have none : Path.root.segments.length = 0 := rfl
  omega

/-! ## What is around a render -/

/-- Inside of some container there is a router around, the nearest one, which has its id. -/
theorem Runs.router_around (runs : start.Runs selected)
    (outside : start.setting.scope.container = none) (course : ReflTransGen Inner start stage)
    {id : String} (around : stage.setting.scope.container = some id) :
    ∃ router attributes children, ReflTransGen Inner start router ∧
      router.task = .view (.switch id attributes children) ∧
      ReflTransGen Inner router stage := by
  induction course with
  | refl =>
      rw [outside] at around
      cases around
  | tail before step inductionHypothesis =>
      cases (runs.course before).change step with
      | none current container | route shown current container =>
          rw [container] at around
          obtain ⟨router, attributes, children, within, isRouter, rest⟩ :=
            inductionHypothesis around
          exact ⟨router, attributes, children, within, isRouter, rest.tail step⟩
      | router shown current container =>
          rw [container] at around
          obtain rfl := Option.some.inj around
          exact ⟨_, _, _, before, shown, .single step⟩

/-- Below the root there is a route around, which has been entered for the current path. -/
theorem Runs.route_around (runs : start.Runs selected)
    (outermost : start.setting.scope.current = .root) (course : ReflTransGen Inner start stage)
    (below : stage.setting.scope.current ≠ .root) :
    ∃ route content, ReflTransGen Inner start route ∧
      route.Enters content stage.setting.scope.current ∧ ReflTransGen Inner content stage := by
  induction course with
  | refl => exact absurd outermost below
  | tail before step inductionHypothesis =>
      cases (runs.course before).change step with
      | none current container | router shown current container =>
          rw [current] at below ⊢
          obtain ⟨route, content, within, enters, rest⟩ := inductionHypothesis below
          exact ⟨route, content, within, enters, rest.tail step⟩
      | route shown current container =>
          exact ⟨_, _, before, ⟨⟨_, _, _, shown, current.symm⟩, step⟩, .refl⟩

/-! ## Texts -/

theorem exists_elementText (tag : String) (attributes : Attributes) (content : String) :
    ∃ front back, elementText tag attributes content = front ++ content ++ back := by
  unfold elementText
  split
  · next void =>
    have empty : content = "" := by
      rw [Bool.and_eq_true] at void
      exact String.isEmpty_iff.mp void.1
    exact ⟨_, "", by rw [empty, String.append_empty, String.append_empty]⟩
  · exact ⟨"<" ++ tag ++ (if attributes.text.isEmpty then "" else " " ++ attributes.text) ++ ">",
      "</" ++ tag ++ ">", by simp only [String.append_assoc]⟩

/-- The text of one of several views stands in the text of them all. -/
theorem Sibling.text {setting : Setting} {views : List View} {state turn final : State}
    {view : View} {whole : String} (sibling : Sibling setting views state view turn)
    (outcome : View.renderAll views setting state = (.ok whole, final)) :
    ∃ text front back, (view.render setting turn).1 = .ok text ∧
      whole = front ++ text ++ back := by
  induction sibling generalizing whole final with
  | here view rest state =>
      obtain ⟨text, after, rendered, later⟩ := Render.ok_of_bind outcome
      obtain ⟨others, last, -, written⟩ := Render.ok_of_bind later
      have shape : text ++ others = whole := Except.ok.inj (Prod.mk.inj written).1
      exact ⟨text, "", others, congrArg Prod.fst rendered, by rw [String.empty_append, shape]⟩
  | later rendered _ inductionHypothesis =>
      obtain ⟨early, after, began, later⟩ := Render.ok_of_bind outcome
      rw [rendered] at began
      obtain ⟨-, rfl⟩ := Prod.mk.inj began
      obtain ⟨others, last, restRendered, written⟩ := Render.ok_of_bind later
      have shape : early ++ others = whole := Except.ok.inj (Prod.mk.inj written).1
      obtain ⟨text, front, back, ended, inOthers⟩ := inductionHypothesis restRendered
      refine ⟨text, early ++ front, back, ended, ?_⟩
      rw [← shape, inOthers]
      simp only [String.append_assoc]

/-- The text of an element around several views holds the text of the views. -/
theorem text_of_element {tag : String} {attributes : Attributes} {content : Render String}
    {setting : Setting} {state final : State} {whole : String}
    (outcome : Render.element tag attributes content setting state = (.ok whole, final)) :
    ∃ text front back, (content setting state).1 = .ok text ∧ whole = front ++ text ++ back := by
  obtain ⟨text, after, rendered, written⟩ := Render.ok_of_bind outcome
  obtain ⟨front, back, shape⟩ := exists_elementText tag attributes text
  have isElement : elementText tag attributes text = whole :=
    Except.ok.inj (Prod.mk.inj written).1
  exact ⟨text, front, back, congrArg Prod.fst rendered, isElement.symm.trans shape⟩

theorem Runs.text_step (runs : outer.Runs selected) (step : Inner outer inner) {whole : String}
    (ended : outer.outcome.1 = .ok whole) :
    ∃ text front back, inner.outcome.1 = .ok text ∧ whole = front ++ text ++ back := by
  obtain ⟨view, shown, isPlain⟩ := runs.plain
  have outcome : outer.outcome = (.ok whole, outer.outcome.2) := Prod.ext ended rfl
  cases step <;> simp only [Task.view.injEq, reduceCtorEq] at shown
  all_goals
    subst shown
    cases isPlain
  case child.group sibling inside => exact sibling.text outcome
  case element.element => exact text_of_element outcome
  case switch.switch seen inside =>
    obtain ⟨value, after, began, written⟩ := Render.ok_of_bind (Render.ok_of_within outcome)
    rw [seen] at began
    obtain ⟨-, rfl⟩ := Prod.mk.inj began
    exact text_of_element written
  case route.route around added isSelected inside =>
    have routed := Render.ok_of_within outcome
    unfold Render.route at routed
    rw [Render.setting_bind] at routed
    simp only [around] at routed
    rw [Render.bind_of_ok added, if_pos isSelected] at routed
    exact ⟨whole, "", "", congrArg Prod.fst routed, by simp⟩
  case link.link =>
    have linked := Render.ok_of_within outcome
    rw [Render.link_eq_element] at linked
    exact text_of_element linked

/-- The text of what is rendered in the course of a run stands in the text of the run. -/
theorem Runs.text (runs : start.Runs selected) (course : ReflTransGen Inner start stage)
    {whole : String} (ended : start.outcome.1 = .ok whole) :
    ∃ text front back, stage.outcome.1 = .ok text ∧ whole = front ++ text ++ back := by
  induction course with
  | refl => exact ⟨whole, "", "", ended, by simp⟩
  | tail before step inductionHypothesis =>
      obtain ⟨middle, front, back, middleEnded, inWhole⟩ := inductionHypothesis
      obtain ⟨text, innerFront, innerBack, textEnded, inMiddle⟩ :=
        (runs.course before).text_step step middleEnded
      refine ⟨text, front ++ innerFront, innerBack ++ back, textEnded, ?_⟩
      rw [inWhole, inMiddle]
      simp only [String.append_assoc]

end Stage

end Sitewright

import Sitewright.Proofs.Render.Plain

/-!
Contract: which routes the render of a plain view registers.

A search registers the routes that it comes across, whether they are selected or not, and
no others.

Owns:
- `Stage.IsRoute`, the render of a route and the entry that it registers;
- `View.IsPlain.brings`: every new entry is that of a route come across;
- `Stage.IsRoute.known`: every route that a search comes across is known from then on.

Does not own: how many searches there are.
-/

namespace Sitewright

open Markup Routing Relation

/-! ## Routes come across -/

namespace Stage

/-- The render of a route that is registered as the entry. -/
structure IsRoute (stage : Stage) (entry : Entry) : Prop where
  shown : ∃ path children, stage.task = .view (.route path entry.title children) ∧
    stage.setting.scope.current.extend path = entry.path
  container : stage.setting.scope.container = some entry.container

/-- The render comes across a route that is registered as the entry. -/
def Meets (start : Stage) (entry : Entry) : Prop :=
  ∃ stage, ReflTransGen Inner start stage ∧ stage.IsRoute entry

theorem Meets.of_inner {outer inner : Stage} {entry : Entry} (step : Inner outer inner)
    (meets : inner.Meets entry) : outer.Meets entry := by
  obtain ⟨stage, course, isRoute⟩ := meets
  exact ⟨stage, course.head step, isRoute⟩

theorem Twin.isRoute {stage other : Stage} {entry : Entry} (twin : stage.Twin other)
    (isRoute : stage.IsRoute entry) : other.IsRoute entry := by
  obtain ⟨path, children, shown, full⟩ := isRoute.shown
  refine ⟨⟨path, children, twin.task.trans shown, ?_⟩, twin.container.trans isRoute.container⟩
  rw [twin.current, full]

end Stage

/-! ## New entries -/

/-- Registering a route adds no other. -/
theorem Ledger.mem_addRoute {ledger : Ledger} {pass : Pass} {new entry : Entry}
    (member : entry ∈ (ledger.addRoute pass new).routes.entries) :
    entry ∈ ledger.routes.entries ∨ entry = new := by
  unfold Ledger.addRoute at member
  split at member
  · next routes registered =>
    rw [Table.entries_of_add? registered, List.mem_append, List.mem_singleton] at member
    exact member
  · exact Or.inl member

/-- Every entry that is there afterwards was there before, or is one of these. -/
def Render.Brings {α : Type} (entries : Entry → Prop) (render : Render α) (setting : Setting)
    (state : State) : Prop :=
  ∀ entry ∈ (render setting state).2.ledger.routes.entries,
    entry ∈ state.ledger.routes.entries ∨ entries entry

namespace Render.Brings

variable {α β : Type} {entries more : Entry → Prop} {setting : Setting} {state : State}

theorem mono {render : Render α} (brings : render.Brings entries setting state)
    (all : ∀ entry, entries entry → more entry) : render.Brings more setting state :=
  fun entry member => (brings entry member).imp_right (all entry)

/-- A render that leaves the entries alone. -/
theorem quiet {render : Render α}
    (same : (render setting state).2.ledger.routes.entries = state.ledger.routes.entries) :
    render.Brings entries setting state := by
  intro entry member
  rw [same] at member
  exact Or.inl member

theorem bind {first : Render α} {next : α → Render β} (early : first.Brings entries setting state)
    (late : ∀ value after, first setting state = (.ok value, after) →
      (next value).Brings entries setting after) :
    (first >>= next).Brings entries setting state := by
  intro entry member
  rcases outcome : first setting state with ⟨fault | value, after⟩
  · rw [bind_of_error outcome] at member
    apply early entry
    rw [outcome]
    exact member
  · rw [bind_of_ok outcome] at member
    rcases late value after outcome entry member with before | new
    · apply early entry
      rw [outcome]
      exact before
    · exact Or.inr new

theorem within (component : String) {render : Render α}
    (brings : render.Brings entries setting state) :
    (Render.within component render).Brings entries setting state := by
  intro entry member
  rw [state_within] at member
  exact brings entry member

theorem element (tag : String) (attributes : Markup.Attributes) {content : Render String}
    (brings : content.Brings entries setting state) :
    (Render.element tag attributes content).Brings entries setting state :=
  bind brings fun _ _ _ => quiet rfl

theorem renderAll {views : List View}
    (each : ∀ view turn, Stage.Sibling setting views state view turn →
      view.render.Brings entries setting turn) :
    (View.renderAll views).Brings entries setting state := by
  induction views generalizing state with
  | nil => exact quiet rfl
  | cons first rest inductionHypothesis =>
      refine bind (each first state (.here first rest state)) fun text after rendered => ?_
      have behind : (View.renderAll rest).Brings entries setting after := by
        apply inductionHypothesis
        intro view turn sibling
        exact each view turn (.later rendered sibling)
      exact bind behind fun _ _ _ => quiet rfl

theorem switch {id : String} (attributes : Attributes) {content : Render String}
    (inside : ∀ after, seeContainer id setting state = (.ok (), after) →
      content.Brings entries { setting with scope := setting.scope.inRouter id } after) :
    (Render.switch id attributes content).Brings entries setting state := by
  have seen : (seeContainer id setting state).2.ledger.routes.entries =
      state.ledger.routes.entries := by
    show (state.ledger.seeContainer setting.pass id).routes.entries = _
    cases setting.pass with
    | search => exact Table.entries_seeContainer state.ledger.routes id
    | build => rfl
  apply bind (quiet seen)
  intro value after outcome
  have router := (inside after outcome).element "div" (switchAttributes id attributes)
  exact router

/-- A route brings its own entry, if it is inside of a router, and what its content brings. -/
theorem route {path title : String} {content : Render String}
    (own : ∀ container, setting.scope.container = some container →
      entries ⟨setting.scope.current.extend path, title, container⟩)
    (inside : ∀ container after, setting.scope.container = some container →
      addRoute ⟨setting.scope.current.extend path, title, container⟩ setting state =
        (.ok (), after) →
      setting.scope.selects path = true →
        content.Brings entries { setting with scope := setting.scope.enter path } after) :
    (Render.route path title content).Brings entries setting state := by
  cases around : setting.scope.container with
  | none =>
      apply quiet
      unfold Render.route
      rw [setting_bind]
      simp only [around]
      rfl
  | some container =>
      intro entry member
      rw [route_of_container around] at member
      have registered : ∀ other ∈ (state.ledger.addRoute setting.pass
          ⟨setting.scope.current.extend path, title, container⟩).routes.entries,
          other ∈ state.ledger.routes.entries ∨ entries other := by
        intro other known
        rcases Ledger.mem_addRoute known with old | rfl
        · exact Or.inl old
        · exact Or.inr (own container around)
      by_cases selected : setting.scope.selects path = true
      · simp only [if_pos selected] at member
        rcases inside container _ around rfl selected entry member with known | below
        · exact registered entry known
        · exact Or.inr below
      · simp only [if_neg selected] at member
        exact registered entry member

theorem link {target : String} {locale : Option String} {attributes : Attributes}
    {content : Render String} (inside : content.Brings entries setting state) :
    (Render.link target locale attributes content).Brings entries setting state := by
  intro entry member
  rw [link_eq_element] at member
  exact inside.element "a" _ entry member

end Render.Brings

/-- The routes that the render of a plain view adds are those that it comes across. -/
theorem View.IsPlain.brings {view : View} (plain : view.IsPlain) (setting : Setting)
    (state : State) :
    view.render.Brings (Stage.Meets ⟨.view view, setting, state⟩) setting state := by
  -- What children bring, the group of them brings.
  have together : ∀ {children : List View},
      (∀ child ∈ children, ∀ setting state,
        child.render.Brings (Stage.Meets ⟨.view child, setting, state⟩) setting state) →
      ∀ setting state, (View.renderAll children).Brings
        (Stage.Meets ⟨.view (.group children), setting, state⟩) setting state := by
    intro children each setting state
    refine .renderAll fun child turn sibling => ?_
    exact (each child sibling.mem setting turn).mono fun entry meets =>
      meets.of_inner (.child sibling)
  induction plain generalizing setting state with
  | blank | text | raw => exact .quiet rfl
  | group inside inductionHypothesis => exact together inductionHypothesis setting state
  | element tag attributes inside inductionHypothesis =>
      have content := (together inductionHypothesis setting state).mono fun entry meets =>
        meets.of_inner (.element setting state tag attributes _)
      exact .element tag attributes content
  | switch id attributes inside inductionHypothesis =>
      refine .within _ (.switch attributes fun after seen => ?_)
      exact (together inductionHypothesis _ after).mono fun entry meets =>
        meets.of_inner (.switch attributes _ seen)
  | @route path title children inside inductionHypothesis =>
      refine .within _ (.route (fun container around => ?_) ?_)
      · exact ⟨_, .refl, ⟨path, children, rfl, rfl⟩, around⟩
      · intro container after around added selected
        exact (together inductionHypothesis _ after).mono fun entry meets =>
          meets.of_inner (.route children around added selected)
  | link target locale attributes inside inductionHypothesis =>
      have content := (together inductionHypothesis setting state).mono fun entry meets =>
        meets.of_inner (.link setting state target locale attributes _)
      exact .within _ content.link

/-! ## Entries known -/

/-- A search knows a route once it is registered. -/
theorem Ledger.has_addRoute (ledger : Ledger) (entry : Entry) :
    (ledger.addRoute .search entry).routes.has entry.path = true := by
  unfold Ledger.addRoute
  cases registered : ledger.routes.add? entry with
  | none =>
      unfold Table.add? at registered
      split at registered
      · assumption
      · cases registered
  | some routes =>
      rw [Table.entries_of_add? registered, Table.has_iff]
      exact ⟨entry, List.mem_append_right _ List.mem_cons_self, Path.matchesPath_self entry.path⟩

/-- What is known stays known. -/
theorem Ledger.Adds.has {before after : Ledger} (adds : before.Adds after) {path : Path}
    (known : before.routes.has path = true) : after.routes.has path = true := by
  obtain ⟨added, entries, -⟩ := adds
  rw [Table.has_iff] at known ⊢
  obtain ⟨entry, member, matching⟩ := known
  exact ⟨entry, entries ▸ List.mem_append_left added member, matching⟩

/-- Once a search has come across a route, a route that matches it is known. -/
theorem Stage.IsRoute.known {stage : Stage} {entry : Entry} (isRoute : stage.IsRoute entry)
    (search : stage.setting.pass = .search) (waits : stage.state.Stepwise True) :
    stage.outcome.2.ledger.routes.has entry.path = true := by
  obtain ⟨path, children, shown, full⟩ := isRoute.shown
  have around := isRoute.container
  obtain ⟨task, setting, state⟩ := stage
  subst shown
  have registered : (state.ledger.addRoute setting.pass entry).routes.has entry.path = true := by
    rw [show setting.pass = .search from search]
    exact state.ledger.has_addRoute entry
  have routed := Render.route_of_container around path entry.title (View.renderAll children) state
  rw [full] at routed
  show (Render.construct .route (Render.route path entry.title (View.renderAll children))
    setting state).2.ledger.routes.has entry.path = true
  rw [Render.construct, Render.state_within, routed]
  dsimp only
  split
  · let later : State := { state with ledger := state.ledger.addRoute setting.pass entry }
    have laterWaits : later.Stepwise True := waits
    exact (View.renderAll_stepwise children _ later laterWaits).1.adds.has registered
  · exact registered

end Sitewright

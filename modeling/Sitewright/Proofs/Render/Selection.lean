import Sitewright.Proofs.Render.Stage
import Sitewright.Proofs.Routing.Matching

/-!
Contract: the selection of a page is consumed from the front, segment by segment, and
what was consumed matches the current path.

Owns:
- `Scope.Move`, the changes of scope that constructs make, and `Scope.Reached`, the
  scopes that come about from a selected path by such changes;
- `Scope.Tracks`, the invariant between the current path and the rest of the selection;
- when a scope selects a route, and what a route writes then;
- the scopes of all renders in the course of a render.

Does not own: which routes are registered.
-/

namespace Sitewright

open Routing Relation

namespace Scope

/-! ## Scopes of a selected path -/

/-- A change of scope that a construct makes around its parts. A route is entered only
where it is selected. -/
inductive Move : Scope → Scope → Prop where
  | inRouter (scope : Scope) (container : String) : Move scope (scope.inRouter container)
  | inConditional (scope : Scope) : Move scope scope.inConditional
  | outsideConditional (scope : Scope) : Move scope scope.outsideConditional
  | inForm (scope : Scope) (form : OpenForm) : Move scope (scope.inForm form)
  | inShell (scope : Scope) : Move scope scope.inShell
  | detached (scope : Scope) : Move scope scope.detached
  | enter {scope : Scope} {route : String} (selected : scope.selects route = true) :
      Move scope (scope.enter route)

/-- A scope that comes about from a selected path, be it probed or built as a page. -/
inductive Reached (selected : Path) : Scope → Prop where
  | probe : Reached selected (.probe selected)
  | page (title : String) : Reached selected (.page selected title)
  | move {before after : Scope} (reached : Reached selected before) (move : Move before after) :
      Reached selected after

/-- The current path matches the front of the selected path, and the segments behind it
are those that are left. -/
structure Tracks (selected : Path) (scope : Scope) : Prop where
  lengths : scope.current.length + scope.selected.length = selected.length
  rest : scope.selected = selected.segments.drop scope.current.length
  consumed : (selected.take scope.current.length).matchesPath scope.current = true

namespace Tracks

variable {selected : Path} {before after : Scope}

/-- At the outside nothing is consumed. -/
theorem start (current : after.current = .root) (whole : after.selected = selected.segments) :
    after.Tracks selected := by
  refine ⟨?_, ?_, ?_⟩
  · rw [current, whole, Path.length_root, Nat.zero_add]
    rfl
  · rw [current, whole, Path.length_root, List.drop_zero]
  · rw [current]
    rfl

/-- A change of scope that leaves the current path and the selection alone. -/
theorem congr (tracks : before.Tracks selected) (current : after.current = before.current)
    (rest : after.selected = before.selected) : after.Tracks selected := by
  refine ⟨?_, ?_, ?_⟩
  · rw [current, rest]
    exact tracks.lengths
  · rw [current, rest]
    exact tracks.rest
  · rw [current]
    exact tracks.consumed

theorem within (tracks : before.Tracks selected) : selected.isWithin before.current = true :=
  Path.isWithin_iff_take.mpr tracks.consumed

/-- The segments of a route match what is left if and only if the path down to the route
matches the front of the selected path. -/
theorem matchesInitially_iff (tracks : before.Tracks selected) (route : String) :
    Path.matchesInitially (Path.ofText route).segments before.selected = true ↔
      selected.isWithin (before.current.extend route) = true := by
  have above : Path.matchesInitially before.current.segments selected.segments = true :=
    tracks.within
  have cut := Path.matchesInitially_append before.current.segments (Path.ofText route).segments
    selected.segments
  rw [above, Bool.true_and] at cut
  unfold Path.isWithin
  rw [Path.segments_extend, cut, tracks.rest]
  rfl

/-- A scope selects the routes that have a segment and whose full path the selected path
lies within. -/
theorem selects_iff (tracks : before.Tracks selected) (route : String) :
    before.selects route = true ↔
      1 ≤ (Path.ofText route).length ∧
        selected.isWithin (before.current.extend route) = true := by
  have nonempty : (!(Path.ofText route).segments.isEmpty) = true ↔
      1 ≤ (Path.ofText route).length := by
    unfold Path.length
    cases (Path.ofText route).segments with
    | nil => simp
    | cons head tail => simp
  unfold selects
  rw [Bool.and_eq_true, nonempty, tracks.matchesInitially_iff]

theorem enter (tracks : before.Tracks selected) {route : String}
    (isSelected : before.selects route = true) : (before.enter route).Tracks selected := by
  obtain ⟨-, inside⟩ := (tracks.selects_iff route).mp isSelected
  have enough := Path.length_le_of_matchesInitially ((tracks.matchesInitially_iff route).mpr inside)
  have depth : (before.enter route).current.length =
      before.current.length + (Path.ofText route).length := by
    unfold Path.length Scope.enter
    rw [Path.segments_extend, List.length_append]
  have left : (before.enter route).selected = before.selected.drop (Path.ofText route).length :=
    rfl
  refine ⟨?_, ?_, Path.isWithin_iff_take.mp inside⟩
  · have total := tracks.lengths
    have known : (Path.ofText route).length ≤ before.selected.length := enough
    rw [depth, left, List.length_drop]
    omega
  · rw [left, depth, tracks.rest, List.drop_drop]

theorem move (tracks : before.Tracks selected) (move : Move before after) :
    after.Tracks selected := by
  cases move with
  | inRouter | inConditional | outsideConditional | inForm | inShell | detached =>
      exact tracks.congr rfl rfl
  | enter isSelected => exact tracks.enter isSelected

end Tracks

theorem Reached.tracks {selected : Path} {scope : Scope} (reached : scope.Reached selected) :
    scope.Tracks selected := by
  induction reached with
  | probe => exact .start rfl rfl
  | page title => exact .start rfl rfl
  | move _ move inductionHypothesis => exact inductionHypothesis.move move

theorem Reached.moves {selected : Path} {before after : Scope} (reached : before.Reached selected)
    (moves : ReflTransGen Move before after) : after.Reached selected := by
  induction moves with
  | refl => exact reached
  | tail _ move inductionHypothesis => exact inductionHypothesis.move move

end Scope

/-! ## Scopes in the course of a render -/

namespace Stage

/-- A render that takes place in the course of another one. Where a component changes the
scope of a view that it renders, it does so by the changes that constructs make. -/
inductive Within (start : Stage) : Stage → Prop where
  | start : Within start start
  | inner {outer inner : Stage} (within : Within start outer) (step : Inner outer inner)
      (kept : ∀ steps view next, outer.task = .program (.render steps view next) →
        ReflTransGen Scope.Move outer.setting.scope (outer.setting.scope.steps steps)) :
      Within start inner

/-- What is rendered inside a construct is rendered in the scope that the construct makes. -/
theorem Inner.moves {outer inner : Stage} (step : Inner outer inner)
    (kept : ∀ steps view next, outer.task = .program (.render steps view next) →
      ReflTransGen Scope.Move outer.setting.scope (outer.setting.scope.steps steps)) :
    ReflTransGen Scope.Move outer.setting.scope inner.setting.scope := by
  cases step with
  | child | element | loop | link | shellHead | head | fallback | submit | hidden | button
  | component | output | readScope | ask | rendered => exact .refl
  | body setting => exact .single (.inConditional setting.scope)
  | @otherwise _ setting => exact .single (.outsideConditional setting.scope)
  | @left _ setting => exact .single (.outsideConditional setting.scope)
  | @switch setting _ _ id => exact .single (.inRouter setting.scope id)
  | route _ _ _ selected => exact .single (.enter selected)
  | dataRoute _ _ _ selected => exact .single (.enter selected)
  | shellBody setting => exact .single (.inShell setting.scope)
  | template setting => exact .single (.detached setting.scope)
  | @form setting _ _ id action refresh =>
      exact .single (.inForm setting.scope (Render.openForm action refresh id))
  | rendering setting state steps view next => exact kept steps view next rfl

theorem Within.reached {start stage : Stage} {selected : Path} (within : Within start stage)
    (reached : start.setting.scope.Reached selected) :
    stage.setting.scope.Reached selected := by
  induction within with
  | start => exact reached
  | inner _ step kept inductionHypothesis => exact inductionHypothesis.moves (step.moves kept)

end Stage

/-! ## Routes -/

/-- The path, the title and the content of a route, be it with or without a resource. -/
def View.routeParts? : View → Option (String × String × Render String)
  | .route path title children => some (path, title, View.renderAll children)
  | .dataRoute path title resource body =>
      some (path, title, Render.withResource resource fun source => (body source).render)
  | _ => none

theorem View.render_of_routeParts {view : View} {path title : String} {content : Render String}
    (parts : view.routeParts? = some (path, title, content)) :
    view.render = Render.construct .route (Render.route path title content) := by
  cases view
  case route =>
    simp only [View.routeParts?, Option.some.injEq, Prod.mk.injEq] at parts
    obtain ⟨rfl, rfl, rfl⟩ := parts
    rw [View.render]
  case dataRoute =>
    simp only [View.routeParts?, Option.some.injEq, Prod.mk.injEq] at parts
    obtain ⟨rfl, rfl, rfl⟩ := parts
    rw [View.render]
  all_goals cases parts

/-- A route inside a router is registered, and its content is rendered if the scope
selects it. -/
theorem Render.route_of_container {setting : Setting} {container : String}
    (inside : setting.scope.container = some container) (path title : String)
    (content : Render String) (state : State) :
    Render.route path title content setting state =
      let entry : Entry := { path := setting.scope.current.extend path, title, container }
      let registered : State := { state with ledger := state.ledger.addRoute setting.pass entry }
      if setting.scope.selects path = true then
        content { setting with scope := setting.scope.enter path } registered
      else (.ok "", registered) := by
  unfold Render.route
  rw [setting_bind]
  simp only [inside]
  rw [bind_of_ok (show Render.addRoute _ setting state = (.ok (), _) from rfl)]
  split <;> rfl

/-- The selection of a page. In every scope that comes about from a selected path, current
path and selection add up to it: as many segments are left as the current path does not
have, they are the last ones, and the current path matches those in front of them. So a
route is selected if and only if it has a segment and the selected path lies within its
full path. All renders in the course of a render are in such scopes, and each route among
them renders its content in exactly this case. -/
theorem selection_consumed_by_matching_routes (selected : Path) :
    (∀ scope : Scope, scope.Reached selected →
      scope.current.length + scope.selected.length = selected.length ∧
      scope.selected = selected.segments.drop scope.current.length ∧
      (selected.take scope.current.length).matchesPath scope.current = true ∧
      ∀ route, scope.selects route = true ↔
        1 ≤ (Path.ofText route).length ∧
          selected.isWithin (scope.current.extend route) = true) ∧
    ∀ start stage : Stage, start.setting.scope.Reached selected → Stage.Within start stage →
      stage.setting.scope.Reached selected ∧
      ∀ view path title content container, stage.task = .view view →
        view.routeParts? = some (path, title, content) →
        stage.setting.scope.container = some container →
          stage.outcome =
            Render.construct .route (fun setting state =>
              let full := setting.scope.current.extend path
              let registered : State := { state with
                ledger := state.ledger.addRoute setting.pass { path := full, title, container } }
              if 1 ≤ (Path.ofText path).length ∧ selected.isWithin full = true then
                content { setting with scope := setting.scope.enter path } registered
              else (.ok "", registered)) stage.setting stage.state := by
  refine ⟨?_, ?_⟩
  · intro scope reached
    have tracks := reached.tracks
    exact ⟨tracks.lengths, tracks.rest, tracks.consumed, tracks.selects_iff⟩
  · intro start stage startReached within
    have reached := within.reached startReached
    refine ⟨reached, ?_⟩
    intro view path title content container shown parts inside
    obtain ⟨task, setting, state⟩ := stage
    subst shown
    have written := Render.route_of_container inside path title content state
    simp only [reached.tracks.selects_iff] at written
    have rendered : Stage.outcome ⟨.view view, setting, state⟩ =
        Render.construct .route (Render.route path title content) setting state := by
      rw [← View.render_of_routeParts parts]
      rfl
    rw [rendered]
    simp only [Render.construct, Render.within, written]

/-- A route with a wildcard around a route that the page below reaches. -/
def reviewRoutes : View :=
  .switch "main" []
    [.route "/shop/:id/" "Item" [.route "reviews" "Reviews" [.text "all reviews"]]]

/-- The page of one review of an item. -/
def reviewPage : Stage :=
  { task := .view reviewRoutes
    setting :=
      { config := .standard, pass := .build, scope := .page (.ofText "shop/7/reviews/1") "Review" }
    state := .ofLedger (.ofBuild .empty (.ofConfig .standard)) }

/-- The inner route of `reviewRoutes` comes to its turn with two of four segments consumed,
the second by a wildcard, and renders its content. -/
theorem reviewPage_consumes_outer_route :
    ∃ stage, reviewPage.setting.scope.Reached (.ofText "shop/7/reviews/1") ∧
      Stage.Within reviewPage stage ∧
      stage.task = .view (.route "reviews" "Reviews" [.text "all reviews"]) ∧
      stage.setting.scope.current = ⟨["shop", ":id"]⟩ ∧
      stage.setting.scope.selected = ["reviews", "1"] ∧
      stage.outcome.1 = .ok "all reviews" := by
  have reached : reviewPage.setting.scope.Reached (.ofText "shop/7/reviews/1") := .page "Review"
  have selects : (reviewPage.setting.scope.inRouter "main").selects "/shop/:id/" = true := by
    decide +kernel
  have step : Stage.Inner reviewPage _ :=
    .switch [] [.route "/shop/:id/" "Item" [.route "reviews" "Reviews" [.text "all reviews"]]] rfl
  have inSwitch := Stage.Within.inner .start step (by rintro _ _ _ ⟨⟩)
  have atOuter := inSwitch.inner (.child (.here _ _ _)) (by rintro _ _ _ ⟨⟩)
  have inOuter := atOuter.inner (.route _ rfl rfl selects) (by rintro _ _ _ ⟨⟩)
  have atInner := inOuter.inner (.child (.here _ _ _)) (by rintro _ _ _ ⟨⟩)
  obtain ⟨-, renders⟩ := selection_consumed_by_matching_routes (.ofText "shop/7/reviews/1")
  obtain ⟨-, written⟩ := renders _ _ reached atInner
  have outcome := written _ _ _ _ "main" rfl rfl rfl
  simp only [Render.construct, Render.within] at outcome
  rw [if_pos (by decide +kernel)] at outcome
  exact ⟨_, reached, atInner, rfl, by decide +kernel, by decide +kernel, by rw [outcome]; rfl⟩

end Sitewright

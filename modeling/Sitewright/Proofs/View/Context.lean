import Sitewright.View.Basic

/-!
Contract: views with a hole, and views without markers.

A marker hands its branch to the conditional around it, however many constructs are in
between. So what it stands in is described as a view with a hole, through which a branch can
reach the conditional.

Owns:
- `View.Context`, with a hole in markup, routers, routes, forms, loops and bodies of shells;
- `Context.Selected`, for holes that are not inside of a route passed over;
- `Markless`, for what leaves nothing to a conditional around it.

Does not own: how such views are rendered.
-/

namespace Sitewright

open Markup Template

/-! ## Markers -/

mutual

/-- No marker in the view belongs to a conditional around the view. What stands in a conditional
or in the template of a region never does. -/
def View.Markless : View → Prop
  | .blank | .text _ | .raw _ | .redirect _ | .metaTag _ | .stylesheet .. | .script _
  | .conditional .. => True
  | .alternative _ => False
  | .group children | .element _ _ children | .switch _ _ children | .route _ _ children
  | .link _ _ _ children | .head children | .form _ _ _ children | .submit _ _ children =>
      View.AllMarkless children
  | .loop _ body => ∀ element position, (body element position).Markless
  | .dataRoute _ _ _ body => ∀ source, (body source).Markless
  | .shell _ head children => View.AllMarkless head ∧ View.AllMarkless children
  | .remote _ _ fallback => fallback.Markless
  | .quickButton _ _ _ hidden _ children =>
      View.AllMarkless hidden ∧ View.AllMarkless children
  | .component _ program => program.Markless

def View.AllMarkless : List View → Prop
  | [] => True
  | first :: rest => first.Markless ∧ View.AllMarkless rest

def Program.Markless : Program → Prop
  | .done output => output.Markless
  | .fail _ => True
  | .readScope next => ∀ scope, (next scope).Markless
  | .ask _ next => ∀ reply, (next reply).Markless
  | .render _ view next => view.Markless ∧ ∀ text, (next text).Markless

end

/-! ## Contexts -/

/-- A view with a hole in it. -/
inductive View.Context where
  | hole
  | group (before : List View) (inner : Context) (after : List View)
  | element (tag : String) (attributes : Attributes) (before : List View) (inner : Context)
      (after : List View)
  | switch (id : String) (attributes : Attributes) (before : List View) (inner : Context)
      (after : List View)
  | route (path title : String) (before : List View) (inner : Context) (after : List View)
  | dataRoute (path title resource : String) (inner : DataRef → Context)
  | form (action : Action) (refresh : Refresh) (attributes : Attributes) (before : List View)
      (inner : Context) (after : List View)
  /-- The hole is in the body, not in the head. -/
  | shell (morph : Bool) (head before : List View) (inner : Context) (after : List View)
  | loop (source : DataRef) (inner : (element position : DataRef) → Context)

namespace View.Context

/-- The context with the view in place of the hole. -/
def fill (view : View) : Context → View
  | .hole => view
  | .group before inner after => .group (before ++ inner.fill view :: after)
  | .element tag attributes before inner after =>
      .element tag attributes (before ++ inner.fill view :: after)
  | .switch id attributes before inner after =>
      .switch id attributes (before ++ inner.fill view :: after)
  | .route path title before inner after =>
      .route path title (before ++ inner.fill view :: after)
  | .dataRoute path title resource inner =>
      .dataRoute path title resource fun source => (inner source).fill view
  | .form action refresh attributes before inner after =>
      .form action refresh attributes (before ++ inner.fill view :: after)
  | .shell morph top before inner after =>
      .shell morph top (before ++ inner.fill view :: after)
  | .loop source inner => .loop source fun element position => (inner element position).fill view

/-- No marker beside the hole belongs to a conditional around the context. -/
def Markless : Context → Prop
  | .hole => True
  | .group before inner after | .element _ _ before inner after
  | .switch _ _ before inner after | .route _ _ before inner after
  | .form _ _ _ before inner after =>
      View.AllMarkless before ∧ inner.Markless ∧ View.AllMarkless after
  | .dataRoute _ _ _ inner => ∀ source, (inner source).Markless
  | .shell _ top before inner after =>
      View.AllMarkless top ∧ View.AllMarkless before ∧ inner.Markless ∧ View.AllMarkless after
  | .loop _ inner => ∀ element position, (inner element position).Markless

/-- Every route around the hole is selected. -/
def Selected (scope : Scope) : Context → Prop
  | .hole => True
  | .group _ inner _ | .element _ _ _ inner _ | .switch _ _ _ inner _ | .form _ _ _ _ inner _
  | .shell _ _ _ inner _ => inner.Selected scope
  | .route path _ _ inner _ => scope.selects path = true ∧ inner.Selected (scope.enter path)
  | .dataRoute path _ _ inner =>
      scope.selects path = true ∧ ∀ source, (inner source).Selected (scope.enter path)
  | .loop _ inner => ∀ element position, (inner element position).Selected scope

/-- Which routes are selected depends on the selected segments only. -/
theorem Selected.of_selected {context : Context} {scope other : Scope}
    (selected : context.Selected scope) (same : other.selected = scope.selected) :
    context.Selected other := by
  have selects : ∀ {scope other : Scope}, other.selected = scope.selected → ∀ path,
      scope.selects path = true → other.selects path = true := by
    intro scope other same path selects
    unfold Scope.selects at selects ⊢
    rwa [same]
  have entered : ∀ {scope other : Scope}, other.selected = scope.selected → ∀ path,
      (other.enter path).selected = (scope.enter path).selected := by
    intro scope other same path
    unfold Scope.enter
    rw [same]
  induction context generalizing scope other with
  | hole => trivial
  | group _ _ _ inside | element _ _ _ _ _ inside | switch _ _ _ _ _ inside
  | form _ _ _ _ _ _ inside | shell _ _ _ _ _ inside => exact inside selected same
  | route path title before inner after inside =>
      exact ⟨selects same path selected.1, inside selected.2 (entered same path)⟩
  | dataRoute path title resource inner inside =>
      exact ⟨selects same path selected.1, fun source =>
        inside source (selected.2 source) (entered same path)⟩
  | loop source inner inside =>
      exact fun element position => inside element position (selected element position) same

end View.Context

end Sitewright

import Sitewright.Proofs.Render.Closure
import Sitewright.Proofs.Routing.Matching

/-!
Contract: what one search comes across in a static view.

A static view is markup with routers and routes, without anything that is computed.
A search comes across its routers and routes in document order, and looks into a
route only if it is selected.

Owns:
- `Offer`, a router or a route that a search comes across, and tables that accept
  offers;
- `View.IsStatic`, `View.declared` and `View.routers`, which describe the view alone;
- `View.offers`, which also depends on what is selected;
- the render of a static view.

Does not own: which routes a survey finds in the end.
-/

namespace Sitewright

open Routing Markup

/-! ## Offers -/

inductive Offer where
  | container (id : String)
  | route (entry : Entry)

def Offer.container? : Offer → Option String
  | .container id => some id
  | .route _ => none

namespace Routing.Table

def accept (table : Table) : Offer → Table
  | .container id => table.seeContainer id
  | .route entry => (table.add? entry).getD table

def acceptAll (table : Table) (offers : List Offer) : Table :=
  offers.foldl accept table

@[simp] theorem acceptAll_nil (table : Table) : table.acceptAll [] = table := rfl

@[simp] theorem acceptAll_cons (table : Table) (offer : Offer) (offers : List Offer) :
    table.acceptAll (offer :: offers) = (table.accept offer).acceptAll offers := rfl

theorem acceptAll_append (table : Table) (early late : List Offer) :
    table.acceptAll (early ++ late) = (table.acceptAll early).acceptAll late := by
  simp [acceptAll]

/-- A route is either known already, or it goes to the end. -/
theorem accept_route (table : Table) (entry : Entry) :
    table.has entry.path = true ∧ table.accept (.route entry) = table ∨
      table.accept (.route entry) = { table with entries := table.entries ++ [entry] } := by
  by_cases known : table.has entry.path = true
  · exact Or.inl ⟨known, by simp [accept, add?, known]⟩
  · exact Or.inr (by simp [accept, add?, known])

@[simp] theorem topContainer_accept_route (table : Table) (entry : Entry) :
    (table.accept (.route entry)).topContainer = table.topContainer := by
  rcases accept_route table entry with ⟨-, same⟩ | added
  · rw [same]
  · rw [added]

theorem entries_subset_accept (table : Table) (offer : Offer) :
    table.entries ⊆ (table.accept offer).entries := by
  cases offer with
  | container id => simp [accept]
  | route entry =>
      rcases accept_route table entry with ⟨-, same⟩ | added
      · rw [same]
        exact List.Subset.refl _
      · rw [added]
        exact List.subset_append_left _ _

theorem entries_subset_acceptAll (table : Table) (offers : List Offer) :
    table.entries ⊆ (table.acceptAll offers).entries := by
  induction offers generalizing table with
  | nil => simp
  | cons offer offers inductionHypothesis =>
      exact List.Subset.trans (entries_subset_accept table offer)
        (inductionHypothesis (table.accept offer))

theorem mem_entries_accept {table : Table} {offer : Offer} {entry : Entry}
    (member : entry ∈ (table.accept offer).entries) :
    entry ∈ table.entries ∨ offer = .route entry := by
  cases offer with
  | container id =>
      left
      simpa [accept] using member
  | route offered =>
      rcases accept_route table offered with ⟨-, same⟩ | added
      · rw [same] at member
        exact Or.inl member
      · rw [added] at member
        rcases List.mem_append.mp member with old | new
        · exact Or.inl old
        · rw [List.mem_singleton.mp new]
          exact Or.inr rfl

/-- A table that accepts offers has only its own routes and those offered. -/
theorem mem_entries_acceptAll {table : Table} {offers : List Offer} {entry : Entry}
    (member : entry ∈ (table.acceptAll offers).entries) :
    entry ∈ table.entries ∨ Offer.route entry ∈ offers := by
  induction offers generalizing table with
  | nil => exact Or.inl member
  | cons offer offers inductionHypothesis =>
      rcases inductionHypothesis member with early | late
      · rcases mem_entries_accept early with old | rfl
        · exact Or.inl old
        · exact Or.inr List.mem_cons_self
      · exact Or.inr (List.mem_cons_of_mem offer late)

theorem has_accept (table : Table) (entry : Entry) :
    ∃ known ∈ (table.accept (.route entry)).entries,
      known.path.matchesPath entry.path = true := by
  rcases accept_route table entry with ⟨known, same⟩ | added
  · rw [same]
    exact has_iff.mp known
  · rw [added]
    exact ⟨entry, by simp, Path.matchesPath_self entry.path⟩

/-- Every route offered matches a route of the table afterwards. -/
theorem has_acceptAll {table : Table} {offers : List Offer} {entry : Entry}
    (offered : Offer.route entry ∈ offers) :
    ∃ known ∈ (table.acceptAll offers).entries, known.path.matchesPath entry.path = true := by
  induction offers generalizing table with
  | nil => cases offered
  | cons offer offers inductionHypothesis =>
      rcases List.mem_cons.mp offered with rfl | later
      · obtain ⟨known, member, matching⟩ := has_accept table entry
        exact ⟨known, entries_subset_acceptAll _ offers member, matching⟩
      · exact inductionHypothesis later

theorem topContainer_acceptAll_of_ne_empty {table : Table} (offers : List Offer)
    (seen : table.topContainer ≠ "") :
    (table.acceptAll offers).topContainer = table.topContainer := by
  induction offers generalizing table with
  | nil => rfl
  | cons offer offers inductionHypothesis =>
      have same : (table.accept offer).topContainer = table.topContainer := by
        cases offer with
        | container id => simp [accept, seeContainer, seen]
        | route entry => exact topContainer_accept_route table entry
      rw [acceptAll_cons, inductionHypothesis (by rwa [same]), same]

/-- The first container offered is the top one, unless there was one before. -/
theorem topContainer_acceptAll {table : Table} {offers : List Offer} {id : String}
    (named : id ≠ "") (before : table.topContainer = "" ∨ table.topContainer = id)
    (first : offers.findSome? Offer.container? = some id) :
    (table.acceptAll offers).topContainer = id := by
  induction offers generalizing table with
  | nil => simp at first
  | cons offer offers inductionHypothesis =>
      cases offer with
      | container other =>
          obtain rfl : other = id := by simpa [List.findSome?, Offer.container?] using first
          have seen : (table.accept (.container other)).topContainer = other := by
            rcases before with empty | same
            · simp [accept, seeContainer, empty]
            · simp [accept, seeContainer, same, named]
          rw [acceptAll_cons, topContainer_acceptAll_of_ne_empty offers (by rwa [seen]), seen]
      | route entry =>
          have same := topContainer_accept_route table entry
          exact inductionHypothesis (by rwa [same])
            (by simpa [List.findSome?, Offer.container?] using first)

end Routing.Table

/-! ## Static views -/

/-- Markup with routers and routes. Every route lies inside of a router and has at
least one segment. -/
inductive View.IsStatic : (inRouter : Bool) → View → Prop where
  | blank {inRouter : Bool} : IsStatic inRouter .blank
  | text {inRouter : Bool} (content : String) : IsStatic inRouter (.text content)
  | raw {inRouter : Bool} (content : String) : IsStatic inRouter (.raw content)
  | group {inRouter : Bool} {children : List View}
      (inside : ∀ child ∈ children, IsStatic inRouter child) :
      IsStatic inRouter (.group children)
  | element {inRouter : Bool} (tag : String) (attributes : Attributes) {children : List View}
      (inside : ∀ child ∈ children, IsStatic inRouter child) :
      IsStatic inRouter (.element tag attributes children)
  | switch {inRouter : Bool} (id : String) (attributes : Attributes) {children : List View}
      (inside : ∀ child ∈ children, IsStatic true child) :
      IsStatic inRouter (.switch id attributes children)
  | route {path : String} (title : String) {children : List View}
      (named : (Path.ofText path).segments ≠ [])
      (inside : ∀ child ∈ children, IsStatic true child) :
      IsStatic true (.route path title children)

mutual

/-- All routes of a view in document order, whatever is selected: the path of each
behind those of the routes around it, its title, and the nearest router around it. -/
def View.declared (current : Path) (container : String) : View → List Entry
  | .group children | .element _ _ children => View.allDeclared current container children
  | .switch id _ children => View.allDeclared current id children
  | .route path title children =>
      { path := current.extend path, title, container } ::
        View.allDeclared (current.extend path) container children
  | _ => []

def View.allDeclared (current : Path) (container : String) : List View → List Entry
  | [] => []
  | first :: rest => first.declared current container ++ View.allDeclared current container rest

end

mutual

/-- The ids of all routers of a view in document order. -/
def View.routers : View → List String
  | .group children | .element _ _ children => View.allRouters children
  | .switch id _ children => id :: View.allRouters children
  | .route _ _ children => View.allRouters children
  | _ => []

def View.allRouters : List View → List String
  | [] => []
  | first :: rest => first.routers ++ View.allRouters rest

end

mutual

/-- What a render comes across in document order. -/
def View.offers (scope : Scope) : View → List Offer
  | .group children | .element _ _ children => View.allOffers scope children
  | .switch id _ children => .container id :: View.allOffers (scope.inRouter id) children
  | .route path title children =>
      .route { path := scope.current.extend path, title, container := scope.container.getD "" } ::
        if scope.selects path then View.allOffers (scope.enter path) children else []
  | _ => []

def View.allOffers (scope : Scope) : List View → List Offer
  | [] => []
  | first :: rest => first.offers scope ++ View.allOffers scope rest

end

theorem View.mem_allDeclared {current : Path} {container : String} {views : List View}
    {entry : Entry} :
    entry ∈ View.allDeclared current container views ↔
      ∃ view ∈ views, entry ∈ view.declared current container := by
  induction views with
  | nil => simp [View.allDeclared]
  | cons first rest inductionHypothesis =>
      simp [View.allDeclared, inductionHypothesis]

theorem View.mem_allOffers {scope : Scope} {views : List View} {offer : Offer} :
    offer ∈ View.allOffers scope views ↔ ∃ view ∈ views, offer ∈ view.offers scope := by
  induction views with
  | nil => simp [View.allOffers]
  | cons first rest inductionHypothesis =>
      simp [View.allOffers, inductionHypothesis]

/-! ## Their renders -/

/-- In a search, the render ends with a text and offers these to the table. -/
def Render.Accepts {α : Type} (render : Render α) (config : Config) (scope : Scope)
    (offers : List Offer) : Prop :=
  ∀ state : State, ∃ value ledger,
    render { config, pass := .search, scope } state = (.ok value, { state with ledger }) ∧
      ledger.routes = state.ledger.routes.acceptAll offers

namespace Render.Accepts

variable {α β : Type} {config : Config} {scope : Scope}

theorem pure (value : α) : (Pure.pure value : Render α).Accepts config scope [] :=
  fun state => ⟨value, state.ledger, rfl, rfl⟩

theorem bind {first : Render α} {next : α → Render β} {early late : List Offer}
    (firstAccepts : first.Accepts config scope early)
    (nextAccepts : ∀ value, (next value).Accepts config scope late) :
    (first >>= next).Accepts config scope (early ++ late) := by
  intro state
  obtain ⟨value, ledger, outcome, routes⟩ := firstAccepts state
  obtain ⟨result, after, later, further⟩ := nextAccepts value { state with ledger }
  refine ⟨result, after, ?_, ?_⟩
  · rw [bind_of_ok outcome, later]
  · rw [further, routes, Table.acceptAll_append]

theorem within (component : String) {render : Render α} {offers : List Offer}
    (accepts : render.Accepts config scope offers) :
    (Render.within component render).Accepts config scope offers := by
  intro state
  obtain ⟨value, ledger, outcome, routes⟩ := accepts state
  refine ⟨value, ledger, ?_, routes⟩
  simp [Render.within, outcome]

theorem element (tag : String) (attributes : Attributes) {content : Render String}
    {offers : List Offer} (accepts : content.Accepts config scope offers) :
    (Render.element tag attributes content).Accepts config scope offers := by
  have rest : ∀ text, (Pure.pure (elementText tag attributes text) : Render String).Accepts
      config scope [] := fun text => pure _
  have whole := bind accepts rest
  rwa [List.append_nil] at whole

theorem switch (id : String) (attributes : Attributes) {children : Render String}
    {offers : List Offer} (accepts : children.Accepts config (scope.inRouter id) offers) :
    (Render.switch id attributes children).Accepts config scope (.container id :: offers) := by
  have seen : (Render.seeContainer id).Accepts config scope [.container id] :=
    fun state => ⟨(), state.ledger.seeContainer .search id, rfl, rfl⟩
  exact bind seen fun _ state => element "div" (switchAttributes id attributes) accepts state

/-- A route is offered in any case, and its content only if it is selected. -/
theorem route {container : String} (inside : scope.container = some container)
    (path title : String) {children : Render String} {offers : List Offer}
    (accepts : children.Accepts config (scope.enter path) offers) :
    (Render.route path title children).Accepts config scope
      (.route { path := scope.current.extend path, title, container } ::
        if scope.selects path then offers else []) := by
  have added : (Render.addRoute { path := scope.current.extend path, title, container }).Accepts
      config scope [.route { path := scope.current.extend path, title, container }] := by
    intro state
    refine ⟨(), _, rfl, ?_⟩
    simp only [Ledger.addRoute, Table.acceptAll_cons, Table.acceptAll_nil, Table.accept]
    rcases registered : state.ledger.routes.add?
      { path := scope.current.extend path, title, container } with _ | table
    · rfl
    · rfl
  have content : (if scope.selects path then Render.inScope (fun scope => scope.enter path) children
      else Render.nothing).Accepts config scope (if scope.selects path then offers else []) := by
    by_cases selected : scope.selects path = true
    · rw [if_pos selected, if_pos selected]
      exact accepts
    · rw [if_neg selected, if_neg selected]
      exact pure ""
  intro state
  obtain ⟨value, ledger, outcome, routes⟩ := bind added (fun _ => content) state
  refine ⟨value, ledger, ?_, routes⟩
  rw [← outcome]
  unfold Render.route
  rw [setting_bind]
  simp only [inside]

theorem all {views : List View}
    (accepts : ∀ view ∈ views, view.render.Accepts config scope (view.offers scope)) :
    (View.renderAll views).Accepts config scope (View.allOffers scope views) := by
  induction views with
  | nil => exact pure ""
  | cons first rest inductionHypothesis =>
      have firstAccepts := accepts first List.mem_cons_self
      have restAccepts := inductionHypothesis fun view member =>
        accepts view (List.mem_cons_of_mem first member)
      refine bind firstAccepts fun text => ?_
      have joined := bind restAccepts fun others => pure (text ++ others)
      rwa [List.append_nil] at joined

end Render.Accepts

/-- Searching a static view does not fail, and offers what the view offers. -/
theorem View.accepts_of_static {inRouter : Bool} {view : View} (isStatic : view.IsStatic inRouter)
    (config : Config) (scope : Scope) (around : inRouter = scope.container.isSome) :
    view.render.Accepts config scope (view.offers scope) := by
  induction isStatic generalizing scope with
  | blank => exact .pure ""
  | text content => exact .pure (escapeText content)
  | raw content => exact .pure content
  | group _ inductionHypothesis =>
      exact .all fun child member => inductionHypothesis child member _ around
  | element tag attributes _ inductionHypothesis =>
      exact .element tag attributes
        (.all fun child member => inductionHypothesis child member _ around)
  | switch id attributes _ inductionHypothesis =>
      exact .within _ (.switch id attributes
        (.all fun child member => inductionHypothesis child member _ rfl))
  | @route path title children named _ inductionHypothesis =>
      obtain ⟨container, inside⟩ := Option.isSome_iff_exists.mp around.symm
      have content : (View.renderAll children).Accepts config (scope.enter path)
          (View.allOffers (scope.enter path) children) :=
        .all fun child member => inductionHypothesis child member _ around
      have whole := Render.Accepts.route inside path title content
      have label : scope.container.getD "" = container := by rw [inside]; rfl
      unfold View.offers
      rw [label]
      exact .within _ whole

end Sitewright

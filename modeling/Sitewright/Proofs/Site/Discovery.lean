import Sitewright.Proofs.Site.Offer
import Sitewright.Proofs.Site.Survey

/-!
Contract: a survey of a static view finds all its routes, up to wildcards, and
nothing else.

A route is offered whenever the routes around it are selected. One of those may be
missing from the table because a route that matches it was registered first; as that
one is searched instead, and matches the same segments, the route is offered anyway.

Owns:
- `OfferedBelow`, where a declared route is offered;
- `Explored`, what holds at every turn of the survey of a static view;
- completeness and soundness of the survey.
-/

namespace Sitewright

open Routing

/-! ## Declared and offered routes -/

/-- Only declared routes are offered. -/
theorem View.declared_of_offered {inRouter : Bool} {view : View}
    (isStatic : view.IsStatic inRouter) {scope : Scope} {entry : Entry}
    (offered : Offer.route entry ∈ view.offers scope) :
    entry ∈ view.declared scope.current (scope.container.getD "") := by
  induction isStatic generalizing scope with
  | blank => cases offered
  | text content => cases offered
  | raw content => cases offered
  | group _ inductionHypothesis | element _ _ _ inductionHypothesis =>
      obtain ⟨child, member, inside⟩ := View.mem_allOffers.mp offered
      exact View.mem_allDeclared.mpr ⟨child, member, inductionHypothesis child member inside⟩
  | switch id _ _ inductionHypothesis =>
      rcases List.mem_cons.mp offered with isContainer | later
      · cases isContainer
      · obtain ⟨child, member, inside⟩ := View.mem_allOffers.mp later
        exact View.mem_allDeclared.mpr ⟨child, member, inductionHypothesis child member inside⟩
  | @route path title children _ _ inductionHypothesis =>
      rcases List.mem_cons.mp offered with isRoute | later
      · rw [Offer.route.inj isRoute]
        exact List.mem_cons_self
      · by_cases selected : scope.selects path = true
        · rw [if_pos selected] at later
          obtain ⟨child, member, inside⟩ := View.mem_allOffers.mp later
          exact List.mem_cons_of_mem _
            (View.mem_allDeclared.mpr ⟨child, member, inductionHypothesis child member inside⟩)
        · rw [if_neg selected] at later
          cases later

/-- Below the current path, the route is offered wherever the segments in between are
selected. They are none, or lead to another declared route; and the route has more. -/
def OfferedBelow (current : Path) (container : String) (declared : List Entry)
    (offers : Scope → List Offer) (entry : Entry) : Prop :=
  ∃ between : List String,
    (between = [] ∨ ∃ outer ∈ declared, outer.path.segments = current.segments ++ between) ∧
    current.length + between.length < entry.path.length ∧
    ∀ scope : Scope, scope.current = current → scope.container.getD "" = container →
      Path.matchesInitially between scope.selected = true → Offer.route entry ∈ offers scope

theorem OfferedBelow.mono {current : Path} {container : String} {declared all : List Entry}
    {offers more : Scope → List Offer} {entry : Entry}
    (below : OfferedBelow current container declared offers entry)
    (declaredToo : declared ⊆ all) (offeredToo : ∀ scope, offers scope ⊆ more scope) :
    OfferedBelow current container all more entry := by
  obtain ⟨between, around, longer, offered⟩ := below
  refine ⟨between, ?_, longer, fun scope here container selected =>
    offeredToo scope (offered scope here container selected)⟩
  rcases around with none | ⟨outer, member, segments⟩
  · exact Or.inl none
  · exact Or.inr ⟨outer, declaredToo member, segments⟩

/-- What is offered by a child is offered by all children together. -/
theorem OfferedBelow.all {current : Path} {container : String} {children : List View}
    {child : View} {entry : Entry} (member : child ∈ children)
    (below : OfferedBelow current container (child.declared current container) child.offers entry) :
    OfferedBelow current container (View.allDeclared current container children)
      (fun scope => View.allOffers scope children) entry :=
  below.mono (fun _ declared => View.mem_allDeclared.mpr ⟨child, member, declared⟩)
    fun _ _ offered => View.mem_allOffers.mpr ⟨child, member, offered⟩

/-- What is offered below a route is offered below the path around it. -/
theorem OfferedBelow.route {current : Path} {container path title : String}
    {children : List View} {entry : Entry} (named : (Path.ofText path).segments ≠ [])
    (below : OfferedBelow (current.extend path) container
      (View.allDeclared (current.extend path) container children)
      (fun scope => View.allOffers scope children) entry) :
    OfferedBelow current container ((View.route path title children).declared current container)
      (fun scope => (View.route path title children).offers scope) entry := by
  obtain ⟨between, around, longer, offered⟩ := below
  refine ⟨(Path.ofText path).segments ++ between, Or.inr ?_, ?_, ?_⟩
  · rcases around with none | ⟨outer, member, segments⟩
    · exact ⟨_, List.mem_cons_self, by simp [none]⟩
    · exact ⟨outer, List.mem_cons_of_mem _ member, by simp [segments]⟩
  · have total : (current.extend path).length =
        current.length + (Path.ofText path).segments.length := by
      simp [Path.length]
    rw [List.length_append]
    omega
  · intro scope here sameContainer selected
    rw [Path.matchesInitially_append, Bool.and_eq_true] at selected
    have selects : scope.selects path = true := by
      simp [Scope.selects, named, selected.1]
    have inside := offered (scope.enter path) (by rw [← here]; rfl) sameContainer selected.2
    show Offer.route entry ∈ (View.route path title children).offers scope
    unfold View.offers
    rw [if_pos selects]
    exact List.mem_cons_of_mem _ inside

/-- Every declared route is offered below the path around it. -/
theorem View.offeredBelow {inRouter : Bool} {view : View} (isStatic : view.IsStatic inRouter)
    {current : Path} {container : String} {entry : Entry}
    (declared : entry ∈ view.declared current container) :
    OfferedBelow current container (view.declared current container)
      (fun scope => view.offers scope) entry := by
  induction isStatic generalizing current container with
  | blank => cases declared
  | text content => cases declared
  | raw content => cases declared
  | group _ inductionHypothesis | element _ _ _ inductionHypothesis =>
      obtain ⟨child, member, inside⟩ := View.mem_allDeclared.mp declared
      exact .all member (inductionHypothesis child member inside)
  | switch id _ _ inductionHypothesis =>
      obtain ⟨child, member, inside⟩ := View.mem_allDeclared.mp declared
      obtain ⟨between, around, longer, offered⟩ :=
        OfferedBelow.all member (inductionHypothesis child member inside)
      refine ⟨between, around, longer, fun scope here _ selected => ?_⟩
      exact List.mem_cons_of_mem _ (offered (scope.inRouter id) here rfl selected)
  | @route path title children named _ inductionHypothesis =>
      rcases List.mem_cons.mp declared with rfl | later
      · have positive : 0 < (Path.ofText path).segments.length := List.length_pos_iff.mpr named
        refine ⟨[], Or.inl rfl, ?_, ?_⟩
        · simp [Path.length, positive]
        · rintro scope rfl rfl -
          exact List.mem_cons_self
      · obtain ⟨child, member, inside⟩ := View.mem_allDeclared.mp later
        exact .route named (.all member (inductionHypothesis child member inside))

/-- Outside of all routers there are no routes, so the first router is always offered. -/
theorem View.first_container {inRouter : Bool} {view : View} (isStatic : view.IsStatic inRouter)
    (outside : inRouter = false) (scope : Scope) :
    (view.offers scope).findSome? Offer.container? = view.routers.head? := by
  have all : ∀ children : List View,
      (∀ child ∈ children,
        (child.offers scope).findSome? Offer.container? = child.routers.head?) →
      (View.allOffers scope children).findSome? Offer.container? =
        (View.allRouters children).head? := by
    intro children same
    induction children with
    | nil => rfl
    | cons first rest inductionHypothesis =>
        unfold View.allOffers View.allRouters
        rw [List.findSome?_append, List.head?_append, same first List.mem_cons_self,
          inductionHypothesis fun child member => same child (List.mem_cons_of_mem first member)]
  induction isStatic with
  | blank => rfl
  | text content => rfl
  | raw content => rfl
  | group _ inductionHypothesis | element _ _ _ inductionHypothesis =>
      exact all _ fun child member => inductionHypothesis child member outside
  | switch id _ _ _ => rfl
  | route title named _ _ => cases outside

/-! ## The survey -/

namespace Site

variable {config : Config} {root : View}

/-- A search of a static view does not fail, and its table accepts what is offered. -/
theorem search_of_static (config : Config) (isStatic : root.IsStatic false) (routes : Table)
    (selected : Path) :
    ∃ found, search config root routes selected =
      .ok (routes.acceptAll (root.offers (.probe selected)), found) := by
  obtain ⟨text, ledger, rendered, accepted⟩ :=
    View.accepts_of_static isStatic config (.probe selected) rfl
      (.ofLedger (.ofSearch config routes))
  refine ⟨ledger.found, ?_⟩
  have known : ledger.routes = routes.acceptAll (root.offers (.probe selected)) := accepted
  simp only [search, rendered, known]

/-- What holds at every turn of the survey of a static view. -/
structure Explored (root : View) (progress : Progress) : Prop where
  declared : ∀ entry ∈ progress.routes.entries, entry ∈ root.declared .root ""
  covered : ∀ selected ∈ progress.searched, ∀ entry,
    Offer.route entry ∈ root.offers (.probe selected) →
      ∃ known ∈ progress.routes.entries, known.path.matchesPath entry.path = true
  container : ∀ id, root.routers.head? = some id → id ≠ "" →
    progress.searched = [] ∧ progress.routes.topContainer = "" ∨
      progress.routes.topContainer = id

theorem explored_start : Explored root Progress.start where
  declared := by simp [Progress.start, Table.empty]
  covered := by simp [Progress.start]
  container := fun _ _ _ => Or.inl ⟨rfl, rfl⟩

theorem Explored.turn (isStatic : root.IsStatic false) {before after : Progress}
    (turn : Progress.Turn config root before after) (explored : Explored root before) :
    Explored root after := by
  obtain @⟨searched, pending, found, selected, routes, known, allowed, outcome⟩ := turn
  obtain ⟨added, settled⟩ := search_of_static config isStatic routes selected
  obtain ⟨rfl, rfl⟩ : known = routes.acceptAll (root.offers (.probe selected)) ∧ found = added := by
    simpa [outcome] using settled
  constructor
  · intro entry member
    rcases Table.mem_entries_acceptAll member with old | offered
    · exact explored.declared entry old
    · exact View.declared_of_offered isStatic offered
  · intro path searchedPath entry offered
    rcases List.mem_append.mp searchedPath with old | new
    · obtain ⟨known, member, matching⟩ := explored.covered path old entry offered
      exact ⟨known, Table.entries_subset_acceptAll routes _ member, matching⟩
    · rw [List.mem_singleton.mp new] at offered
      exact Table.has_acceptAll offered
  · intro id first named
    right
    have offeredFirst := View.first_container isStatic rfl (.probe selected)
    rw [first] at offeredFirst
    refine Table.topContainer_acceptAll named ?_ offeredFirst
    rcases explored.container id first named with ⟨-, empty⟩ | same
    · exact Or.inl empty
    · exact Or.inr same

theorem explored_of_reached (isStatic : root.IsStatic false) {progress : Progress}
    (reached : Progress.Reached config root progress) : Explored root progress := by
  induction reached with
  | refl => exact explored_start
  | tail _ turn inductionHypothesis => exact inductionHypothesis.turn isStatic turn

/-- Routes that do not match one another are different, so there are no more of them
than declared. -/
theorem length_entries_le {routes : Table} {declared : List Entry} (distinct : routes.Distinct)
    (sound : ∀ entry ∈ routes.entries, entry ∈ declared) :
    routes.entries.length ≤ declared.length := by
  have nodup : routes.entries.Nodup := by
    refine distinct.imp fun {earlier later} differ same => ?_
    rw [same, Path.matchesPath_self] at differ
    cases differ
  exact nodup.length_le_of_subset sound

/-- With more probes than routes declared, the survey of a static view settles. -/
theorem survey_settles (describes : root.isBlank = false) (isStatic : root.IsStatic false)
    (enough : (root.declared .root "").length < config.probeLimit) :
    ∃ routes, survey config root = .ok routes := by
  obtain ⟨progress, reached, ends⟩ := (Progress.survey_eq_iff describes _).mp
    (Eq.refl (survey config root))
  have sound := Progress.sound_of_reached reached
  have explored := explored_of_reached isStatic reached
  have bound := length_entries_le sound.distinct explored.declared
  generalize survey config root = result at ends
  cases ends with
  | settled searched routes => exact ⟨routes, rfl⟩
  | @unsettled searched selected pending routes spent =>
      -- The searches made and the one pending are the root and some of the routes.
      have order : searched ++ selected :: pending = .root :: routes.entries.map Entry.path :=
        sound.order
      have total := congrArg List.length order
      have known : routes.entries.length ≤ (root.declared .root "").length := bound
      simp only [List.length_append, List.length_cons, List.length_map] at total
      omega
  | @failed searched selected pending routes fault allowed outcome =>
      obtain ⟨found, settled⟩ := search_of_static config isStatic routes selected
      rw [settled] at outcome
      cases outcome

/-- A declared route matches a route that the survey knows in the end. The induction
is on the number of its segments: the route around it has fewer. -/
theorem known_of_declared (isStatic : root.IsStatic false) {routes : Table}
    (reached : Progress.Reached config root
      ⟨.root :: routes.entries.map Entry.path, [], routes⟩)
    (length : Nat) : ∀ entry ∈ root.declared .root "", entry.path.length = length →
      ∃ known ∈ routes.entries, known.path.matchesPath entry.path = true := by
  have explored := explored_of_reached isStatic reached
  induction length using Nat.strongRecOn with
  | ind length inductionHypothesis =>
      intro entry declared sameLength
      obtain ⟨between, around, longer, offered⟩ := View.offeredBelow isStatic declared
      rcases around with rfl | ⟨outer, outerDeclared, segments⟩
      · have first : Offer.route entry ∈ root.offers (.probe .root) := offered _ rfl rfl rfl
        exact explored.covered .root List.mem_cons_self entry first
      · have path : outer.path.segments = between := segments
        have shorter : outer.path.length < length := by
          have outerLength : outer.path.length = between.length := by rw [Path.length, path]
          have rootLength : Path.root.length = 0 := Path.length_root
          omega
        obtain ⟨known, member, matching⟩ :=
          inductionHypothesis outer.path.length shorter outer outerDeclared rfl
        -- The known route need not be the one around, but it matches the same segments.
        rw [Path.matchesPath_comm, Path.matchesPath_iff, path] at matching
        have inside : Offer.route entry ∈ root.offers (.probe known.path) :=
          offered _ rfl rfl matching.2
        exact explored.covered known.path
          (List.mem_cons_of_mem _ (List.mem_map_of_mem member)) entry inside

/-- The survey of a static view settles if there are more probes than routes declared.
Every declared route matches one of the routes found, every route found is declared
with its title and the nearest router, no two of them match, and the top container is
the first router of the view. -/
theorem survey_of_static_complete_and_sound (config : Config) (root : View)
    (describes : root.isBlank = false) (isStatic : root.IsStatic false)
    (enough : (root.declared .root "").length < config.probeLimit) :
    ∃ routes, survey config root = .ok routes ∧
      (∀ entry ∈ root.declared .root "",
        ∃ known ∈ routes.entries, known.path.matchesPath entry.path = true) ∧
      (∀ entry ∈ routes.entries, entry ∈ root.declared .root "") ∧
      routes.Distinct ∧
      (∀ id, root.routers.head? = some id → id ≠ "" → routes.topContainer = id) := by
  obtain ⟨routes, settled⟩ := survey_settles describes isStatic enough
  have reached := Progress.reached_of_survey describes settled
  have explored := explored_of_reached isStatic reached
  refine ⟨routes, settled, ?_, explored.declared, (Progress.sound_of_reached reached).distinct, ?_⟩
  · intro entry declared
    exact known_of_declared isStatic reached entry.path.length entry declared rfl
  · intro id first named
    rcases explored.container id first named with ⟨searched, -⟩ | same
    · cases searched
    · exact same

/-- Two routes that match each other. The first one hides the second, whose inner
route is found nevertheless. -/
def shadowedRoutes : View :=
  .element "main" []
    [.switch "outer" []
      [.route ":lang" "Any" [.route "home" "Home" []],
       .route "en" "English" [.switch "inner" [] [.route "team/:name" "Team" []]]]]

/-- The inner route of the hidden one is found below the other. -/
theorem shadowedRoutes_found :
    ∃ routes, survey Config.standard shadowedRoutes = .ok routes ∧
      (∃ known ∈ routes.entries, known.path.matchesPath ⟨["en", "team", ":name"]⟩ = true) ∧
      routes.topContainer = "outer" := by
  have home : (View.route "home" "Home" []).IsStatic true := .route _ (by decide +kernel) (by simp)
  have team : (View.route "team/:name" "Team" []).IsStatic true :=
    .route _ (by decide +kernel) (by simp)
  have isStatic : shadowedRoutes.IsStatic false := by
    refine .element _ _ (List.forall_mem_singleton.mpr (.switch _ _ ?_))
    refine List.forall_mem_cons.mpr ⟨?_, List.forall_mem_singleton.mpr ?_⟩
    · exact .route _ (by decide +kernel) (List.forall_mem_singleton.mpr home)
    · exact .route _ (by decide +kernel)
        (List.forall_mem_singleton.mpr (.switch _ _ (List.forall_mem_singleton.mpr team)))
  obtain ⟨routes, settled, complete, -, -, top⟩ :=
    survey_of_static_complete_and_sound Config.standard shadowedRoutes rfl isStatic
      (by decide +kernel)
  refine ⟨routes, settled, ?_, top "outer" rfl (by decide)⟩
  exact complete ⟨⟨["en", "team", ":name"]⟩, "Team", "inner"⟩ (by decide +kernel)

end Site

end Sitewright

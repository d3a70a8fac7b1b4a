import Sitewright.Proofs.Render.Origin
import Sitewright.Proofs.Site.Hosts
import Sitewright.Proofs.Site.Survey

/-!
Contract: the searches of a survey beside the pages of a build.

Searches and pages are runs of one view. A survey of a plain view has searched the path of
every route that it finds, so what the page of a route comes across was come across before,
in the search of its path, and what any search comes across is on the page if the path of
the page leads there.

Owns:
- `searchStage`, the render of a search, and `OnPage`, the renders on a page;
- `Traced`, what holds at every turn of the survey of a plain view;
- `Built.onPage_twin_iff` and `Built.known`: from searches to pages and back.

Does not own: what routes and links make of it.
-/

namespace Sitewright.Site

open Routing Relation

variable {config : Config} {root : View} {store : Asset.Store}

/-! ## Searches -/

/-- The render of a search. -/
def searchStage (config : Config) (root : View) (routes : Table) (selected : Path) : Stage :=
  { task := .view root
    setting := { config, pass := .search, scope := .probe selected }
    state := .ofLedger (.ofSearch config routes) }

/-- A render in the course of a search that succeeds. -/
structure InSearch (config : Config) (root : View) (known : Table) (selected : Path)
    (stage : Stage) : Prop where
  runs : (searchStage config root known selected).Runs selected
  course : ReflTransGen Stage.Inner (searchStage config root known selected) stage

theorem runs_of_search (plain : root.IsPlain) {routes known : Table} {selected : Path}
    {found : List Path} (outcome : search config root routes selected = .ok (known, found)) :
    (searchStage config root routes selected).Runs selected ∧
      (searchStage config root routes selected).outcome.2.ledger.routes = known := by
  obtain ⟨text, state, rendered, rfl, -⟩ := Progress.search_eq_ok outcome
  have ended : (searchStage config root routes selected).outcome = (.ok text, state) := rendered
  exact ⟨⟨⟨root, rfl, plain⟩, .probe, text, state, rendered⟩, by rw [ended]⟩

/-- What holds at every turn of the survey of a plain view: the routes known are ones that a
search has come across, and of those that one comes across no route is unknown. -/
structure Traced (config : Config) (root : View) (progress : Progress) : Prop where
  met : ∀ entry ∈ progress.routes.entries, ∃ known selected stage,
    InSearch config root known selected stage ∧ stage.IsRoute entry
  searched : ∀ selected ∈ progress.searched, ∃ known,
    (searchStage config root known selected).Runs selected ∧
      ∀ stage entry, InSearch config root known selected stage → stage.IsRoute entry →
        progress.routes.has entry.path = true

theorem traced_start : Traced config root Progress.start where
  met := by simp [Progress.start, Table.empty]
  searched := by simp [Progress.start]

/-- What a search comes across is known afterwards. -/
theorem InSearch.known {known : Table} {selected : Path} {stage : Stage} {entry : Entry}
    (inSearch : InSearch config root known selected stage) (isRoute : stage.IsRoute entry) :
    (searchStage config root known selected).outcome.2.ledger.routes.has entry.path = true := by
  have leads := Stage.leads_of_course inSearch.course (State.stepwise_ofLedger True _)
  have passes : Ledger.Steps config .search True stage.outcome.2.ledger
      (searchStage config root known selected).outcome.2.ledger := leads.passes
  exact passes.adds.has (isRoute.known leads.pass leads.waits)

theorem Traced.turn (plain : root.IsPlain) {before after : Progress}
    (turn : Progress.Turn config root before after) (traced : Traced config root before) :
    Traced config root after := by
  obtain @⟨searched, pending, found, selected, routes, known, allowed, outcome⟩ := turn
  obtain ⟨runs, finished⟩ := runs_of_search plain outcome
  obtain ⟨added, entries, -⟩ := Progress.adds_of_search outcome
  constructor
  · intro entry member
    have brings := plain.brings (searchStage config root routes selected).setting
      (searchStage config root routes selected).state entry
    rw [← finished] at member
    rcases brings member with old | ⟨stage, course, isRoute⟩
    · exact traced.met entry old
    · exact ⟨routes, selected, stage, ⟨runs, course⟩, isRoute⟩
  · intro path isSearched
    rcases List.mem_append.mp isSearched with old | new
    · obtain ⟨earlier, earlierRuns, complete⟩ := traced.searched path old
      refine ⟨earlier, earlierRuns, fun stage entry inSearch isRoute => ?_⟩
      obtain ⟨first, member, matching⟩ := Table.has_iff.mp (complete stage entry inSearch isRoute)
      refine Table.has_iff.mpr ⟨first, ?_, matching⟩
      show first ∈ known.entries
      rw [entries]
      exact List.mem_append_left added member
    · obtain rfl := List.mem_singleton.mp new
      refine ⟨routes, runs, fun stage entry inSearch isRoute => ?_⟩
      show known.has entry.path = true
      rw [← finished]
      exact inSearch.known isRoute

theorem traced_of_reached (plain : root.IsPlain) {progress : Progress}
    (reached : Progress.Reached config root progress) : Traced config root progress := by
  induction reached with
  | refl => exact traced_start
  | tail _ turn inductionHypothesis => exact inductionHypothesis.turn plain turn

theorem traced_of_survey (plain : root.IsPlain) {routes : Table}
    (found : survey config root = .ok routes) :
    Traced config root ⟨.root :: routes.entries.map Entry.path, [], routes⟩ :=
  traced_of_reached plain (Progress.reached_of_survey (describes_of_survey found) found)

/-! ## Pages -/

theorem PageStarts.mem {ledger start : Ledger} {routes : List Entry} {route : Entry}
    (starts : PageStarts config root ledger routes start route) : route ∈ routes := by
  induction starts with
  | here ledger route rest => exact List.mem_cons_self
  | later _ _ inductionHypothesis => exact List.mem_cons_of_mem _ inductionHypothesis

/-- A render in the course of building the page of a route. -/
def OnPage (config : Config) (root : View) (store : Asset.Store) (route : Entry)
    (stage : Stage) : Prop :=
  ∃ routes start, survey config root = .ok routes ∧
    PageStarts config root (.ofBuild routes store) routes.entries start route ∧
      ReflTransGen Stage.Inner (pageStage config root start route) stage

theorem OnPage.rendered {route : Entry} {stage : Stage}
    (onPage : OnPage config root store route stage) : Rendered config root store stage := by
  obtain ⟨routes, start, found, starts, course⟩ := onPage
  induction course with
  | refl => exact .page found starts
  | tail _ step inductionHypothesis => exact inductionHypothesis.inner step

theorem OnPage.course {route : Entry} {stage : Stage} {routes : Table}
    (onPage : OnPage config root store route stage) (found : survey config root = .ok routes) :
    ∃ start, PageStarts config root (.ofBuild routes store) routes.entries start route ∧
      ReflTransGen Stage.Inner (pageStage config root start route) stage := by
  obtain ⟨others, start, foundToo, starts, course⟩ := onPage
  obtain rfl := routes_eq_of_found found foundToo
  exact ⟨start, starts, course⟩

/-- Pages are built of known routes. -/
theorem OnPage.mem {route : Entry} {stage : Stage} {routes : Table}
    (onPage : OnPage config root store route stage) (found : survey config root = .ok routes) :
    route ∈ routes.entries := by
  obtain ⟨start, starts, -⟩ := onPage.course found
  exact starts.mem

/-- What is rendered on a page sees the routes of the survey. -/
theorem OnPage.routes_eq {route : Entry} {stage : Stage} {routes : Table}
    (onPage : OnPage config root store route stage) (found : survey config root = .ok routes) :
    stage.state.ledger.routes = routes := by
  obtain ⟨rfl, pass, waits, -⟩ := onPage.rendered.extends found
  have grows : stage.state.ledger.Grows stage.outcome.2.ledger := by
    have steps := (stage.task.render_stepwise stage.setting stage.state waits).1
    rw [pass] at steps
    exact steps.grows
  have later := grows.trans (onPage.rendered.grows found)
  exact later.routes.symm.trans (grows_buildPages routes.entries (.ofBuild routes store)).routes

theorem OnPage.inner {route : Entry} {outer inner : Stage}
    (onPage : OnPage config root store route outer) (step : Stage.Inner outer inner) :
    OnPage config root store route inner := by
  obtain ⟨routes, start, found, starts, course⟩ := onPage
  exact ⟨routes, start, found, starts, course.tail step⟩

section Built

variable {routes : Table} {pages : List Page} {route : Entry}

/-- A plain view has the routes, and pages have been built of all of them. -/
structure Built (config : Config) (root : View) (store : Asset.Store) (routes : Table)
    (pages : List Page) : Prop where
  plain : root.IsPlain
  found : survey config root = .ok routes
  built : ∃ final,
    buildPages config root (.ofBuild routes store) routes.entries = (.ok pages, final)

variable (built : Built config root store routes pages)

include built

theorem Built.runs {start : Ledger}
    (starts : PageStarts config root (.ofBuild routes store) routes.entries start route) :
    (pageStage config root start route).Runs route.path := by
  obtain ⟨final, pagesBuilt⟩ := built.built
  exact ⟨⟨root, rfl, built.plain⟩, .page route.title, starts.ends pagesBuilt⟩

/-- What is rendered on a page runs under its path, and the text stands on the page. -/
theorem Built.onPage {stage : Stage} (onPage : OnPage config root store route stage) :
    stage.Runs route.path ∧ ∃ page ∈ pages, page.route = route.path.text ∧
      ∃ text front back, stage.outcome.1 = .ok text ∧ page.html = front ++ text ++ back := by
  obtain ⟨start, starts, course⟩ := onPage.course built.found
  have runs := built.runs starts
  obtain ⟨final, pagesBuilt⟩ := built.built
  obtain ⟨page, member, isPage, html, -⟩ := starts.page pagesBuilt
  exact ⟨runs.course course, page, member, isPage, runs.text course html⟩

/-- What a search comes across is on a page if and only if the path of the page leads there. -/
theorem Built.onPage_twin_iff (member : route ∈ routes.entries) {known : Table} {selected : Path}
    {stage : Stage} (inSearch : InSearch config root known selected stage) :
    (∃ twin, OnPage config root store route twin ∧ stage.Twin twin) ↔
      route.path.isWithin stage.setting.scope.current = true := by
  have twins : ∀ start, (searchStage config root known selected).Twin
      (pageStage config root start route) := fun start => ⟨rfl, rfl, rfl⟩
  constructor
  · rintro ⟨twin, onPage, isTwin⟩
    rw [← isTwin.current]
    exact (built.onPage onPage).1.within
  · intro leads
    obtain ⟨final, pagesBuilt⟩ := built.built
    obtain ⟨start, starts⟩ := PageStarts.of_mem pagesBuilt member
    obtain ⟨twin, course, isTwin⟩ := (inSearch.runs.twin_iff (built.runs starts) (twins start)
      inSearch.course).mpr leads
    exact ⟨twin, ⟨routes, start, built.found, starts, course⟩, isTwin⟩

/-- Of the routes that are rendered on a page none is unknown, since the search of the path of
the page has come across them. -/
theorem Built.known {stage : Stage} {entry : Entry}
    (onPage : OnPage config root store route stage) (isRoute : stage.IsRoute entry) :
    routes.has entry.path = true := by
  obtain ⟨start, starts, course⟩ := onPage.course built.found
  have isSearched : route.path ∈ Path.root :: List.map Entry.path routes.entries :=
    List.mem_cons_of_mem _ (List.mem_map_of_mem starts.mem)
  obtain ⟨known, runs, complete⟩ :=
    (traced_of_survey built.plain built.found).searched route.path isSearched
  have pageRuns := built.runs starts
  have leads := (pageRuns.course course).within
  obtain ⟨twin, twinCourse, isTwin⟩ := (pageRuns.twin_iff runs ⟨rfl, rfl, rfl⟩ course).mpr leads
  exact complete twin entry ⟨runs, twinCourse⟩ (isTwin.isRoute isRoute)

end Built

end Sitewright.Site

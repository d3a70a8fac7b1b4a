import Sitewright.Proofs.Site.Artifacts
import Sitewright.Proofs.Site.Search

/-!
Contract: the pages of a site are those of its routes.

A build goes through the routes that the survey found and makes one page for each. Routes that
are registered never match each other, and the text of a proper path is read as that path
again. So a page can be told by the text of its route alone.

Owns:
- `Site.MakesPage`, the page that a build makes for a route;
- the correspondence of routes and pages, and the look-up of a page by its route.

Does not own: what stands on the pages.
-/

namespace Sitewright.Site

open Routing

variable {config : Config} {root : View} {store : Asset.Store}

/-- The build makes this page when the turn of the route comes. -/
def MakesPage (config : Config) (root : View) (store : Asset.Store) (routes : Table)
    (route : Entry) (page : Page) : Prop :=
  ∃ start after, PageStarts config root (.ofBuild routes store) routes.entries start route ∧
    buildPage config root start route = (.ok page, after)

/-- The turn of a route that is listed once comes once. -/
theorem PageStarts.eq_of_nodup {ledger start other : Ledger} {routes : List Entry} {route : Entry}
    (distinct : routes.Nodup) (starts : PageStarts config root ledger routes start route)
    (startsToo : PageStarts config root ledger routes other route) : start = other := by
  induction starts with
  | here ledger route rest =>
      cases startsToo with
      | here => rfl
      | later built again => exact absurd again.mem (List.nodup_cons.mp distinct).1
  | later built starts inductionHypothesis =>
      obtain ⟨absent, restDistinct⟩ := List.nodup_cons.mp distinct
      cases startsToo with
      | here => exact absurd starts.mem absent
      | later builtToo again =>
          obtain ⟨-, rfl⟩ := Prod.mk.inj (built.symm.trans builtToo)
          exact inductionHypothesis restDistinct again

theorem MakesPage.unique {routes : Table} {route : Entry} {page other : Page}
    (distinct : routes.entries.Nodup) (makes : MakesPage config root store routes route page)
    (makesToo : MakesPage config root store routes route other) : page = other := by
  obtain ⟨start, after, starts, built⟩ := makes
  obtain ⟨again, later, startsToo, builtToo⟩ := makesToo
  obtain rfl := starts.eq_of_nodup distinct startsToo
  exact Except.ok.inj (Prod.mk.inj (built.symm.trans builtToo)).1

/-- Each route has its page, in the order of the routes. -/
theorem forall₂_of_buildPages {ledger final : Ledger} {routes : List Entry} {pages : List Page}
    (built : buildPages config root ledger routes = (.ok pages, final)) :
    List.Forall₂ (fun route page => ∃ start after,
      PageStarts config root ledger routes start route ∧
        buildPage config root start route = (.ok page, after)) routes pages := by
  induction routes generalizing ledger pages with
  | nil =>
      simp only [buildPages] at built
      rw [← Except.ok.inj (Prod.mk.inj built).1]
      exact .nil
  | cons route rest inductionHypothesis =>
      simp only [buildPages] at built
      split at built
      · cases built
      · next page after finished =>
        split at built
        · cases built
        · next others later =>
          obtain ⟨same, rfl⟩ := Prod.mk.inj built
          rw [← Except.ok.inj same]
          refine .cons ⟨ledger, after, .here ledger route rest, finished⟩ ?_
          refine (inductionHypothesis later).imp fun other otherPage makes => ?_
          obtain ⟨start, ending, starts, made⟩ := makes
          exact ⟨start, ending, .later finished starts, made⟩

/-- Every page is made for a route. -/
theorem exists_makes_of_mem {final : Ledger} {routes : Table} {pages : List Page} {page : Page}
    (built : buildPages config root (.ofBuild routes store) routes.entries = (.ok pages, final))
    (member : page ∈ pages) :
    ∃ route ∈ routes.entries, MakesPage config root store routes route page := by
  obtain ⟨sameLength, inOrder⟩ := List.forall₂_iff_get.mp (forall₂_of_buildPages built)
  obtain ⟨⟨index, below⟩, rfl⟩ := List.get_of_mem member
  exact ⟨_, List.get_mem _ _, inOrder index (sameLength ▸ below) below⟩

/-- Different entries of a table are entries for different paths. -/
theorem nodup_of_distinct {routes : Table} (distinct : routes.Distinct) :
    routes.entries.Nodup := by
  refine distinct.imp fun {earlier later} apart same => ?_
  rw [same, Path.matchesPath_self] at apart
  cases apart

/-- Among pages whose routes have different texts, each page is found by the text of its
route. -/
theorem page?_of_mem {site : Site} {page : Page} (distinct : (site.pages.map Page.route).Nodup)
    (member : page ∈ site.pages) : site.page? page.route = some page := by
  obtain ⟨other, found⟩ : ∃ other, site.page? page.route = some other :=
    Option.isSome_iff_exists.mp (List.find?_isSome.mpr ⟨page, member, by simp⟩)
  obtain ⟨otherMember, same⟩ := mem_of_page? found
  rw [found, List.inj_on_of_nodup_map distinct otherMember member same]

/-- Pages and routes. Where components register routes only under proper paths, a build that
succeeds makes one page for each route of the survey, in the order of registration. The text of
a page's route is read as the path of its route, and no two pages have routes that are equal or
match. What is found under a text is the page made for the route with this text. -/
theorem pages_correspond_to_routes (config : Config) (root : View) (store after : Asset.Store)
    (site : Site) (asks : root.Asks (.registering Path.IsProper))
    (built : build config root store = (.ok site, after)) :
    ∃ routes, survey config root = .ok routes ∧
      List.Forall₂ (fun route page => MakesPage config root store routes route page ∧
        page.route = route.path.text ∧ Path.ofText page.route = route.path)
        routes.entries site.pages ∧
      site.pages.Pairwise (fun page other => page.route ≠ other.route ∧
        (Path.ofText page.route).matchesPath (Path.ofText other.route) = false) ∧
      ∀ text page, site.page? text = some page ↔
        ∃ route ∈ routes.entries, route.path.text = text ∧
          MakesPage config root store routes route page := by
  obtain ⟨routes, pages, ledger, found, pagesBuilt, rfl⟩ := build_eq_ok built
  have distinct := distinct_of_survey found
  have proper := registered_of_survey Path.isProper_root
    (fun route proper => proper.extend route) asks found
  have reads : ∀ route ∈ routes.entries, Path.ofText route.path.text = route.path :=
    fun route member => Path.ofText_text (proper route member)
  have named : pages.map Page.route = routes.entries.map fun route => route.path.text :=
    routes_of_buildPages pagesBuilt
  have routesDistinct : (pages.map Page.route).Nodup := by
    rw [named]
    exact nodup_routes distinct proper
  have makes : List.Forall₂ (MakesPage config root store routes) routes.entries pages :=
    forall₂_of_buildPages pagesBuilt
  have spelled : ∀ {route page}, MakesPage config root store routes route page →
      page.route = route.path.text := by
    rintro route page ⟨start, after, -, made⟩
    exact (page_of_buildPage made).1
  obtain ⟨sameLength, inOrder⟩ := List.forall₂_iff_get.mp makes
  refine ⟨routes, found, ?_, ?_, fun text page => ⟨fun lookup => ?_, ?_⟩⟩
  · refine List.forall₂_iff_get.mpr ⟨sameLength, fun index below belowToo => ?_⟩
    have made := inOrder index below belowToo
    have isRead := reads _ (List.get_mem routes.entries ⟨index, below⟩)
    exact ⟨made, spelled made, (congrArg Path.ofText (spelled made)).trans isRead⟩
  · have apart : (pages.map Page.route).Pairwise fun earlier later =>
        (Path.ofText earlier).matchesPath (Path.ofText later) = false := by
      rw [named]
      refine List.pairwise_map.mpr (distinct.imp_of_mem ?_)
      intro earlier later earlierMember laterMember unmatched
      rw [reads earlier earlierMember, reads later laterMember]
      exact unmatched
    exact (List.pairwise_map.mp routesDistinct).and (List.pairwise_map.mp apart)
  · obtain ⟨inPages, rfl⟩ := mem_of_page? lookup
    obtain ⟨route, member, made⟩ := exists_makes_of_mem pagesBuilt inPages
    exact ⟨route, member, (spelled made).symm, made⟩
  · rintro ⟨route, member, rfl, made⟩
    obtain ⟨⟨index, below⟩, rfl⟩ := List.get_of_mem member
    have madeToo := inOrder index below (sameLength ▸ below)
    rw [made.unique (nodup_of_distinct distinct) madeToo, ← spelled madeToo]
    exact page?_of_mem routesDistinct (List.get_mem _ _)

/-- The pages of `nestedRoutes`, one of which has a wildcard in its route. -/
theorem nestedRoutes_pages_found :
    ∃ site after page,
      build Config.standard nestedRoutes (.ofConfig Config.standard) = (.ok site, after) ∧
      nestedRoutes.Asks (.registering Path.IsProper) ∧
      site.pages.map Page.route = ["docs", "about", "docs/:page"] ∧
      MakesPage Config.standard nestedRoutes (.ofConfig Config.standard) nestedTable
        ⟨⟨["docs", ":page"]⟩, "Page", "main"⟩ page ∧
      site.page? "docs/:page" = some page := by
  have computed : (build Config.standard nestedRoutes (.ofConfig Config.standard)).1.toOption.map
      (fun site => site.pages.map Page.route) = some ["docs", "about", "docs/:page"] := by
    decide +kernel
  obtain ⟨site, after, built, listed⟩ := exists_site_of_computed computed
  have asks : nestedRoutes.Asks (.registering Path.IsProper) := by
    simp [nestedRoutes, View.Asks, View.AllAsk]
  have settled : survey Config.standard nestedRoutes = .ok nestedTable :=
    eq_ok_of_toOption (by decide +kernel)
  obtain ⟨routes, found, inOrder, -, lookup⟩ := pages_correspond_to_routes Config.standard
    nestedRoutes (.ofConfig Config.standard) after site asks built
  obtain rfl := routes_eq_of_found settled found
  obtain ⟨sameLength, each⟩ := List.forall₂_iff_get.mp inOrder
  have third : 2 < site.pages.length := by
    rw [← sameLength]
    decide
  obtain ⟨made, -, -⟩ := each 2 (by decide) third
  exact ⟨site, after, _, built, asks, listed, made,
    (lookup _ _).mpr ⟨_, List.get_mem nestedTable.entries ⟨2, by decide⟩, rfl, made⟩⟩

end Sitewright.Site

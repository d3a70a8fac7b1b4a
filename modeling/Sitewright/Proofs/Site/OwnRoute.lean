import Sitewright.Proofs.Site.Search

/-!
Contract: every page shows the route that it is the page of.

A route is registered wherever a search comes across it, but entered only if it has a
segment of its own. One without segments adds nothing to the path of the route around it,
which is entered in its stead; outside of all routes there is none around it, and the page
of the root stays without content.

Owns: the content of its own route on the page of each route below the root.

Does not own: the content of other routes on the same page.
-/

namespace Sitewright.Site

open Routing Relation

variable {config : Config} {root : View} {store : Asset.Store}

/-- For every entry below the root, a search comes across a route with its path that has a
segment of its own. -/
theorem exists_named_route (plain : root.IsPlain) {routes : Table}
    (found : survey config root = .ok routes) {entry : Entry} (member : entry ∈ routes.entries)
    (below : entry.path ≠ .root) :
    ∃ known selected stage path title children container,
      InSearch config root known selected stage ∧
      stage.task = .view (.route path title children) ∧
      stage.setting.scope.current.extend path = entry.path ∧
      stage.setting.scope.container = some container ∧ 1 ≤ (Path.ofText path).length := by
  obtain ⟨known, selected, stage, inSearch, isRoute⟩ :=
    (traced_of_survey plain found).met entry member
  obtain ⟨path, children, shown, full⟩ := isRoute.shown
  by_cases named : 1 ≤ (Path.ofText path).length
  · exact ⟨known, selected, stage, path, _, children, _, inSearch, shown, full,
      isRoute.container, named⟩
  · -- Without a segment the path is that of the route around.
    have empty : (Path.ofText path).segments = [] := by
      apply List.length_eq_zero_iff.mp
      unfold Path.length at named
      omega
    have same : stage.setting.scope.current = entry.path := by
      rw [← full]
      unfold Routing.Path.extend
      rw [show Text.pieces '/' path = [] from empty, List.append_nil]
    obtain ⟨outer, content, course, enters, -⟩ :=
      inSearch.runs.route_around rfl inSearch.course (same ▸ below)
    obtain ⟨path, title, children, shown, full⟩ := enters.shown
    obtain ⟨⟨container, inside⟩, selects⟩ :=
      (Stage.inner_route_iff shown).mp ⟨content, enters.step⟩
    exact ⟨known, selected, outer, path, title, children, container, ⟨inSearch.runs, course⟩,
      shown, full.trans same, inside, Scope.named_of_selects selects⟩

/-- Below the root, a route with the path of the page is entered on it. -/
theorem Built.enters_own_route {routes : Table} {pages : List Page} {route : Entry}
    (built : Built config root store routes pages) (member : route ∈ routes.entries)
    (below : route.path ≠ .root) :
    ∃ shown content, OnPage config root store route shown ∧ shown.Enters content route.path := by
  obtain ⟨known, selected, stage, path, title, children, container, inSearch, shown, full, inside,
    named⟩ := exists_named_route built.plain built.found member below
  have leads : route.path.isWithin stage.setting.scope.current = true := by
    apply Path.isWithin_prefix_self
    rw [← full, Path.segments_extend]
    exact List.prefix_append _ _
  obtain ⟨twin, onPage, isTwin⟩ := (built.onPage_twin_iff member inSearch).mpr leads
  have isRoute : twin.task = .view (.route path title children) := isTwin.task.trans shown
  have twinFull : twin.setting.scope.current.extend path = route.path := by
    rw [isTwin.current, full]
  have selects : twin.setting.scope.selects path = true := by
    apply ((built.onPage onPage).1.reached.tracks.selects_iff path).mpr
    rw [twinFull]
    exact ⟨named, Path.isWithin_prefix_self (List.prefix_refl _)⟩
  obtain ⟨content, step⟩ :=
    (Stage.inner_route_iff isRoute).mpr ⟨⟨container, isTwin.container.trans inside⟩, selects⟩
  exact ⟨twin, content, onPage, ⟨⟨path, title, children, isRoute, twinFull⟩, step⟩⟩

/-- The pages of a plain view. Each route that is found has a page, and unless it is the
root, a route with exactly its path is entered on that page and the text of the content stands
there. On the page of the root there is no such route. -/
theorem pages_show_own_route_below_root (config : Config) (root : View)
    (store after : Asset.Store) (site : Site) (plain : root.IsPlain)
    (built : build config root store = (.ok site, after)) :
    ∃ routes, survey config root = .ok routes ∧
      ∀ route ∈ routes.entries, ∃ page ∈ site.pages, page.route = route.path.text ∧
        (route.path ≠ .root ↔ ∃ shown content text front back,
          OnPage config root store route shown ∧ shown.Enters content route.path ∧
            content.outcome.1 = .ok text ∧ page.html = front ++ text ++ back) := by
  obtain ⟨routes, pages, final, found, pagesBuilt, rfl⟩ := build_eq_ok built
  have allBuilt : Built config root store routes pages := ⟨plain, found, final, pagesBuilt⟩
  refine ⟨routes, found, fun route member => ?_⟩
  by_cases below : route.path = .root
  · obtain ⟨start, starts⟩ := PageStarts.of_mem pagesBuilt member
    obtain ⟨page, inPages, isPage, -⟩ := starts.page pagesBuilt
    refine ⟨page, inPages, isPage, fun other => absurd below other, ?_⟩
    rintro ⟨shown, content, text, front, back, -, enters, -⟩
    exact enters.ne_root
  · obtain ⟨shown, content, onPage, enters⟩ := allBuilt.enters_own_route member below
    obtain ⟨-, page, inPages, isPage, text, front, back, ended, inPage⟩ :=
      allBuilt.onPage (onPage.inner enters.step)
    refine ⟨page, inPages, isPage, fun _ => ?_, fun _ => below⟩
    exact ⟨shown, content, text, front, back, onPage, enters, ended, inPage⟩

/-- A home page whose route has no segment, and a route with a wildcard. -/
def tourRoutes : View :=
  .switch "main" []
    [.route "/" "Home" [.text "Welcome"], .route "tour/:stop" "Tour" [.text "First stop"]]

theorem plain_tourRoutes : tourRoutes.IsPlain := by
  refine .switch _ _ (List.forall_mem_cons.mpr ⟨?_, List.forall_mem_singleton.mpr ?_⟩)
  · exact .route _ _ (.ofText "Welcome")
  · exact .route _ _ (.ofText "First stop")

/-- The routes of `tourRoutes`. -/
def tourTable : Table :=
  { entries := [⟨.root, "Home", "main"⟩, ⟨⟨["tour", ":stop"]⟩, "Tour", "main"⟩]
    topContainer := "main" }

theorem survey_tourRoutes : survey Config.standard tourRoutes = .ok tourTable :=
  eq_ok_of_toOption (by decide +kernel)

/-- The page of the tour shows the tour. -/
theorem tourRoutes_show_tour :
    ∃ site after page text front back, ∃ shown content : Stage,
      build Config.standard tourRoutes (.ofConfig Config.standard) = (.ok site, after) ∧
      tourRoutes.IsPlain ∧ page ∈ site.pages ∧ page.route = "tour/:stop" ∧
      shown.Enters content ⟨["tour", ":stop"]⟩ ∧ content.outcome.1 = .ok text ∧
      page.html = front ++ text ++ back := by
  have computed : (build Config.standard tourRoutes (.ofConfig Config.standard)).1.toOption.map
      (fun site => site.pages.length) = some 2 := by decide +kernel
  obtain ⟨site, after, built, -⟩ := exists_site_of_computed computed
  obtain ⟨routes, found, shows⟩ := pages_show_own_route_below_root Config.standard tourRoutes
    (.ofConfig Config.standard) after site plain_tourRoutes built
  obtain rfl := routes_eq_of_found survey_tourRoutes found
  obtain ⟨page, member, isPage, own⟩ :=
    shows ⟨⟨["tour", ":stop"]⟩, "Tour", "main"⟩ (by decide +kernel)
  obtain ⟨shown, content, text, front, back, -, enters, ended, inPage⟩ := own.mp (by decide)
  exact ⟨site, after, page, text, front, back, shown, content, built, plain_tourRoutes, member,
    isPage, enters, ended, inPage⟩

/-- The home page has a router and nothing in it. -/
theorem tourRoutes_home_empty :
    ∃ site after route page,
      build Config.standard tourRoutes (.ofConfig Config.standard) = (.ok site, after) ∧
      survey Config.standard tourRoutes = .ok tourTable ∧ route ∈ tourTable.entries ∧
      tourRoutes.IsPlain ∧ page ∈ site.pages ∧ page.route = route.path.text ∧
      page.html = "<div id=\"main\" class=\"__route-switch\"></div>" ∧
      ¬ ∃ shown content, OnPage Config.standard tourRoutes (.ofConfig Config.standard) route shown ∧
        shown.Enters content route.path := by
  have computed : (build Config.standard tourRoutes (.ofConfig Config.standard)).1.toOption.map
      (fun site => (site.page? "").map Page.html) =
        some (some "<div id=\"main\" class=\"__route-switch\"></div>") := by decide +kernel
  obtain ⟨site, after, built, read⟩ := exists_site_of_computed computed
  obtain ⟨page, isHome, html⟩ := Option.map_eq_some_iff.mp read
  obtain ⟨member, named⟩ := mem_of_page? isHome
  refine ⟨site, after, ⟨.root, "Home", "main"⟩, page, built, survey_tourRoutes,
    List.mem_cons_self, plain_tourRoutes, member, named, html, ?_⟩
  rintro ⟨shown, content, -, enters⟩
  exact enters.ne_root rfl

end Sitewright.Site

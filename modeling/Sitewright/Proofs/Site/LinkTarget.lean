import Sitewright.Proofs.Site.Search

/-!
Contract: the containers that links between pages replace.

A link to a known route replaces the container of that route if the route is below the link,
and the container of the route that the link itself stands in otherwise. Each container is
that of a router which a search has come across. The router is on the page of the link if
the page lies within the path at which it stands, and only then: a link may lead far below
its own place, to a router that is rendered only further down.

Owns: the entry that a link replaces, its router, and the pages on which that router is.

Does not own: links to paths that no route has.
-/

namespace Sitewright.Site

open Markup Routing Relation

variable {config : Config} {root : View} {store : Asset.Store}

/-! ## Routers of entries -/

/-- A search comes across a router with the container of the entry, and inside of it across
the route of the entry. -/
structure RouterAround (config : Config) (root : View) (entry : Entry) (router : Stage) :
    Prop where
  shown : ∃ attributes children,
    router.task = .view (.switch entry.container attributes children)
  met : ∃ known selected route, InSearch config root known selected router ∧
    ReflTransGen Stage.Inner router route ∧ route.IsRoute entry

/-- The router stands at a path above that of the entry. -/
theorem RouterAround.above {entry : Entry} {router : Stage}
    (around : RouterAround config root entry router) :
    router.setting.scope.current.segments <+: entry.path.segments := by
  obtain ⟨known, selected, route, inSearch, course, isRoute⟩ := around.met
  obtain ⟨path, children, -, full⟩ := isRoute.shown
  have begins := (inSearch.runs.course inSearch.course).current_begins course
  rw [← full, Path.segments_extend]
  exact begins.trans (List.prefix_append _ _)

/-- Every entry has a router. -/
theorem exists_routerAround (plain : root.IsPlain) {routes : Table}
    (found : survey config root = .ok routes) {entry : Entry} (member : entry ∈ routes.entries) :
    ∃ router, RouterAround config root entry router := by
  obtain ⟨known, selected, route, inSearch, isRoute⟩ :=
    (traced_of_survey plain found).met entry member
  obtain ⟨router, attributes, children, course, shown, rest⟩ :=
    inSearch.runs.router_around rfl inSearch.course isRoute.container
  exact ⟨router, ⟨attributes, children, shown⟩, known, selected, route, ⟨inSearch.runs, course⟩,
    rest, isRoute⟩

/-! ## Entries of links -/

section Links

variable {routes : Table} {pages : List Page} {route : Entry} {link : Stage}

/-- Below the root, the current path of everything on a page is that of a known route. -/
theorem Built.knows_current (built : Built config root store routes pages)
    (onPage : OnPage config root store route link) (below : link.setting.scope.current ≠ .root) :
    routes.has link.setting.scope.current = true := by
  obtain ⟨start, starts, course⟩ := onPage.course built.found
  obtain ⟨outer, content, before, enters, -⟩ :=
    (built.runs starts).route_around rfl course below
  obtain ⟨path, title, children, shown, full⟩ := enters.shown
  obtain ⟨⟨container, inside⟩, -⟩ := (Stage.inner_route_iff shown).mp ⟨content, enters.step⟩
  have isRoute : outer.IsRoute ⟨link.setting.scope.current, title, container⟩ :=
    ⟨⟨path, children, shown, full⟩, inside⟩
  exact built.known ⟨routes, start, built.found, starts, before⟩ isRoute

/-- A link to a known route replaces the container of a known route. -/
theorem Built.exists_linked (built : Built config root store routes pages)
    (onPage : OnPage config root store route link) {target : Path}
    (known : ∃ entry ∈ routes.entries, entry.path = target) :
    ∃ entry, routes.get? (linkTarget target link.setting.scope.current) = some entry ∧
      if target.IsBelow link.setting.scope.current then entry.path = target
      else routes.get? link.setting.scope.current = some entry := by
  obtain ⟨entry, member, rfl⟩ := known
  have own := (distinct_of_survey built.found).get?_of_mem member
  rw [linkTarget_eq]
  by_cases below : entry.path.IsBelow link.setting.scope.current
  · simp only [if_pos below]
    exact ⟨entry, own, rfl⟩
  · simp only [if_neg below]
    have has : routes.has link.setting.scope.current = true := by
      by_cases outermost : link.setting.scope.current = .root
      · -- Every path is below the root, apart from the root itself.
        have short : entry.path.length = 0 := by
          rw [outermost] at below
          apply Nat.eq_zero_of_not_pos
          exact fun longer => below ⟨longer, rfl⟩
        have same : entry.path.segments = [] := List.length_eq_zero_iff.mp short
        rw [outermost, Table.has_iff]
        exact ⟨entry, member, Path.matchesPath_iff.mpr ⟨short, by rw [same]; rfl⟩⟩
      · exact built.knows_current onPage outermost
    obtain ⟨first, isFirst⟩ := Option.isSome_iff_exists.mp has
    exact ⟨first, isFirst, isFirst⟩

/-- The text of a link. -/
theorem text_of_link {target text : String} {locale : Option String} {attributes : Attributes}
    {children : List View} (shown : link.task = .view (.link target locale attributes children))
    (ended : link.outcome.1 = .ok text) :
    ∃ content, text = elementText "a" (Render.linkAttributes target
      (link.state.ledger.routes.containerOf
        (linkTarget (Path.ofText target) link.setting.scope.current)) locale attributes)
      content := by
  obtain ⟨task, setting, state⟩ := link
  subst shown
  have outcome : View.render (.link target locale attributes children) setting state =
    (.ok text, (View.render (.link target locale attributes children) setting state).2) :=
      Prod.ext ended rfl
  rw [View.render] at outcome
  have linked := Render.ok_of_within outcome
  rw [Render.link_eq_element] at linked
  obtain ⟨content, last, -, isElement⟩ := Render.ok_of_bind linked
  exact ⟨content, (Except.ok.inj (Prod.mk.inj isElement).1).symm⟩

/-- On the page stands a link into the container of the entry that it replaces. -/
theorem Built.link_stands (built : Built config root store routes pages)
    (onPage : OnPage config root store route link) {target : String} {locale : Option String}
    {attributes : Attributes} {children : List View}
    (shown : link.task = .view (.link target locale attributes children)) {entry : Entry}
    (replaced : routes.get? (linkTarget (Path.ofText target) link.setting.scope.current) =
      some entry) :
    ∃ page ∈ pages, page.route = route.path.text ∧ ∃ content front back,
      page.html = front ++ elementText "a"
        (Render.linkAttributes target entry.container locale attributes) content ++ back := by
  obtain ⟨-, page, inPages, isPage, text, front, back, ended, inPage⟩ := built.onPage onPage
  obtain ⟨content, isElement⟩ := text_of_link shown ended
  have container : routes.containerOf
      (linkTarget (Path.ofText target) link.setting.scope.current) = entry.container := by
    unfold Table.containerOf
    rw [replaced]
  rw [onPage.routes_eq built.found, container] at isElement
  exact ⟨page, inPages, isPage, content, front, back, by rw [inPage, isElement]⟩

/-- The page of a link lies within the path of the router, unless there are wildcards or the
link leads to a route below it whose router stands deeper than the link. -/
theorem Built.leads_to_router (built : Built config root store routes pages)
    (onPage : OnPage config root store route link) {target : Path} {entry : Entry} {router : Stage}
    (around : RouterAround config root entry router)
    (choice : if target.IsBelow link.setting.scope.current then entry.path = target
      else routes.get? link.setting.scope.current = some entry)
    (fixed : link.setting.scope.current.IsFixed)
    (notDeeper : target.IsBelow link.setting.scope.current →
      router.setting.scope.current.length ≤ link.setting.scope.current.length) :
    route.path.isWithin router.setting.scope.current = true := by
  have inside := (built.onPage onPage).1.within
  by_cases below : target.IsBelow link.setting.scope.current
  · rw [if_pos below] at choice
    apply Path.isWithin_through fixed around.above (notDeeper below) _ inside
    rw [choice]
    exact below.2
  · rw [if_neg below] at choice
    have matching := (Table.get?_eq_some choice).2
    rw [Path.matchesPath_comm, Path.matchesPath_iff] at matching
    apply Path.isWithin_through fixed around.above _ matching.2 inside
    rw [matching.1]
    exact around.above.length_le

end Links

/-- The links of a plain view between known routes. Wherever a page has a link to a known
route, the link replaces the container of that route if the route is below the current path,
and otherwise the container of the route found under the current path. The container is that of
a router which a search comes across around the route. That router is on the page if and only
if the page lies within the path of the router. So it is on the page if the current path has no
wildcards and, for a route below, the router stands no deeper than the link. -/
theorem links_replace_container_of_route (config : Config) (root : View)
    (store after : Asset.Store) (site : Site) (plain : root.IsPlain)
    (built : build config root store = (.ok site, after)) :
    ∃ routes, survey config root = .ok routes ∧
      ∀ (route : Entry) (link : Stage) (target : String) (locale : Option String)
        (attributes : Attributes) (children : List View),
        OnPage config root store route link →
        link.task = .view (.link target locale attributes children) →
        (∃ known ∈ routes.entries, known.path = Path.ofText target) →
        ∃ entry ∈ routes.entries, ∃ router,
          (if (Path.ofText target).IsBelow link.setting.scope.current then
              entry.path = Path.ofText target
            else routes.get? link.setting.scope.current = some entry) ∧
          (∃ page ∈ site.pages, page.route = route.path.text ∧ ∃ content front back,
            page.html = front ++ elementText "a"
              (Render.linkAttributes target entry.container locale attributes) content ++ back) ∧
          RouterAround config root entry router ∧
          ((∃ twin, OnPage config root store route twin ∧ router.Twin twin) ↔
            route.path.isWithin router.setting.scope.current = true) ∧
          (link.setting.scope.current.IsFixed →
            ((Path.ofText target).IsBelow link.setting.scope.current →
              router.setting.scope.current.length ≤ link.setting.scope.current.length) →
            route.path.isWithin router.setting.scope.current = true) := by
  obtain ⟨routes, pages, final, found, pagesBuilt, rfl⟩ := build_eq_ok built
  have allBuilt : Built config root store routes pages := ⟨plain, found, final, pagesBuilt⟩
  refine ⟨routes, found, ?_⟩
  intro route link target locale attributes children onPage shown known
  obtain ⟨entry, replaced, choice⟩ := allBuilt.exists_linked onPage known
  obtain ⟨member, -⟩ := Table.get?_eq_some replaced
  obtain ⟨router, around⟩ := exists_routerAround plain found member
  obtain ⟨searched, selected, inner, inSearch, -⟩ := around.met
  refine ⟨entry, member, router, choice, allBuilt.link_stands onPage shown replaced, around, ?_, ?_⟩
  · exact allBuilt.onPage_twin_iff (onPage.mem found) inSearch
  · exact allBuilt.leads_to_router onPage around choice

/-- A chapter with a router of its own, and a link to it from all pages. -/
def docsRoutes : View :=
  .switch "main" []
    [.link "/docs/intro" none [] [.text "Introduction"],
     .route "docs" "Docs" [.switch "chapter" [] [.route "intro" "Introduction" [.text "Welcome"]]],
     .route "about" "About" []]

theorem plain_docsRoutes : docsRoutes.IsPlain := by
  have chapter : (View.switch "chapter" []
      [.route "intro" "Introduction" [.text "Welcome"]]).IsPlain :=
    .switch _ _ (List.forall_mem_singleton.mpr (.route _ _ (.ofText "Welcome")))
  refine .switch _ _ (List.forall_mem_cons.mpr ⟨?_, List.forall_mem_cons.mpr ⟨?_, ?_⟩⟩)
  · exact .link _ _ _ (.ofText "Introduction")
  · exact .route _ _ (List.forall_mem_singleton.mpr chapter)
  · exact List.forall_mem_singleton.mpr (.route _ _ (by simp))

/-- The routes of `docsRoutes`. -/
def docsTable : Table :=
  { entries :=
      [⟨⟨["docs"]⟩, "Docs", "main"⟩,
       ⟨⟨["about"]⟩, "About", "main"⟩,
       ⟨⟨["docs", "intro"]⟩, "Introduction", "chapter"⟩]
    topContainer := "main" }

theorem survey_docsRoutes : survey Config.standard docsRoutes = .ok docsTable :=
  eq_ok_of_toOption (by decide +kernel)

/-- Every page of `docsRoutes` has the link. -/
theorem link_onPage_docsRoutes {store after : Asset.Store} {site : Site}
    (built : build Config.standard docsRoutes store = (.ok site, after)) {route : Entry}
    (member : route ∈ docsTable.entries) :
    ∃ link, OnPage Config.standard docsRoutes store route link ∧
      link.task = .view (.link "/docs/intro" none [] [.text "Introduction"]) ∧
      link.setting.scope.current = .root := by
  obtain ⟨routes, pages, final, found, pagesBuilt, -⟩ := build_eq_ok built
  obtain rfl := routes_eq_of_found survey_docsRoutes found
  obtain ⟨start, starts⟩ := PageStarts.of_mem pagesBuilt member
  have page : OnPage Config.standard docsRoutes store route
      (pageStage Config.standard docsRoutes start route) :=
    ⟨docsTable, start, survey_docsRoutes, starts, .refl⟩
  have step : Stage.Inner (pageStage Config.standard docsRoutes start route) _ :=
    .switch [] _ rfl
  exact ⟨_, (page.inner step).inner (.child (.here _ _ _)), rfl, rfl⟩

/-- On the page that it leads to, the link finds the router of the chapter. -/
theorem docsRoutes_chapter_found :
    ∃ site after route, ∃ router : Stage, ∃ attributes children,
      build Config.standard docsRoutes (.ofConfig Config.standard) = (.ok site, after) ∧
      docsRoutes.IsPlain ∧ route.path = ⟨["docs", "intro"]⟩ ∧
      OnPage Config.standard docsRoutes (.ofConfig Config.standard) route router ∧
      router.task = .view (.switch "chapter" attributes children) := by
  have computed : (build Config.standard docsRoutes (.ofConfig Config.standard)).1.toOption.map
      (fun site => site.pages.length) = some 3 := by decide +kernel
  obtain ⟨site, after, built, -⟩ := exists_site_of_computed computed
  obtain ⟨routes, found, replaces⟩ := links_replace_container_of_route Config.standard docsRoutes
    (.ofConfig Config.standard) after site plain_docsRoutes built
  obtain rfl := routes_eq_of_found survey_docsRoutes found
  have intro : (⟨⟨["docs", "intro"]⟩, "Introduction", "chapter"⟩ : Entry) ∈ docsTable.entries := by
    decide +kernel
  obtain ⟨link, onPage, shown, outermost⟩ := link_onPage_docsRoutes built intro
  obtain ⟨entry, member, router, choice, -, around, onPageIff, -⟩ :=
    replaces _ link _ _ _ _ onPage shown ⟨_, intro, by decide +kernel⟩
  rw [outermost, if_pos (by decide +kernel)] at choice
  have isIntro : entry.container = "chapter" := by
    have all : ∀ known ∈ docsTable.entries, known.path = Path.ofText "/docs/intro" →
      known.container = "chapter" := by decide +kernel
    exact all entry member choice
  have above := around.above
  rw [choice] at above
  obtain ⟨twin, twinOnPage, isTwin⟩ := onPageIff.mpr (Path.isWithin_prefix_self above)
  obtain ⟨attributes, children, isRouter⟩ := around.shown
  rw [isIntro] at isRouter
  exact ⟨site, after, _, twin, attributes, children, built, plain_docsRoutes, rfl, twinOnPage,
    isTwin.task.trans isRouter⟩

/-- A group starts its views, in the same setting. -/
theorem inner_of_group {views : List View} {setting : Setting} {state : State} {inner : Stage}
    (step : Stage.Inner ⟨.view (.group views), setting, state⟩ inner) :
    ∃ view ∈ views, ∃ turn, inner = ⟨.view view, setting, turn⟩ := by
  cases step with
  | child sibling => exact ⟨_, sibling.mem, _, rfl⟩

/-- The router of the chapter is not on the page about the docs. -/
theorem not_onPage_about {store : Asset.Store} {router : Stage} {attributes : Attributes}
    {children : List View}
    (onPage : OnPage Config.standard docsRoutes store ⟨⟨["about"]⟩, "About", "main"⟩ router) :
    router.task ≠ .view (.switch "chapter" attributes children) := by
  intro shown
  obtain ⟨routes, start, -, -, course⟩ := onPage
  rcases course.cases_head with rfl | ⟨inside, step, course⟩
  · simp [pageStage, docsRoutes] at shown
  unfold pageStage docsRoutes at step
  cases step with
  | switch _ _ seen =>
    rcases course.cases_head with rfl | ⟨part, step, course⟩
    · cases shown
    obtain ⟨view, member, turn, rfl⟩ := inner_of_group step
    rcases course.cases_head with rfl | ⟨content, step, course⟩
    · simp only [List.mem_cons, List.not_mem_nil, or_false] at member
      obtain rfl := Task.view.inj shown
      simp at member
    simp only [List.mem_cons, List.not_mem_nil, or_false] at member
    rcases member with rfl | rfl | rfl
    · cases step
      rcases course.cases_head with rfl | ⟨part, step, course⟩
      · cases shown
      obtain ⟨text, isText, turn, rfl⟩ := inner_of_group step
      rw [List.mem_singleton.mp isText] at course
      rcases course.cases_head with rfl | ⟨further, step, -⟩
      · cases shown
      · cases step
    · -- The route of the docs is not selected.
      cases step with
      | route _ _ _ selected => exact absurd selected (by decide +kernel)
    · cases step
      rcases course.cases_head with rfl | ⟨part, step, course⟩
      · cases shown
      · obtain ⟨view, none, -⟩ := inner_of_group step
        cases none

/-- The page about the docs has the link to the chapter, but not the router of the chapter. -/
theorem docsRoutes_chapter_missing :
    ∃ site after page, ∃ link : Stage,
      build Config.standard docsRoutes (.ofConfig Config.standard) = (.ok site, after) ∧
      docsRoutes.IsPlain ∧ survey Config.standard docsRoutes = .ok docsTable ∧
      (∃ known ∈ docsTable.entries, known.path = Path.ofText "/docs/intro") ∧
      OnPage Config.standard docsRoutes (.ofConfig Config.standard)
        ⟨⟨["about"]⟩, "About", "main"⟩ link ∧
      link.task = .view (.link "/docs/intro" none [] [.text "Introduction"]) ∧
      page ∈ site.pages ∧ page.route = "about" ∧
      page.html = "<div id=\"main\" class=\"__route-switch\"><a href=\"/docs/intro\" " ++
        "hx-boost=\"true\" hx-target=\"#chapter\" hx-swap=\"outerHTML\">Introduction</a></div>" ∧
      ¬ ∃ router attributes children, OnPage Config.standard docsRoutes
        (.ofConfig Config.standard) ⟨⟨["about"]⟩, "About", "main"⟩ router ∧
          router.task = .view (.switch "chapter" attributes children) := by
  have computed : (build Config.standard docsRoutes (.ofConfig Config.standard)).1.toOption.map
      (fun site => (site.page? "about").map Page.html) = some (some
      ("<div id=\"main\" class=\"__route-switch\"><a href=\"/docs/intro\" " ++
      "hx-boost=\"true\" hx-target=\"#chapter\" hx-swap=\"outerHTML\">Introduction</a></div>")) :=
    by decide +kernel
  obtain ⟨site, after, built, read⟩ := exists_site_of_computed computed
  obtain ⟨page, isAbout, html⟩ := Option.map_eq_some_iff.mp read
  obtain ⟨member, named⟩ := mem_of_page? isAbout
  have about : (⟨⟨["about"]⟩, "About", "main"⟩ : Entry) ∈ docsTable.entries := by decide +kernel
  obtain ⟨link, onPage, shown, -⟩ := link_onPage_docsRoutes built about
  refine ⟨site, after, page, link, built, plain_docsRoutes, survey_docsRoutes, ?_, onPage, shown,
    member, named, html, ?_⟩
  · exact ⟨⟨⟨["docs", "intro"]⟩, "Introduction", "chapter"⟩, by decide +kernel, by decide +kernel⟩
  · rintro ⟨router, attributes, children, onPage, isRouter⟩
    exact not_onPage_about onPage isRouter

end Sitewright.Site

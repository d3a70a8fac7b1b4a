import Sitewright.Proofs.Render.Agreement
import Sitewright.Proofs.Render.Success
import Sitewright.Proofs.Site.Reference

/-!
Contract: a region is compiled to one fragment, whatever page it stands on.

The template of a region is a document of its own, but it is compiled in the scope of its
host. Apart from forms, which the template sees as well, what it can see of the host is the
current path, the selection and the container. A template that does not look at them has
one text wherever it is compiled, so that all placeholders of the region fetch one
fragment; any other template has one text for each place.

Owns:
- the pages of a build that succeeds, whose renders all end with a text;
- `Hosts`, the renders of a region in the course of a build;
- the text that a host compiles the template to, and the fragment that it fetches;
- templates whose texts differ from page to page.

Does not own: which views look at the place where they are rendered.
-/

namespace Sitewright

open Markup Catalog Routing Template

/-- The render of the template of a region that is about to be rendered. -/
def Stage.ofTemplate (stage : Stage) (region : Region) (template : DataRef → View) : Stage :=
  { task := .view (template .ofFragment)
    setting := { stage.setting with scope := stage.setting.scope.detached }
    state := { stage.state with
      ledger := { stage.state.ledger with numbering := .ofTemplate region.resource } } }

namespace Render

/-- The handle of a compiled template is made of the text that its document has. -/
theorem handle_of_compileTemplate {resource : String} {template : Render String}
    {setting : Setting} {state after : State} {handle : Handle} (pass : setting.pass = .build)
    (outcome : compileTemplate resource template setting state = (.ok handle, after)) :
    ∃ text, (inDocument (.ofTemplate resource) template setting state).1 = .ok text ∧
      handle.id = Digest.fingerprint resource text := by
  obtain ⟨text, inner, compiled, stored⟩ := ok_of_bind outcome
  refine ⟨text, congrArg Prod.fst compiled, ?_⟩
  have results : (inner.ledger.storeTemplate setting resource text).2 = handle :=
    Except.ok.inj (congrArg Prod.fst stored)
  rw [← results]
  simp only [Ledger.storeTemplate, pass]
  rfl

end Render

namespace Site

variable {config : Config} {root : View} {store : Asset.Store}

/-! ## What is kept until the end of a build -/

theorem grows_buildPage (ledger : Ledger) (route : Entry) :
    ledger.Grows (buildPage config root ledger route).2 := by
  have opened : ledger.Grows ledger.nextPage := ⟨rfl, Asset.Store.PartOf.refl _⟩
  have steps := View.render_steps root
    { config, pass := .build, scope := .page route.path route.title } ledger.nextPage
  rw [ledger_buildPage]
  exact opened.trans (Ledger.Steps.grows steps)

theorem grows_buildPages (routes : List Entry) (ledger : Ledger) :
    ledger.Grows (buildPages config root ledger routes).2 :=
  buildPages_keeps (fun after route grown => grown.trans (grows_buildPage after route))
    routes ledger (.refl ledger)

theorem catalog_buildPages (routes : List Entry) {ledger : Ledger}
    (reachable : ledger.catalog.Reachable) :
    (buildPages config root ledger routes).2.catalog.Reachable := by
  let Kept : Ledger → Prop := fun ledger => ledger.catalog.Reachable
  refine buildPages_keeps (fun before route (kept : Kept before) => ?_) routes ledger reachable
  have steps := View.render_steps root
    { config, pass := .build, scope := .page route.path route.title } before.nextPage
  rw [ledger_buildPage]
  exact steps.catalog kept

theorem addressed_buildPages (routes : List Entry) {ledger : Ledger}
    (reachable : ledger.catalog.Reachable) :
    (buildPages config root ledger routes).2.catalog.Addressed :=
  (catalog_buildPages routes reachable).addressed

/-- The routes after a render are those of the build, and its store is a part of the last
one. -/
theorem Rendered.grows {stage : Stage} {routes : Table}
    (rendered : Rendered config root store stage) (found : survey config root = .ok routes) :
    stage.outcome.2.ledger.Grows
      (buildPages config root (.ofBuild routes store) routes.entries).2 := by
  obtain ⟨others, start, route, foundToo, starts, leads⟩ := rendered.leads
  obtain rfl := routes_eq_of_found found foundToo
  have passes : Ledger.Steps config .build True stage.outcome.2.ledger
      (pageStage config root start route).outcome.2.ledger := leads.passes
  exact starts.keeps (fun after route grown => grown.trans (grows_buildPage after route))
    passes.grows

/-! ## Builds that succeed -/

/-- The page holds the text and the requirements of its render. -/
theorem page_of_buildPage {ledger after : Ledger} {route : Entry} {page : Page}
    (built : buildPage config root ledger route = (.ok page, after)) :
    page.route = route.path.text ∧
      (pageStage config root ledger route).outcome.1 = .ok page.html ∧
        page.requirements =
          (pageStage config root ledger route).outcome.2.ledger.notes.requirements := by
  simp only [buildPage] at built
  split at built
  · next html state rendered =>
    obtain ⟨same, -⟩ := Prod.mk.inj built
    obtain rfl := Except.ok.inj same
    have outcome : (pageStage config root ledger route).outcome = (.ok html, state) := rendered
    rw [outcome]
    exact ⟨rfl, rfl, rfl⟩
  · cases (Prod.mk.inj built).1

/-- The page of a route in a build that succeeds. -/
theorem PageStarts.page {ledger start final : Ledger} {routes : List Entry} {route : Entry}
    {pages : List Page} (starts : PageStarts config root ledger routes start route)
    (built : buildPages config root ledger routes = (.ok pages, final)) :
    ∃ page ∈ pages, page.route = route.path.text ∧
      (pageStage config root start route).outcome.1 = .ok page.html ∧
        page.requirements =
          (pageStage config root start route).outcome.2.ledger.notes.requirements := by
  induction starts generalizing pages with
  | here ledger route rest =>
      simp only [buildPages] at built
      split at built
      · cases built
      · next page after finished =>
        split at built
        · cases built
        · obtain ⟨same, -⟩ := Prod.mk.inj built
          rw [← Except.ok.inj same]
          exact ⟨page, List.mem_cons_self, page_of_buildPage finished⟩
  | later page _ inductionHypothesis =>
      simp only [buildPages, page] at built
      split at built
      · cases built
      · next others finished =>
        obtain ⟨same, rfl⟩ := Prod.mk.inj built
        rw [← Except.ok.inj same]
        obtain ⟨page, member, shape⟩ := inductionHypothesis finished
        exact ⟨page, List.mem_cons_of_mem _ member, shape⟩

theorem PageStarts.ends {ledger start final : Ledger} {routes : List Entry} {route : Entry}
    {pages : List Page} (starts : PageStarts config root ledger routes start route)
    (built : buildPages config root ledger routes = (.ok pages, final)) :
    root.render.Ends (pageStage config root start route).setting (.ofLedger start.nextPage) := by
  obtain ⟨page, -, -, outcome, -⟩ := starts.page built
  exact ⟨page.html, _, Prod.ext outcome rfl⟩

/-- Every route of a build that succeeds has a page. -/
theorem PageStarts.of_mem {ledger final : Ledger} {routes : List Entry} {pages : List Page}
    (built : buildPages config root ledger routes = (.ok pages, final)) {route : Entry}
    (member : route ∈ routes) : ∃ start, PageStarts config root ledger routes start route := by
  induction routes generalizing ledger pages with
  | nil => cases member
  | cons first rest inductionHypothesis =>
      rcases List.mem_cons.mp member with rfl | later
      · exact ⟨ledger, .here ledger route rest⟩
      · simp only [buildPages] at built
        split at built
        · cases built
        · next page after finished =>
          split at built
          · cases built
          · next others =>
            obtain ⟨-, rfl⟩ := Prod.mk.inj built
            obtain ⟨start, starts⟩ := inductionHypothesis others later
            exact ⟨start, .later finished starts⟩

/-- Every render in the course of a build that succeeds ends with a text. -/
theorem Rendered.ends {stage : Stage} {routes : Table} {pages : List Page} {final : Ledger}
    (rendered : Rendered config root store stage) (found : survey config root = .ok routes)
    (built : buildPages config root (.ofBuild routes store) routes.entries = (.ok pages, final)) :
    stage.task.render.Ends stage.setting stage.state := by
  induction rendered with
  | @page others start route foundToo starts =>
      obtain rfl := routes_eq_of_found found foundToo
      exact starts.ends built
  | inner _ step inductionHypothesis => exact step.ends inductionHypothesis

/-! ## Hosts -/

/-- A render of a region in the course of a build: on a page and not in a search that a
component makes, and outside of every form. -/
structure Hosts (config : Config) (root : View) (store : Asset.Store) (region : Region)
    (template : DataRef → View) (stage : Stage) : Prop where
  rendered : Rendered config root store stage
  shown : ∃ fallback, stage.task = .view (.remote region template fallback)
  building : stage.setting.scope.building = true
  alone : stage.setting.scope.form = none

variable {region : Region} {template : DataRef → View} {stage other : Stage}

/-- Wherever a build renders a region to a text, its template has a text, and the placeholder
fetches what is stored under the fingerprint of it. -/
theorem Rendered.compiled {routes : Table} {text : String} {fallback : View}
    (rendered : Rendered config root store stage)
    (shown : stage.task = .view (.remote region template fallback))
    (found : survey config root = .ok routes) (ended : stage.outcome.1 = .ok text) :
    ∃ compiled content, (stage.ofTemplate region template).outcome.1 = .ok compiled ∧
      (buildPages config root (.ofBuild routes store) routes.entries).2.catalog.Stores
        (Digest.fingerprint region.resource compiled) ∧
      text = elementText "div"
        (region.loading.placeholderAttributes config.fragmentHeader
          stage.setting.scope.current.text
            (config.fragmentUrl (Digest.fingerprint region.resource compiled))) content := by
  obtain ⟨rfl, pass, waits, grown⟩ := rendered.extends found
  obtain ⟨task, setting, state⟩ := stage
  subst shown
  have outcome : View.render (.remote region template fallback) setting state =
      (.ok text, (Stage.outcome ⟨.view (.remote region template fallback), setting, state⟩).2) :=
    Prod.ext ended rfl
  rw [View.render] at outcome
  obtain ⟨handle, after, content, compiles, stores, written⟩ := Render.compiled_of_remote pass
    waits (View.render_stepwise _) (View.render_stepwise _) (Render.ok_of_within outcome)
  obtain ⟨compiled, rendersTo, id⟩ := Render.handle_of_compileTemplate pass compiles
  rw [id] at stores written
  exact ⟨compiled, content, rendersTo, stores.mono grown.fragments, written⟩

/-- The template of a hosted region has a text, and the placeholder fetches what is stored
under the fingerprint of it. -/
theorem Hosts.compiled {routes : Table} {text : String}
    (hosts : Hosts config root store region template stage)
    (found : survey config root = .ok routes) (ended : stage.outcome.1 = .ok text) :
    ∃ compiled content, (stage.ofTemplate region template).outcome.1 = .ok compiled ∧
      (buildPages config root (.ofBuild routes store) routes.entries).2.catalog.Stores
        (Digest.fingerprint region.resource compiled) ∧
      text = elementText "div"
        (region.loading.placeholderAttributes config.fragmentHeader
          stage.setting.scope.current.text
            (config.fragmentUrl (Digest.fingerprint region.resource compiled))) content := by
  obtain ⟨fallback, shown⟩ := hosts.shown
  exact hosts.rendered.compiled shown found ended

/-- Two hosts compile a secluded template to one text. If it mentions its place, the hosts
must be in the same one. -/
theorem Hosts.agree {routes : Table} {here : Prop}
    (hosts : Hosts config root store region template stage)
    (others : Hosts config root store region template other)
    (found : survey config root = .ok routes)
    (secluded : (template .ofFragment).Secluded here)
    (place : here → stage.setting.scope.current = other.setting.scope.current ∧
      stage.setting.scope.selected = other.setting.scope.selected ∧
        stage.setting.scope.container = other.setting.scope.container)
    {compiled otherCompiled : String}
    (ended : (stage.ofTemplate region template).outcome.1 = .ok compiled)
    (otherEnded : (other.ofTemplate region template).outcome.1 = .ok otherCompiled) :
    compiled = otherCompiled := by
  obtain ⟨rendered, ⟨fallback, shown⟩, building, alone⟩ := hosts
  obtain ⟨otherRendered, ⟨otherFallback, otherShown⟩, otherBuilding, otherAlone⟩ := others
  obtain ⟨configs, pass, waits, -⟩ := rendered.extends found
  obtain ⟨otherConfigs, otherPass, otherWaits, -⟩ := otherRendered.extends found
  obtain ⟨task, ⟨config, _, scope⟩, state⟩ := stage
  obtain ⟨otherTask, ⟨_, _, otherScope⟩, otherState⟩ := other
  subst shown otherShown pass otherPass otherConfigs configs
  have templateRendered := rendered.inner (.template _ state region template fallback)
  have otherTemplateRendered :=
    otherRendered.inner (.template _ otherState region template otherFallback)
  have grown := templateRendered.grows found
  have otherGrown := otherTemplateRendered.grows found
  have began := (View.render_stepwise (template .ofFragment) (scope.detached.built config)
    { state with ledger := { state.ledger with numbering := .ofTemplate region.resource } } waits).1
  have otherBegan := (View.render_stepwise (template .ofFragment)
    (otherScope.detached.built config)
    { otherState with
      ledger := { otherState.ledger with numbering := .ofTemplate region.resource } } otherWaits).1
  have scopes : scope.detached.Alike here False False otherScope.detached :=
    { building := ⟨building, otherBuilding⟩
      conditional := rfl
      shell := rfl
      form := alone.trans otherAlone.symm
      joins := by simp [Scope.detached]
      collects := by simp [Scope.detached]
      refreshes := by
        intro form around
        rw [show scope.detached.form = none from alone] at around
        cases around
      place := place }
  have routesKept := (began.grows.trans grown).routes
  have otherRoutesKept := (otherBegan.grows.trans otherGrown).routes
  have states : State.Alike config
      (buildPages config root (.ofBuild routes store) routes.entries).2.assets here False False
      { state with ledger := { state.ledger with numbering := .ofTemplate region.resource } }
      { otherState with
        ledger := { otherState.ledger with numbering := .ofTemplate region.resource } } :=
    { ledger :=
        { numbering := rfl
          routes := routesKept.symm.trans otherRoutesKept
          metaTags := False.elim }
      branch := False.elim
      agrees := False.elim
      firstWaits := waits
      secondWaits := otherWaits }
  have agrees := (View.render_agrees (template .ofFragment) secluded).alike scopes states
    (Prod.ext ended rfl) (Prod.ext otherEnded rfl) grown.assets otherGrown.assets
  exact agrees.1

/-- The fragment of a region. Wherever a successful build renders a region on its pages,
outside of forms, the template has a text and the placeholder fetches the one fragment of
the site that is stored under the fingerprint of it: the text itself, unless it is confused
with another one. At two such positions both are the same if the template does not mention
its place, or if the positions agree about current path, selection and container. -/
theorem region_compiled_to_one_fragment (config : Config) (root : View)
    (store after : Asset.Store) (site : Site)
    (built : build config root store = (.ok site, after)) (here : Prop) (region : Region)
    (template : DataRef → View) (secluded : (template .ofFragment).Secluded here)
    (stage other : Stage) (hosts : Hosts config root store region template stage)
    (others : Hosts config root store region template other)
    (place : here → stage.setting.scope.current = other.setting.scope.current ∧
      stage.setting.scope.selected = other.setting.scope.selected ∧
        stage.setting.scope.container = other.setting.scope.container) :
    ∃ compiled fragment,
      (stage.ofTemplate region template).outcome.1 = .ok compiled ∧
      (other.ofTemplate region template).outcome.1 = .ok compiled ∧
      fragment ∈ site.fragments ∧
      fragment.fingerprint = Digest.fingerprint region.resource compiled ∧
      (∀ stored ∈ site.fragments, stored.fingerprint = fragment.fingerprint → stored = fragment) ∧
      ((fragment.resource = region.resource ∧ fragment.template = compiled) ∨
        Digest.Confused fragment.resource fragment.template region.resource compiled) ∧
      ∀ host ∈ [stage, other], ∃ content, host.outcome.1 = .ok (elementText "div"
        (region.loading.placeholderAttributes config.fragmentHeader
          host.setting.scope.current.text (config.fragmentUrl fragment.fingerprint)) content) := by
  obtain ⟨routes, pages, ledger, found, pagesBuilt, rfl⟩ := build_eq_ok built
  obtain ⟨text, final, outcome⟩ := hosts.rendered.ends found pagesBuilt
  obtain ⟨otherText, otherFinal, otherOutcome⟩ := others.rendered.ends found pagesBuilt
  have ended : stage.outcome.1 = .ok text := congrArg Prod.fst outcome
  have otherEnded : other.outcome.1 = .ok otherText := congrArg Prod.fst otherOutcome
  obtain ⟨compiled, content, compiles, stores, written⟩ := hosts.compiled found ended
  obtain ⟨otherCompiled, otherContent, otherCompiles, -, otherWritten⟩ :=
    others.compiled found otherEnded
  obtain rfl := hosts.agree others found secluded place compiles otherCompiles
  have addressed : (buildPages config root (.ofBuild routes store)
      routes.entries).2.catalog.Addressed := addressed_buildPages routes.entries .empty
  rw [pagesBuilt] at stores addressed
  obtain ⟨fragment, member, same⟩ := stores
  refine ⟨compiled, fragment, compiles, otherCompiles, member, same, ?_, ?_, ?_⟩
  · exact fun stored inSite alike => addressed.only inSite member alike
  · apply Digest.eq_or_confused_of_fingerprint_eq
    rw [addressed.made fragment member] at same
    exact same
  · rw [same]
    rintro host (_ | ⟨_, _ | ⟨_, ⟨⟩⟩⟩)
    · exact ⟨content, ended.trans (congrArg Except.ok written)⟩
    · exact ⟨otherContent, otherEnded.trans (congrArg Except.ok otherWritten)⟩

/-! ## A region on two pages -/

/-- The region of a cart. -/
def cartRegion : Region :=
  { kind := .single, resource := "cart", loading := .standard, island := some "cart" }

/-- A template in the region of a cart on two pages, one of which has a page below it. -/
def cartPages (template : DataRef → View) : View :=
  .switch "main" []
    [.route "a" "A" [.remote cartRegion template .blank, .switch "inner" [] [.route "c" "C" []]],
     .route "about" "B" [.remote cartRegion template .blank]]

def likeAction : Action :=
  { identity := 0, method := .post, name := "like", islands := [] }

/-- A button that posts, and refreshes islands. -/
def likeButton (islands : List String) : View :=
  .quickButton likeAction { islands, items := [] } [] [] [] [.text "Like"]

/-- Both of the pages host the region. -/
theorem hosts_of_cartPages {template : DataRef → View} {routes : Table} {pages : List Page}
    {final : Ledger} (found : survey config (cartPages template) = .ok routes)
    (built : buildPages config (cartPages template) (.ofBuild routes store) routes.entries =
      (.ok pages, final)) {route : Entry} (member : route ∈ routes.entries)
    (path : route.path = ⟨["a"]⟩ ∨ route.path = ⟨["about"]⟩) :
    ∃ stage, Hosts config (cartPages template) store cartRegion template stage ∧
      stage.setting.scope.current = route.path := by
  obtain ⟨start, starts⟩ := PageStarts.of_mem built member
  have page := Rendered.page found starts
  obtain ⟨_, title, container⟩ := route
  have entered := page.inner (.switch [] _ rfl)
  rcases path with rfl | rfl
  · have chosen := (entered.inner (.child (.here _ _ _))).inner (.route _ rfl rfl rfl)
    exact ⟨_, ⟨chosen.inner (.child (.here _ _ _)), ⟨_, rfl⟩, rfl, rfl⟩, rfl⟩
  · have chosen := (entered.inner (.child (.later rfl (.here _ _ _)))).inner (.route _ rfl rfl rfl)
    exact ⟨_, ⟨chosen.inner (.child (.here _ _ _)), ⟨_, rfl⟩, rfl, rfl⟩, rfl⟩

/-- A button that refreshes nothing has one text on both pages, and both placeholders fetch
the one fragment that it is stored in. -/
theorem cartPages_share_fragment :
    ∃ (site : Site) (after : Asset.Store) (stage other : Stage) (compiled : String)
        (fragment : Fragment),
      build .standard (cartPages fun _ => likeButton []) (.ofConfig .standard) =
        (.ok site, after) ∧
      stage.setting.scope.current = ⟨["a"]⟩ ∧ other.setting.scope.current = ⟨["about"]⟩ ∧
      (stage.ofTemplate cartRegion fun _ => likeButton []).outcome.1 = .ok compiled ∧
      (other.ofTemplate cartRegion fun _ => likeButton []).outcome.1 = .ok compiled ∧
      fragment ∈ site.fragments ∧
      fragment.fingerprint = Digest.fingerprint "cart" compiled := by
  have succeeds : (build .standard (cartPages fun _ => likeButton [])
      (.ofConfig .standard)).1.toOption.isSome = true := by decide +kernel
  rcases built : build .standard (cartPages fun _ => likeButton []) (.ofConfig .standard) with
    ⟨fault | site, after⟩
  · rw [built] at succeeds
    cases succeeds
  · obtain ⟨routes, pages, ledger, found, pagesBuilt, -⟩ := build_eq_ok built
    have paths : (survey .standard (cartPages fun _ => likeButton [])).toOption.map
        (fun routes => routes.entries.map Entry.path) =
          some [⟨["a"]⟩, ⟨["about"]⟩, ⟨["a", "c"]⟩] := by decide +kernel
    rw [found] at paths
    have listed : routes.entries.map Entry.path = [⟨["a"]⟩, ⟨["about"]⟩, ⟨["a", "c"]⟩] :=
      Option.some.inj paths
    obtain ⟨routeA, memberA, pathA⟩ : ∃ route ∈ routes.entries, route.path = ⟨["a"]⟩ :=
      List.mem_map.mp (by simp [listed])
    obtain ⟨routeB, memberB, pathB⟩ : ∃ route ∈ routes.entries, route.path = ⟨["about"]⟩ :=
      List.mem_map.mp (by simp [listed])
    obtain ⟨stage, hosts, current⟩ := hosts_of_cartPages found pagesBuilt memberA (Or.inl pathA)
    obtain ⟨other, others, otherCurrent⟩ :=
      hosts_of_cartPages found pagesBuilt memberB (Or.inr pathB)
    have secluded : (likeButton []).Secluded False := by
      simp [likeButton, likeAction, View.Secluded, View.AllSecluded, Refresh.islandIds,
        Refresh.appendNew]
    obtain ⟨compiled, fragment, compiles, otherCompiles, member, fingerprint, -⟩ :=
      region_compiled_to_one_fragment .standard _ (.ofConfig .standard) after site built False
        cartRegion (fun _ => likeButton []) secluded stage other hosts others False.elim
    exact ⟨site, after, stage, other, compiled, fragment, rfl, current.trans pathA,
      otherCurrent.trans pathB, compiles, otherCompiles, member, fingerprint⟩

/-- The resources of the fragments of a site with a template in the region of a cart. -/
def cartFragments (template : DataRef → View) : Option (List String) :=
  (build .standard (cartPages template) (.ofConfig .standard)).1.toOption.map fun site =>
    site.fragments.map Fragment.resource

/-- The text of a view on the page of a route of `cartPages`. -/
def cartText (route : String) (view : View) : Option String :=
  let scope := ((Scope.page (.ofText route) "").inRouter "main").enter route
  let routes : Table :=
    { entries :=
        [⟨⟨["a"]⟩, "A", "main"⟩, ⟨⟨["about"]⟩, "B", "main"⟩, ⟨⟨["a", "c"]⟩, "C", "inner"⟩]
      topContainer := "main" }
  (view.render { config := .standard, pass := .build, scope }
    (.ofLedger (.ofBuild routes (.ofConfig .standard)))).1.toOption

/-- Templates that mention their place have several texts. A route is compiled to one
fragment where it is selected and to another one where it is not, and a link is swapped
into the container that is right for the current path. A button that refreshes islands and
the placeholder of a region send the current path. -/
theorem cartPages_differ :
    cartFragments (fun _ => .route "d" "D" [.text "d"]) = some ["cart", "cart"] ∧
      cartText "a" (.link "/a/c" none [] []) ≠ cartText "about" (.link "/a/c" none [] []) ∧
      likeAction.buttonAttributes "form_1" "a" ["cart"] [] [] ≠
        likeAction.buttonAttributes "form_1" "about" ["cart"] [] [] ∧
      Loading.standard.placeholderAttributes "X-Fragment-Route" "a" "/__dyn/0" ≠
        Loading.standard.placeholderAttributes "X-Fragment-Route" "about" "/__dyn/0" := by
  refine ⟨?_, ?_, ?_, ?_⟩ <;> decide +kernel

end Site

end Sitewright

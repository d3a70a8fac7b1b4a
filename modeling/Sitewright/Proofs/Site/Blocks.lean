import Sitewright.Proofs.Render.Balance
import Sitewright.Proofs.Site.Enclosure

/-!
Contract: the pages and templates of a site have properly nested blocks.

Owns:
- tables, ledgers and stores that stay tidy in the course of a survey and a build;
- the blocks of every page and every template of a site.

Does not own: views with components, which may write anything.
-/

namespace Sitewright

open Text Template Routing

theorem Ledger.tidy_ofSearch {config : Config} {routes : Table} (free : config.BraceFree)
    (tidy : routes.Tidy) : (ofSearch config routes).Tidy where
  routes := tidy
  assets := ⟨free.staticUrl, free.assetPrefix.trim '/', by simp [ofSearch, Asset.Store.ofConfig]⟩
  fragments := by simp [ofSearch, Catalog.empty]
  forms := (by decide : BraceFree "form")
  metaTags := by simp [ofSearch]

theorem Ledger.tidy_ofBuild {routes : Table} {store : Asset.Store} (tidy : routes.Tidy)
    (storeTidy : store.Tidy) : (ofBuild routes store).Tidy where
  routes := tidy
  assets := storeTidy
  fragments := by simp [ofBuild, Catalog.empty]
  forms := (by decide : BraceFree "form")
  metaTags := by simp [ofBuild]

theorem Ledger.Tidy.nextPage {ledger : Ledger} (tidy : ledger.Tidy) : ledger.nextPage.Tidy where
  routes := tidy.routes
  assets := tidy.assets
  fragments := tidy.fragments
  forms := (by decide : BraceFree "form")
  metaTags := by simp [Ledger.nextPage]

theorem Scope.tidy_probe (selected : Path) : (Scope.probe selected).Tidy :=
  ⟨by simp [Scope.probe, Scope.outermost, Path.root],
    by simp [Scope.probe, Scope.outermost], by simp [Scope.probe, Scope.outermost]⟩

theorem Scope.tidy_page (route : Path) (title : String) : (Scope.page route title).Tidy :=
  ⟨by simp [Scope.page, Scope.outermost, Path.root],
    by simp [Scope.page, Scope.outermost], by simp [Scope.page, Scope.outermost]⟩

namespace Site

variable {config : Config} {root : View}

theorem tidy_of_search (free : config.BraceFree) (rootTidy : root.Tidy) {routes known : Table}
    {selected : Path} {found : List Path} (tidy : routes.Tidy)
    (outcome : search config root routes selected = .ok (known, found)) : known.Tidy := by
  obtain ⟨text, state, rendered, rfl, -⟩ := Progress.search_eq_ok outcome
  have started := State.tidy_ofLedger (Ledger.tidy_ofSearch free tidy)
  have setting : Setting.Tidy { config, pass := .search, scope := .probe selected } :=
    ⟨free, Scope.tidy_probe selected⟩
  exact (View.render_yields root rootTidy _ _ _ _ setting started rendered).2.ledger.routes

/-- The containers that a survey comes across are those of the view. -/
theorem tidy_of_searchAll (free : config.BraceFree) (rootTidy : root.Tidy) {limit probes : Nat}
    {queue : List Path} {routes known : Table} (tidy : routes.Tidy)
    (outcome : searchAll config root limit probes queue routes = .ok known) : known.Tidy := by
  induction probes generalizing queue routes with
  | zero =>
      cases queue with
      | nil =>
          obtain rfl := Except.ok.inj outcome
          exact tidy
      | cons selected queue => cases outcome
  | succ probes inductionHypothesis =>
      cases queue with
      | nil =>
          obtain rfl := Except.ok.inj outcome
          exact tidy
      | cons selected queue =>
          simp only [searchAll] at outcome
          split at outcome
          · next others found searched =>
            exact inductionHypothesis (tidy_of_search free rootTidy tidy searched) outcome
          · cases outcome

theorem tidy_of_survey (free : config.BraceFree) (rootTidy : root.Tidy) {routes : Table}
    (outcome : survey config root = .ok routes) : routes.Tidy := by
  unfold survey at outcome
  split at outcome
  · cases outcome
  · have empty : Table.Tidy .empty :=
      ⟨by simp [Table.empty], inert_of_braceFree braceFree_empty⟩
    exact tidy_of_searchAll free rootTidy empty outcome

theorem balanced_buildPage (free : config.BraceFree) (rootTidy : root.Tidy) {ledger after : Ledger}
    {route : Entry} {page : Page} (tidy : ledger.Tidy)
    (built : buildPage config root ledger route = (.ok page, after)) :
    Balanced page.html ∧ after.Tidy := by
  have started := State.tidy_ofLedger tidy.nextPage
  have setting : Setting.Tidy
      { config, pass := .build, scope := .page route.path route.title } :=
    ⟨free, Scope.tidy_page route.path route.title⟩
  simp only [buildPage] at built
  split at built
  · next html state rendered =>
    obtain ⟨balanced, afterTidy⟩ :=
      View.render_yields root rootTidy _ _ _ _ setting started rendered
    obtain ⟨same, rfl⟩ := Prod.mk.inj built
    rw [← Except.ok.inj same]
    exact ⟨balanced, afterTidy.ledger⟩
  · cases (Prod.mk.inj built).1

theorem balanced_buildPages (free : config.BraceFree) (rootTidy : root.Tidy)
    {routes : List Entry} {ledger after : Ledger} {pages : List Page} (tidy : ledger.Tidy)
    (built : buildPages config root ledger routes = (.ok pages, after)) :
    (∀ page ∈ pages, Balanced page.html) ∧ after.Tidy := by
  induction routes generalizing ledger after pages with
  | nil =>
      obtain ⟨same, rfl⟩ := Prod.mk.inj built
      rw [← Except.ok.inj same]
      exact ⟨by simp, tidy⟩
  | cons route rest inductionHypothesis =>
      simp only [buildPages] at built
      split at built
      · cases (Prod.mk.inj built).1
      · next page between first =>
        obtain ⟨pageBalanced, betweenTidy⟩ := balanced_buildPage free rootTidy tidy first
        split at built
        · cases (Prod.mk.inj built).1
        · next others last others =>
          obtain ⟨othersBalanced, afterTidy⟩ := inductionHypothesis betweenTidy others
          obtain ⟨same, rfl⟩ := Prod.mk.inj built
          rw [← Except.ok.inj same]
          refine ⟨?_, afterTidy⟩
          intro other member
          rcases List.mem_cons.mp member with rfl | inRest
          · exact pageBalanced
          · exact othersBalanced other inRest

/-- The blocks of a site. If the strings of a view, of the options and of the store
cannot be taken for actions, every page and every template that is built consists of
closed actions in properly nested blocks. -/
theorem build_blocks_nested (config : Config) (root : View) (store after : Asset.Store)
    (site : Site) (optionsFree : config.BraceFree) (reachable : store.Reachable)
    (addressFree : BraceFree store.staticUrl) (directoryFree : BraceFree store.directory)
    (tidy : root.Tidy) (built : build config root store = (.ok site, after)) :
    (∀ page ∈ site.pages, WellNested page.html) ∧
      ∀ fragment ∈ site.fragments, WellNested fragment.template := by
  obtain ⟨routes, pages, ledger, found, pagesBuilt, rfl⟩ := build_eq_ok built
  have routesTidy := tidy_of_survey optionsFree tidy found
  have start := Ledger.tidy_ofBuild routesTidy (reachable.tidy addressFree directoryFree)
  obtain ⟨balanced, ledgerTidy⟩ := balanced_buildPages optionsFree tidy start pagesBuilt
  exact ⟨fun page member => (balanced page member).wellNested,
    fun fragment member => (ledgerTidy.fragments fragment member).wellNested⟩

/-- A region with a loop, and a loop inside a conditional, whose body is a conditional
with an alternative left by a marker. -/
def basketRoutes : View :=
  .switch "main" []
    [.route "basket" "Basket"
      [.conditional (.ref ⟨".items"⟩) false
        [.loop ⟨".items"⟩ fun element position =>
          .conditional (.ref element) true [.ofRef position, .alternative (.ofRef element)] none]
        (some (.text "empty")),
       SingleRegion.view
        (.ofBody "cart" fun cart => .loop cart fun element _ => .ofRef element)]]

theorem tidy_basketRoutes : basketRoutes.Tidy := by
  have element (numbering : Numbering) :=
    View.tidy_ofRef (DataRef.plain_elementName numbering)
  have position (numbering : Numbering) :=
    View.tidy_ofRef (DataRef.plain_positionName numbering)
  have items : BraceFree ".items" := by decide
  have branches (numbering : Numbering) : View.Tidy (.conditional (.ref ⟨numbering.elementName⟩)
      true [.ofRef ⟨numbering.positionName⟩, .alternative (.ofRef ⟨numbering.elementName⟩)]
      none) := by
    simp only [View.Tidy, View.AllTidy]
    exact ⟨numbering.braceFree_elementName, position numbering, element numbering, trivial⟩
  have region : (SingleRegion.view
      (.ofBody "cart" fun cart => .loop cart fun element _ => .ofRef element)).Tidy := by
    refine SingleRegion.tidy_view (by simp [SingleRegion.ofBody])
      ⟨by simp [SingleRegion.ofBody, Loading.standard],
        by simp [SingleRegion.ofBody, Loading.standard],
        by simp [SingleRegion.ofBody, Loading.standard]⟩ ?_ trivial
    exact ⟨DataRef.plain_ofFragment.free, element⟩
  have empty : Inert "empty" := inert_of_braceFree (by decide)
  unfold basketRoutes
  simp only [View.Tidy, View.AllTidy]
  exact ⟨inert_of_braceFree (by decide), Markup.Attributes.inert_nil, ⟨by decide,
    ⟨items, ⟨⟨items, branches⟩, trivial⟩, empty⟩, region, trivial⟩, trivial⟩

/-- The page and the template of `basketRoutes` consist of nested blocks. -/
theorem basketRoutes_blocks_nested :
    ∃ site after, build Config.standard basketRoutes (.ofConfig Config.standard) =
        (.ok site, after) ∧ site.pages.length = 1 ∧ site.fragments.length = 1 ∧
      (∀ page ∈ site.pages, WellNested page.html) ∧
      ∀ fragment ∈ site.fragments, WellNested fragment.template := by
  have sizes : (build Config.standard basketRoutes (.ofConfig Config.standard)).1.toOption.map
      (fun site => (site.pages.length, site.fragments.length)) = some (1, 1) := by
    decide +kernel
  rcases built : build Config.standard basketRoutes (.ofConfig Config.standard) with
    ⟨fault | site, after⟩
  · rw [built] at sizes
    cases sizes
  · rw [built] at sizes
    obtain ⟨pages, fragments⟩ := Prod.mk.inj (Option.some.inj sizes)
    have optionsFree : Config.standard.BraceFree :=
      ⟨by decide, by decide, by decide, by decide⟩
    obtain ⟨pagesNested, fragmentsNested⟩ := build_blocks_nested Config.standard basketRoutes
      (.ofConfig Config.standard) after site optionsFree (.ofConfig Config.standard)
      (by decide) (by decide) tidy_basketRoutes built
    exact ⟨site, after, rfl, pages, fragments, pagesNested, fragmentsNested⟩

end Site

end Sitewright

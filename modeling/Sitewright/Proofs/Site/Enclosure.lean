import Sitewright.Proofs.Render.Enclosure
import Sitewright.Proofs.Site.Reference
import Sitewright.Proofs.Site.Survey

/-!
Contract: the documents of a site keep the variables of loops inside their blocks.

A survey fills the table of routes with the ids of routers, which the links of a build
quote. Each page, and each template on its own, then numbers its loops from zero.

Owns:
- tables, ledgers and stores in the course of a survey and a build of a confined view;
- the scopes of the loops in every page and every template of a site.

Does not own: views with components, which may write anything.
-/

namespace Sitewright

open Text Template Markup Routing

theorem Asset.Store.Reachable.tidy {store : Asset.Store} (reachable : store.Reachable)
    (staticUrl : BraceFree store.staticUrl) (directory : BraceFree store.directory) :
    store.Tidy := by
  refine ⟨staticUrl, directory, ?_⟩
  intro asset member
  rw [reachable.placed asset member]
  exact braceFree_place staticUrl directory _ _ _

variable {shared routers : Names}

theorem Ledger.confined_ofSearch {config : Config} {routes : Table} (free : config.BraceFree)
    (confined : routes.Confined routers) :
    (ofSearch config routes).Confined shared routers shared where
  routes := confined
  assets := ⟨free.staticUrl, free.assetPrefix.trim '/', by simp [ofSearch, Asset.Store.ofConfig]⟩
  fragments := by simp [ofSearch, Catalog.empty]
  forms := (by decide : BraceFree "form")
  metaTags := by simp [ofSearch]

theorem Ledger.confined_ofBuild {routes : Table} {store : Asset.Store}
    (confined : routes.Confined routers) (tidy : store.Tidy) :
    (ofBuild routes store).Confined shared routers shared where
  routes := confined
  assets := tidy
  fragments := by simp [ofBuild, Catalog.empty]
  forms := (by decide : BraceFree "form")
  metaTags := by simp [ofBuild]

theorem Ledger.Confined.nextPage {ledger : Ledger}
    (confined : ledger.Confined shared routers shared) :
    ledger.nextPage.Confined shared routers shared where
  routes := confined.routes
  assets := confined.assets
  fragments := confined.fragments
  forms := (by decide : BraceFree "form")
  metaTags := by simp [Ledger.nextPage]

/-- No route, router, form or conditional is around the root of a view. -/
theorem Scope.confined_probe (selected : Path) :
    (Scope.probe selected).Confined (.outermost shared routers) [] :=
  ⟨by simp [Scope.probe, Scope.outermost, Path.root], by simp [Scope.probe, Scope.outermost],
    by simp [Scope.probe, Scope.outermost], by simp [Scope.probe, Scope.outermost]⟩

theorem Scope.confined_page (route : Path) (title : String) :
    (Scope.page route title).Confined (.outermost shared routers) [] :=
  ⟨by simp [Scope.page, Scope.outermost, Path.root], by simp [Scope.page, Scope.outermost],
    by simp [Scope.page, Scope.outermost], by simp [Scope.page, Scope.outermost]⟩

namespace Site

variable {config : Config} {root : View} (free : config.BraceFree)
  (rootConfined : root.Confined (.outermost shared routers) [])

include free rootConfined

theorem confined_of_search {routes known : Table} {selected : Path} {found : List Path}
    (confined : routes.Confined routers)
    (outcome : search config root routes selected = .ok (known, found)) :
    known.Confined routers := by
  obtain ⟨text, state, rendered, rfl, -⟩ := Progress.search_eq_ok outcome
  have searched : (Ledger.ofSearch config routes).Confined shared routers shared :=
    Ledger.confined_ofSearch free confined
  have started := State.confined_ofLedger searched []
  have setting : Setting.Confined (.outermost shared routers) []
      { config, pass := .search, scope := .probe selected } :=
    ⟨free, Scope.confined_probe selected⟩
  obtain ⟨-, -, afterConfined⟩ :=
    View.render_writes root _ _ rootConfined _ _ _ _ setting started rendered
  exact afterConfined.ledger.routes

/-- The routers that a survey comes across are those of the view. -/
theorem confined_of_searchAll {limit probes : Nat} {queue : List Path} {routes known : Table}
    (confined : routes.Confined routers)
    (outcome : searchAll config root limit probes queue routes = .ok known) :
    known.Confined routers := by
  induction probes generalizing queue routes with
  | zero =>
      cases queue with
      | nil =>
          obtain rfl := Except.ok.inj outcome
          exact confined
      | cons selected queue => cases outcome
  | succ probes inductionHypothesis =>
      cases queue with
      | nil =>
          obtain rfl := Except.ok.inj outcome
          exact confined
      | cons selected queue =>
          simp only [searchAll] at outcome
          split at outcome
          · next others found searched =>
            exact inductionHypothesis (confined_of_search free rootConfined confined searched)
              outcome
          · cases outcome

theorem confined_of_survey {routes : Table} (outcome : survey config root = .ok routes) :
    routes.Confined routers := by
  unfold survey at outcome
  split at outcome
  · cases outcome
  · have empty : Table.Confined routers .empty :=
      ⟨by simp [Table.empty], .of_braceFree braceFree_empty⟩
    exact confined_of_searchAll free rootConfined empty outcome

theorem enclosed_buildPage {ledger after : Ledger} {route : Entry} {page : Page}
    (confined : ledger.Confined shared routers shared)
    (built : buildPage config root ledger route = (.ok page, after)) :
    (∃ loops, Enclosed shared 0 loops page.html) ∧ after.Confined shared routers shared := by
  have started := State.confined_ofLedger confined.nextPage []
  have setting : Setting.Confined (.outermost shared routers) []
      { config, pass := .build, scope := .page route.path route.title } :=
    ⟨free, Scope.confined_page route.path route.title⟩
  simp only [buildPage] at built
  split at built
  · next html state rendered =>
    obtain ⟨-, enclosed, afterConfined⟩ :=
      View.render_writes root _ _ rootConfined _ _ _ _ setting started rendered
    obtain ⟨same, rfl⟩ := Prod.mk.inj built
    rw [← Except.ok.inj same]
    exact ⟨⟨_, enclosed⟩, afterConfined.ledger⟩
  · cases (Prod.mk.inj built).1

theorem enclosed_buildPages {routes : List Entry} {ledger after : Ledger} {pages : List Page}
    (confined : ledger.Confined shared routers shared)
    (built : buildPages config root ledger routes = (.ok pages, after)) :
    (∀ page ∈ pages, ∃ loops, Enclosed shared 0 loops page.html) ∧
      after.Confined shared routers shared := by
  induction routes generalizing ledger after pages with
  | nil =>
      obtain ⟨same, rfl⟩ := Prod.mk.inj built
      rw [← Except.ok.inj same]
      exact ⟨by simp, confined⟩
  | cons route rest inductionHypothesis =>
      simp only [buildPages] at built
      split at built
      · cases (Prod.mk.inj built).1
      · next page between first =>
        obtain ⟨pageEnclosed, betweenConfined⟩ :=
          enclosed_buildPage free rootConfined confined first
        split at built
        · cases (Prod.mk.inj built).1
        · next others last others =>
          obtain ⟨othersEnclosed, afterConfined⟩ := inductionHypothesis betweenConfined others
          obtain ⟨same, rfl⟩ := Prod.mk.inj built
          rw [← Except.ok.inj same]
          refine ⟨?_, afterConfined⟩
          intro other member
          rcases List.mem_cons.mp member with rfl | inRest
          · exact pageEnclosed
          · exact othersEnclosed other inRest

omit free rootConfined

/-- In every page and every template, each loop variable is used inside the block of the
one loop of that document that declares it. -/
def LoopsInScope (site : Site) : Prop :=
  (∀ page ∈ site.pages, Template.LoopsInScope page.html) ∧
    ∀ fragment ∈ site.fragments, Template.LoopsInScope fragment.template

instance : DecidablePred LoopsInScope := fun site =>
  inferInstanceAs (Decidable ((∀ page ∈ site.pages, Template.LoopsInScope page.html) ∧
    ∀ fragment ∈ site.fragments, Template.LoopsInScope fragment.template))

/-- The loops of a site are in scope if the strings of its view, of the options and of
the store cannot be taken for blocks, and what the view moves out of a loop does not use
the variables of that loop. -/
theorem build_loops_in_scope (config : Config) (root : View) (routers : Names)
    (store after : Asset.Store) (site : Site) (optionsFree : config.BraceFree)
    (reachable : store.Reachable) (addressFree : BraceFree store.staticUrl)
    (directoryFree : BraceFree store.directory)
    (confined : root.Confined (.outermost .none routers) [])
    (built : build config root store = (.ok site, after)) : site.LoopsInScope := by
  obtain ⟨routes, pages, ledger, found, pagesBuilt, rfl⟩ := build_eq_ok built
  have routesConfined := confined_of_survey optionsFree confined found
  have start : (Ledger.ofBuild routes store).Confined .none routers .none :=
    Ledger.confined_ofBuild routesConfined (reachable.tidy addressFree directoryFree)
  obtain ⟨pagesEnclosed, ledgerConfined⟩ :=
    enclosed_buildPages optionsFree confined start pagesBuilt
  refine ⟨?_, ?_⟩
  · intro page member
    obtain ⟨loops, enclosed⟩ := pagesEnclosed page member
    exact enclosed.loopsInScope
  · intro fragment member
    obtain ⟨loops, enclosed⟩ := ledgerConfined.fragments fragment member
    exact enclosed.loopsInScope

/-- A page with the given content. -/
def stockPage (content : View) : View :=
  .switch "main" [] [.route "stock" "Stock" [content]]

/-- Inside a loop, a shell with a meta tag, a conditional whose alternative is left in
another loop, and a list region. -/
def stockList : View :=
  .loop ⟨".items"⟩ fun element position =>
    .shell false []
      [.metaTag [⟨"content", .ref element⟩],
       .conditional (.ref ⟨".open"⟩) false
         [.loop element fun part _ => .group [.ofRef part, .alternative (.ofRef position)]] none,
       ListRegion.view (.ofBody "prices" fun price _ => .ofRef price)]

theorem confined_stockList : (stockPage stockList).Confined (.outermost .none .none) [] := by
  have main : Speaks Names.none "main" := .of_braceFree (by decide)
  have plain {names : Names} : UsesOnly names ".items" ∧ UsesOnly names ".open" :=
    ⟨.of_noSign (by decide), .of_noSign (by decide)⟩
  refine ⟨⟨main, main⟩, Attributes.speaks_nil, ⟨by decide, ⟨⟨by decide, plain.1⟩, ?_⟩, trivial⟩,
    trivial⟩
  intro outer
  generalize around : (Frame.outermost .none .none).inLoop outer = frame
  have element : UsesOnly frame.visible outer.elementName := by
    rw [← around]
    exact Frame.visible_element _ outer
  have position : UsesOnly frame.visible outer.positionName := by
    rw [← around]
    exact Frame.visible_position _ outer
  have prices : (ListRegion.view (.ofBody "prices" fun price _ => .ofRef price)).Confined
      frame.inShell [] := by
    refine ListRegion.confined_view
      { id := ?_, class? := ?_, itemClass := ?_, key := ?_, body := ?_, wrapper := ?_
        loading := ?_, fallback := trivial }
    · simp [ListRegion.ofBody]
    · exact Value.speaks_string (.of_braceFree (by decide))
    · exact fun _ => Value.speaks_string (.of_braceFree (by decide))
    · simp [ListRegion.ofBody]
    · exact fun inner => View.confined_ofRef (DataRef.plain_elementName inner)
        (Frame.visible_element _ inner)
    · simp [ListRegion.ofBody]
    · exact ⟨by simp [ListRegion.ofBody, Loading.standard],
        by simp [ListRegion.ofBody, Loading.standard],
        by simp [ListRegion.ofBody, Loading.standard]⟩
  have part (inner : Numbering) :
      (View.ofRef ⟨inner.elementName⟩).Confined (frame.inShell.inLoop inner) [frame.inShell] :=
    View.confined_ofRef (DataRef.plain_elementName inner) (Frame.visible_element _ inner)
  have branch : (View.ofRef ⟨outer.positionName⟩).Confined frame.inShell [] :=
    View.confined_ofRef (DataRef.plain_positionName outer) position
  exact ⟨trivial, .entry (by decide) (Value.speaks_ref (DataRef.plain_elementName outer) element)
      Attributes.speaks_nil,
    ⟨⟨(by decide : BraceFree ".open"), plain.2⟩, ⟨⟨outer.braceFree_elementName, element⟩,
      fun inner => ⟨part inner, branch, trivial⟩⟩, trivial⟩,
    prices, trivial⟩

/-- The page and the template of `stockList` keep their loop variables in scope. -/
theorem stockList_loops_in_scope :
    ∃ site after, build Config.standard (stockPage stockList) (.ofConfig Config.standard) =
        (.ok site, after) ∧ site.pages.length = 1 ∧ site.fragments.length = 1 ∧
      site.LoopsInScope := by
  have sizes : (build Config.standard (stockPage stockList)
      (.ofConfig Config.standard)).1.toOption.map
      (fun site => (site.pages.length, site.fragments.length)) = some (1, 1) := by
    decide +kernel
  rcases built : build Config.standard (stockPage stockList) (.ofConfig Config.standard) with
    ⟨fault | site, after⟩
  · rw [built] at sizes
    cases sizes
  · rw [built] at sizes
    obtain ⟨pages, fragments⟩ := Prod.mk.inj (Option.some.inj sizes)
    have optionsFree : Config.standard.BraceFree :=
      ⟨by decide, by decide, by decide, by decide⟩
    have inScope := build_loops_in_scope Config.standard (stockPage stockList) .none
      (.ofConfig Config.standard) after site optionsFree (.ofConfig Config.standard)
      (by decide) (by decide) confined_stockList built
    exact ⟨site, after, rfl, pages, fragments, inScope⟩

/-- A page with the content is built, and one of its documents uses a loop variable
where the block of the loop is not around it. -/
def LosesLoops (content : View) : Prop :=
  ∃ site after, build Config.standard (stockPage content) (.ofConfig Config.standard) =
    (.ok site, after) ∧ ¬ site.LoopsInScope

/-- It is enough to look at the pages or at the templates. -/
theorem losesLoops_of_outcome {content : View} (check : Site → Bool)
    (necessary : ∀ site : Site, site.LoopsInScope → check site = true)
    (outcome : (build Config.standard (stockPage content)
      (.ofConfig Config.standard)).1.toOption.map check = some false) : LosesLoops content := by
  rcases built : build Config.standard (stockPage content) (.ofConfig Config.standard) with
    ⟨fault | site, after⟩
  · rw [built] at outcome
    cases outcome
  · rw [built] at outcome
    have failed : check site = false := Option.some.inj outcome
    refine ⟨site, after, built, fun inScope => ?_⟩
    rw [necessary site inScope] at failed
    cases failed

theorem losesLoops_of_page {content : View}
    (outcome : (build Config.standard (stockPage content)
      (.ofConfig Config.standard)).1.toOption.map
      (fun site => decide (∀ page ∈ site.pages, Template.LoopsInScope page.html)) =
        some false) : LosesLoops content :=
  losesLoops_of_outcome _ (fun _ inScope => decide_eq_true inScope.1) outcome

theorem losesLoops_of_template {content : View}
    (outcome : (build Config.standard (stockPage content)
      (.ofConfig Config.standard)).1.toOption.map
      (fun site => decide (∀ fragment ∈ site.fragments,
        Template.LoopsInScope fragment.template)) = some false) : LosesLoops content :=
  losesLoops_of_outcome _ (fun _ inScope => decide_eq_true inScope.2) outcome

/-- A loop over items whose content uses the element in the given way. -/
def itemLoop (content : DataRef → View) : View :=
  .loop ⟨".items"⟩ fun element _ => content element

/-- What leaves a loop with its variable loses the loop: the branch of a marker goes to
the conditional around the loop, the body of a region to a document of its own, and the
id of a router to links. A string of the user that ends the block does the same to all
that follows in the loop. -/
theorem moved_content_loses_loops :
    LosesLoops (.conditional (.ref ⟨".open"⟩) false
      [itemLoop fun element => .alternative (.ofRef element)] none) ∧
    LosesLoops (itemLoop fun element =>
      SingleRegion.view (.ofBody "price" fun _ => .ofRef element)) ∧
    LosesLoops (.group
      [itemLoop fun element => .switch element.interpolation [] [.route "a" "A" []],
       .link "/stock/a" none [] []]) ∧
    LosesLoops (itemLoop fun element => .group [.raw endAction, .ofRef element]) := by
  refine ⟨?branch, ?region, ?router, ?ended⟩
  case branch => exact losesLoops_of_page (by decide +kernel)
  case region => exact losesLoops_of_template (by decide +kernel)
  case router => exact losesLoops_of_page (by decide +kernel)
  case ended => exact losesLoops_of_page (by decide +kernel)

end Site

end Sitewright

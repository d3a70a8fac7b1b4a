import Sitewright.Proofs.Render.Reference
import Sitewright.Proofs.Render.Stage
import Sitewright.Site.Artifact

/-!
Contract: every address that a build writes into its pages and templates leads to
something that is written along with them.

Owns:
- the texts of regions, stylesheets and scripts, and the addresses in them;
- `Rendered`, all renders in the course of a build;
- what a build keeps from one page to the next;
- where the addresses lead, and what the records of islands name.

Does not own: how a ledger changes while one page is rendered.
-/

namespace Sitewright

open Routing Markup Catalog Template

/-! ## Texts with addresses -/

namespace Render

variable {setting : Setting} {state final : State} {text : String}

/-- The text of a region is a placeholder with the address of its compiled template. -/
theorem placeholder_of_remote {region : Region} {template : DataRef → Render String}
    {fallback : Render String}
    (outcome : Render.remote region template fallback setting state = (.ok text, final)) :
    ∃ handle after content,
      compileTemplate region.resource (template .ofFragment) setting state = (.ok handle, after) ∧
        text = elementText "div"
          (region.loading.placeholderAttributes setting.config.fragmentHeader
            setting.scope.current.text handle.url) content := by
  unfold Render.remote at outcome
  rw [setting_bind] at outcome
  obtain ⟨handle, after, compiled, rest⟩ := ok_of_bind outcome
  obtain ⟨-, recorded, -, shown⟩ := ok_of_bind rest
  obtain ⟨content, later, -, written⟩ := ok_of_bind shown
  exact ⟨handle, after, content, compiled, (Except.ok.inj (congrArg Prod.fst written)).symm⟩

/-- The address of a fragment is the base under which it is written, behind a slash. -/
theorem fragmentUrl_eq (config : Config) (fingerprint : String) :
    config.fragmentUrl fingerprint =
      "/" ++ Artifact.fragmentBase config.fragmentSegment fingerprint := by
  simp only [Config.fragmentUrl, Artifact.fragmentBase, String.append_assoc]

/-- A build stores a compiled template under the id of its handle. -/
theorem stores_of_compileTemplate {resource : String} {template : Render String} {handle : Handle}
    {after : State} (pass : setting.pass = .build)
    (outcome : compileTemplate resource template setting state = (.ok handle, after)) :
    after.ledger.catalog.Stores handle.id ∧ handle.url = setting.config.fragmentUrl handle.id := by
  obtain ⟨text, inner, -, stored⟩ := ok_of_bind outcome
  have results : (inner.ledger.storeTemplate setting resource text).2 = handle ∧
      (inner.ledger.storeTemplate setting resource text).1 = after.ledger := by
    have parts := Prod.mk.inj stored
    exact ⟨Except.ok.inj parts.1, congrArg State.ledger parts.2⟩
  rw [← results.1, ← results.2]
  refine ⟨Ledger.stores_storeTemplate pass, ?_⟩
  simp only [Ledger.storeTemplate, pass]
  rfl

/-- A placeholder fetches what its template was compiled to, which is stored when its
render is over. -/
theorem compiled_of_remote {region : Region} {template : DataRef → Render String}
    {fallback : Render String} (pass : setting.pass = .build) (waits : state.Stepwise True)
    (templateSteps : (template .ofFragment).Stepwise True) (steps : fallback.Stepwise True)
    (outcome : Render.remote region template fallback setting state = (.ok text, final)) :
    ∃ handle after content,
      compileTemplate region.resource (template .ofFragment) setting state = (.ok handle, after) ∧
        final.ledger.catalog.Stores handle.id ∧
          text = elementText "div"
            (region.loading.placeholderAttributes setting.config.fragmentHeader
              setting.scope.current.text (setting.config.fragmentUrl handle.id)) content := by
  obtain ⟨handle, after, content, compiled, written⟩ := placeholder_of_remote outcome
  obtain ⟨stores, address⟩ := stores_of_compileTemplate pass compiled
  have passes : (Render.remote region template fallback).Passes setting state
      (compileTemplate region.resource (template .ofFragment) setting state).2.ledger :=
    .compiled waits templateSteps steps (.whole _ _ _)
  unfold Passes at passes
  rw [compiled, outcome] at passes
  exact ⟨handle, after, content, compiled, stores.mono passes.extends.fragments,
    by rw [written, address]⟩

/-- The fragment that a placeholder fetches is stored when its render is over. -/
theorem fragment_of_remote {region : Region} {template : DataRef → Render String}
    {fallback : Render String} (pass : setting.pass = .build) (waits : state.Stepwise True)
    (templateSteps : (template .ofFragment).Stepwise True) (steps : fallback.Stepwise True)
    (outcome : Render.remote region template fallback setting state = (.ok text, final)) :
    ∃ fingerprint content, final.ledger.catalog.Stores fingerprint ∧
      text = elementText "div"
        (region.loading.placeholderAttributes setting.config.fragmentHeader
          setting.scope.current.text (setting.config.fragmentUrl fingerprint)) content := by
  obtain ⟨handle, -, content, -, stored⟩ :=
    compiled_of_remote pass waits templateSteps steps outcome
  exact ⟨handle.id, content, stored⟩

/-- A build marks the address of an asset that it stores as used. -/
theorem used_of_storeAsset {contents name address : String} {kind : AssetKind}
    (pass : setting.pass = .build)
    (outcome : Render.storeAsset contents name kind setting state = (.ok address, final)) :
    address ∈ final.ledger.usedUrls := by
  obtain ⟨offered, after, offering, unwrapped⟩ := ok_of_bind outcome
  cases offered with
  | error fault => cases unwrapped
  | ok url =>
      obtain ⟨rfl, rfl⟩ : url = address ∧ after = final := by
        have parts := Prod.mk.inj unwrapped
        exact ⟨Except.ok.inj parts.1, parts.2⟩
      simp only [offerAsset, modifyGet, pass, Prod.mk.injEq] at offering
      rcases stored : state.ledger.storeAsset .build contents name kind with fault | ⟨ledger, found⟩
      · simp [stored] at offering
      · obtain ⟨assets, -, shape⟩ := Ledger.storeAsset_build stored
        simp only [stored, Except.ok.injEq] at offering
        rw [← offering.2, ← offering.1, shape]
        exact Ledger.mem_usedUrls_useUrl.mpr (Or.inr rfl)

theorem used_of_lookupAsset {name address : String} (pass : setting.pass = .build)
    (outcome : Render.lookupAsset name setting state = (.ok (some address), final)) :
    address ∈ final.ledger.usedUrls := by
  simp only [Render.lookupAsset, modifyGet, pass, Prod.mk.injEq, Except.ok.injEq] at outcome
  rcases Ledger.lookupAsset_build state.ledger name with absent | ⟨url, -, found⟩
  · rw [absent] at outcome
    cases outcome.1
  · rw [found] at outcome
    rw [← outcome.2, Option.some.inj outcome.1]
    exact Ledger.mem_usedUrls_useUrl.mpr (Or.inr rfl)

/-- A stylesheet that is not written into the page is linked by an address in use. -/
theorem address_of_stylesheet {name contents : String} (pass : setting.pass = .build)
    (outcome : Render.stylesheet name contents false setting state = (.ok text, final)) :
    ∃ address ∈ final.ledger.usedUrls,
      text = elementText "link"
        [⟨"rel", .string "stylesheet"⟩,
         ⟨"href", .string address⟩,
         ⟨"type", .string "text/css"⟩,
         ⟨"media", .string "screen"⟩] "" := by
  obtain ⟨address, after, stored, written⟩ := ok_of_bind outcome
  have parts := Prod.mk.inj written
  refine ⟨address, ?_, (Except.ok.inj parts.1).symm⟩
  rw [← parts.2]
  exact used_of_storeAsset pass stored

/-- A script that is not written into the page is linked by an address in use, or not
found and left out. -/
theorem address_of_script {source : ScriptSource} (pass : setting.pass = .build)
    (linked : source.contents.isSome → source.inlined = false)
    (outcome : Render.script source setting state = (.ok text, final)) :
    text = "" ∨
      ∃ address ∈ final.ledger.usedUrls, text = linkedScript source.asModule address := by
  unfold Render.script at outcome
  cases contents : source.contents with
  | some body =>
      right
      have notInlined : source.inlined = false := linked (by simp [contents])
      simp only [contents, notInlined] at outcome
      obtain ⟨address, after, stored, written⟩ := ok_of_bind outcome
      have parts := Prod.mk.inj written
      refine ⟨address, ?_, (Except.ok.inj parts.1).symm⟩
      rw [← parts.2]
      exact used_of_storeAsset pass stored
  | none =>
      simp only [contents] at outcome
      obtain ⟨found, after, lookedUp, rest⟩ := ok_of_bind outcome
      cases found with
      | some address =>
          right
          have parts := Prod.mk.inj rest
          refine ⟨address, ?_, (Except.ok.inj parts.1).symm⟩
          rw [← parts.2]
          exact used_of_lookupAsset pass lookedUp
      | none =>
          left
          simp only [setting_bind] at rest
          split at rest
          · cases rest
          · exact (Except.ok.inj (congrArg Prod.fst rest)).symm

end Render

/-! ## The pages of a build -/

namespace Site

variable {config : Config} {root : View}

/-- Building the page of a route starts with this ledger, when the pages of some routes
are built from another one. -/
inductive PageStarts (config : Config) (root : View) :
    Ledger → List Entry → Ledger → Entry → Prop where
  | here (ledger : Ledger) (route : Entry) (rest : List Entry) :
      PageStarts config root ledger (route :: rest) ledger route
  | later {ledger after start : Ledger} {route first : Entry} {rest : List Entry} {page : Page}
      (built : buildPage config root ledger first = (.ok page, after))
      (starts : PageStarts config root after rest start route) :
      PageStarts config root ledger (first :: rest) start route

/-- The render of the page of a route. -/
def pageStage (config : Config) (root : View) (ledger : Ledger) (route : Entry) : Stage :=
  { task := .view root
    setting := { config, pass := .build, scope := .page route.path route.title }
    state := .ofLedger ledger.nextPage }

/-- Every render in the course of a build: those of the pages, and those that they
start. -/
inductive Rendered (config : Config) (root : View) (store : Asset.Store) : Stage → Prop where
  | page {routes : Table} {start : Ledger} {route : Entry}
      (found : survey config root = .ok routes)
      (starts : PageStarts config root (.ofBuild routes store) routes.entries start route) :
      Rendered config root store (pageStage config root start route)
  | inner {outer inner : Stage} (rendered : Rendered config root store outer)
      (step : Stage.Inner outer inner) : Rendered config root store inner

theorem ledger_buildPage (ledger : Ledger) (route : Entry) :
    (buildPage config root ledger route).2 =
      (pageStage config root ledger route).outcome.2.ledger := by
  simp only [buildPage, Stage.outcome, pageStage, Task.render]
  split
  · next rendered => rw [rendered]
  · next rendered => rw [rendered]

theorem ledger_buildPages_of_error {ledger after : Ledger} {route : Entry} {fault : Fault}
    (failed : buildPage config root ledger route = (.error fault, after)) (rest : List Entry) :
    (buildPages config root ledger (route :: rest)).2 = after := by
  simp only [buildPages, failed]

theorem ledger_buildPages_of_ok {ledger after : Ledger} {route : Entry} {page : Page}
    (built : buildPage config root ledger route = (.ok page, after)) (rest : List Entry) :
    (buildPages config root ledger (route :: rest)).2 = (buildPages config root after rest).2 := by
  simp only [buildPages, built]
  split
  · next others => rw [others]
  · next others => rw [others]

/-- What every page keeps, the build keeps. -/
theorem buildPages_keeps {Kept : Ledger → Prop}
    (page : ∀ ledger route, Kept ledger → Kept (buildPage config root ledger route).2)
    (routes : List Entry) (ledger : Ledger) (kept : Kept ledger) :
    Kept (buildPages config root ledger routes).2 := by
  induction routes generalizing ledger with
  | nil => exact kept
  | cons route rest inductionHypothesis =>
      have afterPage := page ledger route kept
      rcases built : buildPage config root ledger route with ⟨fault | page, after⟩
      all_goals rw [built] at afterPage
      · rw [ledger_buildPages_of_error built]
        exact afterPage
      · rw [ledger_buildPages_of_ok built]
        exact inductionHypothesis after afterPage

theorem extends_buildPage (ledger : Ledger) (route : Entry) :
    ledger.Extends (buildPage config root ledger route).2 := by
  have opened : ledger.Extends ledger.nextPage := ⟨List.Subset.refl _, List.Subset.refl _⟩
  have steps := View.render_steps root
    { config, pass := .build, scope := .page route.path route.title } ledger.nextPage
  rw [ledger_buildPage]
  exact opened.trans steps.extends

/-- What holds after a page and is kept by every page holds after the last one. -/
theorem PageStarts.keeps {Kept : Ledger → Prop}
    (each : ∀ ledger route, Kept ledger → Kept (buildPage config root ledger route).2)
    {ledger start : Ledger} {routes : List Entry} {route : Entry}
    (starts : PageStarts config root ledger routes start route)
    (kept : Kept (pageStage config root start route).outcome.2.ledger) :
    Kept (buildPages config root ledger routes).2 := by
  induction starts with
  | here ledger route rest =>
      rw [← ledger_buildPage] at kept
      rcases built : buildPage config root ledger route with ⟨fault | page, after⟩
      all_goals rw [built] at kept
      · rw [ledger_buildPages_of_error built]
        exact kept
      · rw [ledger_buildPages_of_ok built]
        exact buildPages_keeps each rest after kept
  | later built _ inductionHypothesis =>
      rw [ledger_buildPages_of_ok built]
      exact inductionHypothesis kept

/-- What a page left behind is still there after the last page. -/
theorem PageStarts.extends {ledger start : Ledger} {routes : List Entry} {route : Entry}
    (starts : PageStarts config root ledger routes start route) :
    (pageStage config root start route).outcome.2.ledger.Extends
      (buildPages config root ledger routes).2 :=
  starts.keeps (fun after route grown => grown.trans (extends_buildPage after route)) (.refl _)

theorem served_buildPages {staticUrl : String} (routes : List Entry) {ledger : Ledger}
    (served : ledger.Served staticUrl) :
    (buildPages config root ledger routes).2.Served staticUrl := by
  refine buildPages_keeps (fun before route kept => ?_) routes ledger served
  have steps := View.render_steps root
    { config, pass := .build, scope := .page route.path route.title } before.nextPage
  rw [ledger_buildPage]
  exact steps.served ⟨kept.staticUrl, kept.placed, kept.used⟩

theorem linked_buildPages (asks : root.Asks (.recording False)) (routes : List Entry)
    {ledger : Ledger} (linked : ledger.Linked) :
    (buildPages config root ledger routes).2.Linked := by
  refine buildPages_keeps (fun before route kept => ?_) routes ledger linked
  have steps := View.stepwise asks
    { config, pass := .build, scope := .page route.path route.title } (.ofLedger before.nextPage)
    (State.stepwise_ofLedger False before.nextPage)
  rw [ledger_buildPage]
  exact steps.1.linked kept

/-! ## The site -/

/-- A template and its record are written under this base. -/
def HasFragment (site : Site) (base : String) : Prop :=
  ∃ template record, Artifact.output (base ++ ".template.html") template ∈ site.artifacts ∧
    Artifact.output (base ++ ".meta.json") record ∈ site.artifacts

/-- The address is that of an asset of the site, which is written under the path that
the address has below the given one. -/
def HasAsset (site : Site) (staticUrl address : String) : Prop :=
  ∃ asset ∈ site.assets, asset.url = address ∧ Artifact.ofAsset asset ∈ site.artifacts ∧
    address = Text.trimEnd '/' staticUrl ++ "/" ++ (Artifact.ofAsset asset).path

theorem build_eq_ok {store after : Asset.Store} {site : Site}
    (built : build config root store = (.ok site, after)) :
    ∃ routes pages ledger, survey config root = .ok routes ∧
      buildPages config root (.ofBuild routes store) routes.entries = (.ok pages, ledger) ∧
        site = ofLedger config pages ledger := by
  unfold build at built
  split at built
  · cases built
  · split at built
    · cases built
    · next routes found =>
      unfold buildRoutes at built
      split at built
      · next pages ledger rendered =>
        have parts := Prod.mk.inj built
        exact ⟨routes, pages, ledger, found, rendered, (Except.ok.inj parts.1).symm⟩
      · cases built

/-- If something has been read off the site of a build, the build succeeds. -/
theorem exists_site_of_computed {α : Type} {store : Asset.Store} {read : Site → α} {value : α}
    (computed : (build config root store).1.toOption.map read = some value) :
    ∃ site after, build config root store = (.ok site, after) ∧ read site = value := by
  rcases built : build config root store with ⟨fault | site, after⟩
  all_goals rw [built] at computed
  · cases computed
  · exact ⟨site, after, rfl, Option.some.inj computed⟩

theorem mem_of_page? {site : Site} {route : String} {page : Page}
    (found : site.page? route = some page) : page ∈ site.pages ∧ page.route = route := by
  unfold page? at found
  have named := List.find?_some found
  exact ⟨List.mem_of_find?_eq_some found, of_decide_eq_true named⟩

/-- If something has been read off the page with a route, the build succeeds and has that page. -/
theorem exists_page_of_computed {α : Type} {store : Asset.Store} {route : String} {read : Page → α}
    {value : α}
    (computed : (build config root store).1.toOption.map (fun site => (site.page? route).map read) =
      some (some value)) :
    ∃ site after page, build config root store = (.ok site, after) ∧ page ∈ site.pages ∧
      page.route = route ∧ read page = value := by
  obtain ⟨site, after, built, reads⟩ := exists_site_of_computed computed
  obtain ⟨page, found, shown⟩ := Option.map_eq_some_iff.mp reads
  obtain ⟨member, named⟩ := mem_of_page? found
  exact ⟨site, after, page, built, member, named, shown⟩

theorem mem_artifacts_of_fragment {site : Site} {fragment : Catalog.Fragment} {artifact : Artifact}
    (member : fragment ∈ site.fragments)
    (written : artifact ∈ Artifact.ofFragment site.fragmentSegment fragment) :
    artifact ∈ site.artifacts := by
  have inFragments := List.mem_flatMap.mpr ⟨fragment, member, written⟩
  unfold artifacts
  exact List.mem_append_left _ (List.mem_append_left _ (List.mem_append_right _ inFragments))

theorem hasFragment_of_stores {pages : List Page} {ledger : Ledger} {fingerprint : String}
    (stores : ledger.catalog.Stores fingerprint) :
    (ofLedger config pages ledger).HasFragment
      (Artifact.fragmentBase config.fragmentSegment fingerprint) := by
  obtain ⟨fragment, member, rfl⟩ := stores
  exact ⟨_, _, mem_artifacts_of_fragment member List.mem_cons_self,
    mem_artifacts_of_fragment member (List.mem_cons_of_mem _ List.mem_cons_self)⟩

theorem hasAsset_of_used {pages : List Page} {ledger : Ledger} {staticUrl address : String}
    (served : ledger.Served staticUrl) (used : address ∈ ledger.usedUrls) :
    (ofLedger config pages ledger).HasAsset staticUrl address := by
  obtain ⟨asset, member, rfl⟩ := served.used address used
  have inSite : asset ∈ (ofLedger config pages ledger).assets := by
    show asset ∈ ledger.assets.used ledger.usedUrls
    exact List.mem_filter.mpr ⟨member, by simpa using used⟩
  refine ⟨asset, inSite, rfl, ?_, ?_⟩
  · unfold artifacts
    exact List.mem_append_right _ (List.mem_map_of_mem inSite)
  · rw [served.placed.url member, served.staticUrl]
    rfl

/-- Writing through a step that never fails writes every artifact, in order. -/
theorem writeAll_of_ok {σ : Type} {write : σ → Artifact → Except BuildFault Unit × σ}
    (never : ∀ sink artifact, (write sink artifact).1 = .ok ()) (artifacts : List Artifact)
    (sink : σ) :
    writeAll write sink artifacts =
      (.ok (), artifacts.foldl (fun sink artifact => (write sink artifact).2) sink) := by
  induction artifacts generalizing sink with
  | nil => rfl
  | cons artifact rest inductionHypothesis =>
      have accepted := never sink artifact
      rcases outcome : write sink artifact with ⟨result, next⟩
      rw [outcome] at accepted
      obtain rfl : result = .ok () := accepted
      simp only [writeAll, outcome, List.foldl_cons]
      exact inductionHypothesis next

theorem routes_eq_of_found {routes others : Table} (found : survey config root = .ok routes)
    (foundToo : survey config root = .ok others) : others = routes := by
  rw [found] at foundToo
  exact (Except.ok.inj foundToo).symm

/-- The renders of a build are under its configuration, and what they leave behind is
there in the end. -/
theorem Rendered.leads {store : Asset.Store} {stage : Stage}
    (rendered : Rendered config root store stage) :
    ∃ routes start route, survey config root = .ok routes ∧
      PageStarts config root (.ofBuild routes store) routes.entries start route ∧
        (pageStage config root start route).Leads stage := by
  induction rendered with
  | @page routes start route found starts =>
      exact ⟨routes, start, route, found, starts,
        .refl (State.stepwise_ofLedger True start.nextPage)⟩
  | inner _ step inductionHypothesis =>
      obtain ⟨routes, start, route, found, starts, leads⟩ := inductionHypothesis
      exact ⟨routes, start, route, found, starts, leads.trans (step.leads leads.waits)⟩

/-- What a render of a build leaves behind is there when the build is over. -/
theorem Rendered.extends {store : Asset.Store} {stage : Stage} {routes : Table}
    (rendered : Rendered config root store stage) (found : survey config root = .ok routes) :
    stage.setting.config = config ∧ stage.setting.pass = .build ∧
      stage.state.Stepwise True ∧
        stage.outcome.2.ledger.Extends
          (buildPages config root (.ofBuild routes store) routes.entries).2 := by
  obtain ⟨others, start, route, foundToo, starts, leads⟩ := rendered.leads
  obtain rfl := routes_eq_of_found found foundToo
  have passes : Ledger.Steps config .build True stage.outcome.2.ledger
      (pageStage config root start route).outcome.2.ledger := leads.passes
  exact ⟨leads.config, leads.pass, leads.waits, passes.extends.trans starts.extends⟩

/-- The references of a site. A step that never fails writes all artifacts. Every
placeholder rendered in the course of the build fetches a fragment that is written with
its record; every stylesheet and every script that is linked is a written asset, under
its path below the address of the store; and unless components record islands, every
record names a fragment of the site. -/
theorem build_references_written (config : Config) (root : View) (store after : Asset.Store)
    (site : Site) (reachable : store.Reachable)
    (built : build config root store = (.ok site, after)) :
    (∀ (σ : Type) (write : σ → Artifact → Except BuildFault Unit × σ),
      (∀ sink artifact, (write sink artifact).1 = .ok ()) → ∀ sink,
        writeAll write sink site.artifacts =
          (.ok (), site.artifacts.foldl (fun sink artifact => (write sink artifact).2) sink)) ∧
    (∀ stage, Rendered config root store stage → ∀ text final, stage.outcome = (.ok text, final) →
      (∀ region template fallback, stage.task = .view (.remote region template fallback) →
        ∃ base content, site.HasFragment base ∧
          text = elementText "div"
            (region.loading.placeholderAttributes config.fragmentHeader
              stage.setting.scope.current.text ("/" ++ base)) content) ∧
      (∀ name contents, stage.task = .view (.stylesheet name contents false) →
        ∃ address, site.HasAsset store.staticUrl address ∧
          text = elementText "link"
            [⟨"rel", .string "stylesheet"⟩,
             ⟨"href", .string address⟩,
             ⟨"type", .string "text/css"⟩,
             ⟨"media", .string "screen"⟩] "") ∧
      (∀ source : ScriptSource, stage.task = .view (.script source) →
        (source.contents.isSome → source.inlined = false) →
          text = "" ∨ ∃ address, site.HasAsset store.staticUrl address ∧
            text = Render.linkedScript source.asModule address)) ∧
    (root.Asks (.recording False) → ∀ record ∈ site.islands,
      ∃ fragment ∈ site.fragments, fragment.fingerprint = record.fragment) := by
  obtain ⟨routes, pages, ledger, found, pagesBuilt, rfl⟩ := build_eq_ok built
  have served : ledger.Served store.staticUrl := by
    have start : (Ledger.ofBuild routes store).Served store.staticUrl :=
      ⟨rfl, reachable.placed, by simp [Ledger.ofBuild]⟩
    have kept : (buildPages config root (.ofBuild routes store) routes.entries).2.Served
        store.staticUrl := served_buildPages routes.entries start
    rwa [pagesBuilt] at kept
  refine ⟨fun σ write never sink => writeAll_of_ok never _ sink, ?_, ?_⟩
  · intro stage rendered text final outcome
    obtain ⟨sameConfig, pass, waits, grown⟩ := rendered.extends found
    rw [pagesBuilt, outcome] at grown
    obtain ⟨task, setting, state⟩ := stage
    subst sameConfig
    -- What each of the three leaves in its own ledger is in the last one, by `grown`.
    refine ⟨?_, ?_, ?_⟩
    · rintro region template fallback rfl
      obtain ⟨fingerprint, content, stores, written⟩ := Render.fragment_of_remote pass waits
        (View.render_stepwise _) (View.render_stepwise _) (Render.ok_of_within outcome)
      refine ⟨_, content, hasFragment_of_stores (stores.mono grown.fragments), ?_⟩
      rw [written, Render.fragmentUrl_eq]
    · rintro name contents rfl
      obtain ⟨address, used, written⟩ :=
        Render.address_of_stylesheet pass (Render.ok_of_within outcome)
      exact ⟨address, hasAsset_of_used served (grown.usedUrls used), written⟩
    · rintro source rfl linked
      rcases Render.address_of_script pass linked (Render.ok_of_within outcome) with
        absent | ⟨address, used, written⟩
      · exact Or.inl absent
      · exact Or.inr ⟨address, hasAsset_of_used served (grown.usedUrls used), written⟩
  · intro asks
    have start : (Ledger.ofBuild routes store).Linked := by
      simp [Ledger.Linked, Ledger.ofBuild, Catalog.empty]
    have linked : (buildPages config root (.ofBuild routes store) routes.entries).2.Linked :=
      linked_buildPages asks routes.entries start
    rw [pagesBuilt] at linked
    exact linked

/-- A route with a stylesheet and an island. -/
def shopRoutes : View :=
  .switch "main" []
    [.route "shop" "Shop"
      [.stylesheet "shop" "p \x7b\x7d" false,
       .remote
        { kind := .single, resource := "cart", loading := .standard, island := some "cart" }
        .ofRef .blank]]

/-- The island of `shopRoutes` is recorded with a fragment of the site, and all artifacts
are written to memory. -/
theorem shopRoutes_references_written :
    ∃ site after, build Config.standard shopRoutes (.ofConfig Config.standard) = (.ok site, after) ∧
      site.islands.length = 1 ∧
      (∀ record ∈ site.islands,
        ∃ fragment ∈ site.fragments, fragment.fingerprint = record.fragment) ∧
      (writeAll MemorySink.write .empty site.artifacts).1 = .ok () := by
  have islands : (build Config.standard shopRoutes (.ofConfig Config.standard)).1.toOption.map
      (fun site => site.islands.length) = some 1 := by decide +kernel
  rcases built : build Config.standard shopRoutes (.ofConfig Config.standard) with
    ⟨fault | site, after⟩
  · rw [built] at islands
    cases islands
  · rw [built] at islands
    have asks : shopRoutes.Asks (.recording False) := by
      simp [shopRoutes, View.Asks, View.AllAsk, View.ofRef]
    obtain ⟨written, -, linked⟩ := build_references_written Config.standard shopRoutes
      (.ofConfig Config.standard) after site (.ofConfig Config.standard) built
    refine ⟨site, after, rfl, Option.some.inj islands, linked asks, ?_⟩
    rw [written MemorySink MemorySink.write (fun sink artifact => ?_)]
    unfold MemorySink.write
    split <;> rfl

end Site

end Sitewright

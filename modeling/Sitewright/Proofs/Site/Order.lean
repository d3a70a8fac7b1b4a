import Sitewright.Proofs.Site.Isolation

/-!
Contract: the order in which the pages of a site are built.

The pages of a build share what they store. A page of a view that asks nothing about it
is built as it would be alone, and leaves what it stores alone on top of what was stored
before. So the order of the pages decides in which order things are stored, but neither
what a page looks like nor under which keys things are stored.

Owns:
- builds in a given order;
- `Shelf`, the parts of a ledger that pages fill together;
- pages built behind others against pages built alone;
- two builds of the same pages in different orders.

Does not own: which of two files that are confused with each other is stored.
-/

namespace Sitewright

open Routing Catalog

/-! ## What pages store together -/

/-- What the ledger stores for all pages. -/
def Ledger.stored (ledger : Ledger) : Earlier :=
  { catalog := ledger.catalog, files := ledger.assets.files, usedUrls := ledger.usedUrls }

/-- The parts of a ledger that hold entries under keys. -/
inductive Shelf where
  | fragments
  | islands
  | files
  | addresses

/-- The keys that are taken. -/
def Shelf.keys : Shelf → Ledger → List String
  | .fragments, ledger => ledger.catalog.fragments.map Fragment.fingerprint
  | .islands, ledger => ledger.catalog.islands.map IslandRecord.id
  | .files, ledger => ledger.assets.files.map Asset.file
  | .addresses, ledger => ledger.usedUrls.map id

theorem Shelf.mem_keys_above (shelf : Shelf) (ledger before : Ledger) {key : String} :
    key ∈ shelf.keys (ledger.above before.stored) ↔
      key ∈ shelf.keys before ∨ key ∈ shelf.keys ledger := by
  cases shelf <;> exact mem_keys_onTopOf

namespace Site

variable {config : Config} {root : View} {routes : Table} {store : Asset.Store}

/-! ## Pages alone and behind others -/

/-- The page of a route when nothing is stored, and the ledger after it. -/
def pageAlone (config : Config) (root : View) (routes : Table) (store : Asset.Store)
    (route : Entry) : Except Fault Page × Ledger :=
  buildPage config root (.ofBuild routes { store with files := [] }) route

/-- The ledger of a build of the given routes, which places files as the given store. -/
structure InBuild (routes : Table) (store : Asset.Store) (ledger : Ledger) : Prop where
  routes : ledger.routes = routes
  found : ledger.found = []
  staticUrl : ledger.assets.staticUrl = store.staticUrl
  directory : ledger.assets.directory = store.directory

theorem inBuild_ofBuild (routes : Table) (store : Asset.Store) :
    InBuild routes store (.ofBuild routes store) :=
  ⟨rfl, rfl, rfl, rfl⟩

/-- A build finds no new routes. -/
theorem found_buildPage (ledger : Ledger) (route : Entry) :
    (buildPage config root ledger route).2.found = ledger.found := by
  have steps := View.render_steps root
    { config, pass := .build, scope := .page route.path route.title } ledger.nextPage
  have grown := steps.grows
  obtain ⟨added, entries, found⟩ := steps.adds
  rw [grown.routes, List.self_eq_append_right] at entries
  rw [entries, List.map_nil, List.append_nil] at found
  rw [ledger_buildPage]
  exact found

theorem InBuild.buildPage {ledger : Ledger} (inBuild : InBuild routes store ledger)
    (route : Entry) : InBuild routes store (buildPage config root ledger route).2 := by
  have grown : ledger.Grows (Site.buildPage config root ledger route).2 :=
    grows_buildPage ledger route
  exact {
    routes := grown.routes.trans inBuild.routes
    found := (found_buildPage ledger route).trans inBuild.found
    staticUrl := grown.assets.staticUrl.trans inBuild.staticUrl
    directory := grown.assets.directory.trans inBuild.directory }

theorem fst_buildPages_of_ok {ledger after : Ledger} {route : Entry} {page : Page}
    (built : buildPage config root ledger route = (.ok page, after)) (rest : List Entry) :
    (buildPages config root ledger (route :: rest)).1 =
      (buildPages config root after rest).1.map (page :: ·) := by
  simp only [buildPages, built]
  rcases buildPages config root after rest with ⟨fault | pages, final⟩
  all_goals rfl

theorem InBuild.buildPages {ledger : Ledger} (inBuild : InBuild routes store ledger)
    (order : List Entry) : InBuild routes store (buildPages config root ledger order).2 :=
  buildPages_keeps (fun _ route before => before.buildPage route) order ledger inBuild

/-- A page that asks nothing is built behind others as it is alone. -/
theorem buildPage_eq_alone (unasking : root.Unasking) {ledger : Ledger}
    (inBuild : InBuild routes store ledger) (route : Entry) :
    buildPage config root ledger route =
      ((pageAlone config root routes store route).1,
        (pageAlone config root routes store route).2.above ledger.stored) := by
  have sameStart : ledger.nextPage =
      ((Ledger.ofBuild routes { store with files := [] }).above ledger.stored).nextPage := by
    obtain ⟨sameRoutes, found, staticUrl, directory⟩ := inBuild
    obtain ⟨table, paths, ⟨ownUrl, ownDirectory, files⟩, urls, catalog, numbering, notes, tags⟩ :=
      ledger
    simp only at sameRoutes found staticUrl directory
    subst sameRoutes found staticUrl directory
    simp [Ledger.nextPage, Ledger.ofBuild, Ledger.above, Ledger.stored, Asset.Store.above,
      Catalog.above, Catalog.empty, onTopOf_of_nil]
  have samePage : buildPage config root ledger route = buildPage config root
      ((Ledger.ofBuild routes { store with files := [] }).above ledger.stored) route := by
    simp only [buildPage, sameStart]
  rw [samePage]
  exact buildPage_above (Stage.guard_unasking _) ⟨root, rfl, unasking⟩

/-- Pages that can be built alone can be built one after another: each is the page that
is built alone, and they leave the keys that they leave alone. -/
theorem buildPages_eq_alone (unasking : root.Unasking) {page : Entry → Page}
    {order : List Entry}
    (each : ∀ route ∈ order, (pageAlone config root routes store route).1 = .ok (page route))
    {ledger : Ledger} (inBuild : InBuild routes store ledger) :
    (buildPages config root ledger order).1 = .ok (order.map page) ∧
      ∀ shelf : Shelf, ∀ key, key ∈ shelf.keys (buildPages config root ledger order).2 ↔
        key ∈ shelf.keys ledger ∨
          ∃ route ∈ order, key ∈ shelf.keys (pageAlone config root routes store route).2 := by
  induction order generalizing ledger with
  | nil => exact ⟨rfl, fun shelf key => by simp [buildPages]⟩
  | cons route rest inductionHypothesis =>
      have first : buildPage config root ledger route = _ :=
        buildPage_eq_alone unasking inBuild route
      rw [each route List.mem_cons_self] at first
      have after : InBuild routes store (buildPage config root ledger route).2 :=
        inBuild.buildPage route
      rw [first] at after
      obtain ⟨others, keys⟩ := inductionHypothesis
        (fun other member => each other (List.mem_cons_of_mem route member)) after
      constructor
      · rw [fst_buildPages_of_ok first, others]
        rfl
      · intro shelf key
        rw [ledger_buildPages_of_ok first, keys, Shelf.mem_keys_above, or_assoc,
          List.exists_mem_cons_iff]

/-- One page that cannot be built alone is enough to end the build. -/
theorem buildPages_fails (unasking : root.Unasking) {order : List Entry} {route : Entry}
    (member : route ∈ order) {reason : Fault}
    (fails : (pageAlone config root routes store route).1 = .error reason)
    {ledger : Ledger} (inBuild : InBuild routes store ledger) :
    ∃ fault, (buildPages config root ledger order).1 = .error fault := by
  induction order generalizing ledger with
  | nil => cases member
  | cons first rest inductionHypothesis =>
      have alone : buildPage config root ledger first = _ :=
        buildPage_eq_alone unasking inBuild first
      have after : InBuild routes store (buildPage config root ledger first).2 :=
        inBuild.buildPage first
      cases outcome : (pageAlone config root routes store first).1 with
      | error fault =>
          rw [outcome] at alone
          exact ⟨fault, by simp only [buildPages, alone]⟩
      | ok page =>
          rw [outcome] at alone
          rw [alone] at after
          have later : route ∈ rest := by
            rcases List.mem_cons.mp member with rfl | inRest
            · rw [fails] at outcome
              cases outcome
            · exact inRest
          obtain ⟨fault, failed⟩ := inductionHypothesis later after
          rw [fst_buildPages_of_ok alone, failed]
          exact ⟨fault, rfl⟩

/-! ## Builds in a given order -/

/-- The site of a view with known routes, whose pages are built in the given order. -/
def buildInOrder (config : Config) (root : View) (routes : Table) (store : Asset.Store)
    (order : List Entry) : Except BuildFault Site :=
  match buildPages config root (.ofBuild routes store) order with
  | (.ok pages, ledger) => .ok (ofLedger config pages ledger)
  | (.error fault, _) => .error (.render fault)

/-- A build takes its routes in the order in which they were found. -/
theorem buildRoutes_eq_inOrder (config : Config) (root : View) (routes : Table)
    (store : Asset.Store) :
    (buildRoutes config root routes store).1 =
      buildInOrder config root routes store routes.entries := by
  unfold buildRoutes buildInOrder
  rcases buildPages config root (.ofBuild routes store) routes.entries with
    ⟨fault | pages, ledger⟩
  all_goals rfl

/-- If all pages can be built alone, their site can be built in the given order. -/
theorem buildInOrder_eq_alone (unasking : root.Unasking) (reachable : store.Reachable)
    {page : Entry → Page} {order : List Entry}
    (each : ∀ route ∈ order, (pageAlone config root routes store route).1 = .ok (page route)) :
    ∃ ledger, buildInOrder config root routes store order =
        .ok (ofLedger config (order.map page) ledger) ∧
      ledger.assets.Reachable ∧ InBuild routes store ledger ∧
      ∀ shelf : Shelf, ∀ key, key ∈ shelf.keys ledger ↔
        key ∈ shelf.keys (.ofBuild routes store) ∨
          ∃ route ∈ order, key ∈ shelf.keys (pageAlone config root routes store route).2 := by
  have start := inBuild_ofBuild routes store
  obtain ⟨pages, keys⟩ := buildPages_eq_alone unasking each start
  have finalReachable :
      (buildPages config root (.ofBuild routes store) order).2.assets.Reachable :=
    reachable_buildPages order reachable
  refine ⟨_, ?_, finalReachable, start.buildPages order, keys⟩
  unfold buildInOrder
  rcases outcome : buildPages config root (.ofBuild routes store) order with ⟨result, ledger⟩
  rw [outcome] at pages
  obtain rfl : result = .ok (order.map page) := pages
  rfl

theorem buildInOrder_fails (unasking : root.Unasking) {order : List Entry} {route : Entry}
    (member : route ∈ order) {reason : Fault}
    (fails : (pageAlone config root routes store route).1 = .error reason) :
    ∃ fault, buildInOrder config root routes store order = .error fault := by
  obtain ⟨fault, failed⟩ :=
    buildPages_fails unasking member fails (inBuild_ofBuild routes store)
  refine ⟨.render fault, ?_⟩
  unfold buildInOrder
  rcases outcome : buildPages config root (.ofBuild routes store) order with ⟨result, ledger⟩
  rw [outcome] at failed
  obtain rfl : result = .error fault := failed
  rfl

/-- Sites with the same fragments, islands and files by their keys. Files of one path are
the same, or their names and contents are confused. -/
structure SameStock (site other : Site) : Prop where
  fragments : ∀ hash, hash ∈ site.fragments.map Fragment.fingerprint ↔
    hash ∈ other.fragments.map Fragment.fingerprint
  islands : ∀ island, island ∈ site.islands.map IslandRecord.id ↔
    island ∈ other.islands.map IslandRecord.id
  files : ∀ file, file ∈ site.assets.map Asset.file ↔ file ∈ other.assets.map Asset.file
  contents : ∀ asset ∈ site.assets, ∀ found ∈ other.assets, found.file = asset.file →
    found = asset ∨ Digest.Confused found.name found.contents asset.name asset.contents

/-- A file of a site is stored, and its address is used. -/
theorem mem_files_ofLedger {pages : List Page} {ledger : Ledger}
    (placed : ledger.assets.Placed) {file : String} :
    file ∈ (ofLedger config pages ledger).assets.map Asset.file ↔
      file ∈ Shelf.keys .files ledger ∧
        Asset.joinUrl ledger.assets.staticUrl file ∈ Shelf.keys .addresses ledger := by
  have used : ∀ asset, asset ∈ (ofLedger config pages ledger).assets ↔
      asset ∈ ledger.assets.files ∧ asset.url ∈ ledger.usedUrls := by
    intro asset
    unfold ofLedger Asset.Store.used
    simp
  simp only [Shelf.keys, List.map_id, List.mem_map]
  constructor
  · rintro ⟨asset, member, rfl⟩
    obtain ⟨stored, isUsed⟩ := (used asset).mp member
    rw [placed.url stored] at isUsed
    exact ⟨⟨asset, stored, rfl⟩, isUsed⟩
  · rintro ⟨⟨asset, stored, rfl⟩, isUsed⟩
    rw [← placed.url stored] at isUsed
    exact ⟨asset, (used asset).mpr ⟨stored, isUsed⟩, rfl⟩

/-- Ledgers of builds with the same keys make sites of the same stock. -/
theorem sameStock_of_keys {pages others : List Page} {ledger other : Ledger}
    (reachable : ledger.assets.Reachable) (otherReachable : other.assets.Reachable)
    (inBuild : InBuild routes store ledger) (otherInBuild : InBuild routes store other)
    (keys : ∀ shelf : Shelf, ∀ key, key ∈ shelf.keys ledger ↔ key ∈ shelf.keys other) :
    (ofLedger config pages ledger).SameStock (ofLedger config others other) := by
  have staticUrl := otherInBuild.staticUrl.trans inBuild.staticUrl.symm
  have directory := otherInBuild.directory.trans inBuild.directory.symm
  refine ⟨keys .fragments, keys .islands, ?_, ?_⟩
  · intro file
    rw [mem_files_ofLedger reachable.placed, mem_files_ofLedger otherReachable.placed, staticUrl,
      keys .files, keys .addresses]
  · intro asset member found foundMember same
    have stored := List.mem_of_mem_filter member
    have foundStored := List.mem_of_mem_filter foundMember
    have address := reachable.placed.url_eq otherReachable.placed staticUrl stored foundStored same
    exact (reachable.placed.eq_or_confused otherReachable.placed staticUrl directory stored
      foundStored address).2

/-- The pages of a view without components and without references to files stored
elsewhere do not depend on the order in which they are built. Either the build fails in
every order, or it succeeds in every order with the same page for each route and with the
same fragments, islands and files. -/
theorem order_of_pages_irrelevant (config : Config) (root : View) (routes : Table)
    (store : Asset.Store) (reachable : store.Reachable) (unasking : root.Unasking) :
    (∀ order : List Entry, order.Perm routes.entries →
      ∃ fault, buildInOrder config root routes store order = .error fault) ∨
    ∃ page : Entry → Page,
      (∀ order : List Entry, order.Perm routes.entries →
        ∃ site, buildInOrder config root routes store order = .ok site ∧
          site.pages = order.map page) ∧
      ∀ order other site otherSite, order.Perm routes.entries → other.Perm routes.entries →
        buildInOrder config root routes store order = .ok site →
          buildInOrder config root routes store other = .ok otherSite →
            site.SameStock otherSite := by
  by_cases fails : ∃ route ∈ routes.entries, ∃ reason,
      (pageAlone config root routes store route).1 = .error reason
  · left
    obtain ⟨route, member, reason, failed⟩ := fails
    intro order permuted
    exact buildInOrder_fails unasking (permuted.mem_iff.mpr member) failed
  · right
    -- The page for a route is the one that is built alone.
    let page : Entry → Page := fun route =>
      match (pageAlone config root routes store route).1 with
      | .ok page => page
      | .error _ => ⟨route.path.text, "", [], []⟩
    have each : ∀ route ∈ routes.entries,
        (pageAlone config root routes store route).1 = .ok (page route) := by
      intro route member
      cases outcome : (pageAlone config root routes store route).1 with
      | ok built => simp only [page, outcome]
      | error reason => exact absurd ⟨route, member, reason, outcome⟩ fails
    have inAnyOrder := fun (order : List Entry) (permuted : order.Perm routes.entries) =>
      buildInOrder_eq_alone unasking reachable
        (fun route (member : route ∈ order) => each route (permuted.mem_iff.mp member))
    refine ⟨page, ?_, ?_⟩
    · intro order permuted
      obtain ⟨ledger, outcome, -⟩ := inAnyOrder order permuted
      exact ⟨_, outcome, rfl⟩
    · intro order other site otherSite permuted otherPermuted success otherSuccess
      obtain ⟨ledger, outcome, finalReachable, inBuild, keys⟩ := inAnyOrder order permuted
      obtain ⟨otherLedger, otherOutcome, otherReachable, otherInBuild, otherKeys⟩ :=
        inAnyOrder other otherPermuted
      rw [success] at outcome
      rw [otherSuccess] at otherOutcome
      obtain rfl := Except.ok.inj outcome
      obtain rfl := Except.ok.inj otherOutcome
      apply sameStock_of_keys finalReachable otherReachable inBuild otherInBuild
      intro shelf key
      rw [keys, otherKeys]
      simp only [permuted.mem_iff, otherPermuted.mem_iff]

/-- A stylesheet and an island that two routes share, and a script of each route. -/
def marketStall (script contents : String) : List View :=
  [.stylesheet "market" "p \x7b\x7d" false,
   .remote
    { kind := .single, resource := "prices", loading := .standard, island := some "prices" }
    .ofRef .blank,
   .script { name := script, contents := some contents, inlined := false, asModule := false }]

def marketRoutes : View :=
  .switch "main" []
    [.route "fruit" "Fruit" (marketStall "fruit" "peel()"),
     .route "bread" "Bread" (marketStall "bread" "cut()")]

def marketTable : Table :=
  { entries := [⟨⟨["fruit"]⟩, "Fruit", "main"⟩, ⟨⟨["bread"]⟩, "Bread", "main"⟩]
    topContainer := "main" }

/-- The routes are found in one order, and their pages can be built in the other. -/
theorem marketRoutes_in_any_order :
    (survey .standard marketRoutes).toOption = some marketTable ∧
    ∃ site other,
      buildInOrder .standard marketRoutes marketTable (.ofConfig .standard)
        marketTable.entries = .ok site ∧
      buildInOrder .standard marketRoutes marketTable (.ofConfig .standard)
        marketTable.entries.reverse = .ok other ∧
      other.pages = site.pages.reverse ∧ site.SameStock other := by
  have found : (survey .standard marketRoutes).toOption = some marketTable := by decide +kernel
  have succeeds : (buildInOrder .standard marketRoutes marketTable (.ofConfig .standard)
      marketTable.entries).toOption.isSome = true := by decide +kernel
  have unasking : marketRoutes.Unasking := by
    simp [marketRoutes, marketStall, View.Unasking, View.AllUnasking, View.ofRef]
  refine ⟨found, ?_⟩
  rcases order_of_pages_irrelevant .standard marketRoutes marketTable _
      (.ofConfig .standard) unasking with fails | ⟨page, each, stock⟩
  · obtain ⟨fault, failed⟩ := fails marketTable.entries (.refl _)
    rw [failed] at succeeds
    cases succeeds
  · have reversed : marketTable.entries.reverse.Perm marketTable.entries := List.reverse_perm _
    obtain ⟨site, built, pages⟩ := each _ (.refl _)
    obtain ⟨other, otherBuilt, otherPages⟩ := each _ reversed
    refine ⟨site, other, built, otherBuilt, ?_, stock _ _ _ _ (.refl _) reversed built otherBuilt⟩
    rw [otherPages, pages, List.map_reverse]

end Site

end Sitewright

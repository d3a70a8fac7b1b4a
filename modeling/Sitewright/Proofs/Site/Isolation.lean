import Sitewright.Proofs.Render.Isolation
import Sitewright.Proofs.Site.Hosts

/-!
Contract: builds that share a store of assets.

A build leaves the files in its store that it made there, whether it succeeds or fails.
A later build finds them again under their names, and where it makes a file that is
there already, it keeps the one that is there. Apart from that it does not see them.

Owns:
- pages and builds on top of what was stored earlier;
- `LeftBehind`, the stores that builds leave;
- when a build ends as with a new store, and what differs then;
- a build that links a file which only an earlier one has made.
-/

namespace Sitewright

open Routing Relation

/-! ## Stores of a build -/

section Steps

variable {config : Config} {pass : Pass} {free : Prop} {before after : Ledger}

theorem Ledger.Step.reachable (step : Ledger.Step config pass free before after)
    (reachable : before.assets.Reachable) : after.assets.Reachable := by
  cases step with
  | number | require | note | collect => exact reachable
  | storeTemplate scope resource template => cases pass <;> exact reachable
  | recordIsland record allowed => cases pass <;> exact reachable
  | addRoute entry =>
      unfold Ledger.addRoute
      split <;> exact reachable
  | seeContainer container => cases pass <;> exact reachable
  | storeAsset stored =>
      cases pass with
      | search =>
          rw [Ledger.storeAsset_search stored]
          exact reachable
      | build =>
          obtain ⟨assets, registered, rfl⟩ := Ledger.storeAsset_build stored
          rw [Ledger.assets_useUrl]
          exact reachable.register registered
  | lookupAsset name =>
      cases pass with
      | search => exact reachable
      | build =>
          rcases Ledger.lookupAsset_build before name with absent | ⟨url, -, found⟩
          · rw [absent]
            exact reachable
          · rw [found, Ledger.assets_useUrl]
            exact reachable

theorem Ledger.Steps.reachable (steps : Ledger.Steps config pass free before after)
    (reachable : before.assets.Reachable) : after.assets.Reachable := by
  induction steps with
  | refl => exact reachable
  | tail _ step inductionHypothesis => exact step.reachable inductionHypothesis

end Steps

namespace Asset.Store

/-- Two files of one address are one file, or their names and contents are confused. -/
theorem Placed.eq_or_confused {store other : Store} (placed : store.Placed)
    (otherPlaced : other.Placed) (staticUrl : other.staticUrl = store.staticUrl)
    (directory : other.directory = store.directory) {asset found : Asset}
    (member : asset ∈ store.files) (otherMember : found ∈ other.files)
    (same : found.url = asset.url) :
    found.kind = asset.kind ∧
      (found = asset ∨ Digest.Confused found.name found.contents asset.name asset.contents) := by
  have assetPlace := placed asset member
  have foundPlace := otherPlaced found otherMember
  rw [place_congr staticUrl directory] at foundPlace
  have urls : (store.place found.contents found.name found.kind).url =
      (store.place asset.contents asset.name asset.kind).url := by
    rw [← assetPlace, ← foundPlace, same]
  obtain ⟨kinds, fingerprints⟩ := fingerprint_eq_of_url_eq urls
  refine ⟨kinds, ?_⟩
  rcases Digest.eq_or_confused_of_fingerprint_eq fingerprints with ⟨names, contents⟩ | confused
  · left
    rw [foundPlace, assetPlace, names, contents, kinds]
  · exact Or.inr confused

/-- Files of two stores with one path have one address. -/
theorem Placed.url_eq {store other : Store} (placed : store.Placed) (otherPlaced : other.Placed)
    (staticUrl : other.staticUrl = store.staticUrl) {asset found : Asset}
    (member : asset ∈ store.files) (otherMember : found ∈ other.files)
    (same : found.file = asset.file) : found.url = asset.url := by
  rw [placed.url member, otherPlaced.url otherMember, staticUrl, same]

/-- A search is the same among entries of which all that are wanted are left. -/
theorem find?_filter_of_imp {α : Type} {kept wanted : α → Bool} {entries : List α}
    (stays : ∀ entry ∈ entries, wanted entry = true → kept entry = true) :
    (entries.filter kept).find? wanted = entries.find? wanted := by
  induction entries with
  | nil => rfl
  | cons first rest inductionHypothesis =>
      have restSame := inductionHypothesis fun entry member =>
        stays entry (List.mem_cons_of_mem first member)
      by_cases isWanted : wanted first = true
      · have isKept := stays first List.mem_cons_self isWanted
        rw [List.filter_cons_of_pos isKept, List.find?_cons_of_pos isWanted,
          List.find?_cons_of_pos isWanted]
      · rw [List.find?_cons_of_neg isWanted, ← restSame]
        by_cases isKept : kept first = true
        · rw [List.filter_cons_of_pos isKept, List.find?_cons_of_neg isWanted]
        · rw [List.filter_cons_of_neg isKept]

/-- A name is found at the same address on top of earlier files if no earlier file has the
name and none is in the way of a file that does. -/
theorem lookup?_above_of_none {store : Store} {earlier : List Asset} {name : String}
    (absent : ∀ old ∈ earlier, old.name ≠ name)
    (free : ∀ asset ∈ store.files, asset.name = name → ∀ old ∈ earlier, old.file ≠ asset.file) :
    (store.above earlier).lookup? name = store.lookup? name := by
  have below : earlier.find? (fun asset => asset.name = name) = none := by
    rw [List.find?_eq_none]
    intro old member
    simpa using absent old member
  have above : (store.files.filter fun asset => !earlier.any fun old => old.file = asset.file).find?
      (fun asset => asset.name = name) = store.files.find? fun asset => asset.name = name := by
    apply find?_filter_of_imp
    intro asset member named
    simpa using free asset member (by simpa using named)
  unfold lookup? Store.above onTopOf
  rw [List.find?_append, below, Option.none_or, above]

/-- The first earlier file of a name is found before all others. -/
theorem lookup?_above_of_some {store other : Store} {name url : String}
    (found : other.lookup? name = some url) :
    (store.above other.files).lookup? name = some url := by
  unfold lookup? at found ⊢
  obtain ⟨asset, isFound, address⟩ := Option.map_eq_some_iff.mp found
  unfold Store.above onTopOf
  rw [List.find?_append, isFound, Option.some_or, Option.map_some, address]

/-! ## Two stores side by side -/

/-- Two stores that place files in the same way, and no file of one is confused with a file
of the other. -/
structure Beside (store other : Store) : Prop where
  reachable : store.Reachable
  otherReachable : other.Reachable
  staticUrl : store.staticUrl = other.staticUrl
  directory : store.directory = other.directory
  clear : ∀ old ∈ store.files, ∀ new ∈ other.files, old.kind = new.kind →
    ¬ Digest.Confused old.name old.contents new.name new.contents

namespace Beside

variable {store other : Store} (beside : store.Beside other)

include beside

/-- Files of one address are one file. -/
theorem eq_of_url_eq {old new : Asset} (member : old ∈ store.files)
    (otherMember : new ∈ other.files) (same : old.url = new.url) : old = new := by
  have either := beside.otherReachable.placed.eq_or_confused beside.reachable.placed
    beside.staticUrl beside.directory otherMember member same
  exact either.2.resolve_right (beside.clear old member new otherMember either.1)

theorem eq_of_file_eq {old new : Asset} (member : old ∈ store.files)
    (otherMember : new ∈ other.files) (same : old.file = new.file) : old = new := by
  apply beside.eq_of_url_eq member otherMember
  exact beside.otherReachable.placed.url_eq beside.reachable.placed beside.staticUrl otherMember
    member same

/-- A name is found at the same address on top of the first store, if that store does not
have it or has it there too. -/
theorem lookup?_above {early : Store} (part : early.files ⊆ other.files) {name : String}
    (agrees : store.lookup? name = none ∨ store.lookup? name = early.lookup? name) :
    (early.above store.files).lookup? name = early.lookup? name := by
  cases below : store.lookup? name with
  | some url =>
      rw [below] at agrees
      rw [lookup?_above_of_some below]
      exact agrees.resolve_left (by simp)
  | none =>
      have absent : ∀ old ∈ store.files, old.name ≠ name := by
        intro old member named
        obtain ⟨first, -, -, found⟩ := lookup?_of_mem member
        rw [named, below] at found
        cases found
      apply lookup?_above_of_none absent
      intro asset member named old oldMember same
      rw [beside.eq_of_file_eq oldMember (part member) same] at oldMember
      exact absent asset oldMember named

/-- The same files are used on top of the first store, though maybe in another order. -/
theorem perm_used {urls : List String} (serves : ∀ url ∈ urls, other.Serves url) :
    ((other.above store.files).used urls).Perm (other.used urls) := by
  have nodup : (other.above store.files).files.Nodup :=
    .of_map Asset.file (nodup_onTopOf beside.reachable.nodup beside.otherReachable.nodup)
  have otherNodup : other.files.Nodup := .of_map Asset.file beside.otherReachable.nodup
  unfold used
  rw [List.perm_ext_iff_of_nodup (nodup.filter _) (otherNodup.filter _)]
  intro asset
  rw [List.mem_filter, List.mem_filter]
  apply and_congr_left
  intro isUsed
  have inUrls : asset.url ∈ urls := by simpa using isUsed
  constructor
  · intro member
    rcases mem_onTopOf.mp member with below | ⟨above, -⟩
    · obtain ⟨found, foundMember, address⟩ := serves asset.url inUrls
      rw [beside.eq_of_url_eq below foundMember address.symm]
      exact foundMember
    · exact above
  · intro member
    apply mem_onTopOf.mpr
    by_cases free : ∀ old ∈ store.files, old.file ≠ asset.file
    · exact Or.inr ⟨member, free⟩
    · push Not at free
      obtain ⟨old, below, same⟩ := free
      rw [← beside.eq_of_file_eq below member same]
      exact Or.inl below

end Beside

end Asset.Store

namespace Site

variable {config : Config} {root : View}

/-! ## Pages on top of earlier entries -/

section Pages

variable {earlier : Earlier} {holds : Stage → Prop}

/-- The page of a route is the same on top of earlier entries. -/
theorem buildPage_above (guard : Stage.Guard earlier holds) {ledger : Ledger} {route : Entry}
    (guarded : holds (pageStage config root ledger route)) :
    buildPage config root (ledger.above earlier) route =
      ((buildPage config root ledger route).1,
        (buildPage config root ledger route).2.above earlier) := by
  have isolated := View.isolated guard root _ _ (State.waits_ofLedger ledger.nextPage) guarded
  have same : root.render (pageStage config root ledger route).setting
      (.ofLedger (ledger.above earlier).nextPage) = _ := isolated.same
  simp only [buildPage]
  simp only [pageStage] at same
  rw [same]
  rcases root.render { config, pass := .build, scope := .page route.path route.title }
    (.ofLedger ledger.nextPage) with ⟨fault | html, after⟩
  all_goals rfl

/-- The pages of all routes are the same on top of earlier entries. -/
theorem buildPages_above (guard : Stage.Guard earlier holds) {routes : List Entry}
    {ledger : Ledger}
    (guarded : ∀ {start route}, PageStarts config root ledger routes start route →
      holds (pageStage config root start route)) :
    buildPages config root (ledger.above earlier) routes =
      ((buildPages config root ledger routes).1,
        (buildPages config root ledger routes).2.above earlier) := by
  induction routes generalizing ledger with
  | nil => rfl
  | cons route rest inductionHypothesis =>
      have page := buildPage_above guard (guarded (.here ledger route rest))
      rcases built : buildPage config root ledger route with ⟨fault | first, after⟩
      all_goals
        rw [built] at page
        simp only [buildPages, built, page]
      rw [inductionHypothesis fun starts => guarded (.later built starts)]
      rcases buildPages config root after rest with ⟨fault | others, final⟩
      all_goals rfl

end Pages

/-! ## Stores that builds leave -/

/-- A store that is new, or was left so and then used by one more build, of whatever view
and with whatever outcome. -/
inductive LeftBehind (config : Config) : Asset.Store → Prop where
  | new : LeftBehind config (.ofConfig config)
  | build (root : View) {store : Asset.Store} (left : LeftBehind config store) :
      LeftBehind config (build config root store).2

theorem reachable_buildPages (routes : List Entry) {ledger : Ledger}
    (reachable : ledger.assets.Reachable) :
    (buildPages config root ledger routes).2.assets.Reachable := by
  let Kept : Ledger → Prop := fun ledger => ledger.assets.Reachable
  refine buildPages_keeps (fun before route (kept : Kept before) => ?_) routes ledger reachable
  have steps := View.render_steps root
    { config, pass := .build, scope := .page route.path route.title } before.nextPage
  rw [ledger_buildPage]
  exact steps.reachable kept

theorem store_buildRoutes (config : Config) (root : View) (routes : Table) (store : Asset.Store) :
    (buildRoutes config root routes store).2 =
      (buildPages config root (.ofBuild routes store) routes.entries).2.assets := by
  unfold buildRoutes
  split
  all_goals
    next rendered =>
    rw [rendered]

/-- A build that finds its routes leaves the store that its pages leave; any other build
leaves the store as it is. -/
theorem store_build (config : Config) (root : View) (store : Asset.Store) :
    (build config root store).2 = store ∨ ∃ routes : Table,
      (build config root store).2 =
        (buildPages config root (.ofBuild routes store) routes.entries).2.assets := by
  unfold build
  split
  · exact Or.inl rfl
  · split
    · exact Or.inl rfl
    · next routes found => exact Or.inr ⟨routes, store_buildRoutes config root routes store⟩

theorem LeftBehind.reachable {store : Asset.Store} (left : LeftBehind config store) :
    store.Reachable := by
  induction left with
  | new => exact .ofConfig config
  | @build root store _ inductionHypothesis =>
      rcases store_build config root store with same | ⟨routes, built⟩
      · rw [same]
        exact inductionHypothesis
      · rw [built]
        exact reachable_buildPages routes.entries inductionHypothesis

/-- The files of the store are placed as in a new one. -/
theorem LeftBehind.place {store : Asset.Store} (left : LeftBehind config store) :
    store.staticUrl = (Asset.Store.ofConfig config).staticUrl ∧
      store.directory = (Asset.Store.ofConfig config).directory := by
  induction left with
  | new => exact ⟨rfl, rfl⟩
  | @build root store _ inductionHypothesis =>
      rcases store_build config root store with same | ⟨routes, built⟩
      · rw [same]
        exact inductionHypothesis
      · have grown : (Ledger.ofBuild routes store).Grows
            (buildPages config root (.ofBuild routes store) routes.entries).2 :=
          grows_buildPages routes.entries _
        have part := grown.assets
        rw [built]
        exact ⟨part.staticUrl.trans inductionHypothesis.1,
          part.directory.trans inductionHypothesis.2⟩

/-! ## What the renders of a build find -/

/-- The files that a render of a build has before it are there when the build is over. -/
theorem Rendered.files_subset {store : Asset.Store} {stage : Stage} {routes : Table}
    (rendered : Rendered config root store stage) (found : survey config root = .ok routes) :
    stage.state.ledger.assets.files ⊆
      (buildPages config root (.ofBuild routes store) routes.entries).2.assets.files := by
  obtain ⟨others, start, route, foundToo, starts, leads⟩ := rendered.leads
  obtain rfl := routes_eq_of_found found foundToo
  have own : stage.state.ledger.Grows stage.outcome.2.ledger := by
    have steps : Ledger.Steps stage.setting.config stage.setting.pass True stage.state.ledger
        stage.outcome.2.ledger := by
      obtain ⟨task, setting, state⟩ := stage
      cases task with
      | view shown => exact (shown.render_stepwise setting state leads.waits).1
      | program running => exact (running.run_stepwise setting state leads.waits).1
    rw [leads.pass] at steps
    exact steps.grows
  have page : stage.outcome.2.ledger.Grows
      (pageStage config root start route).outcome.2.ledger := by
    have steps : Ledger.Steps config .build True stage.outcome.2.ledger
        (pageStage config root start route).outcome.2.ledger := leads.passes
    exact steps.grows
  have last := starts.keeps (fun after route grown => grown.trans (grows_buildPage after route))
    (own.trans page)
  exact last.assets.files.subset

/-- Every question in the course of a build gets the same answer on top of other files, if
the names that are looked up do. -/
theorem Rendered.answeredThroughout {store : Asset.Store} {files : List Asset} {stage : Stage}
    (rendered : Rendered config root store stage)
    (answers : ∀ stage, Rendered config root store stage → ∀ name,
      stage.task.asks? = some (.lookupAsset name) →
        (stage.state.ledger.assets.above files).lookup? name =
          stage.state.ledger.assets.lookup? name) :
    stage.AnsweredThroughout (.ofFiles files) := by
  intro inner reached
  have innerRendered : Rendered config root store inner := by
    induction reached with
    | refl => exact rendered
    | tail _ step inductionHypothesis => exact .inner inductionHypothesis step
  intro request asked question
  -- The catalog is the same, so that only a lookup could be answered differently.
  have catalogAnswer : ∀ {α : Type} (ask : Catalog → α),
      (Render.askCatalog ask inner.setting (inner.state.above (.ofFiles files))).1 =
        (Render.askCatalog ask inner.setting inner.state).1 := by
    intro α ask
    unfold Render.askCatalog Render.modifyGet State.above
    simp only [Ledger.catalog_above_ofFiles]
    cases inner.setting.pass <;> rfl
  cases request with
  | lookupAsset name =>
      have same := answers inner innerRendered name asked
      show Except.ok (Ledger.lookupAsset _ _ name).2 = Except.ok (Ledger.lookupAsset _ _ name).2
      cases inner.setting.pass with
      | search => rfl
      | build =>
          rw [Ledger.lookupAsset_build_eq, Ledger.lookupAsset_build_eq]
          exact congrArg Except.ok same
  | fragmentCount => exact catalogAnswer _
  | islandFragment id => exact catalogAnswer _
  | _ => cases question

/-! ## The same build with two stores -/

/-- A site that differs from another one at most in the order of its assets. -/
structure SameUpToOrder (site other : Site) : Prop where
  pages : site.pages = other.pages
  fragments : site.fragments = other.fragments
  islands : site.islands = other.islands
  assets : site.assets.Perm other.assets
  fragmentSegment : site.fragmentSegment = other.fragmentSegment

/-- Two builds that end with one fault, or with sites that are the same up to the order of
their assets. -/
inductive EndsAlike : Except BuildFault Site → Except BuildFault Site → Prop where
  | fault (fault : BuildFault) : EndsAlike (.error fault) (.error fault)
  | site {site other : Site} (same : site.SameUpToOrder other) :
      EndsAlike (.ok site) (.ok other)

/-- A build with a store that was left starts on top of the files in it. -/
theorem LeftBehind.ofBuild {store : Asset.Store} (left : LeftBehind config store)
    (routes : Table) :
    Ledger.ofBuild routes store =
      (Ledger.ofBuild routes (.ofConfig config)).above (.ofFiles store.files) := by
  obtain ⟨staticUrl, directory⟩ := left.place
  obtain ⟨ownUrl, ownDirectory, files⟩ := store
  simp only at staticUrl directory
  subst staticUrl directory
  simp [Ledger.ofBuild, Ledger.above, Earlier.ofFiles, Asset.Store.above, Asset.Store.ofConfig,
    Catalog.above, Catalog.empty, onTopOf_of_nil]

/-- Pages that are the same on top of earlier files make the same site, up to the order of
its assets. -/
theorem endsAlike_of_pages {routes : Table} {store : Asset.Store}
    (pages : buildPages config root (.ofBuild routes store) routes.entries =
      ((buildPages config root (.ofBuild routes (.ofConfig config)) routes.entries).1,
        (buildPages config root (.ofBuild routes (.ofConfig config)) routes.entries).2.above
          (.ofFiles store.files)))
    (beside : store.Beside (buildRoutes config root routes (.ofConfig config)).2) :
    EndsAlike (buildRoutes config root routes store).1
      (buildRoutes config root routes (.ofConfig config)).1 := by
  have served :
      (buildPages config root (.ofBuild routes (.ofConfig config)) routes.entries).2.Served
        config.staticUrl :=
    served_buildPages routes.entries
      ⟨rfl, Asset.Store.placed_ofConfig config, by simp [Ledger.ofBuild]⟩
  rw [store_buildRoutes] at beside
  unfold buildRoutes
  rw [pages]
  rcases built : buildPages config root (.ofBuild routes (.ofConfig config)) routes.entries with
    ⟨fault | pages, ledger⟩
  all_goals rw [built] at served beside
  · exact .fault _
  · refine .site ⟨rfl, ?_, ?_, ?_, rfl⟩
    · simp only [ofLedger, Ledger.catalog_above_ofFiles]
    · simp only [ofLedger, Ledger.catalog_above_ofFiles]
    · simp only [ofLedger, Ledger.usedUrls_above_ofFiles]
      exact beside.perm_used served.used

theorem build_of_survey {routes : Table} (checked : config.check = .ok ())
    (found : survey config root = .ok routes) (store : Asset.Store) :
    build config root store = buildRoutes config root routes store := by
  simp only [build, checked, found]

/-- A build ends as with a new store when its store has files that earlier builds left,
unless it sees them: wherever the build with the new store looks up a name, no file was
left under it or the first one has the address that is found anyway; and no file that was
left is confused with a file of the build. -/
theorem build_isolated_from_left_files (config : Config) (root : View) (store : Asset.Store)
    (left : LeftBehind config store)
    (answers : ∀ stage, Rendered config root (.ofConfig config) stage → ∀ name,
      stage.task.asks? = some (.lookupAsset name) →
        store.lookup? name = none ∨
          store.lookup? name = stage.state.ledger.assets.lookup? name)
    (clear : ∀ old ∈ store.files, ∀ new ∈ (build config root (.ofConfig config)).2.files,
      old.kind = new.kind → ¬ Digest.Confused old.name old.contents new.name new.contents) :
    EndsAlike (build config root store).1 (build config root (.ofConfig config)).1 := by
  cases checked : config.check with
  | error fault =>
      simp only [build, checked]
      exact .fault fault
  | ok _ =>
      cases found : survey config root with
      | error fault =>
          simp only [build, checked, found]
          exact .fault fault
      | ok routes =>
          rw [build_of_survey checked found] at clear ⊢
          rw [build_of_survey checked found]
          have final := store_buildRoutes config root routes (.ofConfig config)
          have place := left.place
          have beside : store.Beside (buildRoutes config root routes (.ofConfig config)).2 := by
            have grown : (Ledger.ofBuild routes (.ofConfig config)).Grows
                (buildPages config root (.ofBuild routes (.ofConfig config)) routes.entries).2 :=
              grows_buildPages routes.entries _
            refine ⟨left.reachable, ?_, ?_, ?_, clear⟩
            all_goals rw [final]
            · exact reachable_buildPages routes.entries (.ofConfig config)
            · exact place.1.trans grown.assets.staticUrl.symm
            · exact place.2.trans grown.assets.directory.symm
          apply endsAlike_of_pages ?_ beside
          rw [left.ofBuild routes]
          apply buildPages_above (Stage.guard_answeredThroughout _)
          intro start route starts
          have page : Rendered config root (.ofConfig config) (pageStage config root start route) :=
            .page found starts
          apply page.answeredThroughout
          intro stage rendered name asked
          apply beside.lookup?_above ?_ (answers stage rendered name asked)
          rw [final]
          exact rendered.files_subset found

/-- A stylesheet, and a script that is stored and then linked by its name. -/
def shopScripts : List View :=
  [.stylesheet "shop" "p \x7b\x7d" false,
   .script { name := "app", contents := some "run()", inlined := false, asModule := false },
   .script { name := "app", contents := none, inlined := false, asModule := false }]

def scriptPage : View := .switch "main" [] [.route "shop" "Shop" shopScripts]

/-- No render of the page asks for another name. -/
theorem Rendered.asks_scriptPage {store : Asset.Store} {stage : Stage}
    (rendered : Rendered Config.standard scriptPage store stage) {name : String}
    (asked : stage.task.asks? = some (.lookupAsset name)) : name = "app" := by
  have task : stage.task ∈ [Task.view scriptPage, .view (.group [.route "shop" "Shop" shopScripts]),
      .view (.route "shop" "Shop" shopScripts), .view (.group shopScripts)] ∨
      ∃ view ∈ shopScripts, stage.task = .view view := by
    clear asked
    induction rendered with
    | page found starts => simp [pageStage]
    | @inner outer inner _ step inductionHypothesis =>
        obtain ⟨task, setting, state⟩ := outer
        simp only [List.mem_cons, List.not_mem_nil, or_false] at inductionHypothesis
        rcases inductionHypothesis with (rfl | rfl | rfl | rfl) | ⟨view, member, rfl⟩
        · cases step with
          | switch => simp
        · cases step with
          | child sibling => simp [List.mem_singleton.mp sibling.mem]
        · cases step with
          | route => simp
        · cases step with
          | child sibling => exact Or.inr ⟨_, sibling.mem, rfl⟩
        · simp only [shopScripts, List.mem_cons, List.not_mem_nil, or_false] at member
          rcases member with rfl | rfl | rfl <;> cases step
  rcases task with inside | ⟨view, member, shown⟩
  · simp only [List.mem_cons, List.not_mem_nil, or_false] at inside
    rcases inside with shown | shown | shown | shown
    all_goals
      rw [shown] at asked
      cases asked
  · rw [shown] at asked
    simp only [shopScripts, List.mem_cons, List.not_mem_nil, or_false] at member
    rcases member with rfl | rfl | rfl
    · cases asked
    · cases asked
    · cases asked
      rfl

/-- Behind a build that left the stylesheet, the page is the same as with a new store. -/
theorem scriptPage_isolated :
    EndsAlike (build Config.standard scriptPage
        (build Config.standard shopRoutes (.ofConfig Config.standard)).2).1
      (build Config.standard scriptPage (.ofConfig Config.standard)).1 := by
  have absent : (build Config.standard shopRoutes (.ofConfig Config.standard)).2.lookup? "app" =
      none := by decide +kernel
  have shared : ∀ old ∈ (build Config.standard shopRoutes (.ofConfig Config.standard)).2.files,
      ∀ new ∈ (build Config.standard scriptPage (.ofConfig Config.standard)).2.files,
        old.kind = new.kind → old = new := by decide +kernel
  apply build_isolated_from_left_files Config.standard scriptPage _ (.build shopRoutes .new)
  · intro stage rendered name asked
    rw [rendered.asks_scriptPage asked]
    exact Or.inl absent
  · intro old member new newMember kinds
    rw [shared old member new newMember kinds]
    exact Digest.not_confused_self new.name new.contents

/-- A page that links a script of another build. -/
def linkPage : View :=
  .switch "main" []
    [.route "shop" "Shop"
      [.script { name := "app", contents := none, inlined := false, asModule := false }]]

/-- A file that an earlier build left is found under its name. -/
theorem left_script_linked : ∃ store, LeftBehind Config.standard store ∧
    (build Config.standard linkPage store).1 ≠
      (build Config.standard linkPage (.ofConfig Config.standard)).1 := by
  refine ⟨_, .build scriptPage .new, ?_⟩
  have found : (build Config.standard linkPage
      (build Config.standard scriptPage (.ofConfig Config.standard)).2).1.toOption.isSome =
        true := by decide +kernel
  have missed : (build Config.standard linkPage
      (.ofConfig Config.standard)).1.toOption.isSome = false := by decide +kernel
  intro same
  rw [same, missed] at found
  cases found

end Site

end Sitewright

import Sitewright.Proofs.Asset.Store
import Sitewright.Proofs.Markup.Inert
import Sitewright.Render.Basic

/-!
Contract: settings and states whose strings cannot disturb the blocks of a template.

Owns:
- tidy scopes, tables, stores, ledgers and states;
- the changes of scope and ledger that keep them tidy, and the addresses that tidy
  ledgers give out.

Does not own: renders.
-/

namespace Sitewright

open Text Template Markup Routing Catalog

/-! ## Settings and states -/

structure OpenForm.Tidy (form : OpenForm) : Prop where
  id : Inert form.id
  islands : ∀ island ∈ form.islands, Inert island
  items : ∀ item ∈ form.items, item.Inert

structure Scope.Tidy (scope : Scope) : Prop where
  current : ∀ segment ∈ scope.current.segments, BraceFree segment
  container : ∀ container ∈ scope.container, Inert container
  form : ∀ form ∈ scope.form, form.Tidy

structure Setting.Tidy (setting : Setting) : Prop where
  config : setting.config.BraceFree
  scope : setting.scope.Tidy

structure Routing.Table.Tidy (table : Table) : Prop where
  entries : ∀ entry ∈ table.entries, Inert entry.container
  top : Inert table.topContainer

structure Asset.Store.Tidy (store : Asset.Store) : Prop where
  staticUrl : BraceFree store.staticUrl
  directory : BraceFree store.directory
  files : ∀ asset ∈ store.files, BraceFree asset.url

structure Ledger.Tidy (ledger : Ledger) : Prop where
  routes : ledger.routes.Tidy
  assets : ledger.assets.Tidy
  fragments : ∀ fragment ∈ ledger.catalog.fragments, Balanced fragment.template
  forms : BraceFree ledger.numbering.formPrefix
  metaTags : ∀ attributes ∈ ledger.metaTags, attributes.Inert

/-- A waiting alternative that writes balanced text. -/
def Branch.Balanced (branch : Branch) : Prop :=
  ∀ (setting : Setting) (ledger : Ledger) (text : String) (after : Ledger),
    setting.Tidy → ledger.Tidy → branch setting ledger = (.ok text, after) →
      Template.Balanced text ∧ after.Tidy

structure State.Tidy (state : State) : Prop where
  ledger : state.ledger.Tidy
  branch : ∀ branch ∈ state.branch, Branch.Balanced branch

theorem State.tidy_ofLedger {ledger : Ledger} (tidy : ledger.Tidy) : (ofLedger ledger).Tidy :=
  ⟨tidy, by simp [ofLedger]⟩

/-! ## Changes of the scope -/

namespace Scope.Tidy

variable {scope : Scope} (tidy : scope.Tidy)

include tidy

theorem inRouter {container : String} (inert : Inert container) :
    (scope.inRouter container).Tidy :=
  ⟨tidy.current, by simpa [Scope.inRouter] using inert, tidy.form⟩

theorem inForm {form : OpenForm} (formTidy : form.Tidy) : (scope.inForm form).Tidy :=
  ⟨tidy.current, tidy.container, by simpa [Scope.inForm] using formTidy⟩

theorem enter {route : String} (free : BraceFree route) : (scope.enter route).Tidy := by
  refine ⟨?_, tidy.container, tidy.form⟩
  intro segment member
  rcases List.mem_append.mp member with above | own
  · exact tidy.current segment above
  · exact free.of_mem_pieces own

theorem inConditional : scope.inConditional.Tidy :=
  ⟨tidy.current, tidy.container, tidy.form⟩

theorem outsideConditional : scope.outsideConditional.Tidy :=
  ⟨tidy.current, tidy.container, tidy.form⟩

theorem inShell : scope.inShell.Tidy :=
  ⟨tidy.current, tidy.container, tidy.form⟩

theorem detached : scope.detached.Tidy :=
  ⟨tidy.current, tidy.container, tidy.form⟩

theorem inert_current : Inert scope.current.text :=
  inert_of_braceFree (Path.braceFree_text tidy.current)

end Scope.Tidy

/-! ## Changes of the ledger -/

namespace Routing.Table.Tidy

variable {table : Table} (tidy : table.Tidy)

include tidy

theorem add? {entry : Entry} (inert : Inert entry.container) {larger : Table}
    (added : table.add? entry = some larger) : larger.Tidy := by
  unfold Table.add? at added
  split at added
  · cases added
  · obtain rfl := Option.some.inj added
    refine ⟨?_, tidy.top⟩
    intro other member
    rcases List.mem_append.mp member with old | new
    · exact tidy.entries other old
    · rw [List.mem_singleton.mp new]
      exact inert

theorem seeContainer {container : String} (inert : Inert container) :
    (table.seeContainer container).Tidy := by
  unfold Table.seeContainer
  split
  · exact ⟨tidy.entries, inert⟩
  · exact tidy

theorem inert_containerOf (route : Path) : Inert (table.containerOf route) := by
  unfold Table.containerOf
  split
  · next entry found => exact tidy.entries entry (List.mem_of_find?_eq_some found)
  · exact tidy.top

end Routing.Table.Tidy

theorem Asset.Store.Tidy.register {store after : Asset.Store} {contents name url : String}
    {kind : AssetKind} (tidy : store.Tidy)
    (registered : store.register contents name kind = .ok (after, url)) :
    after.Tidy ∧ BraceFree url := by
  obtain ⟨shape, address⟩ := register_eq_ok registered
  have free := braceFree_place tidy.staticUrl tidy.directory contents name kind
  rw [shape, address]
  refine ⟨⟨?_, ?_, ?_⟩, free⟩
  · rw [staticUrl_add]
    exact tidy.staticUrl
  · rw [directory_add]
    exact tidy.directory
  · intro asset member
    rcases add_cases store (store.place contents name kind) with ⟨same, -⟩ | added
    · rw [same] at member
      exact tidy.files asset member
    · rw [added] at member
      rcases List.mem_append.mp member with old | new
      · exact tidy.files asset old
      · rw [List.mem_singleton.mp new]
        exact free

namespace Ledger.Tidy

variable {ledger : Ledger} (tidy : ledger.Tidy)

include tidy

theorem addRoute (pass : Pass) {entry : Entry} (inert : Inert entry.container) :
    (ledger.addRoute pass entry).Tidy := by
  unfold Ledger.addRoute
  split
  · next added => exact { tidy with routes := tidy.routes.add? inert added }
  · exact tidy

theorem seeContainer (pass : Pass) {container : String} (inert : Inert container) :
    (ledger.seeContainer pass container).Tidy := by
  cases pass with
  | search => exact { tidy with routes := tidy.routes.seeContainer inert }
  | build => exact tidy

theorem recordIsland (pass : Pass) (record : IslandRecord) :
    (ledger.recordIsland pass record).Tidy := by
  cases pass with
  | search => exact tidy
  | build =>
      refine { tidy with fragments := ?_ }
      intro fragment member
      simp only [Ledger.recordIsland, Catalog.addIsland] at member
      split at member <;> exact tidy.fragments fragment member

theorem useUrl (url : String) : (ledger.useUrl url).Tidy := by
  unfold Ledger.useUrl
  split
  · exact tidy
  · exact { tidy with }

theorem storeTemplate {setting : Setting} (config : setting.config.BraceFree)
    (resource : String) {template : String} (balanced : Balanced template) :
    (ledger.storeTemplate setting resource template).1.Tidy ∧
      BraceFree (ledger.storeTemplate setting resource template).2.url := by
  unfold Ledger.storeTemplate
  split
  · exact ⟨tidy, braceFree_empty⟩
  · refine ⟨{ tidy with fragments := ?_ }, config.fragmentUrl _ (Digest.braceFree_fingerprint _ _)⟩
    intro fragment member
    simp only [Catalog.storeTemplate, Catalog.addFragment] at member
    split at member
    · exact tidy.fragments fragment member
    · rcases List.mem_append.mp member with old | new
      · exact tidy.fragments fragment old
      · rw [List.mem_singleton.mp new]
        exact balanced

theorem storeAsset (pass : Pass) {contents name url : String} {kind : AssetKind} {after : Ledger}
    (stored : ledger.storeAsset pass contents name kind = .ok (after, url)) :
    after.Tidy ∧ BraceFree url := by
  cases pass with
  | search =>
      obtain ⟨rfl, rfl⟩ := Prod.mk.inj (Except.ok.inj stored)
      exact ⟨tidy, braceFree_empty⟩
  | build =>
      simp only [Ledger.storeAsset] at stored
      split at stored
      · next assets address registered =>
        obtain ⟨rfl, rfl⟩ := Prod.mk.inj (Except.ok.inj stored)
        obtain ⟨assetsTidy, free⟩ := tidy.assets.register registered
        have filled : Ledger.Tidy { ledger with assets } := { tidy with assets := assetsTidy }
        exact ⟨filled.useUrl _, free⟩
      · cases stored

theorem lookupAsset (pass : Pass) (name : String) :
    (ledger.lookupAsset pass name).1.Tidy ∧
      ∀ url ∈ (ledger.lookupAsset pass name).2, BraceFree url := by
  cases pass with
  | search => exact ⟨tidy, by simp [Ledger.lookupAsset]⟩
  | build =>
      simp only [Ledger.lookupAsset]
      split
      · next url found =>
        refine ⟨tidy.useUrl url, ?_⟩
        intro other member
        obtain ⟨asset, inFiles, address⟩ := Asset.Store.serves_lookup found
        rw [← Option.mem_some.mp member, ← address]
        exact tidy.assets.files asset inFiles
      · exact ⟨tidy, by simp⟩

end Ledger.Tidy

end Sitewright

import Sitewright.Proofs.Asset.Store
import Sitewright.Proofs.Render.Step

/-!
Contract: what a ledger refers to is in its catalog and in its store.

Owns:
- `Extends`: fragments and used addresses are never taken back;
- `Grows`: a build keeps its routes and only adds to its store;
- the catalog comes about by storing and recording, whatever the ledger went through;
- `Served`: every address used leads to a file of the store;
- `Linked`: every record of an island names a fragment that is stored.

Does not own: which renders use an address.
-/

namespace Sitewright

open Catalog Relation

namespace Ledger

variable {config : Config} {pass : Pass} {free : Prop} {before after : Ledger}

/-! ## Operations on the ledger -/

/-- An address is marked as used unless it is so already, and nothing else changes. -/
theorem useUrl_eq (ledger : Ledger) (url : String) :
    ledger.useUrl url = { ledger with usedUrls := addNew id ledger.usedUrls url } := by
  rw [addNew_id]
  unfold useUrl
  split <;> rfl

theorem mem_usedUrls_useUrl {ledger : Ledger} {url other : String} :
    other ∈ (ledger.useUrl url).usedUrls ↔ other ∈ ledger.usedUrls ∨ other = url := by
  rw [useUrl_eq]
  exact mem_addNew_id

@[simp] theorem assets_useUrl (ledger : Ledger) (url : String) :
    (ledger.useUrl url).assets = ledger.assets := by
  rw [useUrl_eq]

@[simp] theorem catalog_useUrl (ledger : Ledger) (url : String) :
    (ledger.useUrl url).catalog = ledger.catalog := by
  rw [useUrl_eq]

@[simp] theorem notes_useUrl (ledger : Ledger) (url : String) :
    (ledger.useUrl url).notes = ledger.notes := by
  rw [useUrl_eq]

/-- A build that stores an asset registers it and marks its address as used. -/
theorem storeAsset_build {ledger : Ledger} {contents name url : String} {kind : AssetKind}
    (stored : ledger.storeAsset .build contents name kind = .ok (after, url)) :
    ∃ assets, ledger.assets.register contents name kind = .ok (assets, url) ∧
      after = { ledger with assets }.useUrl url := by
  simp only [storeAsset] at stored
  split at stored
  · next assets address registered =>
    simp only [Except.ok.injEq, Prod.mk.injEq] at stored
    obtain ⟨rfl, rfl⟩ := stored
    exact ⟨assets, registered, rfl⟩
  · cases stored

theorem storeAsset_search {ledger : Ledger} {contents name url : String} {kind : AssetKind}
    (stored : ledger.storeAsset .search contents name kind = .ok (after, url)) :
    after = ledger := by
  simp only [storeAsset, Except.ok.injEq, Prod.mk.injEq] at stored
  exact stored.1.symm

/-- A build that looks an asset up finds nothing, or a file whose address is then used. -/
theorem lookupAsset_build (ledger : Ledger) (name : String) :
    ledger.lookupAsset .build name = (ledger, none) ∨
      ∃ url, ledger.assets.Serves url ∧
        ledger.lookupAsset .build name = (ledger.useUrl url, some url) := by
  simp only [lookupAsset]
  split
  · next url found => exact Or.inr ⟨url, Asset.Store.serves_lookup found, rfl⟩
  · exact Or.inl rfl

/-! ## Growth -/

/-- Fragments and used addresses are still there. -/
structure Extends (before after : Ledger) : Prop where
  fragments : before.catalog.fragments ⊆ after.catalog.fragments
  usedUrls : before.usedUrls ⊆ after.usedUrls

theorem Extends.refl (ledger : Ledger) : ledger.Extends ledger :=
  ⟨List.Subset.refl _, List.Subset.refl _⟩

theorem Extends.trans {first second third : Ledger} (early : first.Extends second)
    (late : second.Extends third) : first.Extends third :=
  ⟨List.Subset.trans early.fragments late.fragments,
    List.Subset.trans early.usedUrls late.usedUrls⟩

theorem extends_useUrl (ledger : Ledger) (url : String) : ledger.Extends (ledger.useUrl url) where
  fragments := by rw [catalog_useUrl]; exact List.Subset.refl _
  usedUrls := fun _ member => mem_usedUrls_useUrl.mpr (Or.inl member)

theorem Step.extends (step : Step config pass free before after) : before.Extends after := by
  cases step with
  | number | require | note | collect => exact ⟨List.Subset.refl _, List.Subset.refl _⟩
  | storeTemplate scope resource template =>
      cases pass with
      | search => exact Extends.refl before
      | build => exact ⟨fragments_subset_addFragment _ _, List.Subset.refl _⟩
  | recordIsland record allowed =>
      cases pass with
      | search => exact Extends.refl before
      | build =>
          refine ⟨?_, List.Subset.refl _⟩
          simp [Ledger.recordIsland]
  | addRoute entry =>
      unfold Ledger.addRoute
      split
      · exact ⟨List.Subset.refl _, List.Subset.refl _⟩
      · exact Extends.refl before
  | seeContainer container =>
      cases pass with
      | search => exact ⟨List.Subset.refl _, List.Subset.refl _⟩
      | build => exact Extends.refl before
  | storeAsset stored =>
      cases pass with
      | search =>
          rw [storeAsset_search stored]
          exact Extends.refl before
      | build =>
          obtain ⟨assets, -, rfl⟩ := storeAsset_build stored
          have grown := extends_useUrl { before with assets }
          exact ⟨(grown _).fragments, (grown _).usedUrls⟩
  | lookupAsset name =>
      cases pass with
      | search => exact Extends.refl before
      | build =>
          rcases lookupAsset_build before name with absent | ⟨url, -, found⟩
          · rw [absent]
            exact Extends.refl before
          · rw [found]
            exact extends_useUrl before url

theorem Steps.extends (steps : Steps config pass free before after) : before.Extends after := by
  induction steps with
  | refl => exact Extends.refl before
  | tail _ step inductionHypothesis => exact inductionHypothesis.trans step.extends

/-- A build takes its routes as given, and files are only added to its store. -/
structure Grows (before after : Ledger) : Prop where
  routes : after.routes = before.routes
  assets : before.assets.PartOf after.assets

theorem Grows.refl (ledger : Ledger) : ledger.Grows ledger :=
  ⟨rfl, Asset.Store.PartOf.refl _⟩

theorem Grows.trans {first second third : Ledger} (early : first.Grows second)
    (late : second.Grows third) : first.Grows third :=
  ⟨late.routes.trans early.routes, early.assets.trans late.assets⟩

theorem grows_useUrl (ledger : Ledger) (url : String) : ledger.Grows (ledger.useUrl url) where
  routes := routes_useUrl ledger url
  assets := by
    rw [assets_useUrl]
    exact Asset.Store.PartOf.refl _

theorem Step.grows (step : Step config .build free before after) : before.Grows after := by
  cases step with
  | number | require | note | collect | storeTemplate | recordIsland | seeContainer =>
      exact ⟨rfl, Asset.Store.PartOf.refl _⟩
  | addRoute entry =>
      have kept : before.addRoute .build entry = before := by simp [Ledger.addRoute]
      rw [kept]
      exact Grows.refl before
  | storeAsset stored =>
      obtain ⟨assets, registered, rfl⟩ := storeAsset_build stored
      have grown : before.Grows { before with assets } :=
        ⟨rfl, Asset.Store.partOf_register registered⟩
      exact grown.trans (grows_useUrl _ _)
  | lookupAsset name =>
      rcases lookupAsset_build before name with absent | ⟨url, -, found⟩
      · rw [absent]
        exact Grows.refl before
      · rw [found]
        exact grows_useUrl before url

theorem Steps.grows (steps : Steps config .build free before after) : before.Grows after := by
  induction steps with
  | refl => exact Grows.refl before
  | tail _ step inductionHypothesis => exact inductionHypothesis.trans step.grows

/-! ## Catalogs -/

theorem Step.catalog (step : Step config pass free before after)
    (reachable : before.catalog.Reachable) : after.catalog.Reachable := by
  cases step with
  | number | require | note | collect => exact reachable
  | storeTemplate scope resource template =>
      cases pass with
      | search => exact reachable
      | build => exact reachable.storeTemplate config resource template
  | recordIsland record =>
      cases pass with
      | search => exact reachable
      | build => exact reachable.addIsland record
  | addRoute entry =>
      unfold Ledger.addRoute
      split <;> exact reachable
  | seeContainer container => cases pass <;> exact reachable
  | storeAsset stored =>
      cases pass with
      | search =>
          rw [storeAsset_search stored]
          exact reachable
      | build =>
          obtain ⟨assets, -, rfl⟩ := storeAsset_build stored
          rwa [catalog_useUrl]
  | lookupAsset name =>
      cases pass with
      | search => exact reachable
      | build =>
          rcases lookupAsset_build before name with absent | ⟨url, -, found⟩
          · rwa [absent]
          · rwa [found, catalog_useUrl]

theorem Steps.catalog (steps : Steps config pass free before after)
    (reachable : before.catalog.Reachable) : after.catalog.Reachable := by
  induction steps with
  | refl => exact reachable
  | tail _ step inductionHypothesis => exact step.catalog inductionHypothesis

/-! ## Addresses of assets -/

/-- The store is at the given address, and every address used leads to one of its files. -/
structure Served (staticUrl : String) (ledger : Ledger) : Prop where
  staticUrl : ledger.assets.staticUrl = staticUrl
  placed : ledger.assets.Placed
  used : ∀ url ∈ ledger.usedUrls, ledger.assets.Serves url

theorem Served.useUrl {staticUrl url : String} {ledger : Ledger} (served : ledger.Served staticUrl)
    (serves : ledger.assets.Serves url) : (ledger.useUrl url).Served staticUrl := by
  refine ⟨by simpa using served.staticUrl, by simpa using served.placed, ?_⟩
  intro other member
  rw [assets_useUrl]
  rcases mem_usedUrls_useUrl.mp member with old | rfl
  · exact served.used other old
  · exact serves

theorem Served.register {staticUrl contents name url : String} {kind : AssetKind} {ledger : Ledger}
    {assets : Asset.Store} (served : ledger.Served staticUrl)
    (registered : ledger.assets.register contents name kind = .ok (assets, url)) :
    ({ ledger with assets }.useUrl url).Served staticUrl := by
  have more : ledger.assets.files ⊆ assets.files := by
    rw [(Asset.Store.register_eq_ok registered).1]
    exact Asset.Store.files_subset_add _ _
  have stored : { ledger with assets }.Served staticUrl := by
    refine ⟨?_, served.placed.register registered, fun other member =>
      (served.used other member).mono more⟩
    show assets.staticUrl = staticUrl
    rw [(Asset.Store.register_eq_ok registered).1, Asset.Store.staticUrl_add]
    exact served.staticUrl
  exact stored.useUrl (served.placed.serves_register registered)

theorem Step.served {staticUrl : String} (step : Step config pass free before after)
    (served : before.Served staticUrl) : after.Served staticUrl := by
  cases step with
  | number | require | note | collect => exact ⟨served.staticUrl, served.placed, served.used⟩
  | storeTemplate scope resource template =>
      cases pass with
      | search => exact served
      | build => exact ⟨served.staticUrl, served.placed, served.used⟩
  | recordIsland record allowed =>
      cases pass with
      | search => exact served
      | build => exact ⟨served.staticUrl, served.placed, served.used⟩
  | addRoute entry =>
      unfold Ledger.addRoute
      split
      · exact ⟨served.staticUrl, served.placed, served.used⟩
      · exact served
  | seeContainer container =>
      cases pass with
      | search => exact ⟨served.staticUrl, served.placed, served.used⟩
      | build => exact served
  | storeAsset stored =>
      cases pass with
      | search =>
          rw [storeAsset_search stored]
          exact served
      | build =>
          obtain ⟨assets, registered, rfl⟩ := storeAsset_build stored
          exact served.register registered
  | lookupAsset name =>
      cases pass with
      | search => exact served
      | build =>
          rcases lookupAsset_build before name with absent | ⟨url, serves, found⟩
          · rw [absent]
            exact served
          · rw [found]
            exact served.useUrl serves

theorem Steps.served {staticUrl : String} (steps : Steps config pass free before after)
    (served : before.Served staticUrl) : after.Served staticUrl := by
  induction steps with
  | refl => exact served
  | tail _ step inductionHypothesis => exact step.served inductionHypothesis

/-! ## Records of islands -/

/-- Every record of an island names a fragment that is stored. -/
def Linked (ledger : Ledger) : Prop :=
  ∀ record ∈ ledger.catalog.islands, ledger.catalog.Stores record.fragment

theorem Linked.of_catalog {ledger other : Ledger} (linked : ledger.Linked)
    (same : other.catalog = ledger.catalog) : other.Linked := by
  unfold Linked
  rw [same]
  exact linked

/-- Records are kept if none is free. -/
theorem Step.linked (step : Step config pass False before after) (linked : before.Linked) :
    after.Linked := by
  cases step with
  | number | require | note | collect => exact linked
  | storeTemplate scope resource template =>
      cases pass with
      | search => exact linked
      | build =>
          intro record member
          rw [show (before.storeTemplate { config, pass := .build, scope } resource
              template).1.catalog = before.catalog.addFragment (.ofTemplate resource template)
            from rfl] at member ⊢
          rw [islands_addFragment] at member
          exact (linked record member).mono (fragments_subset_addFragment _ _)
  | recordIsland record allowed =>
      cases pass with
      | search => exact linked
      | build =>
          have stored : before.catalog.Stores record.fragment := by
            rcases allowed with isFree | isSearch | stored
            · exact isFree.elim
            · cases isSearch
            · exact stored
          intro other member
          have kept : before.catalog.Stores other.fragment := by
            rcases mem_islands_addIsland member with old | rfl
            · exact linked other old
            · exact stored
          refine kept.mono ?_
          simp [Ledger.recordIsland]
  | addRoute entry =>
      unfold Ledger.addRoute
      split
      · exact linked
      · exact linked
  | seeContainer container =>
      cases pass with
      | search => exact linked
      | build => exact linked
  | storeAsset stored =>
      cases pass with
      | search =>
          rw [storeAsset_search stored]
          exact linked
      | build =>
          obtain ⟨assets, -, rfl⟩ := storeAsset_build stored
          exact linked.of_catalog (catalog_useUrl _ _)
  | lookupAsset name =>
      cases pass with
      | search => exact linked
      | build =>
          rcases lookupAsset_build before name with absent | ⟨url, -, found⟩
          · rw [absent]
            exact linked
          · rw [found]
            exact linked.of_catalog (catalog_useUrl _ _)

theorem Steps.linked (steps : Steps config pass False before after) (linked : before.Linked) :
    after.Linked := by
  induction steps with
  | refl => exact linked
  | tail _ step inductionHypothesis => exact step.linked inductionHypothesis

end Ledger

end Sitewright

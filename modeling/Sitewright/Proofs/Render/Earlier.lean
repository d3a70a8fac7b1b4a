import Sitewright.Proofs.Keyed
import Sitewright.Proofs.Render.Reference

/-!
Contract: a ledger on top of what was stored earlier.

The pages of a build share its ledger, and builds may share a store. What is stored
earlier is still there, so that a later render finds it in front of everything that it
stores itself; and what it would store under a key that is taken is not stored again.

Owns:
- `Earlier`, the entries that a ledger may stand on;
- `Ledger.above`, the ledger with these entries below its own;
- one lemma for each operation: done on top of earlier entries, it leads to the same
  answer and to the same ledger on top of them.

Does not own: lookups, whose answers may come from below.
-/

namespace Sitewright

open Catalog Markup

/-! ## Lists of entries with keys -/

section Keyed

variable {α : Type} (key : α → String)

/-- The entries behind earlier ones, without those whose keys are taken there. -/
def onTopOf (earlier entries : List α) : List α :=
  earlier ++ entries.filter fun entry => !earlier.any fun other => key other = key entry

variable {key}

theorem mem_onTopOf {earlier entries : List α} {entry : α} :
    entry ∈ onTopOf key earlier entries ↔
      entry ∈ earlier ∨ entry ∈ entries ∧ ∀ other ∈ earlier, key other ≠ key entry := by
  simp [onTopOf]

/-- A key is taken on top of earlier entries if it is taken above or below. -/
theorem mem_keys_onTopOf {earlier entries : List α} {taken : String} :
    taken ∈ (onTopOf key earlier entries).map key ↔
      taken ∈ earlier.map key ∨ taken ∈ entries.map key := by
  simp only [List.mem_map, mem_onTopOf]
  constructor
  · rintro ⟨other, below | ⟨above, -⟩, same⟩
    · exact Or.inl ⟨other, below, same⟩
    · exact Or.inr ⟨other, above, same⟩
  · rintro (⟨other, below, same⟩ | ⟨other, above, same⟩)
    · exact ⟨other, Or.inl below, same⟩
    · by_cases free : ∀ lower ∈ earlier, key lower ≠ key other
      · exact ⟨other, Or.inr ⟨above, free⟩, same⟩
      · push Not at free
        obtain ⟨lower, below, sameKey⟩ := free
        exact ⟨lower, Or.inl below, sameKey.trans same⟩

theorem any_onTopOf (earlier entries : List α) (taken : String) :
    (onTopOf key earlier entries).any (fun other => key other = taken) =
      (earlier.any (fun other => key other = taken) ||
        entries.any fun other => key other = taken) := by
  rw [Bool.eq_iff_iff, Bool.or_eq_true, any_key_iff, any_key_iff, any_key_iff, mem_keys_onTopOf]

/-- Adding on top of earlier entries is adding above them. -/
theorem addNew_onTopOf (earlier entries : List α) (entry : α) :
    addNew key (onTopOf key earlier entries) entry =
      onTopOf key earlier (addNew key entries entry) := by
  unfold addNew
  rw [any_onTopOf]
  by_cases above : entries.any (fun other => key other = key entry) = true
  · rw [if_pos above, above, Bool.or_true, if_pos rfl]
  · by_cases below : earlier.any (fun other => key other = key entry) = true
    · rw [if_neg above, below, Bool.true_or, if_pos rfl]
      simp [onTopOf, below]
    · rw [if_neg above, if_neg (by simp [above, below])]
      simp [onTopOf, below]

theorem onTopOf_nil (entries : List α) : onTopOf key [] entries = entries := by
  simp [onTopOf]

theorem onTopOf_of_nil (earlier : List α) : onTopOf key earlier [] = earlier := by
  simp [onTopOf]

/-- Every key is there once on top of earlier entries if it is so above and below. -/
theorem nodup_onTopOf {earlier entries : List α} (below : (earlier.map key).Nodup)
    (above : (entries.map key).Nodup) : ((onTopOf key earlier entries).map key).Nodup := by
  unfold onTopOf
  rw [List.map_append]
  refine List.nodup_append.mpr ⟨below, ?_, ?_⟩
  · exact above.sublist (List.filter_sublist.map key)
  · intro lower isBelow upper isAbove same
    obtain ⟨entry, member, rfl⟩ := List.mem_map.mp isAbove
    obtain ⟨other, otherMember, rfl⟩ := List.mem_map.mp isBelow
    obtain ⟨-, free⟩ := List.mem_filter.mp member
    simp only [Bool.not_eq_true', List.any_eq_false, decide_eq_true_eq] at free
    exact free other otherMember same

end Keyed

/-! ## Ledgers -/

/-- What was stored before. -/
structure Earlier where
  catalog : Catalog
  files : List Asset
  usedUrls : List String

/-- The catalog behind earlier entries. -/
def Catalog.above (catalog earlier : Catalog) : Catalog :=
  { fragments := onTopOf Fragment.fingerprint earlier.fragments catalog.fragments
    islands := onTopOf IslandRecord.id earlier.islands catalog.islands }

/-- The store behind earlier files. -/
def Asset.Store.above (store : Asset.Store) (earlier : List Asset) : Asset.Store :=
  { store with files := onTopOf Asset.file earlier store.files }

/-- The ledger behind what was stored before. -/
def Ledger.above (ledger : Ledger) (earlier : Earlier) : Ledger :=
  { ledger with
    catalog := ledger.catalog.above earlier.catalog
    assets := ledger.assets.above earlier.files
    usedUrls := onTopOf id earlier.usedUrls ledger.usedUrls }

/-- Files that other builds stored, and nothing of this one. -/
def Earlier.ofFiles (files : List Asset) : Earlier :=
  { catalog := .empty, files, usedUrls := [] }

@[simp] theorem Ledger.catalog_above_ofFiles (ledger : Ledger) (files : List Asset) :
    (ledger.above (.ofFiles files)).catalog = ledger.catalog := by
  unfold Ledger.above Catalog.above Earlier.ofFiles Catalog.empty
  simp only [onTopOf_nil]

@[simp] theorem Ledger.usedUrls_above_ofFiles (ledger : Ledger) (files : List Asset) :
    (ledger.above (.ofFiles files)).usedUrls = ledger.usedUrls :=
  onTopOf_nil _

/-! ## Catalogs -/

namespace Catalog

theorem addFragment_above (catalog earlier : Catalog) (fragment : Fragment) :
    (catalog.above earlier).addFragment fragment =
      (catalog.addFragment fragment).above earlier := by
  rw [addFragment_eq, addFragment_eq]
  simp only [above, addNew_onTopOf]

theorem addIsland_above (catalog earlier : Catalog) (record : IslandRecord) :
    (catalog.above earlier).addIsland record = (catalog.addIsland record).above earlier := by
  rw [addIsland_eq, addIsland_eq]
  simp only [above, addNew_onTopOf]

end Catalog

/-! ## Stores -/

namespace Asset.Store

theorem add_above (store : Store) (earlier : List Asset) (asset : Asset) :
    (store.above earlier).add asset = (store.add asset).above earlier := by
  rw [add_eq, add_eq]
  simp only [above, addNew_onTopOf]

/-- The same content is refused, or stored and served from the same address. -/
theorem register_above (store : Store) (earlier : List Asset) (contents name : String)
    (kind : AssetKind) :
    (store.above earlier).register contents name kind =
      (store.register contents name kind).map fun stored => (stored.1.above earlier, stored.2) := by
  have placed : (store.above earlier).place contents name kind = store.place contents name kind :=
    place_congr rfl rfl contents name kind
  unfold register
  split
  · rfl
  · rw [placed]
    simp only [add_above, Except.map]

end Asset.Store

/-! ## Operations -/

namespace Ledger

variable (ledger : Ledger) (earlier : Earlier)

theorem useUrl_above (url : String) :
    (ledger.above earlier).useUrl url = (ledger.useUrl url).above earlier := by
  rw [useUrl_eq, useUrl_eq]
  simp only [above, addNew_onTopOf]

theorem storeTemplate_above (setting : Setting) (resource template : String) :
    (ledger.above earlier).storeTemplate setting resource template =
      ((ledger.storeTemplate setting resource template).1.above earlier,
        (ledger.storeTemplate setting resource template).2) := by
  unfold storeTemplate
  split
  · rfl
  · simp only [above, Catalog.storeTemplate, Catalog.addFragment_above]

theorem recordIsland_above (pass : Pass) (record : IslandRecord) :
    (ledger.above earlier).recordIsland pass record =
      (ledger.recordIsland pass record).above earlier := by
  cases pass with
  | search => rfl
  | build => simp only [recordIsland, above, Catalog.addIsland_above]

theorem addRoute_above (pass : Pass) (entry : Routing.Entry) :
    (ledger.above earlier).addRoute pass entry = (ledger.addRoute pass entry).above earlier := by
  unfold addRoute
  simp only [above]
  split
  all_goals rfl

theorem seeContainer_above (pass : Pass) (container : String) :
    (ledger.above earlier).seeContainer pass container =
      (ledger.seeContainer pass container).above earlier := by
  cases pass <;> rfl

theorem storeAsset_above (pass : Pass) (contents name : String) (kind : AssetKind) :
    (ledger.above earlier).storeAsset pass contents name kind =
      (ledger.storeAsset pass contents name kind).map fun stored =>
        (stored.1.above earlier, stored.2) := by
  cases pass with
  | search => rfl
  | build =>
      have stored : (ledger.above earlier).assets.register contents name kind = _ :=
        ledger.assets.register_above earlier.files contents name kind
      simp only [storeAsset]
      rw [stored]
      cases ledger.assets.register contents name kind with
      | error fault => rfl
      | ok stored =>
          have used := useUrl_above { ledger with assets := stored.1 } earlier stored.2
          simp only [Except.map]
          rw [← used]
          rfl

/-- A lookup while pages are built answers what the store says, and uses the address. -/
theorem lookupAsset_build_eq (name : String) :
    ledger.lookupAsset .build name =
      ((ledger.assets.lookup? name).elim ledger ledger.useUrl, ledger.assets.lookup? name) := by
  unfold lookupAsset
  cases ledger.assets.lookup? name <;> rfl

/-- A lookup that gets the same answer leaves the same ledger. -/
theorem lookupAsset_above (pass : Pass) (name : String)
    (same : ((ledger.above earlier).lookupAsset pass name).2 = (ledger.lookupAsset pass name).2) :
    (ledger.above earlier).lookupAsset pass name =
      ((ledger.lookupAsset pass name).1.above earlier, (ledger.lookupAsset pass name).2) := by
  cases pass with
  | search => rfl
  | build =>
      rw [lookupAsset_build_eq, lookupAsset_build_eq] at same ⊢
      simp only at same
      rw [same]
      cases ledger.assets.lookup? name with
      | none => rfl
      | some url =>
          simp only [Option.elim_some]
          rw [useUrl_above]

end Ledger

end Sitewright

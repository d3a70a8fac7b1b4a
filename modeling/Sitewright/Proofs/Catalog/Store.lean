import Sitewright.Catalog.Store
import Sitewright.Proofs.Digest.Identity
import Sitewright.Proofs.Keyed

/-!
Contract: what a catalog keeps of the fragments and records that it is given.

Owns:
- `Stores`, and how adding a fragment or a record changes a catalog;
- `Reachable`, the catalogs that can come about;
- `Addressed`: fragments are stored under the fingerprints of their content, one under
  each, and each island has one record;
- what is stored under the fingerprint of a template.

Does not own: which fragments a render stores.
-/

namespace Sitewright.Catalog

open Digest

/-- A fragment with this fingerprint is stored. -/
def Stores (catalog : Catalog) (fingerprint : String) : Prop :=
  ∃ fragment ∈ catalog.fragments, fragment.fingerprint = fingerprint

/-! ## Adding fragments and records -/

theorem addFragment_eq (catalog : Catalog) (fragment : Fragment) :
    catalog.addFragment fragment =
      { catalog with fragments := addNew Fragment.fingerprint catalog.fragments fragment } := by
  unfold addFragment fragment? addNew
  rw [isSome_find?_key Fragment.fingerprint]
  split <;> rfl

theorem addIsland_eq (catalog : Catalog) (record : IslandRecord) :
    catalog.addIsland record =
      { catalog with islands := addNew IslandRecord.id catalog.islands record } := by
  unfold addIsland island? addNew
  rw [isSome_find?_key IslandRecord.id]
  split <;> rfl

/-- The catalog stays as it is because the fingerprint is taken, or has one more
fragment, whose fingerprint is new. -/
theorem addFragment_cases (catalog : Catalog) (fragment : Fragment) :
    (catalog.addFragment fragment = catalog ∧ catalog.Stores fragment.fingerprint) ∨
      (catalog.addFragment fragment =
        { catalog with fragments := catalog.fragments ++ [fragment] } ∧
          ¬ catalog.Stores fragment.fingerprint) := by
  unfold addFragment
  by_cases taken : (catalog.fragment? fragment.fingerprint).isSome = true
  · rw [if_pos taken]
    obtain ⟨other, found⟩ := Option.isSome_iff_exists.mp taken
    left
    exact ⟨rfl, other, List.mem_of_find?_eq_some found, by simpa using List.find?_some found⟩
  · rw [if_neg taken]
    refine Or.inr ⟨rfl, ?_⟩
    rintro ⟨other, member, same⟩
    apply taken
    unfold fragment?
    rw [List.find?_isSome]
    exact ⟨other, member, by simpa using same⟩

theorem fragments_subset_addFragment (catalog : Catalog) (fragment : Fragment) :
    catalog.fragments ⊆ (catalog.addFragment fragment).fragments := by
  rcases addFragment_cases catalog fragment with ⟨same, -⟩ | ⟨added, -⟩
  · rw [same]
    exact List.Subset.refl _
  · rw [added]
    exact List.subset_append_left _ _

theorem stores_addFragment (catalog : Catalog) (fragment : Fragment) :
    (catalog.addFragment fragment).Stores fragment.fingerprint := by
  rcases addFragment_cases catalog fragment with ⟨same, stores⟩ | ⟨added, -⟩
  · rw [same]
    exact stores
  · rw [added]
    exact ⟨fragment, List.mem_append_right _ List.mem_cons_self, rfl⟩

@[simp] theorem islands_addFragment (catalog : Catalog) (fragment : Fragment) :
    (catalog.addFragment fragment).islands = catalog.islands := by
  unfold addFragment
  split <;> rfl

@[simp] theorem fragments_addIsland (catalog : Catalog) (record : IslandRecord) :
    (catalog.addIsland record).fragments = catalog.fragments := by
  unfold addIsland
  split <;> rfl

theorem mem_islands_addIsland {catalog : Catalog} {record other : IslandRecord}
    (member : other ∈ (catalog.addIsland record).islands) :
    other ∈ catalog.islands ∨ other = record := by
  rw [addIsland_eq] at member
  exact mem_of_mem_addNew member

theorem Stores.mono {catalog larger : Catalog} {fingerprint : String}
    (stores : catalog.Stores fingerprint) (more : catalog.fragments ⊆ larger.fragments) :
    larger.Stores fingerprint := by
  obtain ⟨fragment, member, same⟩ := stores
  exact ⟨fragment, more member, same⟩

/-- A template is stored under the id of its handle. -/
theorem stores_storeTemplate (catalog : Catalog) (config : Config) (resource template : String) :
    (catalog.storeTemplate config resource template).1.Stores
      (catalog.storeTemplate config resource template).2.id :=
  stores_addFragment catalog (.ofTemplate resource template)

/-! ## Catalogs that can come about -/

/-- A catalog starts empty and is then given templates and records. -/
inductive Reachable : Catalog → Prop where
  | empty : Reachable .empty
  | storeTemplate {catalog : Catalog} (reachable : Reachable catalog) (config : Config)
      (resource template : String) :
      Reachable (catalog.storeTemplate config resource template).1
  | addIsland {catalog : Catalog} (reachable : Reachable catalog) (record : IslandRecord) :
      Reachable (catalog.addIsland record)

/-- Every fragment is stored under the fingerprint of its resource and its template, and
no two under the same one. -/
structure Addressed (catalog : Catalog) : Prop where
  made : ∀ fragment ∈ catalog.fragments,
    fragment = .ofTemplate fragment.resource fragment.template
  distinct : (catalog.fragments.map Fragment.fingerprint).Nodup

namespace Addressed

variable {catalog : Catalog}

theorem empty : Catalog.empty.Addressed where
  made := by simp [Catalog.empty]
  distinct := .nil

theorem addFragment (addressed : catalog.Addressed) (resource template : String) :
    (catalog.addFragment (.ofTemplate resource template)).Addressed := by
  rw [addFragment_eq]
  refine ⟨fun fragment member => ?_, nodup_addNew addressed.distinct _⟩
  rcases mem_of_mem_addNew member with old | rfl
  · exact addressed.made fragment old
  · rfl

theorem addIsland (addressed : catalog.Addressed) (record : IslandRecord) :
    (catalog.addIsland record).Addressed where
  made := by simpa using addressed.made
  distinct := by simpa using addressed.distinct

/-- A fingerprint is that of one fragment. -/
theorem only (addressed : catalog.Addressed) {fragment other : Fragment}
    (member : fragment ∈ catalog.fragments) (otherMember : other ∈ catalog.fragments)
    (same : fragment.fingerprint = other.fingerprint) : fragment = other :=
  List.inj_on_of_nodup_map addressed.distinct member otherMember same

end Addressed

theorem Reachable.addressed {catalog : Catalog} (reachable : catalog.Reachable) :
    catalog.Addressed := by
  induction reachable with
  | empty => exact .empty
  | storeTemplate _ config resource template inductionHypothesis =>
      exact inductionHypothesis.addFragment resource template
  | addIsland _ record inductionHypothesis => exact inductionHypothesis.addIsland record

/-- An island has one record. -/
theorem Reachable.nodup_islands {catalog : Catalog} (reachable : catalog.Reachable) :
    (catalog.islands.map IslandRecord.id).Nodup := by
  induction reachable with
  | empty => exact .nil
  | storeTemplate _ config resource template inductionHypothesis =>
      simpa [Catalog.storeTemplate] using inductionHypothesis
  | addIsland _ record inductionHypothesis =>
      rw [addIsland_eq]
      exact nodup_addNew inductionHypothesis record

/-! ## What is found under a fingerprint -/

theorem fragment?_of_stores {catalog : Catalog} {fingerprint : String}
    (stores : catalog.Stores fingerprint) :
    ∃ fragment ∈ catalog.fragments, catalog.fragment? fingerprint = some fragment ∧
      fragment.fingerprint = fingerprint := by
  obtain ⟨other, member, same⟩ := stores
  have isSome : (catalog.fragment? fingerprint).isSome = true := by
    unfold fragment?
    rw [List.find?_isSome]
    exact ⟨other, member, by simpa using same⟩
  obtain ⟨fragment, found⟩ := Option.isSome_iff_exists.mp isSome
  exact ⟨fragment, List.mem_of_find?_eq_some found, found,
    by simpa using List.find?_some found⟩

/-- Under the id of its handle a template is found itself, or something that it is
confused with. -/
theorem Addressed.found_storeTemplate {catalog : Catalog} (addressed : catalog.Addressed)
    (config : Config) (resource template : String) :
    ∃ found, (catalog.storeTemplate config resource template).1.fragment?
        (catalog.storeTemplate config resource template).2.id = some found ∧
      ((found.resource = resource ∧ found.template = template) ∨
        Confused found.resource found.template resource template) := by
  obtain ⟨found, member, stored, fingerprint⟩ :=
    fragment?_of_stores (stores_storeTemplate catalog config resource template)
  refine ⟨found, stored, eq_or_confused_of_fingerprint_eq ?_⟩
  have made := (addressed.addFragment resource template).made found member
  rw [made] at fingerprint
  exact fingerprint

end Sitewright.Catalog

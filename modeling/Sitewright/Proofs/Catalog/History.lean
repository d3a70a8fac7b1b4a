import Sitewright.Proofs.Catalog.Store

/-!
Contract: what the catalog of a build keeps of the calls that are made on it.

Templates and records come in any order. Each kind is kept in a list of its own, in which a key is
only taken once, so the catalog is a function of the two lists of what was offered.

Owns:
- `Catalog.Call`, and the catalog after a sequence of calls;
- the fragments and the records, as functions of what was offered;
- what is found under the handle of a template, from the time on at which it was stored;
- what is known after any calls, and what stays known.

Does not own: which calls the pages of a site make.
-/

namespace Sitewright.Catalog

open Digest

/-- What is told to a catalog: a compiled template, or the record of an island. -/
inductive Call where
  | storeTemplate (resource template : String)
  | addIsland (record : IslandRecord)
deriving DecidableEq, Repr

def Call.fragment? : Call → Option Fragment
  | .storeTemplate resource template => some (.ofTemplate resource template)
  | .addIsland _ => none

def Call.record? : Call → Option IslandRecord
  | .storeTemplate _ _ => none
  | .addIsland record => some record

/-- The catalog after a call. -/
def after (config : Config) (catalog : Catalog) : Call → Catalog
  | .storeTemplate resource template => (catalog.storeTemplate config resource template).1
  | .addIsland record => catalog.addIsland record

/-- The catalog after several calls, in order. -/
def run (config : Config) (catalog : Catalog) (calls : List Call) : Catalog :=
  calls.foldl (after config) catalog

variable {config : Config} {catalog : Catalog}

theorem run_append (config : Config) (catalog : Catalog) (early late : List Call) :
    catalog.run config (early ++ late) = (catalog.run config early).run config late := by
  simp only [run, List.foldl_append]

theorem Reachable.after (reachable : catalog.Reachable) (config : Config) (call : Call) :
    (catalog.after config call).Reachable := by
  cases call with
  | storeTemplate resource template => exact reachable.storeTemplate config resource template
  | addIsland record => exact reachable.addIsland record

theorem Reachable.run (reachable : catalog.Reachable) (config : Config) (calls : List Call) :
    (catalog.run config calls).Reachable := by
  induction calls generalizing catalog with
  | nil => exact reachable
  | cons call rest inductionHypothesis =>
      exact inductionHypothesis (reachable.after config call)

/-! ## What was offered -/

/-- The fragments are what was there and then all that was offered, one under each fingerprint. -/
theorem fragments_run (config : Config) (catalog : Catalog) (calls : List Call) :
    (catalog.run config calls).fragments =
      addAll Fragment.fingerprint catalog.fragments (calls.filterMap Call.fragment?) := by
  induction calls generalizing catalog with
  | nil => rfl
  | cons call rest inductionHypothesis =>
      refine (inductionHypothesis (catalog.after config call)).trans ?_
      cases call with
      | storeTemplate resource template =>
          rw [after, storeTemplate, addFragment_eq]
          rfl
      | addIsland record =>
          rw [after, fragments_addIsland]
          rfl

/-- The records are what was there and then all that was offered, one for each island. -/
theorem islands_run (config : Config) (catalog : Catalog) (calls : List Call) :
    (catalog.run config calls).islands =
      addAll IslandRecord.id catalog.islands (calls.filterMap Call.record?) := by
  induction calls generalizing catalog with
  | nil => rfl
  | cons call rest inductionHypothesis =>
      refine (inductionHypothesis (catalog.after config call)).trans ?_
      cases call with
      | storeTemplate resource template =>
          rw [after, storeTemplate, islands_addFragment]
          rfl
      | addIsland record =>
          rw [after, addIsland_eq]
          rfl

theorem fragments_prefix_run (config : Config) (catalog : Catalog) (calls : List Call) :
    catalog.fragments <+: (catalog.run config calls).fragments := by
  rw [fragments_run]
  exact prefix_addAll catalog.fragments _

theorem islands_prefix_run (config : Config) (catalog : Catalog) (calls : List Call) :
    catalog.islands <+: (catalog.run config calls).islands := by
  rw [islands_run]
  exact prefix_addAll catalog.islands _

/-- An island has the record that was offered first for it. -/
theorem island?_run (config : Config) (calls : List Call) (id : String) :
    (empty.run config calls).island? id =
      (calls.filterMap Call.record?).find? fun record => record.id = id := by
  unfold island?
  rw [islands_run]
  exact find?_addAll [] (calls.filterMap Call.record?) id

/-! ## What stays -/

theorem fragment?_run {fingerprint : String} {fragment : Fragment} (calls : List Call)
    (found : catalog.fragment? fingerprint = some fragment) :
    (catalog.run config calls).fragment? fingerprint = some fragment :=
  List.IsPrefix.find?_eq_some (fragments_prefix_run config catalog calls) found

theorem island?_run_of_island? {id : String} {record : IslandRecord} (calls : List Call)
    (found : catalog.island? id = some record) :
    (catalog.run config calls).island? id = some record :=
  List.IsPrefix.find?_eq_some (islands_prefix_run config catalog calls) found

/-- Storing a template whose fingerprint is taken changes nothing. -/
theorem storeTemplate_of_stores {resource template : String}
    (stores : catalog.Stores (fingerprint resource template)) :
    catalog.storeTemplate config resource template =
      (catalog, { id := fingerprint resource template,
                  url := config.fragmentUrl (fingerprint resource template) }) := by
  have taken : (Fragment.ofTemplate resource template).fingerprint ∈
      catalog.fragments.map Fragment.fingerprint := List.mem_map.mpr stores
  rw [storeTemplate, addFragment_eq, addNew_of_taken taken]
  rfl

/-- Every fragment of a catalog that can come about has the fingerprint of its content. -/
theorem Reachable.fingerprint_of_mem (reachable : catalog.Reachable) {fragment : Fragment}
    (member : fragment ∈ catalog.fragments) :
    fragment.fingerprint = fingerprint fragment.resource fragment.template := by
  conv_lhs => rw [reachable.addressed.made fragment member]
  rfl

/-! ## All that is known -/

/-- After any calls on the empty catalog, and after any further ones. Every fragment is stored under
the fingerprint of its resource and template, which is sixteen hexadecimal digits, and no two are
stored under one. The fragments stay, in their order, at the front. A template that is stored again,
however much later, gets the handle that it had and changes nothing; under the id of the handle
something is found at once, and the same for ever. Every island has one record, the one that was
offered first for it, and keeps it. -/
theorem calls_keep_templates (config : Config) (early late : List Call) :
    let before := empty.run config early
    let later := empty.run config (early ++ late)
    (∀ fragment ∈ before.fragments,
      fragment.fingerprint = fingerprint fragment.resource fragment.template ∧
      fragment.fingerprint.length = 16 ∧
      ∀ digit ∈ fragment.fingerprint.toList, digit ∈ "0123456789abcdef".toList) ∧
    (before.fragments.map Fragment.fingerprint).Nodup ∧
    before.fragments <+: later.fragments ∧
    (∀ resource template,
      let stored := before.storeTemplate config resource template
      let final := stored.1.run config late
      final.storeTemplate config resource template = (final, stored.2) ∧
      stored.2.url = config.fragmentUrl stored.2.id ∧
      ∃ fragment, stored.1.fragment? stored.2.id = some fragment ∧
        final.fragment? stored.2.id = some fragment) ∧
    (before.islands.map IslandRecord.id).Nodup ∧
    (∀ id, before.island? id =
      (early.filterMap Call.record?).find? fun record => record.id = id) ∧
    (∀ id record, before.island? id = some record → later.island? id = some record) := by
  intro before later
  have split : later = before.run config late := run_append config empty early late
  have reachable : before.Reachable := Reachable.empty.run config early
  rw [split]
  refine ⟨fun fragment member => ?_, reachable.addressed.distinct,
    fragments_prefix_run config before late, fun resource template => ?_,
    reachable.nodup_islands, island?_run config early,
    fun id record found => island?_run_of_island? late found⟩
  · have address := reachable.fingerprint_of_mem member
    refine ⟨address, ?_, fun digit inside => ?_⟩
    · rw [address]
      exact length_fingerprint fragment.resource fragment.template
    · rw [address] at inside
      exact mem_fingerprint inside
  · intro stored final
    have stores : stored.1.Stores stored.2.id :=
      stores_storeTemplate before config resource template
    obtain ⟨fragment, -, found, -⟩ := fragment?_of_stores stores
    have kept : stored.1.fragments ⊆ final.fragments :=
      (fragments_prefix_run config stored.1 late).subset
    exact ⟨storeTemplate_of_stores (stores.mono kept), rfl, fragment, found,
      fragment?_run late found⟩

/-- An island that is recorded twice keeps its first record, and a template that is stored again
behind that gets its first handle. -/
theorem second_record_ignored :
    let kept : IslandRecord := ⟨"cart", "one", .single, "item"⟩
    let ignored : IslandRecord := ⟨"cart", "two", .list, "item"⟩
    let first := empty.storeTemplate .standard "item" "<p></p>"
    let final := first.1.run .standard [.addIsland kept, .addIsland ignored]
    final.island? "cart" = some kept ∧
      final.storeTemplate .standard "item" "<p></p>" = (final, first.2) := by
  intro kept ignored first final
  obtain ⟨-, -, -, -, -, finds, keeps⟩ := calls_keep_templates .standard
    [.storeTemplate "item" "<p></p>", .addIsland kept] [.addIsland ignored]
  obtain ⟨-, -, -, stores, -⟩ :=
    calls_keep_templates .standard [] [.addIsland kept, .addIsland ignored]
  exact ⟨keeps "cart" kept ((finds "cart").trans (by decide)), (stores "item" "<p></p>").1⟩

end Sitewright.Catalog

import Sitewright.Proofs.Asset.Store
import Sitewright.Proofs.Catalog.Store

/-!
Contract: what is found again of the content that catalogs and stores are given.

Templates and assets are addressed by a fingerprint of their name and content. Whoever
follows the address that was given out finds the name and the content themselves, or a
pair that they are confused with. Without underscores in names, only colliding digests
can confuse two pairs; with them, one text may be two pairs.

Owns:
- what is found under a handle of a catalog and at an address of a store;
- two pairs that share a handle and an address although no digests collide.

Does not own: which templates and assets the pages of a site have.
-/

namespace Sitewright

open Asset (Store)

namespace Site

/-- Content is found again. Under the handle of a template, and at the address of an
asset, name and content are the ones that were given, or they are confused with the given
ones: the digests collide, or both pairs are cuts of one text at different underscores. An
asset that is not confused can be looked up under its name. Pairs that are cuts of one
text always share their fingerprint. -/
theorem content_found_or_confused (name contents : String) :
    (∀ catalog : Catalog, catalog.Reachable → ∀ config,
      ∃ found, (catalog.storeTemplate config name contents).1.fragment?
          (catalog.storeTemplate config name contents).2.id = some found ∧
        ((found.resource = name ∧ found.template = contents) ∨
          Digest.Confused found.resource found.template name contents)) ∧
    (∀ store after : Store, ∀ url kind, store.Reachable →
      store.register contents name kind = .ok (after, url) →
        ∃ found ∈ after.files, after.fileAt? url = some found ∧ found.kind = kind ∧
          ((found.name = name ∧ found.contents = contents ∧
              ∃ first ∈ after.files, first.name = name ∧ after.lookup? name = some first.url) ∨
            Digest.Confused found.name found.contents name contents)) ∧
    ∀ other others, Digest.Overlap name contents other others →
      Digest.fingerprint name contents = Digest.fingerprint other others := by
  refine ⟨?_, ?_, ?_⟩
  · intro catalog reachable config
    exact reachable.addressed.found_storeTemplate config name contents
  · intro store after url kind reachable registered
    obtain ⟨found, member, isFound, kinds, own | confused⟩ := reachable.found_register registered
    · obtain ⟨rfl, rfl⟩ := own
      exact ⟨found, member, isFound, kinds, Or.inl ⟨rfl, rfl, Store.lookup?_of_mem member⟩⟩
    · exact ⟨found, member, isFound, kinds, Or.inr confused⟩
  · intro other others overlap
    unfold Digest.fingerprint
    rw [overlap.identity_eq]

/-- A store with one style sheet. -/
def shopStyles : Store :=
  (Store.ofConfig .standard).add ((Store.ofConfig .standard).place "a" "base" .css)

/-- A template is found under its handle and the second of two style sheets at its
address. Their names have no underscores and their digests do not collide; two cuts of one
text share a fingerprint. -/
theorem shopContent_found :
    (∃ found, (Catalog.empty.storeTemplate .standard "cart" "total").1.fragment?
        (Catalog.empty.storeTemplate .standard "cart" "total").2.id = some found ∧
      found.resource = "cart" ∧ found.template = "total") ∧
    (∃ after url found, shopStyles.register "p" "shop" .css = .ok (after, url) ∧
      after.fileAt? url = some found ∧ found.name = "shop" ∧ found.contents = "p") ∧
    Digest.Overlap "a" "b_c" "a_b" "c" ∧
      Digest.fingerprint "a" "b_c" = Digest.fingerprint "a_b" "c" := by
  obtain ⟨templates, -, -⟩ := content_found_or_confused "cart" "total"
  obtain ⟨-, assets, -⟩ := content_found_or_confused "shop" "p"
  obtain ⟨-, -, overlaps⟩ := content_found_or_confused "a" "b_c"
  refine ⟨?_, ?_, ?_⟩
  · obtain ⟨found, stored, own | confused⟩ := templates .empty .empty .standard
    · exact ⟨found, stored, own⟩
    · have only : found = .ofTemplate "cart" "total" := by
        simpa [Catalog.storeTemplate, Catalog.addFragment, Catalog.fragment?, Catalog.empty,
          eq_comm] using stored
      exact ⟨found, stored, by rw [only]; exact ⟨rfl, rfl⟩⟩
  · have reachable : shopStyles.Reachable :=
      .register (.ofConfig .standard) (Store.register_of_named _ "a" .css (by decide))
    have registered := shopStyles.register_of_named "p" .css (show "shop".isEmpty = false by decide)
    obtain ⟨found, member, isFound, -, own | confused⟩ :=
      assets _ _ _ .css reachable registered
    · exact ⟨_, _, found, registered, isFound, own.1, own.2.1⟩
    · have apart : ∀ asset ∈ (shopStyles.add (shopStyles.place "p" "shop" .css)).files,
          '_' ∉ asset.name.toList ∧
            (Digest.shortened (Digest.identity asset.name asset.contents) =
              Digest.shortened (Digest.identity "shop" "p") →
                asset.name = "shop" ∧ asset.contents = "p") := by decide +kernel
      obtain ⟨bare, only⟩ := apart found member
      exact ⟨_, _, found, registered, isFound, only (confused.collide bare (by decide)).2⟩
  · have overlap : Digest.Overlap "a" "b_c" "a_b" "c" := ⟨"b", by decide, by decide⟩
    exact ⟨overlap, overlaps _ _ overlap⟩

/-- The pairs of `a` with `b_c` and of `a_b` with `c` are digested as the same bytes. The
second template gets the handle of the first one, under which the first one is found; the
second asset is found neither at its address nor under its name. -/
theorem underscores_lose_content :
    ∃ catalog handle, Catalog.empty.storeTemplate .standard "a" "b_c" = (catalog, handle) ∧
      catalog.storeTemplate .standard "a_b" "c" = (catalog, handle) ∧
      catalog.fragment? handle.id = some (.ofTemplate "a" "b_c") ∧
      Digest.identity "a" "b_c" = Digest.identity "a_b" "c" ∧
    ∃ store url, (Store.ofConfig .standard).register "b_c" "a" .css = .ok (store, url) ∧
      store.register "c" "a_b" .css = .ok (store, url) ∧
      store.fileAt? url = some ((Store.ofConfig .standard).place "b_c" "a" .css) ∧
      store.lookup? "a_b" = none := by
  refine ⟨_, _, rfl, by decide +kernel, by decide +kernel, by decide +kernel, _, _, rfl, ?_,
    by decide +kernel, by decide +kernel⟩
  exact congrArg Except.ok (by decide +kernel)

end Site

end Sitewright

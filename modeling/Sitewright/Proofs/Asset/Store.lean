import Sitewright.Asset.Store
import Sitewright.Proofs.Digest.Identity
import Sitewright.Proofs.Keyed

/-!
Contract: every file of a store is served at the address that the store gave out.

Owns:
- `Reachable`, the stores that can come about;
- `Placed`, which registration keeps: the files are those that the store makes of
  their content, name and kind;
- where the addresses that a store gives out lead to;
- what an address says about the file that it belongs to;
- `fileAt?`, and what is found at the address that registration gives out;
- `PartOf`, a store at an earlier time.
-/

namespace Sitewright.Asset.Store

/-- A store is made for a configuration and then filled by registration. -/
inductive Reachable : Store → Prop where
  | ofConfig (config : Config) : Reachable (.ofConfig config)
  | register {store after : Store} {contents name url : String} {kind : AssetKind}
      (reachable : Reachable store)
      (registered : store.register contents name kind = .ok (after, url)) : Reachable after

/-- Every file is the one that the store makes of its content, name and kind. -/
def Placed (store : Store) : Prop :=
  ∀ asset ∈ store.files, asset = store.place asset.contents asset.name asset.kind

/-- An address leads to a file of the store. -/
def Serves (store : Store) (url : String) : Prop :=
  ∃ asset ∈ store.files, asset.url = url

/-! ## Adding files -/

theorem add_eq (store : Store) (asset : Asset) :
    store.add asset = { store with files := addNew Asset.file store.files asset } := by
  unfold add addNew
  split <;> rfl

/-- The store stays as it is because the file is there, or has one more file. -/
theorem add_cases (store : Store) (asset : Asset) :
    (store.add asset = store ∧ ∃ other ∈ store.files, other.file = asset.file) ∨
      store.add asset = { store with files := store.files ++ [asset] } := by
  unfold add
  by_cases known : store.files.any (fun other => other.file = asset.file) = true
  · rw [if_pos known]
    left
    exact ⟨rfl, by simpa using known⟩
  · rw [if_neg known]
    exact Or.inr rfl

theorem register_eq_ok {store after : Store} {contents name url : String} {kind : AssetKind}
    (registered : store.register contents name kind = .ok (after, url)) :
    after = store.add (store.place contents name kind) ∧
      url = (store.place contents name kind).url := by
  unfold register at registered
  split at registered
  · cases registered
  · simp only [Except.ok.injEq, Prod.mk.injEq] at registered
    exact ⟨registered.1.symm, registered.2.symm⟩

theorem register_of_named (store : Store) (contents : String) {name : String} (kind : AssetKind)
    (named : name.isEmpty = false) :
    store.register contents name kind =
      .ok (store.add (store.place contents name kind), (store.place contents name kind).url) := by
  simp [register, named]

/-- Content without a name is refused. -/
theorem register_unnamed (store : Store) (contents : String) (kind : AssetKind) :
    store.register contents "" kind = .error (unnamed "") :=
  rfl

theorem add_of_stored {store : Store} {asset : Asset}
    (stored : asset.file ∈ store.files.map Asset.file) : store.add asset = store := by
  rw [add_eq, addNew_of_taken stored]

theorem file_mem_add (store : Store) (asset : Asset) :
    asset.file ∈ (store.add asset).files.map Asset.file := by
  rw [add_eq]
  exact key_mem_addNew.mpr (Or.inr rfl)

@[simp] theorem staticUrl_add (store : Store) (asset : Asset) :
    (store.add asset).staticUrl = store.staticUrl := by
  unfold add
  split <;> rfl

@[simp] theorem directory_add (store : Store) (asset : Asset) :
    (store.add asset).directory = store.directory := by
  unfold add
  split <;> rfl

theorem files_prefix_add (store : Store) (asset : Asset) :
    store.files <+: (store.add asset).files := by
  rw [add_eq]
  exact prefix_addNew store.files asset

theorem files_subset_add (store : Store) (asset : Asset) :
    store.files ⊆ (store.add asset).files :=
  (files_prefix_add store asset).subset

/-! ## Registration -/

theorem placed_ofConfig (config : Config) : (ofConfig config).Placed := by
  simp [Placed, ofConfig]

/-- Where a store makes a file of content depends only on its address and directory. -/
theorem place_congr {store other : Store} (staticUrl : other.staticUrl = store.staticUrl)
    (directory : other.directory = store.directory) (contents name : String) (kind : AssetKind) :
    other.place contents name kind = store.place contents name kind := by
  simp [place, staticUrl, directory]

theorem Placed.add {store : Store} (placed : store.Placed) (contents name : String)
    (kind : AssetKind) : (store.add (store.place contents name kind)).Placed := by
  intro asset member
  rw [place_congr (staticUrl_add _ _) (directory_add _ _)]
  rcases add_cases store (store.place contents name kind) with ⟨same, -⟩ | added
  · rw [same] at member
    exact placed asset member
  · rw [added] at member
    rcases List.mem_append.mp member with old | new
    · exact placed asset old
    · rw [List.mem_singleton.mp new]
      rfl

theorem Placed.register {store after : Store} {contents name url : String} {kind : AssetKind}
    (placed : store.Placed) (registered : store.register contents name kind = .ok (after, url)) :
    after.Placed := by
  rw [(register_eq_ok registered).1]
  exact placed.add contents name kind

theorem Reachable.placed {store : Store} (reachable : store.Reachable) : store.Placed := by
  induction reachable with
  | ofConfig config => exact placed_ofConfig config
  | register _ registered inductionHypothesis => exact inductionHypothesis.register registered

/-- A store holds every file once. -/
theorem Reachable.nodup {store : Store} (reachable : store.Reachable) :
    (store.files.map Asset.file).Nodup := by
  induction reachable with
  | ofConfig config => exact .nil
  | register _ registered inductionHypothesis =>
      rw [(register_eq_ok registered).1, add_eq]
      exact nodup_addNew inductionHypothesis _

/-- Every file has a name. -/
theorem Reachable.named {store : Store} (reachable : store.Reachable) :
    ∀ asset ∈ store.files, asset.name ≠ "" := by
  induction reachable with
  | ofConfig config => simp [Store.ofConfig]
  | @register store after contents name url kind _ registered inductionHypothesis =>
      intro asset member
      have named : name ≠ "" := by
        rintro rfl
        rw [register_unnamed] at registered
        cases registered
      rw [(register_eq_ok registered).1, add_eq] at member
      rcases mem_of_mem_addNew member with old | rfl
      · exact inductionHypothesis asset old
      · exact named

/-! ## Addresses -/

/-- The address of a file is made of the address of the store and the path below it. -/
theorem Placed.url {store : Store} (placed : store.Placed) {asset : Asset}
    (member : asset ∈ store.files) : asset.url = joinUrl store.staticUrl asset.file := by
  rw [placed asset member]
  rfl

/-- The address that registration gives out leads to a file. If the file was there
already, it has the same address. -/
theorem Placed.serves_register {store after : Store} {contents name url : String}
    {kind : AssetKind} (placed : store.Placed)
    (registered : store.register contents name kind = .ok (after, url)) : after.Serves url := by
  obtain ⟨shape, address⟩ := register_eq_ok registered
  rw [shape, address]
  rcases add_cases store (store.place contents name kind) with ⟨same, other, member, file⟩ | added
  · rw [same]
    refine ⟨other, member, ?_⟩
    rw [placed.url member, file]
    rfl
  · rw [added]
    exact ⟨_, List.mem_append_right _ List.mem_cons_self, rfl⟩

theorem serves_lookup {store : Store} {name url : String} (found : store.lookup? name = some url) :
    store.Serves url := by
  unfold lookup? at found
  obtain ⟨asset, isFound, rfl⟩ := Option.map_eq_some_iff.mp found
  exact ⟨asset, List.mem_of_find?_eq_some isFound, rfl⟩

theorem Serves.mono {store larger : Store} {url : String} (serves : store.Serves url)
    (more : store.files ⊆ larger.files) : larger.Serves url := by
  obtain ⟨asset, member, address⟩ := serves
  exact ⟨asset, more member, address⟩

/-! ## What is found at an address -/

/-- The first file that is served at an address. -/
def fileAt? (store : Store) (url : String) : Option Asset :=
  store.files.find? fun asset => asset.url = url

theorem fileAt?_of_serves {store : Store} {url : String} (serves : store.Serves url) :
    ∃ found ∈ store.files, store.fileAt? url = some found ∧ found.url = url := by
  obtain ⟨asset, member, address⟩ := serves
  have isSome : (store.fileAt? url).isSome = true := by
    unfold fileAt?
    rw [List.find?_isSome]
    exact ⟨asset, member, by simpa using address⟩
  obtain ⟨found, isFound⟩ := Option.isSome_iff_exists.mp isSome
  exact ⟨found, List.mem_of_find?_eq_some isFound, isFound,
    by simpa using List.find?_some isFound⟩

/-- Every file can be looked up under its name, though another one of that name may come
first. -/
theorem lookup?_of_mem {store : Store} {asset : Asset} (member : asset ∈ store.files) :
    ∃ first ∈ store.files, first.name = asset.name ∧
      store.lookup? asset.name = some first.url := by
  have isSome : (store.files.find? fun other => other.name = asset.name).isSome = true := by
    rw [List.find?_isSome]
    exact ⟨asset, member, by simp⟩
  obtain ⟨first, isFirst⟩ := Option.isSome_iff_exists.mp isSome
  refine ⟨first, List.mem_of_find?_eq_some isFirst, by simpa using List.find?_some isFirst, ?_⟩
  rw [lookup?, isFirst]
  rfl

/-- The end of the path of a file, from the directory of its kind on. -/
def placeEnd (contents name : String) (kind : AssetKind) : String :=
  kind.extension ++ "/" ++ Digest.fingerprint name contents ++ "." ++ kind.extension

/-- The end of the path stands at the end of the address, behind what is the same for all
files of a store. -/
theorem url_place (store : Store) (contents name : String) (kind : AssetKind) :
    (store.place contents name kind).url.toList =
      (Text.trimEnd '/' store.staticUrl ++ "/").toList ++
        Text.dropEdge '/' ("/" ++ store.directory ++ "/").toList ++
          (placeEnd contents name kind).toList := by
  have file : (fileName store.directory name contents kind).toList =
      ("/" ++ store.directory ++ "/").toList ++ (placeEnd contents name kind).toList := by
    simp [fileName, placeEnd]
  have split : ∀ front, Text.dropEdge '/' (front ++ (placeEnd contents name kind).toList) =
      Text.dropEdge '/' front ++ (placeEnd contents name kind).toList := by
    intro front
    obtain ⟨head, tail, shape, different⟩ : ∃ head tail,
        (placeEnd contents name kind).toList = head :: tail ∧ head ≠ '/' := by
      cases kind <;> simp [placeEnd, AssetKind.extension]
    rw [shape]
    exact Text.dropEdge_append_cons different front tail
  show (joinUrl store.staticUrl (fileName store.directory name contents kind)).toList = _
  rw [joinUrl, String.toList_append, Text.trimStart, String.toList_ofList, file, split,
    List.append_assoc]

/-- Two files with one address are of one kind and have one fingerprint. -/
theorem fingerprint_eq_of_url_eq {store : Store} {contents name others other : String}
    {kind otherKind : AssetKind}
    (same : (store.place contents name kind).url = (store.place others other otherKind).url) :
    kind = otherKind ∧ Digest.fingerprint name contents = Digest.fingerprint other others := by
  have ends : (placeEnd contents name kind).toList = (placeEnd others other otherKind).toList := by
    have addresses := congrArg String.toList same
    rw [url_place, url_place] at addresses
    exact List.append_cancel_left addresses
  have kinds : kind = otherKind := by
    cases kind <;> cases otherKind <;> first | rfl | simp [placeEnd, AssetKind.extension] at ends
  subst kinds
  refine ⟨rfl, ?_⟩
  rw [placeEnd, placeEnd, String.toList_inj, String.append_left_inj, String.append_left_inj,
    String.append_right_inj] at ends
  exact ends

/-- A store serves every file at an address of its own. -/
theorem Reachable.eq_of_url_eq {store : Store} (reachable : store.Reachable) {asset other : Asset}
    (member : asset ∈ store.files) (otherMember : other ∈ store.files)
    (same : asset.url = other.url) : asset = other := by
  have placed := reachable.placed asset member
  have otherPlaced := reachable.placed other otherMember
  rw [placed, otherPlaced] at same
  obtain ⟨kinds, fingerprints⟩ := fingerprint_eq_of_url_eq same
  apply List.inj_on_of_nodup_map reachable.nodup member otherMember
  rw [placed, otherPlaced]
  simp only [place, fileName, kinds, fingerprints]

theorem Reachable.nodup_urls {store : Store} (reachable : store.Reachable) :
    (store.files.map Asset.url).Nodup :=
  (List.Nodup.of_map Asset.file reachable.nodup).map_on
    fun _ member _ otherMember same => reachable.eq_of_url_eq member otherMember same

/-- At the address that registration gives out, the content itself is found, or something
of its kind that it is confused with. -/
theorem Reachable.found_register {store after : Store} {contents name url : String}
    {kind : AssetKind} (reachable : store.Reachable)
    (registered : store.register contents name kind = .ok (after, url)) :
    ∃ found ∈ after.files, after.fileAt? url = some found ∧ found.kind = kind ∧
      ((found.name = name ∧ found.contents = contents) ∨
        Digest.Confused found.name found.contents name contents) := by
  obtain ⟨found, member, isFound, address⟩ :=
    fileAt?_of_serves (reachable.placed.serves_register registered)
  obtain ⟨shape, url⟩ := register_eq_ok registered
  have placed := (reachable.register registered).placed found member
  have same : (after.place found.contents found.name found.kind).url =
      (after.place contents name kind).url := by
    rw [← placed, address, url, shape, place_congr (staticUrl_add _ _) (directory_add _ _)]
  obtain ⟨kinds, fingerprints⟩ := fingerprint_eq_of_url_eq same
  exact ⟨found, member, isFound, kinds, Digest.eq_or_confused_of_fingerprint_eq fingerprints⟩

/-! ## Stores at different times -/

/-- The files of the store are the first ones of a larger store, which places files in the
same way. -/
structure PartOf (store larger : Store) : Prop where
  staticUrl : larger.staticUrl = store.staticUrl
  directory : larger.directory = store.directory
  files : store.files <+: larger.files

theorem PartOf.refl (store : Store) : store.PartOf store :=
  ⟨rfl, rfl, List.prefix_refl _⟩

theorem PartOf.trans {first second third : Store} (early : first.PartOf second)
    (late : second.PartOf third) : first.PartOf third where
  staticUrl := late.staticUrl.trans early.staticUrl
  directory := late.directory.trans early.directory
  files := early.files.trans late.files

theorem partOf_add (store : Store) (asset : Asset) : store.PartOf (store.add asset) where
  staticUrl := staticUrl_add store asset
  directory := directory_add store asset
  files := files_prefix_add store asset

theorem partOf_register {store after : Store} {contents name url : String} {kind : AssetKind}
    (registered : store.register contents name kind = .ok (after, url)) : store.PartOf after := by
  rw [(register_eq_ok registered).1]
  exact partOf_add store _

/-- A name that is known keeps its address. -/
theorem PartOf.lookup? {store larger : Store} (part : store.PartOf larger) {name url : String}
    (found : store.lookup? name = some url) : larger.lookup? name = some url := by
  unfold Store.lookup? at found ⊢
  obtain ⟨asset, isFound, rfl⟩ := Option.map_eq_some_iff.mp found
  rw [part.files.find?_eq_some isFound]
  rfl

end Sitewright.Asset.Store

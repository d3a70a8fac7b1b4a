import Sitewright.Proofs.Digest.Identity
import Sitewright.Proofs.Routing.Spelling
import Sitewright.Proofs.Site.Hosts

/-!
Contract: which prefixes of fragment addresses a configuration may have.

The prefix is used three times: the check cuts slashes off its ends and refuses what is left if it
is empty or has a slash inside, an address is written from what is left, and so is the path of an
artifact. A prefix passes the check exactly if every address written from it is read as two
segments, the second being what was asked for.

Owns:
- what is left of a text without slashes at its ends, and how many pieces it has;
- `Config.AddressesFragments`, the addresses that a prefix should give;
- the addresses of the fragments of a built site.

Does not own: which addresses stand in pages and templates.
-/

namespace Sitewright

/-! ## Slashes at the ends -/

namespace Text

variable {separator edge : Char}

theorem pieces_empty (separator : Char) : pieces separator "" = [] := rfl

theorem dropEdge_ne_cons (edge : Char) (characters rest : List Char) :
    dropEdge edge characters ≠ edge :: rest := by
  intro same
  have first := List.head?_dropWhile_not (fun character => decide (character = edge)) characters
  unfold dropEdge at same
  simp [same] at first

theorem toList_trim (edge : Char) (text : String) :
    (trim edge text).toList = (dropEdge edge (dropEdge edge text.toList).reverse).reverse := by
  simp only [trim, trimEnd, trimStart, String.toList_ofList]

/-- A trimmed text does not begin with the edge. -/
theorem trim_ne_cons (edge : Char) (text : String) (rest : List Char) :
    (trim edge text).toList ≠ edge :: rest := by
  intro same
  have kept : (trim edge text).toList <+: dropEdge edge text.toList := by
    rw [toList_trim, ← List.reverse_suffix, List.reverse_reverse]
    exact List.dropWhile_suffix _
  obtain ⟨removed, whole⟩ := kept
  rw [same, List.cons_append] at whole
  exact dropEdge_ne_cons edge text.toList _ whole.symm

/-- A trimmed text does not end with the edge. -/
theorem trim_ne_concat (edge : Char) (text : String) (front : List Char) :
    (trim edge text).toList ≠ front ++ [edge] := by
  intro same
  rw [toList_trim] at same
  have reversed := congrArg List.reverse same
  rw [List.reverse_reverse, List.reverse_concat] at reversed
  exact dropEdge_ne_cons edge _ _ reversed

/-- Every other character than the separator is in a stretch. -/
theorem exists_run_of_mem {character : Char} {characters : List Char}
    (member : character ∈ characters) (different : character ≠ separator) :
    ∃ run ∈ runs separator characters, character ∈ run := by
  induction characters with
  | nil => cases member
  | cons head tail inductionHypothesis =>
      rw [runs]
      split
      · next isSeparator =>
        have inTail : character ∈ tail :=
          (List.mem_cons.mp member).resolve_left fun same => different (same.trans isSeparator)
        obtain ⟨run, isRun, inside⟩ := inductionHypothesis inTail
        exact ⟨run, List.mem_cons_of_mem _ isRun, inside⟩
      · split
        · next none => exact absurd none (runs_ne_nil separator tail)
        · next first rest shape =>
          rcases List.mem_cons.mp member with rfl | inTail
          · exact ⟨_, List.mem_cons_self, List.mem_cons_self⟩
          · obtain ⟨run, isRun, inside⟩ := inductionHypothesis inTail
            rw [shape] at isRun
            rcases List.mem_cons.mp isRun with rfl | isLater
            · exact ⟨_, List.mem_cons_self, List.mem_cons_of_mem _ inside⟩
            · exact ⟨run, List.mem_cons_of_mem _ isLater, inside⟩

theorem pieces_ne_nil {text : String} {character : Char} (member : character ∈ text.toList)
    (different : character ≠ separator) : pieces separator text ≠ [] := by
  obtain ⟨run, isRun, inside⟩ := exists_run_of_mem member different
  have nonempty : run.isEmpty = false := by
    rw [List.isEmpty_eq_false_iff_exists_mem]
    exact ⟨character, inside⟩
  have isPiece : String.ofList run ∈ pieces separator text :=
    List.mem_map_of_mem (List.mem_filter.mpr ⟨isRun, by rw [nonempty]; rfl⟩)
  exact List.ne_nil_of_mem isPiece

/-- A slash inside a trimmed text has pieces on both of its sides. -/
theorem two_le_length_pieces_trim {text : String} (inside : '/' ∈ (trim '/' text).toList) :
    2 ≤ (pieces '/' (trim '/' text)).length := by
  obtain ⟨front, back, shape⟩ := List.append_of_mem inside
  have cut : trim '/' text = String.ofList front ++ "/" ++ String.ofList back := by
    apply String.toList_inj.mp
    simpa using shape
  have before : pieces '/' (String.ofList front) ≠ [] := by
    cases front with
    | nil => exact absurd shape (trim_ne_cons '/' text back)
    | cons first rest =>
        refine @pieces_ne_nil '/' _ first (by simp) fun isSlash => ?_
        rw [isSlash, List.cons_append] at shape
        exact trim_ne_cons '/' text _ shape
  have behind : pieces '/' (String.ofList back) ≠ [] := by
    rcases List.eq_nil_or_concat back with rfl | ⟨rest, last, rfl⟩
    · exact absurd shape (trim_ne_concat '/' text front)
    · refine @pieces_ne_nil '/' _ last (by simp) fun isSlash => ?_
      rw [isSlash, List.concat_eq_append, ← List.cons_append, ← List.append_assoc] at shape
      exact trim_ne_concat '/' text _ shape
  rw [cut, pieces_append_slash, List.length_append]
  have := List.length_pos_of_ne_nil before
  have := List.length_pos_of_ne_nil behind
  omega

/-- A trimmed text is a single piece if and only if it is not empty and has no slash inside. -/
theorem length_pieces_trim_eq_one_iff (text : String) :
    (pieces '/' (trim '/' text)).length = 1 ↔
      trim '/' text ≠ "" ∧ '/' ∉ (trim '/' text).toList := by
  constructor
  · intro single
    refine ⟨fun isEmpty => ?_, fun inside => ?_⟩
    · rw [isEmpty, pieces_empty] at single
      cases single
    · have several := two_le_length_pieces_trim inside
      omega
  · rintro ⟨nonempty, free⟩
    rw [pieces_of_free nonempty free]
    rfl

end Text

open Routing

/-! ## Addresses -/

namespace Config

/-- The address of everything that can be a segment is read as two segments, the second being
what was asked for. -/
def AddressesFragments (config : Config) : Prop :=
  ∀ fingerprint : String, fingerprint ≠ "" → '/' ∉ fingerprint.toList →
    ∃ first, (Path.ofText (config.fragmentUrl fingerprint)).segments = [first, fingerprint]

variable {config : Config}

theorem hasSinglePrefix_iff :
    config.hasSinglePrefix = true ↔
      config.fragmentSegment ≠ "" ∧ '/' ∉ config.fragmentSegment.toList := by
  simp [hasSinglePrefix]

/-- An address begins with a slash, behind which stand the pieces of the prefix. -/
theorem segments_fragmentUrl {fingerprint : String} (nonempty : fingerprint ≠ "")
    (free : '/' ∉ fingerprint.toList) :
    (Path.ofText (config.fragmentUrl fingerprint)).segments =
      Text.pieces '/' config.fragmentSegment ++ [fingerprint] := by
  have shape : config.fragmentUrl fingerprint =
      "" ++ "/" ++ config.fragmentSegment ++ "/" ++ fingerprint := by
    rw [fragmentUrl, String.empty_append]
  unfold Path.ofText
  rw [shape, Text.pieces_append_slash, Text.pieces_append_slash, Text.pieces_empty, List.nil_append,
    Text.pieces_of_free nonempty free]

theorem hasSinglePrefix_iff_addressesFragments :
    config.hasSinglePrefix = true ↔ config.AddressesFragments := by
  rw [hasSinglePrefix_iff]
  constructor
  · rintro ⟨segmentNonempty, segmentFree⟩ fingerprint nonempty free
    refine ⟨config.fragmentSegment, ?_⟩
    rw [segments_fragmentUrl nonempty free, Text.pieces_of_free segmentNonempty segmentFree]
    rfl
  · intro addresses
    obtain ⟨first, segments⟩ := addresses "0" (by decide) (by decide)
    rw [segments_fragmentUrl (by decide) (by decide)] at segments
    refine (Text.length_pieces_trim_eq_one_iff config.dynamicPrefix).mp ?_
    have lengths := congrArg List.length segments
    rw [List.length_append] at lengths
    exact Nat.succ.inj lengths

theorem check_eq_ok_iff :
    config.check = .ok () ↔ config.probeLimit ≠ 0 ∧ config.hasSinglePrefix = true := by
  unfold check
  split
  · next noProbes => simp [noProbes]
  · next probes =>
    split
    · next refused =>
      have several : config.hasSinglePrefix ≠ true := by simpa using refused
      simp [several]
    · next accepted =>
      have single : config.hasSinglePrefix = true := by simpa using accepted
      simp [probes, single]

theorem fragmentUrl_injective (config : Config) : Function.Injective config.fragmentUrl := by
  intro fingerprint other same
  exact (String.append_right_inj _).mp same

end Config

/-! ## The fragments of a site -/

namespace Site

variable {config : Config} {root : View} {store after : Asset.Store} {site : Site}

theorem hasSinglePrefix_of_build (built : build config root store = (.ok site, after)) :
    config.hasSinglePrefix = true := by
  unfold build at built
  split at built
  · cases built
  · next checked => exact (Config.check_eq_ok_iff.mp checked).2

/-- The base under which a fragment is written is its address without the first slash. -/
theorem artifacts_of_fragmentUrl {fragment : Catalog.Fragment}
    (segment : site.fragmentSegment = config.fragmentSegment) (member : fragment ∈ site.fragments) :
    ∃ base, config.fragmentUrl fragment.fingerprint = "/" ++ base ∧
      Artifact.output (base ++ ".template.html") fragment.template ∈ site.artifacts ∧
      Artifact.output (base ++ ".meta.json") fragment.sidecar.toJson.text ∈ site.artifacts := by
  refine ⟨Artifact.fragmentBase site.fragmentSegment fragment.fingerprint, ?_, ?_, ?_⟩
  · rw [segment]
    exact Render.fragmentUrl_eq config fragment.fingerprint
  · exact mem_artifacts_of_fragment member List.mem_cons_self
  · exact mem_artifacts_of_fragment member (List.mem_cons_of_mem _ List.mem_cons_self)

/-- A fragment is stored under a name that can be a segment. -/
theorem segment_of_fragment (built : build config root store = (.ok site, after))
    {fragment : Catalog.Fragment} (member : fragment ∈ site.fragments) :
    fragment.fingerprint ≠ "" ∧ '/' ∉ fragment.fingerprint.toList := by
  obtain ⟨routes, pages, ledger, found, pagesBuilt, rfl⟩ := build_eq_ok built
  have addressed : (buildPages config root (.ofBuild routes store)
      routes.entries).2.catalog.Addressed := addressed_buildPages routes.entries .empty
  rw [pagesBuilt] at addressed
  have made : fragment.fingerprint = Digest.fingerprint fragment.resource fragment.template :=
    congrArg Catalog.Fragment.fingerprint (addressed.made fragment member)
  rw [made]
  refine ⟨fun isEmpty => ?_, fun inside => ?_⟩
  · have length := Digest.length_fingerprint fragment.resource fragment.template
    rw [isEmpty] at length
    cases length
  · exact absurd (Digest.mem_fingerprint inside) (by decide)

/-- The check of a configuration accepts a prefix if and only if every address written from it is
read as two segments, the second being the fingerprint that was asked for. Whatever the prefix, an
address is the base under which a fragment is written, behind a slash, and different fingerprints
have different addresses. So each fragment of a built site has an address of two segments, the first
being the prefix without its slashes, and its template and its record are written under that
address. -/
theorem prefix_accepted_iff_addresses (config : Config) :
    (config.hasSinglePrefix = true ↔ config.AddressesFragments) ∧
    (config.check = .ok () ↔ config.probeLimit ≠ 0 ∧ config.AddressesFragments) ∧
    (∀ fingerprint, config.fragmentUrl fingerprint =
      "/" ++ Artifact.fragmentBase config.fragmentSegment fingerprint) ∧
    Function.Injective config.fragmentUrl ∧
    ∀ root store after site, build config root store = (.ok site, after) →
      ∀ fragment ∈ site.fragments,
        (Path.ofText (config.fragmentUrl fragment.fingerprint)).segments =
          [config.fragmentSegment, fragment.fingerprint] ∧
        ∃ base, config.fragmentUrl fragment.fingerprint = "/" ++ base ∧
          Artifact.output (base ++ ".template.html") fragment.template ∈ site.artifacts ∧
          Artifact.output (base ++ ".meta.json") fragment.sidecar.toJson.text ∈ site.artifacts := by
  have accepted : config.hasSinglePrefix = true ↔ config.AddressesFragments :=
    Config.hasSinglePrefix_iff_addressesFragments
  refine ⟨accepted, ?_, Render.fragmentUrl_eq config, Config.fragmentUrl_injective config, ?_⟩
  · rw [Config.check_eq_ok_iff, accepted]
  · intro root store after site built fragment member
    obtain ⟨prefixNonempty, prefixFree⟩ :=
      Config.hasSinglePrefix_iff.mp (hasSinglePrefix_of_build built)
    obtain ⟨nonempty, free⟩ := segment_of_fragment built member
    refine ⟨?_, artifacts_of_fragmentUrl ?_ member⟩
    · rw [Config.segments_fragmentUrl nonempty free, Text.pieces_of_free prefixNonempty prefixFree]
      rfl
    · obtain ⟨routes, pages, ledger, -, -, rfl⟩ := build_eq_ok built
      rfl

/-- A prefix between slashes addresses the fragment of `shopRoutes`; one with a slash inside is
refused. -/
theorem shopRoutes_fragment_addressed :
    ∃ site after fragment,
      build { Config.standard with dynamicPrefix := "//parts/" } shopRoutes
        (.ofConfig Config.standard) = (.ok site, after) ∧
      fragment ∈ site.fragments ∧
      (Path.ofText ("/parts/" ++ fragment.fingerprint)).segments =
        ["parts", fragment.fingerprint] ∧
      Artifact.output ("parts/" ++ fragment.fingerprint ++ ".template.html") fragment.template ∈
        site.artifacts ∧
      ¬ { Config.standard with dynamicPrefix := "/parts//shop" }.AddressesFragments := by
  let config : Config := { Config.standard with dynamicPrefix := "//parts/" }
  have computed : (build config shopRoutes (.ofConfig Config.standard)).1.toOption.map
      (fun site => site.fragments.length) = some 1 := by decide +kernel
  obtain ⟨site, after, built, single⟩ := exists_site_of_computed computed
  obtain ⟨fragment, only⟩ := List.length_eq_one_iff.mp single
  have member : fragment ∈ site.fragments := by
    rw [only]
    exact List.mem_cons_self
  have segment : config.fragmentSegment = "parts" := by decide +kernel
  have address : config.fragmentUrl fragment.fingerprint = "/parts/" ++ fragment.fingerprint := by
    rw [Config.fragmentUrl, segment]
    rfl
  obtain ⟨segments, base, based, written, -⟩ :=
    (prefix_accepted_iff_addresses config).2.2.2.2 shopRoutes _ after site built fragment member
  rw [address, segment] at segments
  have under : base = "parts/" ++ fragment.fingerprint := by
    apply (String.append_right_inj "/").mp
    rw [← based, address, ← String.append_assoc]
    rfl
  rw [under] at written
  refine ⟨site, after, fragment, built, member, segments, written, fun addresses => ?_⟩
  have refused := (prefix_accepted_iff_addresses _).1.mpr addresses
  revert refused
  decide

end Site

end Sitewright

import Mathlib.Data.String.Basic
import Sitewright.Proofs.Render.Registration
import Sitewright.Proofs.Routing.Spelling
import Sitewright.Proofs.Site.FragmentUrl
import Sitewright.Proofs.Site.Hosts
import Sitewright.Proofs.Site.Isolation
import Sitewright.Proofs.Site.Survey
import Sitewright.Site.Artifact

/-!
Contract: under which paths the artifacts of a site are written, and what is there in the
end.

Pages, fragments, islands and assets each have names of their own, so no two artifacts of one
kind share a path. Nothing keeps the name of a page apart from those of fragments and islands,
or the first segment of fragments apart from that of islands; where two such names are the
same, the later artifact replaces the earlier one.

Owns:
- what files in memory hold after paths of their own were written;
- `Site.NamesMeet`, the four ways in which two names can be the same;
- the paths of a built site.

Does not own: what the artifacts contain.
-/

namespace Sitewright

open Routing

/-! ## Files in memory -/

namespace Files

/-- The paths ascend, so that each one is there once. -/
def Sorted (files : Files) : Prop :=
  (files.map Prod.fst).Pairwise (· < ·)

theorem mem_paths_insert {path contents other : String} {files : Files} :
    other ∈ (files.insert path contents).map Prod.fst ↔
      other = path ∨ other ∈ files.map Prod.fst := by
  fun_induction Files.insert path contents files with
  | case1 => simp
  | case2 first old rest before => simp
  | case3 old rest notBefore => simp
  | case4 first old rest notBefore different inductionHypothesis =>
      rw [List.map_cons, List.mem_cons, inductionHypothesis, List.map_cons, List.mem_cons,
        or_left_comm]

theorem Sorted.insert {files : Files} (sorted : files.Sorted) (path contents : String) :
    (files.insert path contents).Sorted := by
  fun_induction Files.insert path contents files with
  | case1 => exact List.pairwise_singleton _ _
  | case2 first old rest before =>
      refine List.pairwise_cons.mpr ⟨?_, sorted⟩
      intro other member
      rcases List.mem_cons.mp member with rfl | later
      · exact before
      · exact lt_trans before ((List.pairwise_cons.mp sorted).1 other later)
  | case3 old rest notBefore => exact sorted
  | case4 first old rest notBefore different inductionHypothesis =>
      obtain ⟨least, restSorted⟩ := List.pairwise_cons.mp sorted
      refine List.pairwise_cons.mpr ⟨?_, inductionHypothesis restSorted⟩
      intro other member
      rcases mem_paths_insert.mp member with rfl | later
      · exact lt_of_le_of_ne (not_lt.mp notBefore) (Ne.symm different)
      · exact least other later

/-- A file under a path of its own is one more file. -/
theorem insert_perm {path : String} {files : Files} (fresh : path ∉ files.map Prod.fst)
    (contents : String) : (files.insert path contents).Perm ((path, contents) :: files) := by
  fun_induction Files.insert path contents files with
  | case1 => exact List.Perm.refl _
  | case2 first old rest before => exact List.Perm.refl _
  | case3 old rest notBefore => exact absurd List.mem_cons_self fresh
  | case4 first old rest notBefore different inductionHypothesis =>
      have freshBehind : path ∉ rest.map Prod.fst :=
        fun member => fresh (List.mem_cons_of_mem _ member)
      exact ((inductionHypothesis freshBehind).cons _).trans (List.Perm.swap _ _ _)

end Files

/-- The paths and contents of the artifacts that belong to an area, in the order in which they
are written. -/
def filesIn (area : Area) (artifacts : List Artifact) : Files :=
  (artifacts.filter fun artifact => artifact.area = area).map fun artifact =>
    (artifact.path, artifact.contents)

namespace MemorySink

def files (sink : MemorySink) : Area → Files
  | .output => sink.output
  | .static => sink.static

theorem files_write (sink : MemorySink) (artifact : Artifact) (area : Area) :
    (sink.write artifact).2.files area =
      if artifact.area = area then
        (sink.files area).insert artifact.path artifact.contents
      else sink.files area := by
  obtain ⟨place, path, contents⟩ := artifact
  cases place <;> cases area <;> rfl

/-- The sink after all artifacts are written. -/
def after (sink : MemorySink) (artifacts : List Artifact) : MemorySink :=
  artifacts.foldl (fun sink artifact => (sink.write artifact).2) sink

/-- Nothing is refused. -/
theorem writeAll_eq_after (sink : MemorySink) (artifacts : List Artifact) :
    writeAll MemorySink.write sink artifacts = (.ok (), sink.after artifacts) := by
  refine Site.writeAll_of_ok (fun sink artifact => ?_) artifacts sink
  unfold MemorySink.write
  split <;> rfl

theorem sorted_after {area : Area} (artifacts : List Artifact) {sink : MemorySink}
    (sorted : (sink.files area).Sorted) : ((sink.after artifacts).files area).Sorted := by
  induction artifacts generalizing sink with
  | nil => exact sorted
  | cons artifact rest inductionHypothesis =>
      apply inductionHypothesis
      rw [files_write]
      split
      · exact sorted.insert artifact.path artifact.contents
      · exact sorted

/-- Artifacts under paths of their own are all there afterwards. -/
theorem files_after_perm {area : Area} {artifacts : List Artifact} {sink : MemorySink}
    (distinct : ((sink.files area ++ filesIn area artifacts).map Prod.fst).Nodup) :
    ((sink.after artifacts).files area).Perm (sink.files area ++ filesIn area artifacts) := by
  induction artifacts generalizing sink with
  | nil =>
      show (sink.files area).Perm (sink.files area ++ [])
      rw [List.append_nil]
  | cons artifact rest inductionHypothesis =>
      have written := files_write sink artifact area
      by_cases here : artifact.area = area
      · have shape : filesIn area (artifact :: rest) =
            (artifact.path, artifact.contents) :: filesIn area rest := by
          simp [filesIn, here]
        rw [if_pos here] at written
        rw [shape] at distinct ⊢
        have fresh : artifact.path ∉ (sink.files area).map Prod.fst := by
          rw [List.map_append, List.map_cons] at distinct
          exact fun member => List.disjoint_of_nodup_append distinct member List.mem_cons_self
        have moved : ((sink.write artifact).2.files area ++ filesIn area rest).Perm
            (sink.files area ++ (artifact.path, artifact.contents) :: filesIn area rest) := by
          rw [written]
          exact ((Files.insert_perm fresh artifact.contents).append_right _).trans
            List.perm_middle.symm
        refine (inductionHypothesis ?_).trans moved
        exact ((moved.map Prod.fst).nodup_iff).mpr distinct
      · have shape : filesIn area (artifact :: rest) = filesIn area rest := by
          simp [filesIn, here]
        rw [if_neg here] at written
        rw [shape, ← written] at distinct ⊢
        exact inductionHypothesis distinct

/-- An empty sink holds exactly the artifacts of an area in the end if and only if no two of
them share a path. -/
theorem after_perm_iff (area : Area) (artifacts : List Artifact) :
    ((empty.after artifacts).files area).Perm (filesIn area artifacts) ↔
      ((filesIn area artifacts).map Prod.fst).Nodup := by
  have nothing : empty.files area = [] := by cases area <;> rfl
  constructor
  · intro same
    have sorted : ((empty.after artifacts).files area).Sorted := by
      apply sorted_after
      rw [nothing]
      exact .nil
    have distinct : (((empty.after artifacts).files area).map Prod.fst).Nodup :=
      sorted.imp fun before => ne_of_lt before
    exact ((same.map Prod.fst).nodup_iff).mp distinct
  · intro distinct
    have held := @files_after_perm area artifacts empty
    rw [nothing, List.nil_append] at held
    exact held distinct

end MemorySink

/-! ## Names -/

/-- A slash ends what has no slash in it. -/
theorem append_slash_inj {first second rest others : String} (free : '/' ∉ first.toList)
    (otherFree : '/' ∉ second.toList) (same : first ++ "/" ++ rest = second ++ "/" ++ others) :
    first = second ∧ rest = others := by
  have characters : first.toList ++ '/' :: rest.toList = second.toList ++ '/' :: others.toList := by
    simpa using congrArg String.toList same
  have heads := congrArg (List.takeWhile (· ≠ '/')) characters
  rw [List.takeWhile_append_of_pos (by grind), List.takeWhile_append_of_pos (by grind)] at heads
  have firsts : first.toList = second.toList := by simpa using heads
  rw [firsts] at characters
  have rests : rest.toList = others.toList :=
    (List.cons.inj (List.append_cancel_left characters)).2
  exact ⟨String.toList_inj.mp firsts, String.toList_inj.mp rests⟩

/-- Each of the names with two ends, one after another. -/
def withEnds (first second : String) (names : List String) : List String :=
  names.flatMap fun name => [name ++ first, name ++ second]

theorem mem_withEnds {first second path : String} {names : List String} :
    path ∈ withEnds first second names ↔
      ∃ name ∈ names, path = name ++ first ∨ path = name ++ second := by
  simp [withEnds]

theorem length_withEnds (first second : String) (names : List String) :
    (withEnds first second names).length = 2 * names.length := by
  induction names with
  | nil => rfl
  | cons name rest inductionHypothesis =>
      show (withEnds first second rest).length + 2 = 2 * (rest.length + 1)
      omega

theorem nodup_withEnds {first second : String} {names : List String}
    (differ : ∀ name other : String, name ++ first ≠ other ++ second) (distinct : names.Nodup) :
    (withEnds first second names).Nodup := by
  induction names with
  | nil => exact .nil
  | cons name rest inductionHypothesis =>
      obtain ⟨new, restDistinct⟩ := List.nodup_cons.mp distinct
      have apart : ∀ path ∈ [name ++ first, name ++ second],
          path ∉ withEnds first second rest := by
        intro path isNew member
        obtain ⟨other, inRest, ends⟩ := mem_withEnds.mp member
        simp only [List.mem_cons, List.not_mem_nil, or_false] at isNew
        rcases isNew with rfl | rfl <;> rcases ends with same | same
        · exact new (String.append_left_inj _ |>.mp same ▸ inRest)
        · exact differ name other same
        · exact differ other name same.symm
        · exact new (String.append_left_inj _ |>.mp same ▸ inRest)
      have two : [name ++ first, name ++ second].Nodup := by simpa using differ name name
      exact two.append (inductionHypothesis restDistinct) apart

/-- A page and a record never share a path, as their ends differ. -/
theorem append_html_ne (name other : String) : name ++ ".html" ≠ other ++ ".meta.json" := by
  intro same
  have last := congrArg (fun text : String => text.toList.getLast?) same
  simp at last

theorem append_templateHtml (name : String) :
    name ++ ".template.html" = name ++ ".template" ++ ".html" := by
  rw [String.append_assoc]
  rfl

theorem append_templateHtml_ne (name other : String) :
    name ++ ".template.html" ≠ other ++ ".meta.json" := by
  rw [append_templateHtml]
  exact append_html_ne _ other

namespace Site

/-- The paths under which the artifacts of an area are written, in order. -/
def paths (site : Site) (area : Area) : List String :=
  (filesIn area site.artifacts).map Prod.fst

/-- Two artifacts of different kinds get one name: a page and a fragment, with or without the
ending of templates, a page and an island, or a fragment and an island. -/
inductive NamesMeet (site : Site) : Prop where
  | template {page : Page} {fragment : Catalog.Fragment} (inPages : page ∈ site.pages)
      (inFragments : fragment ∈ site.fragments)
      (same : page.route =
        Artifact.fragmentBase site.fragmentSegment fragment.fingerprint ++ ".template")
  | fragment {page : Page} {fragment : Catalog.Fragment} (inPages : page ∈ site.pages)
      (inFragments : fragment ∈ site.fragments)
      (same : page.route = Artifact.fragmentBase site.fragmentSegment fragment.fingerprint)
  | island {page : Page} {record : Catalog.IslandRecord} (inPages : page ∈ site.pages)
      (inIslands : record ∈ site.islands) (same : page.route = "__islands/" ++ record.id)
  | record {fragment : Catalog.Fragment} {record : Catalog.IslandRecord}
      (inFragments : fragment ∈ site.fragments) (inIslands : record ∈ site.islands)
      (segment : site.fragmentSegment = "__islands") (same : record.id = fragment.fingerprint)

variable {site : Site}

def pagePaths (site : Site) : List String :=
  withEnds ".html" ".meta.json" (site.pages.map Page.route)

/-- Where a fragment of the site is written, without the endings. -/
def fragmentName (site : Site) (fragment : Catalog.Fragment) : String :=
  Artifact.fragmentBase site.fragmentSegment fragment.fingerprint

def fragmentPaths (site : Site) : List String :=
  withEnds ".template.html" ".meta.json" (site.fragments.map site.fragmentName)

def islandName (record : Catalog.IslandRecord) : String :=
  "__islands/" ++ record.id

def islandPaths (site : Site) : List String :=
  site.islands.map fun record => islandName record ++ ".meta.json"

theorem paths_output (site : Site) :
    site.paths .output = site.pagePaths ++ site.fragmentPaths ++ site.islandPaths := by
  simp [paths, filesIn, artifacts, pagePaths, fragmentPaths, fragmentName, islandPaths, islandName,
    withEnds, List.filter_flatMap, List.map_flatMap, List.flatMap_map, List.filter_map,
    Artifact.ofPage, Artifact.ofFragment, Artifact.ofIsland, Artifact.ofAsset, Artifact.output,
    Function.comp_def]

theorem paths_static (site : Site) :
    site.paths .static = site.assets.map fun asset => Text.trimStart '/' asset.file := by
  have pages : (site.pages.flatMap Artifact.ofPage).filter
      (fun artifact => artifact.area = .static) = [] := by
    simp [List.filter_flatMap, Artifact.ofPage, Artifact.output, List.flatMap_eq_nil_iff]
  have fragments : (site.fragments.flatMap (Artifact.ofFragment site.fragmentSegment)).filter
      (fun artifact => artifact.area = .static) = [] := by
    simp [List.filter_flatMap, Artifact.ofFragment, Artifact.output, List.flatMap_eq_nil_iff]
  unfold paths filesIn artifacts
  simp only [List.filter_append, pages, fragments]
  simp [List.filter_map, Artifact.ofIsland, Artifact.ofAsset, Artifact.output, Function.comp_def]

/-- Pages and fragments are written in two parts each. -/
theorem length_output (site : Site) :
    (filesIn .output site.artifacts).length =
      2 * site.pages.length + 2 * site.fragments.length + site.islands.length := by
  have lengths := congrArg List.length (paths_output site)
  simpa [paths, pagePaths, fragmentPaths, islandPaths, length_withEnds, Nat.add_assoc]
    using lengths

theorem length_static (site : Site) :
    (filesIn .static site.artifacts).length = site.assets.length := by
  have lengths := congrArg List.length (paths_static site)
  simpa [paths] using lengths

/-! ## Paths of one kind -/

theorem nodup_fragmentPaths (distinct : (site.fragments.map Catalog.Fragment.fingerprint).Nodup) :
    site.fragmentPaths.Nodup := by
  apply nodup_withEnds append_templateHtml_ne
  have names : site.fragments.map site.fragmentName =
      (site.fragments.map Catalog.Fragment.fingerprint).map
        (Artifact.fragmentBase site.fragmentSegment) := by
    rw [List.map_map]
    rfl
  rw [names]
  exact distinct.map fun first second same => (String.append_right_inj _).mp same

theorem nodup_islandPaths (distinct : (site.islands.map Catalog.IslandRecord.id).Nodup) :
    site.islandPaths.Nodup := by
  have ids : site.islandPaths = (site.islands.map Catalog.IslandRecord.id).map
      fun id => "__islands/" ++ id ++ ".meta.json" := by
    rw [List.map_map]
    rfl
  rw [ids]
  refine distinct.map fun first second same => ?_
  exact (String.append_right_inj _).mp ((String.append_left_inj _).mp same)

/-! ## Paths of two kinds -/

theorem page_meets_fragment {path : String} (inPages : path ∈ site.pagePaths)
    (inFragments : path ∈ site.fragmentPaths) : site.NamesMeet := by
  obtain ⟨route, isRoute, pageEnd⟩ := mem_withEnds.mp inPages
  obtain ⟨name, isName, fragmentEnd⟩ := mem_withEnds.mp inFragments
  obtain ⟨page, inSite, rfl⟩ := List.mem_map.mp isRoute
  obtain ⟨fragment, stored, rfl⟩ := List.mem_map.mp isName
  rcases pageEnd with rfl | rfl <;> rcases fragmentEnd with same | same
  · rw [append_templateHtml] at same
    exact .template inSite stored ((String.append_left_inj _).mp same)
  · exact absurd same (append_html_ne _ _)
  · exact absurd same.symm (append_templateHtml_ne _ _)
  · exact .fragment inSite stored ((String.append_left_inj _).mp same)

theorem page_meets_island {path : String} (inPages : path ∈ site.pagePaths)
    (inIslands : path ∈ site.islandPaths) : site.NamesMeet := by
  obtain ⟨route, isRoute, pageEnd⟩ := mem_withEnds.mp inPages
  obtain ⟨page, inSite, rfl⟩ := List.mem_map.mp isRoute
  obtain ⟨record, kept, isPath⟩ := List.mem_map.mp inIslands
  rcases pageEnd with rfl | rfl
  · exact absurd isPath.symm (append_html_ne _ _)
  · exact .island inSite kept ((String.append_left_inj _).mp isPath).symm

theorem fragment_meets_island (segment : '/' ∉ site.fragmentSegment.toList) {path : String}
    (inFragments : path ∈ site.fragmentPaths) (inIslands : path ∈ site.islandPaths) :
    site.NamesMeet := by
  obtain ⟨name, isName, fragmentEnd⟩ := mem_withEnds.mp inFragments
  obtain ⟨fragment, stored, rfl⟩ := List.mem_map.mp isName
  obtain ⟨record, kept, isPath⟩ := List.mem_map.mp inIslands
  rcases fragmentEnd with rfl | rfl
  · exact absurd isPath.symm (append_templateHtml_ne _ _)
  · have names : site.fragmentSegment ++ "/" ++ fragment.fingerprint =
        "__islands" ++ "/" ++ record.id := ((String.append_left_inj _).mp isPath).symm
    obtain ⟨segments, ids⟩ := append_slash_inj segment (by decide) names
    exact .record stored kept segments ids.symm

/-- Where two names meet, a path is written twice. -/
theorem NamesMeet.twice (meets : site.NamesMeet) : ¬ (site.paths .output).Nodup := by
  rw [paths_output]
  intro distinct
  obtain ⟨inner, -, outer⟩ := List.nodup_append.mp distinct
  have ofPage : ∀ page ∈ site.pages, page.route ++ ".html" ∈ site.pagePaths ∧
      page.route ++ ".meta.json" ∈ site.pagePaths := fun page inPages =>
    ⟨mem_withEnds.mpr ⟨_, List.mem_map_of_mem inPages, Or.inl rfl⟩,
      mem_withEnds.mpr ⟨_, List.mem_map_of_mem inPages, Or.inr rfl⟩⟩
  have ofFragment : ∀ fragment ∈ site.fragments,
      site.fragmentName fragment ++ ".template.html" ∈ site.fragmentPaths ∧
        site.fragmentName fragment ++ ".meta.json" ∈ site.fragmentPaths :=
    fun fragment inFragments =>
      ⟨mem_withEnds.mpr ⟨_, List.mem_map_of_mem inFragments, Or.inl rfl⟩,
        mem_withEnds.mpr ⟨_, List.mem_map_of_mem inFragments, Or.inr rfl⟩⟩
  have ofIsland : ∀ record ∈ site.islands, islandName record ++ ".meta.json" ∈ site.islandPaths :=
    fun record inIslands => List.mem_map.mpr ⟨record, inIslands, rfl⟩
  cases meets with
  | @template page fragment inPages inFragments same =>
      have written := (ofPage page inPages).1
      rw [same, ← append_templateHtml] at written
      exact List.disjoint_of_nodup_append inner written (ofFragment fragment inFragments).1
  | @fragment page fragment inPages inFragments same =>
      have written := (ofPage page inPages).2
      rw [same] at written
      exact List.disjoint_of_nodup_append inner written (ofFragment fragment inFragments).2
  | @island page record inPages inIslands same =>
      have written := (ofPage page inPages).2
      rw [same] at written
      exact outer _ (List.mem_append_left _ written) _ (ofIsland record inIslands) rfl
  | @record fragment record inFragments inIslands segment same =>
      have written := (ofFragment fragment inFragments).2
      have names : site.fragmentName fragment = islandName record := by
        rw [fragmentName, islandName, segment, same]
        rfl
      rw [names] at written
      exact outer _ (List.mem_append_right _ written) _ (ofIsland record inIslands) rfl

/-- The paths of pages, fragments and islands are distinct if and only if no two names meet,
provided that the names of each kind are distinct and the segment of fragments is one. -/
theorem nodup_output_iff (segment : '/' ∉ site.fragmentSegment.toList)
    (pages : (site.pages.map Page.route).Nodup)
    (fragments : (site.fragments.map Catalog.Fragment.fingerprint).Nodup)
    (islands : (site.islands.map Catalog.IslandRecord.id).Nodup) :
    (site.paths .output).Nodup ↔ ¬ site.NamesMeet := by
  refine ⟨fun distinct meets => meets.twice distinct, fun apart => ?_⟩
  rw [paths_output]
  have pagePaths : site.pagePaths.Nodup := nodup_withEnds append_html_ne pages
  have both : (site.pagePaths ++ site.fragmentPaths).Nodup :=
    pagePaths.append (nodup_fragmentPaths fragments) fun path inPages inFragments =>
      apart (page_meets_fragment inPages inFragments)
  refine both.append (nodup_islandPaths islands) fun path inBoth inIslands => apart ?_
  rcases List.mem_append.mp inBoth with inPages | inFragments
  · exact page_meets_island inPages inIslands
  · exact fragment_meets_island segment inFragments inIslands

/-! ## Names in a build -/

section Build

variable {config : Config} {root : View} {store : Asset.Store} {Known : Path → Prop}

/-- All routes that are found meet a condition which the root meets and extension keeps. -/
theorem registered_of_survey (outermost : Known .root)
    (entered : ∀ {path : Path} (route : String), Known path → Known (path.extend route))
    (asks : root.Asks (.registering Known)) {routes : Table}
    (found : survey config root = .ok routes) : ∀ entry ∈ routes.entries, Known entry.path := by
  have reached := Progress.reached_of_survey (describes_of_survey found) found
  have throughout : ∀ {progress : Progress}, Progress.Reached config root progress →
      ∀ entry ∈ progress.routes.entries, Known entry.path := by
    intro progress reached
    induction reached with
    | refl =>
        intro entry member
        cases member
    | tail _ turn inductionHypothesis =>
        obtain @⟨searched, pending, added, selected, before, known, allowed, outcome⟩ := turn
        obtain ⟨text, state, rendered, rfl, -⟩ := Progress.search_eq_ok outcome
        have registers := View.registers outermost entered asks
          { config, pass := .search, scope := .probe selected }
          (.ofLedger (.ofSearch config before)) outermost
          ⟨inductionHypothesis, by simp [State.ofLedger]⟩
        rw [rendered] at registers
        exact registers.routes
  exact throughout reached

/-- The pages are those of the routes, in order. -/
theorem routes_of_buildPages {ledger final : Ledger} {routes : List Entry} {pages : List Page}
    (built : buildPages config root ledger routes = (.ok pages, final)) :
    pages.map Page.route = routes.map fun route => route.path.text := by
  induction routes generalizing ledger pages with
  | nil =>
      simp only [buildPages] at built
      rw [← Except.ok.inj (Prod.mk.inj built).1]
      rfl
  | cons route rest inductionHypothesis =>
      simp only [buildPages] at built
      split at built
      · cases built
      · next page after finished =>
        split at built
        · cases built
        · next others later =>
          obtain ⟨same, rfl⟩ := Prod.mk.inj built
          rw [← Except.ok.inj same, List.map_cons, List.map_cons, inductionHypothesis later,
            (page_of_buildPage finished).1]

/-- No two routes of a table of proper paths have one text. -/
theorem nodup_routes {routes : Table} (distinct : routes.Distinct)
    (proper : ∀ entry ∈ routes.entries, entry.path.IsProper) :
    (routes.entries.map fun route => route.path.text).Nodup := by
  refine List.pairwise_map.mpr (distinct.imp_of_mem ?_)
  intro earlier later earlierMember laterMember apart same
  have paths := (proper earlier earlierMember).eq_of_text (proper later laterMember) same
  rw [paths, Path.matchesPath_self] at apart
  cases apart

/-- Files of one store have paths of their own, also without the slash in front. -/
theorem nodup_static (reachable : store.Reachable) (urls : List String) :
    ((store.used urls).map fun asset => Text.trimStart '/' asset.file).Nodup := by
  have each : (store.used urls).Nodup := (List.Nodup.of_map Asset.file reachable.nodup).filter _
  refine each.map_on ?_
  intro asset member other otherMember same
  have stored := (List.mem_filter.mp member).1
  have otherStored := (List.mem_filter.mp otherMember).1
  have addresses : asset.url = other.url := by
    rw [reachable.placed.url stored, reachable.placed.url otherStored, Asset.joinUrl, same,
      Asset.joinUrl]
  exact reachable.eq_of_url_eq stored otherStored addresses

/-- A build that succeeds has a single segment for its fragments. -/
theorem segment_of_build {after : Asset.Store} {site : Site}
    (built : build config root store = (.ok site, after)) :
    '/' ∉ config.fragmentSegment.toList :=
  (Config.hasSinglePrefix_iff.mp (hasSinglePrefix_of_build built)).2

end Build

/-- The artifacts of a site. Every store of a build has its own path for each of its files, and
where components register routes only under proper paths, the paths of pages, fragments and
islands are distinct if and only if no page has the name of a fragment or an island, and no
fragment that of an island. Writing to files in memory never fails. All static files are there
afterwards, one for each asset; and if and only if no two names meet, so are the others, two for
each page, two for each fragment and one for each island. -/
theorem artifacts_apart_unless_names_meet (config : Config) (root : View)
    (store after : Asset.Store) (site : Site) (reachable : store.Reachable)
    (asks : root.Asks (.registering Path.IsProper))
    (built : build config root store = (.ok site, after)) :
    (site.paths .static).Nodup ∧
    ((site.paths .output).Nodup ↔ ¬ site.NamesMeet) ∧
    ∃ sink, writeAll MemorySink.write .empty site.artifacts = (.ok (), sink) ∧
      sink.static.Perm (filesIn .static site.artifacts) ∧
      (filesIn .static site.artifacts).length = site.assets.length ∧
      (sink.output.Perm (filesIn .output site.artifacts) ↔ ¬ site.NamesMeet) ∧
      (filesIn .output site.artifacts).length =
        2 * site.pages.length + 2 * site.fragments.length + site.islands.length := by
  have segment := segment_of_build built
  obtain ⟨routes, pages, ledger, found, pagesBuilt, rfl⟩ := build_eq_ok built
  have static : ((ofLedger config pages ledger).paths .static).Nodup := by
    have kept : (buildPages config root (.ofBuild routes store)
        routes.entries).2.assets.Reachable := reachable_buildPages routes.entries reachable
    rw [pagesBuilt] at kept
    rw [paths_static]
    exact nodup_static kept ledger.usedUrls
  have catalog : (buildPages config root (.ofBuild routes store)
      routes.entries).2.catalog.Reachable := catalog_buildPages routes.entries .empty
  rw [pagesBuilt] at catalog
  have routesApart : (pages.map Page.route).Nodup := by
    rw [routes_of_buildPages pagesBuilt]
    exact nodup_routes (distinct_of_survey found) (registered_of_survey Path.isProper_root
      (fun route proper => proper.extend route) asks found)
  have output : ((ofLedger config pages ledger).paths .output).Nodup ↔
      ¬ (ofLedger config pages ledger).NamesMeet :=
    nodup_output_iff segment routesApart catalog.addressed.distinct catalog.nodup_islands
  refine ⟨static, output, _, MemorySink.writeAll_eq_after _ _, ?_, ?_, ?_, ?_⟩
  · exact (MemorySink.after_perm_iff .static _).mpr static
  · exact length_static _
  · exact (MemorySink.after_perm_iff .output _).trans output
  · exact length_output _

/-- The page, the fragment, the island and the stylesheet of `shopRoutes` have names of their
own, and all of them are there in the end. -/
theorem shopRoutes_artifacts_apart :
    ∃ site after sink,
      build Config.standard shopRoutes (.ofConfig Config.standard) = (.ok site, after) ∧
      shopRoutes.Asks (.registering Path.IsProper) ∧ ¬ site.NamesMeet ∧
      writeAll MemorySink.write .empty site.artifacts = (.ok (), sink) ∧
      sink.output.length = 5 ∧ sink.static.length = 1 := by
  have computed : (build Config.standard shopRoutes (.ofConfig Config.standard)).1.toOption.map
      (fun site => (decide (site.paths .output).Nodup,
        2 * site.pages.length + 2 * site.fragments.length + site.islands.length,
          site.assets.length)) = some (true, 5, 1) := by decide +kernel
  obtain ⟨site, after, built, read⟩ := exists_site_of_computed computed
  simp only [Prod.mk.injEq, decide_eq_true_eq] at read
  obtain ⟨distinct, outputs, statics⟩ := read
  have asks : shopRoutes.Asks (.registering Path.IsProper) := by
    simp [shopRoutes, View.Asks, View.AllAsk, View.ofRef]
  obtain ⟨-, apart, sink, written, static, staticLength, output, outputLength⟩ :=
    artifacts_apart_unless_names_meet Config.standard shopRoutes (.ofConfig Config.standard)
      after site (.ofConfig Config.standard) asks built
  have names := apart.mp distinct
  refine ⟨site, after, sink, built, asks, names, written, ?_, ?_⟩
  · rw [(output.mpr names).length_eq, outputLength, outputs]
  · rw [static.length_eq, staticLength, statics]

/-- A page under the name that the record of its island gets. -/
def cartRoutes : View :=
  .switch "main" []
    [.route "__islands/cart" "Cart"
      [.remote
        { kind := .single, resource := "cart", loading := .standard, island := some "cart" }
        .ofRef .blank]]

/-- The record of the island replaces the record of the page. -/
theorem cartRoutes_record_replaced :
    ∃ site after sink,
      build Config.standard cartRoutes (.ofConfig Config.standard) = (.ok site, after) ∧
      writeAll MemorySink.write .empty site.artifacts = (.ok (), sink) ∧
      ¬ (site.paths .output).Nodup ∧
      2 * site.pages.length + 2 * site.fragments.length + site.islands.length = 5 ∧
      sink.output.length = 4 := by
  have computed : (build Config.standard cartRoutes (.ofConfig Config.standard)).1.toOption.map
      (fun site => (decide (site.paths .output).Nodup,
        2 * site.pages.length + 2 * site.fragments.length + site.islands.length,
          (MemorySink.empty.after site.artifacts).output.length)) = some (false, 5, 4) := by
    decide +kernel
  obtain ⟨site, after, built, read⟩ := exists_site_of_computed computed
  simp only [Prod.mk.injEq, decide_eq_false_iff_not] at read
  obtain ⟨twice, outputs, kept⟩ := read
  exact ⟨site, after, _, built, MemorySink.writeAll_eq_after _ _, twice, outputs, kept⟩

end Site

end Sitewright

import Sitewright.Proofs.Json.Members
import Sitewright.Proofs.Render.Notes
import Sitewright.Proofs.Site.Hosts
import Sitewright.Proofs.Site.Pages

/-!
Contract: what the record beside a page says, and when it can be read.

The record has two members of its own, whether the page needs resources and which ones, and behind
them all that was noted about the page, as it is. Nothing keeps the page from being noted something
under a key of the record's own.

Owns:
- `PageSidecar.Tells`, a record that says what was remarked about the page;
- `Site.Remarked`, the remarks in the course of a page;
- `Site.records_tell_unless_reserved`: records tell exactly if no key of their own is noted.

Does not own: the text that the record is written as.
-/

namespace Sitewright

open Routing

/-! ## Records -/

namespace Remark

/-- The value noted last under the key. -/
def last? (key : String) (remarks : List Remark) : Option Json :=
  (Json.object (members remarks).reverse).get? key

/-- The resources that the page needs, each at its first mention. -/
def requirements (remarks : List Remark) : List Requirement :=
  (resources remarks).eraseDups.map .ofResource

theorem requirements_eq_nil_iff {remarks : List Remark} :
    requirements remarks = [] ↔ resources remarks = [] := by
  unfold requirements
  cases resources remarks with
  | nil => simp
  | cons first rest => simp [List.eraseDups_cons]

end Remark

namespace PageNotes

theorem requirements_of_remarks (remarks : List Remark) :
    (empty.takeAll remarks).requirements = Remark.requirements remarks := by
  rw [requirements_takeAll, Remark.requirements, ← addAll_id_nil]
  exact addAll_map (fun _ => rfl) [] _

theorem metadata_of_remarks (remarks : List Remark) :
    (empty.takeAll remarks).metadata = Json.sortMembers (Remark.members remarks) :=
  metadata_takeAll empty remarks

end PageNotes

namespace PageSidecar

/-- The record says what was remarked about the page: its keys are all different, it says whether
the page needs resources, lists them exactly if it does, each at its first mention, and has the last
value under every key that was noted. -/
structure Tells (sidecar : PageSidecar) (remarks : List Remark) : Prop where
  distinct : (sidecar.members.map Prod.fst).Nodup
  dynamic : sidecar.toJson.get? "isDynamic" = some (.bool (Remark.resources remarks ≠ []))
  resources : sidecar.toJson.get? "resources" =
    if Remark.resources remarks = [] then none
    else some (.array ((Remark.requirements remarks).map Requirement.toJson))
  noted : ∀ key ∈ (Remark.members remarks).map Prod.fst,
    sidecar.toJson.get? key = Remark.last? key remarks

end PageSidecar

/-! ## Members of the record -/

namespace Remark

/-- The members of the record that are not noted. -/
def own (remarks : List Remark) : List (String × Json) :=
  ("isDynamic", .bool (resources remarks ≠ [])) ::
    if resources remarks = [] then []
    else [("resources", .array ((requirements remarks).map Requirement.toJson))]

/-- Nothing is noted under a key of the record's own. -/
def Unreserved (remarks : List Remark) : Prop :=
  ∀ key ∈ (members remarks).map Prod.fst, key ≠ "isDynamic" ∧ key ≠ "resources"

variable {remarks : List Remark}

theorem nodup_own (remarks : List Remark) : ((own remarks).map Prod.fst).Nodup := by
  unfold own
  split <;> simp

theorem Unreserved.notMem_own (unreserved : Unreserved remarks) {key : String}
    (noted : key ∈ (members remarks).map Prod.fst) : key ∉ (own remarks).map Prod.fst := by
  obtain ⟨notDynamic, notResources⟩ := unreserved key noted
  unfold own
  split <;> simp [notDynamic, notResources]

theorem get?_own_isDynamic (remarks : List Remark) :
    (Json.object (own remarks)).get? "isDynamic" = some (.bool (resources remarks ≠ [])) := by
  simp [own, Json.get?]

theorem get?_own_resources (remarks : List Remark) :
    (Json.object (own remarks)).get? "resources" =
      if resources remarks = [] then none
      else some (.array ((requirements remarks).map Requirement.toJson)) := by
  unfold own
  split <;> simp [Json.get?]

theorem last?_eq_none_iff {key : String} :
    last? key remarks = none ↔ key ∉ (members remarks).map Prod.fst := by
  rw [last?, Json.get?_object_eq_none_iff, List.map_reverse, List.mem_reverse]

end Remark

namespace Page

/-- The page holds what was remarked about it. -/
structure Holds (page : Page) (remarks : List Remark) : Prop where
  requirements : page.requirements = Remark.requirements remarks
  metadata : page.metadata = Json.sortMembers (Remark.members remarks)

variable {page : Page} {remarks : List Remark} (holds : page.Holds remarks)

include holds

theorem Holds.members_eq :
    page.sidecar.members = Remark.own remarks ++ Json.sortMembers (Remark.members remarks) := by
  by_cases static : Remark.resources remarks = []
  · have isStatic : page.requirements = [] :=
      holds.requirements.trans (Remark.requirements_eq_nil_iff.mpr static)
    simp [PageSidecar.members, sidecar, isDynamic, Remark.own, isStatic, static, holds.metadata]
  · have dynamic : Remark.requirements remarks ≠ [] := mt Remark.requirements_eq_nil_iff.mp static
    simp [PageSidecar.members, sidecar, isDynamic, Remark.own, static, dynamic, holds.metadata,
      holds.requirements]

/-- A key of the record's own leads to that member, and any other one to what was noted last. -/
theorem Holds.get?_eq (key : String) :
    page.sidecar.toJson.get? key =
      ((Json.object (Remark.own remarks)).get? key).or (Remark.last? key remarks) := by
  unfold PageSidecar.toJson Remark.last?
  rw [holds.members_eq, Json.get?_append_sortMembers]

theorem Holds.distinct_iff :
    (page.sidecar.members.map Prod.fst).Nodup ↔
      ∀ key ∈ (Remark.members remarks).map Prod.fst, key ∉ (Remark.own remarks).map Prod.fst := by
  have sorted := (Json.ascending_sortMembers (Remark.members remarks)).nodup_keys
  rw [holds.members_eq, List.map_append, List.nodup_append']
  constructor
  · rintro ⟨-, -, apart⟩ key noted isOwn
    exact apart isOwn (Json.key_mem_sortMembers.mpr noted)
  · intro apart
    refine ⟨Remark.nodup_own remarks, sorted, fun key isOwn noted => ?_⟩
    exact apart key (Json.key_mem_sortMembers.mp noted) isOwn

theorem Holds.tells (unreserved : Remark.Unreserved remarks) : page.sidecar.Tells remarks where
  distinct := holds.distinct_iff.mpr fun key => unreserved.notMem_own
  dynamic := by
    rw [holds.get?_eq, Remark.get?_own_isDynamic, Option.some_or]
  resources := by
    have absent : Remark.last? "resources" remarks = none :=
      Remark.last?_eq_none_iff.mpr fun noted => (unreserved _ noted).2 rfl
    rw [holds.get?_eq, Remark.get?_own_resources, absent, Option.or_none]
  noted := by
    intro key noted
    rw [holds.get?_eq, Json.get?_object_eq_none_iff.mpr (unreserved.notMem_own noted),
      Option.none_or]

/-- The record tells what was remarked about the page exactly if nothing was noted under a key of
the record's own. -/
theorem Holds.tells_iff : page.sidecar.Tells remarks ↔ Remark.Unreserved remarks := by
  refine ⟨fun tells key noted => ?_, holds.tells⟩
  have apart := holds.distinct_iff.mp tells.distinct
  constructor
  · rintro rfl
    exact apart _ noted (by simp [Remark.own])
  · rintro rfl
    -- On a page without resources, the note takes the place of the member that is missing.
    by_cases static : Remark.resources remarks = []
    · have missing := tells.resources
      rw [if_pos static, holds.get?_eq, Remark.get?_own_resources, if_pos static,
        Option.none_or] at missing
      exact Remark.last?_eq_none_iff.mp missing noted
    · exact apart _ noted (by simp [Remark.own, static])

end Page

/-! ## Pages -/

namespace Site

variable {config : Config} {root : View} {store : Asset.Store}

/-- What is remarked about a page when it is built: by everything that takes place in the course of
its render, the templates of regions included, in the order in which that starts. -/
inductive Remarked (config : Config) (root : View) (store : Asset.Store) (page : Page) :
    List Remark → Prop where
  | course {routes : Table} {start after : Ledger} {route : Entry} {trace : List Stage}
      (found : survey config root = .ok routes)
      (starts : PageStarts config root (.ofBuild routes store) routes.entries start route)
      (built : buildPage config root start route = (.ok page, after))
      (traced : Stage.Trace [pageStage config root start route] trace) :
      Remarked config root store page (trace.flatMap Stage.remarks)

theorem notes_of_buildPage {ledger after : Ledger} {route : Entry} {page : Page}
    (built : buildPage config root ledger route = (.ok page, after)) :
    (⟨page.requirements, page.metadata⟩ : PageNotes) =
      (pageStage config root ledger route).outcome.2.notes := by
  simp only [buildPage] at built
  split at built
  · next html state rendered =>
    obtain ⟨same, -⟩ := Prod.mk.inj built
    obtain rfl := Except.ok.inj same
    exact congrArg (fun outcome => State.notes outcome.2) rendered.symm
  · cases (Prod.mk.inj built).1

theorem Remarked.holds {page : Page} {remarks : List Remark}
    (remarked : Remarked config root store page remarks) : page.Holds remarks := by
  obtain ⟨-, -, built, traced⟩ := remarked
  have notes := (notes_of_buildPage built).trans traced.notes_of_single
  exact ⟨(congrArg PageNotes.requirements notes).trans (PageNotes.requirements_of_remarks _),
    (congrArg PageNotes.metadata notes).trans (PageNotes.metadata_of_remarks _)⟩

/-- Every page of a build that succeeds is remarked about. -/
theorem exists_remarked {site : Site} {after : Asset.Store} {page : Page}
    (built : build config root store = (.ok site, after)) (member : page ∈ site.pages) :
    ∃ remarks, Remarked config root store page remarks := by
  obtain ⟨routes, pages, ledger, found, pagesBuilt, rfl⟩ := build_eq_ok built
  obtain ⟨route, -, start, later, starts, made⟩ := exists_makes_of_mem pagesBuilt member
  obtain ⟨trace, traced⟩ := Stage.exists_trace [pageStage config root start route]
  exact ⟨_, .course found starts made traced⟩

/-- The records beside pages. In a build that succeeds, take any page and all that is remarked about
it: by selected routes with a resource, by redirects and by the requests of components, in order.
The page holds each resource at its first mention, and under every key the value noted last. Its
record is an object with two members of its own, the second one only if resources are needed, and
behind them the notes, their keys ascending. Its keys are all different exactly if no note has the
key of one of those members, and it tells what was remarked exactly if nothing is noted under either
key. -/
theorem records_tell_unless_reserved (config : Config) (root : View) (store after : Asset.Store)
    (site : Site) (built : build config root store = (.ok site, after)) :
    ∀ page ∈ site.pages, (∃ remarks, Remarked config root store page remarks) ∧
      ∀ remarks, Remarked config root store page remarks →
        page.Holds remarks ∧
        page.sidecar.toJson =
          .object (Remark.own remarks ++ Json.sortMembers (Remark.members remarks)) ∧
        Json.Ascending (Json.sortMembers (Remark.members remarks)) ∧
        ((page.sidecar.members.map Prod.fst).Nodup ↔
          ∀ key ∈ (Remark.members remarks).map Prod.fst,
            key ∉ (Remark.own remarks).map Prod.fst) ∧
        (page.sidecar.Tells remarks ↔ Remark.Unreserved remarks) := by
  intro page member
  refine ⟨exists_remarked built member, fun remarks remarked => ?_⟩
  have holds := remarked.holds
  exact ⟨holds, congrArg Json.object holds.members_eq, Json.ascending_sortMembers _,
    holds.distinct_iff, holds.tells_iff⟩

/-- A page with a resource, a component that changes its mind about the author and needs another
resource, and a redirect. -/
def stockNotes : View :=
  .switch "main" [] [.dataRoute "stock" "Stock" "items" fun _ =>
    .group
      [.component "Author" (.ask (.note "author" (.string "Ada")) fun _ =>
        .ask (.resource "prices") fun _ => .ask (.resource "items") fun _ =>
          .ask (.note "author" (.string "Grace")) fun _ => .done .blank),
       .redirect "/sale"]]

/-- The record of the page says all that was remarked about it. -/
theorem stockNotes_told :
    ∃ site after page remarks,
      build .standard stockNotes (.ofConfig .standard) = (.ok site, after) ∧
      page ∈ site.pages ∧ Remarked .standard stockNotes (.ofConfig .standard) page remarks ∧
      page.sidecar.Tells remarks ∧
      page.sidecar.toJson.text = "\x7b\"isDynamic\":true,\"resources\":[" ++
        "\x7b\"key\":\"Items\",\"res\":\"items\"\x7d," ++
        "\x7b\"key\":\"Prices\",\"res\":\"prices\"\x7d]," ++
        "\"author\":\"Grace\",\"redirectUrl\":\"/sale\",\"shouldRedirect\":true\x7d" := by
  have computed : (build .standard stockNotes (.ofConfig .standard)).1.toOption.map
      (fun site => (site.page? "stock").map fun page =>
        (page.metadata.map Prod.fst, page.sidecar.toJson.text)) =
      some (some (["author", "redirectUrl", "shouldRedirect"],
        "\x7b\"isDynamic\":true,\"resources\":[" ++
        "\x7b\"key\":\"Items\",\"res\":\"items\"\x7d," ++
        "\x7b\"key\":\"Prices\",\"res\":\"prices\"\x7d]," ++
        "\"author\":\"Grace\",\"redirectUrl\":\"/sale\",\"shouldRedirect\":true\x7d")) := by
    decide +kernel
  obtain ⟨site, after, page, built, member, -, shown⟩ := exists_page_of_computed computed
  obtain ⟨keys, text⟩ := Prod.mk.inj shown
  obtain ⟨⟨remarks, remarked⟩, records⟩ :=
    records_tell_unless_reserved .standard stockNotes (.ofConfig .standard) after site built page
      member
  obtain ⟨holds, -, -, -, tells⟩ := records remarks remarked
  refine ⟨site, after, page, remarks, built, member, remarked, tells.mpr ?_, text⟩
  intro key noted
  have sorted := Json.key_mem_sortMembers.mpr noted
  rw [← holds.metadata, keys] at sorted
  constructor
  all_goals
    rintro rfl
    exact absurd sorted (by decide)

/-- A page without resources that is noted something. -/
def aboutNotes (key : String) (value : Json) : View :=
  .switch "main" [] [.route "about" "About"
    [.component "Notes" (.ask (.note key value) fun _ => .done .blank)]]

/-- A record in which a key stands twice, which cannot be read again, and the record of a page
without resources that lists resources. -/
theorem aboutNotes_not_told :
    (∃ site after page,
      build .standard (aboutNotes "isDynamic" (.bool false)) (.ofConfig .standard) =
        (.ok site, after) ∧
      page ∈ site.pages ∧
      page.sidecar.toJson.text = "\x7b\"isDynamic\":false,\"isDynamic\":false\x7d" ∧
      ¬ (page.sidecar.members.map Prod.fst).Nodup ∧
      ((JsonSyntax.ofText? page.sidecar.toJson.text).bind PageSidecar.ofSyntax?).isNone = true) ∧
    (∃ site after page,
      build .standard (aboutNotes "resources" (.array [])) (.ofConfig .standard) =
        (.ok site, after) ∧
      page ∈ site.pages ∧ page.isDynamic = false ∧
      (page.sidecar.toJson.get? "resources").isSome = true) ∧
    ¬ ∀ (config : Config) (root : View) (store after : Asset.Store) (site : Site),
      build config root store = (.ok site, after) → ∀ page ∈ site.pages,
        (page.sidecar.members.map Prod.fst).Nodup := by
  have twice : (build .standard (aboutNotes "isDynamic" (.bool false))
      (.ofConfig .standard)).1.toOption.map
        (fun site => (site.page? "about").map fun page =>
          (page.sidecar.members.map Prod.fst, page.sidecar.toJson.text)) =
      some (some (["isDynamic", "isDynamic"],
        "\x7b\"isDynamic\":false,\"isDynamic\":false\x7d")) := by decide +kernel
  have listed : (build .standard (aboutNotes "resources" (.array []))
      (.ofConfig .standard)).1.toOption.map
        (fun site => (site.page? "about").map fun page =>
          (page.isDynamic, (page.sidecar.toJson.get? "resources").isSome)) =
      some (some (false, true)) := by decide +kernel
  obtain ⟨site, after, page, built, member, -, shown⟩ := exists_page_of_computed twice
  obtain ⟨keys, text⟩ := Prod.mk.inj shown
  have repeated : ¬ (page.sidecar.members.map Prod.fst).Nodup := by
    rw [keys]
    decide
  refine ⟨⟨site, after, page, built, member, text, repeated, ?_⟩, ?_, fun distinct => ?_⟩
  · rw [text]
    decide +kernel
  · obtain ⟨other, later, static, builtToo, inSite, -, shownToo⟩ := exists_page_of_computed listed
    obtain ⟨isStatic, isListed⟩ := Prod.mk.inj shownToo
    exact ⟨other, later, static, builtToo, inSite, isStatic, isListed⟩
  · exact repeated (distinct _ _ _ _ _ built page member)

end Site

end Sitewright

import Sitewright.Proofs.Site.PageData
import Sitewright.Proofs.Site.Pages

/-!
Contract: under which keys the resources of a page are exposed.

A page lists every resource that it needs once. Its key is made of the letters of its name, so
what else stands in the name is lost: resources with the same letters share a key, and one
without letters has the empty key, whose path is the whole data.

Owns:
- which names have the same key;
- requirements that are listed once;
- `Page.NamesOnly`, for a path that leads to a single resource of the page;
- the keys on the pages of a build, and the paths that callbacks of routes are given.

Does not own: what the path means inside of loops.
-/

namespace Sitewright

open Template Routing Relation

/-! ## Keys -/

/-- The letters in the name of a resource. -/
def resourceLetters (resource : String) : List Char :=
  resource.toList.filter isAsciiLetter

/-- Two names have the same letters, whatever the case of the first one is. -/
def SameLetters (resource other : String) : Prop :=
  (resourceLetters resource).head?.map Char.toUpper =
      (resourceLetters other).head?.map Char.toUpper ∧
    (resourceLetters resource).tail = (resourceLetters other).tail

instance (resource other : String) : Decidable (SameLetters resource other) :=
  inferInstanceAs (Decidable (_ ∧ _))

theorem SameLetters.refl (resource : String) : SameLetters resource resource :=
  ⟨rfl, rfl⟩

/-- The characters of a key. -/
theorem toList_resourceKey (resource : String) :
    (resourceKey resource).toList =
      ((resourceLetters resource).head?.map Char.toUpper).toList ++
        (resourceLetters resource).tail := by
  unfold resourceKey resourceLetters
  split
  · next none => simp [none]
  · next first rest some => simp [some]

theorem resourceKey_eq_iff {resource other : String} :
    resourceKey resource = resourceKey other ↔ SameLetters resource other := by
  rw [← String.toList_inj, toList_resourceKey, toList_resourceKey, SameLetters]
  rcases resourceLetters resource with _ | ⟨first, rest⟩ <;>
    rcases resourceLetters other with _ | ⟨otherFirst, otherRest⟩ <;> simp

theorem resourceKey_eq_empty_iff {resource : String} :
    resourceKey resource = "" ↔ resourceLetters resource = [] := by
  rw [← String.toList_inj, toList_resourceKey]
  rcases resourceLetters resource with _ | ⟨first, rest⟩ <;> simp

/-! ## Notes -/

section Notes

/-- No resource is listed twice. -/
def PageNotes.Single (notes : PageNotes) : Prop :=
  (notes.requirements.map Requirement.resource).Nodup

theorem PageNotes.Single.require {notes : PageNotes} (single : notes.Single) (resource : String) :
    (notes.require resource).Single := by
  rw [PageNotes.require_eq]
  exact nodup_addNew single _

theorem Ledger.Steps.single {config : Config} {pass : Pass} {free : Prop} {before after : Ledger}
    (steps : Ledger.Steps config pass free before after) (single : before.notes.Single) :
    after.notes.Single := by
  induction steps with
  | refl => exact single
  | tail _ step inductionHypothesis =>
      rcases step.notes with same | ⟨resource, required⟩ | ⟨key, value, noted⟩
      · rw [same]
        exact inductionHypothesis
      · rw [required]
        exact inductionHypothesis.require resource
      · rw [noted]
        exact inductionHypothesis

end Notes

/-! ## Pages -/

namespace Page

/-- The path leads to the resource in the data of the page. -/
def Names (page : Page) (path : DataRef) (resource : String) : Prop :=
  ∃ requirement ∈ page.requirements, requirement.resource = resource ∧
    path = ⟨"." ++ requirement.key⟩

/-- The path leads to this resource and to nothing else, neither to another resource nor to the
whole data. -/
structure NamesOnly (page : Page) (path : DataRef) (resource : String) : Prop where
  part : path ≠ ⟨"."⟩
  only : ∀ other, page.Names path other ↔ other = resource

/-- Each resource of the page is listed once, under its own key. -/
structure Listed (page : Page) : Prop where
  single : (page.requirements.map Requirement.resource).Nodup
  keyed : ∀ requirement ∈ page.requirements, requirement = .ofResource requirement.resource

variable {page : Page}

/-- The keys of the page differ exactly if the letters of its resources do. -/
theorem Listed.nodup_keys_iff (listed : page.Listed) :
    (page.requirements.map Requirement.key).Nodup ↔
      page.requirements.Pairwise fun requirement other =>
        ¬ SameLetters requirement.resource other.resource := by
  unfold List.Nodup
  rw [List.pairwise_map]
  refine List.Pairwise.iff_of_mem fun {requirement other} member otherMember => ?_
  rw [listed.keyed requirement member, listed.keyed other otherMember]
  exact not_congr resourceKey_eq_iff

theorem Listed.no_empty_key_iff (listed : page.Listed) :
    "" ∉ page.requirements.map Requirement.key ↔
      ∀ requirement ∈ page.requirements, resourceLetters requirement.resource ≠ [] := by
  have same : ∀ requirement ∈ page.requirements,
      (requirement.key = "" ↔ resourceLetters requirement.resource = []) := by
    intro requirement member
    rw [listed.keyed requirement member]
    exact resourceKey_eq_empty_iff
  constructor
  · intro absent requirement member none
    exact absent (List.mem_map.mpr ⟨requirement, member, (same requirement member).mpr none⟩)
  · intro spelled empty
    obtain ⟨requirement, member, isEmpty⟩ := List.mem_map.mp empty
    exact spelled requirement member ((same requirement member).mp isEmpty)

theorem Listed.names_iff (listed : page.Listed) {resource other : String} :
    page.Names (.ofResource resource) other ↔
      .ofResource other ∈ page.requirements ∧ SameLetters other resource := by
  constructor
  · rintro ⟨requirement, member, rfl, path⟩
    have isOwn := listed.keyed requirement member
    refine ⟨isOwn ▸ member, resourceKey_eq_iff.mp ?_⟩
    rw [isOwn] at path
    exact ((String.append_right_inj _).mp (DataRef.mk.inj path)).symm
  · rintro ⟨member, letters⟩
    exact ⟨_, member, rfl, congrArg (fun key => DataRef.mk ("." ++ key))
      (resourceKey_eq_iff.mpr letters).symm⟩

/-- The path of a listed resource leads to nothing else exactly if its name has a letter and
no other resource of the page has the same letters. -/
theorem Listed.namesOnly_iff (listed : page.Listed) {resource : String}
    (needed : .ofResource resource ∈ page.requirements) :
    page.NamesOnly (.ofResource resource) resource ↔
      resourceLetters resource ≠ [] ∧ ∀ requirement ∈ page.requirements,
        SameLetters requirement.resource resource → requirement.resource = resource := by
  have part : DataRef.ofResource resource ≠ ⟨"."⟩ ↔ resourceLetters resource ≠ [] := by
    refine not_congr (Iff.trans ?_ resourceKey_eq_empty_iff)
    rw [DataRef.ofResource, DataRef.mk.injEq]
    exact String.append_eq_left_iff
  constructor
  · rintro ⟨isPart, only⟩
    refine ⟨part.mp isPart, fun requirement member letters => (only _).mp ?_⟩
    exact listed.names_iff.mpr ⟨listed.keyed requirement member ▸ member, letters⟩
  · rintro ⟨spelled, only⟩
    refine ⟨part.mpr spelled, fun other => ⟨fun named => ?_, ?_⟩⟩
    · obtain ⟨member, letters⟩ := listed.names_iff.mp named
      exact only _ member letters
    · rintro rfl
      exact listed.names_iff.mpr ⟨needed, .refl other⟩

end Page

namespace Site

variable {config : Config} {root : View} {store : Asset.Store}

/-- Each page lists its resources once and under their own keys. -/
theorem listed_of_mem {final : Ledger} {routes : Table} {pages : List Page} {page : Page}
    (built : buildPages config root (.ofBuild routes store) routes.entries = (.ok pages, final))
    (member : page ∈ pages) : page.Listed := by
  obtain ⟨route, -, start, after, -, made⟩ := exists_makes_of_mem built member
  obtain ⟨-, -, requirements⟩ := page_of_buildPage made
  have steps : Ledger.Steps config .build True start.nextPage
      (pageStage config root start route).outcome.2.ledger :=
    View.render_steps root { config, pass := .build, scope := .page route.path route.title }
      start.nextPage
  have keyed : start.nextPage.notes.Keyed := by
    simp [PageNotes.Keyed, Ledger.nextPage, PageNotes.empty]
  constructor
  · rw [requirements]
    exact steps.single List.nodup_nil
  · rw [requirements]
    exact steps.notes.2 keyed

/-- Keys and paths of page data. In every build that succeeds, each page lists every resource
that it needs once, under the key of its name. The keys on the page are different exactly if the
letters of the resources are, up to the case of the first ones, and none is empty exactly if
every resource has a letter. A route with a resource that is selected in the course of a page
has its resource listed there, and its callback is given a dot and the key. This path leads to
the resource alone exactly if the resource has a letter and no other one on the page has the
same letters. -/
theorem page_keys_tell_letters (config : Config) (root : View) (store after : Asset.Store)
    (site : Site) (built : build config root store = (.ok site, after)) :
    (∀ page ∈ site.pages,
      (page.requirements.map Requirement.resource).Nodup ∧
      (∀ requirement ∈ page.requirements, requirement = .ofResource requirement.resource) ∧
      ((page.requirements.map Requirement.key).Nodup ↔
        page.requirements.Pairwise fun requirement other =>
          ¬ SameLetters requirement.resource other.resource) ∧
      ("" ∉ page.requirements.map Requirement.key ↔
        ∀ requirement ∈ page.requirements, resourceLetters requirement.resource ≠ [])) ∧
    ∀ route path title resource body setting state,
      OnPage config root store route
        ⟨.view (.dataRoute path title resource body), setting, state⟩ →
      setting.scope.selects path = true →
      ∃ page ∈ site.pages, page.route = route.path.text ∧
        .ofResource resource ∈ page.requirements ∧
        (∃ callback, Stage.Inner ⟨.view (.dataRoute path title resource body), setting, state⟩
            callback ∧ callback.task = .view (body (.ofResource resource))) ∧
        (page.NamesOnly (.ofResource resource) resource ↔
          resourceLetters resource ≠ [] ∧ ∀ requirement ∈ page.requirements,
            SameLetters requirement.resource resource → requirement.resource = resource) := by
  obtain ⟨routes, pages, ledger, found, pagesBuilt, rfl⟩ := build_eq_ok built
  have listed : ∀ page ∈ pages, page.Listed := fun page => listed_of_mem pagesBuilt
  refine ⟨fun page member => ?_, ?_⟩
  · have isListed := listed page member
    exact ⟨isListed.single, isListed.keyed, isListed.nodup_keys_iff, isListed.no_empty_key_iff⟩
  · intro route path title resource body setting state onPage selected
    obtain ⟨start, starts, course⟩ := onPage.course found
    obtain ⟨page, member, sameRoute, -, requirements⟩ := starts.page pagesBuilt
    obtain ⟨later, called, requirement, noted, rfl⟩ :=
      Stage.callback_of_dataRoute selected (onPage.rendered.ends found pagesBuilt)
    have leads := Stage.leads_of_course (course.tail called)
      (State.stepwise_ofLedger True start.nextPage)
    have needed : .ofResource requirement.resource ∈ page.requirements := by
      rw [requirements]
      exact mem_requirements_of_leads leads noted
    exact ⟨page, member, sameRoute, needed, ⟨_, called, rfl⟩,
      (listed page member).namesOnly_iff needed⟩

/-- A user, inside of it a friend, and inside of that a year, each with a resource. -/
def friendRoutes (user friend year : String) : View :=
  .switch "main" [] [.dataRoute "user" "User" user fun person =>
    .group [.ofRef (person.field "name"),
      .switch "inner" [] [.dataRoute "friend" "Friend" friend fun other =>
        .group [.ofRef (other.field "name"),
          .switch "innermost" [] [.dataRoute "year" "Year" year fun past =>
            .ofRef (past.field "name")]]]]]

/-- Two resources of a page are exposed under one key, and one under the empty key. -/
theorem friendRoutes_keys_shared :
    ∃ site after page,
      build .standard (friendRoutes "user-1" "user-2" "2024") (.ofConfig .standard) =
        (.ok site, after) ∧
      page ∈ site.pages ∧ page.route = "user/friend/year" ∧
      page.requirements = [⟨"User", "user-1"⟩, ⟨"User", "user-2"⟩, ⟨"", "2024"⟩] ∧
      ¬ (page.requirements.map Requirement.key).Nodup ∧
      "" ∈ page.requirements.map Requirement.key ∧
      page.Names ⟨".User"⟩ "user-1" ∧ page.Names ⟨".User"⟩ "user-2" ∧
      page.Names ⟨"."⟩ "2024" := by
  have computed : (build .standard (friendRoutes "user-1" "user-2" "2024")
      (.ofConfig .standard)).1.toOption.map
        (fun site => (site.page? "user/friend/year").map Page.requirements) =
      some (some [⟨"User", "user-1"⟩, ⟨"User", "user-2"⟩, ⟨"", "2024"⟩]) := by decide +kernel
  obtain ⟨site, after, built, read⟩ := exists_site_of_computed computed
  obtain ⟨page, found, requirements⟩ := Option.map_eq_some_iff.mp read
  obtain ⟨member, named⟩ := mem_of_page? found
  refine ⟨site, after, page, built, member, named, requirements, ?_, ?_, ?_, ?_, ?_⟩
  · rw [requirements]
    decide
  · rw [requirements]
    decide
  · exact ⟨⟨"User", "user-1"⟩, by simp [requirements], rfl, rfl⟩
  · exact ⟨⟨"User", "user-2"⟩, by simp [requirements], rfl, rfl⟩
  · exact ⟨⟨"", "2024"⟩, by simp [requirements], rfl, rfl⟩

/-- The friend is met on the page of the year. -/
theorem friendRoutes_meets_friend (user friend year : String) (start : Ledger) {route : Entry}
    (path : route.path = ⟨["user", "friend", "year"]⟩) :
    ∃ body setting state,
      ReflTransGen Stage.Inner (pageStage .standard (friendRoutes user friend year) start route)
        ⟨.view (.dataRoute "friend" "Friend" friend body), setting, state⟩ ∧
      setting.scope.selects "friend" = true := by
  obtain ⟨_, name, container⟩ := route
  obtain rfl : _ = (⟨["user", "friend", "year"]⟩ : Path) := path
  exact ⟨_, _, _, .head (.switch [] _ rfl) (.head (.child (.here _ _ _))
    (.head (.dataRoute _ rfl rfl rfl rfl) (.head (.child (.later rfl (.here _ _ _)))
      (.head (.switch [] _ rfl) (.single (.child (.here _ _ _))))))), rfl⟩

/-- With different letters every resource has its own key, and the path that the callback of the
friend is given leads to nothing else. -/
theorem friendRoutes_keys_differ :
    ∃ site after page,
      build .standard (friendRoutes "user" "best-friend" "year") (.ofConfig .standard) =
        (.ok site, after) ∧
      page ∈ site.pages ∧ page.route = "user/friend/year" ∧
      (page.requirements.map Requirement.key).Nodup ∧
      page.NamesOnly ⟨".Bestfriend"⟩ "best-friend" := by
  have computed : (build .standard (friendRoutes "user" "best-friend" "year")
      (.ofConfig .standard)).1.toOption.map
        (fun site => site.pages.map fun page => (page.route, page.requirements)) =
      some [("user", [⟨"User", "user"⟩]),
        ("user/friend", [⟨"User", "user"⟩, ⟨"Bestfriend", "best-friend"⟩]),
        ("user/friend/year",
          [⟨"User", "user"⟩, ⟨"Bestfriend", "best-friend"⟩, ⟨"Year", "year"⟩])] := by
    decide +kernel
  have paths : (survey .standard (friendRoutes "user" "best-friend" "year")).toOption.map
      (fun routes => routes.entries.map Entry.path) =
        some [⟨["user"]⟩, ⟨["user", "friend"]⟩, ⟨["user", "friend", "year"]⟩] := by decide +kernel
  obtain ⟨site, after, built, read⟩ := exists_site_of_computed computed
  obtain ⟨keys, callbacks⟩ := page_keys_tell_letters .standard _ (.ofConfig .standard) after site
    built
  obtain ⟨routes, pages, ledger, found, pagesBuilt, rfl⟩ := build_eq_ok built
  rw [found] at paths
  have listed : routes.entries.map Entry.path =
      [⟨["user"]⟩, ⟨["user", "friend"]⟩, ⟨["user", "friend", "year"]⟩] := Option.some.inj paths
  obtain ⟨route, member, path⟩ :
      ∃ route ∈ routes.entries, route.path = ⟨["user", "friend", "year"]⟩ :=
    List.mem_map.mp (by simp [listed])
  obtain ⟨start, starts⟩ := PageStarts.of_mem pagesBuilt member
  obtain ⟨body, setting, state, course, selected⟩ :=
    friendRoutes_meets_friend "user" "best-friend" "year" start path
  obtain ⟨page, inSite, named, -, -, names⟩ := callbacks route "friend" "Friend" "best-friend"
    body setting state ⟨routes, start, found, starts, course⟩ selected
  rw [path] at named
  have requirements : page.requirements =
      [⟨"User", "user"⟩, ⟨"Bestfriend", "best-friend"⟩, ⟨"Year", "year"⟩] := by
    have inList := List.mem_map_of_mem (f := fun page => (page.route, page.requirements)) inSite
    rw [read, named] at inList
    simpa [Path.text, Text.joinWith] using inList
  obtain ⟨-, -, different, -⟩ := keys page inSite
  refine ⟨_, after, page, built, inSite, named, different.mpr ?_, names.mpr ⟨by decide, ?_⟩⟩
  · rw [requirements]
    decide
  · rw [requirements]
    decide

end Site

end Sitewright

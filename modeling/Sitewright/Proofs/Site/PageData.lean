import Sitewright.Proofs.Render.Notes
import Sitewright.Proofs.Render.Position
import Sitewright.Proofs.Site.Blocks
import Sitewright.Proofs.Site.Hosts

/-!
Contract: where the callback of a route reaches the data of its page.

The callback is given a path that begins with a dot. The page notes the key behind the dot,
and the server puts the resource under that key of the data. But the dot is the data outside
of all loops only: inside of a loop the same path is looked up in the current element.

Owns:
- requirements that stay noted until the end of a page;
- the callback of a selected route, and the path that it is given;
- which uses of that path, or of its fields, reach the data of the page.

Does not own: templates of regions, whose data is that of the region.
-/

namespace Sitewright

open Text Template Routing

theorem Template.DataRef.relative_ofResource (resource : String) :
    (ofResource resource).Relative :=
  ⟨(resourceKey resource).toList, String.toList_append⟩

/-! ## Notes -/

section Notes

/-- Every resource is noted under its own key. -/
def PageNotes.Keyed (notes : PageNotes) : Prop :=
  ∀ requirement ∈ notes.requirements, requirement = .ofResource requirement.resource

theorem PageNotes.subset_require (notes : PageNotes) (resource : String) :
    notes.requirements ⊆ (notes.require resource).requirements := by
  rw [require_eq]
  exact (prefix_addNew notes.requirements _).subset

theorem PageNotes.Keyed.require {notes : PageNotes} (keyed : notes.Keyed) (resource : String) :
    (notes.require resource).Keyed := by
  rw [require_eq]
  intro requirement member
  rcases mem_of_mem_addNew member with early | rfl
  · exact keyed requirement early
  · rfl

theorem PageNotes.exists_mem_require (notes : PageNotes) (resource : String) :
    ∃ requirement ∈ (notes.require resource).requirements, requirement.resource = resource := by
  rw [require_eq]
  exact List.mem_map.mp (key_mem_addNew.mpr (Or.inr rfl))

variable {config : Config} {pass : Pass} {free : Prop} {before after : Ledger}

/-- Notes are written where something is required or noted, and nowhere else. -/
theorem Ledger.Step.notes (step : Ledger.Step config pass free before after) :
    after.notes = before.notes ∨ (∃ resource, after.notes = before.notes.require resource) ∨
      ∃ key value, after.notes = before.notes.note key value := by
  cases step with
  | require resource => exact .inr (.inl ⟨resource, rfl⟩)
  | note key value => exact .inr (.inr ⟨key, value, rfl⟩)
  | number | collect => exact .inl rfl
  | storeTemplate => exact .inl (Ledger.notes_storeTemplate _ _ _ _)
  | recordIsland => exact .inl (Ledger.notes_recordIsland _ _ _)
  | seeContainer => exact .inl (Ledger.notes_seeContainer _ _ _)
  | addRoute => exact .inl (Ledger.notes_addRoute _ _ _)
  | storeAsset stored => exact .inl (Ledger.notes_storeAsset stored)
  | lookupAsset => exact .inl (Ledger.notes_lookupAsset _ _ _)

/-- What is required stays required, each resource under its own key. -/
theorem Ledger.Steps.notes (steps : Ledger.Steps config pass free before after) :
    before.notes.requirements ⊆ after.notes.requirements ∧
      (before.notes.Keyed → after.notes.Keyed) := by
  induction steps with
  | refl => exact ⟨List.Subset.refl _, id⟩
  | tail _ step inductionHypothesis =>
      obtain ⟨kept, keyed⟩ := inductionHypothesis
      rcases step.notes with same | ⟨resource, required⟩ | ⟨key, value, noted⟩
      · rw [same]
        exact ⟨kept, keyed⟩
      · rw [required]
        exact ⟨List.Subset.trans kept (PageNotes.subset_require _ resource),
          fun began => (keyed began).require resource⟩
      · rw [noted]
        exact ⟨kept, keyed⟩

end Notes

/-! ## Callbacks -/

/-- A route that ends with a text is inside of a router. -/
theorem Render.Ends.container {path title : String} {content : Render String} {setting : Setting}
    {state : State} (ends : (Render.route path title content).Ends setting state) :
    ∃ container, setting.scope.container = some container := by
  obtain ⟨text, final, outcome⟩ := ends
  unfold Render.route at outcome
  rw [setting_bind] at outcome
  cases around : setting.scope.container with
  | none =>
      simp only [around] at outcome
      cases outcome
  | some container => exact ⟨container, rfl⟩

namespace Stage

variable {path title resource : String} {body : DataRef → View} {setting : Setting} {state : State}

/-- A selected route that ends with a text renders what its callback makes of the path to
the resource, which is required by then. -/
theorem callback_of_dataRoute (selected : setting.scope.selects path = true)
    (ends : (View.dataRoute path title resource body).render.Ends setting state) :
    ∃ after, Inner ⟨.view (.dataRoute path title resource body), setting, state⟩
        ⟨.view (body (.ofResource resource)),
          { setting with scope := setting.scope.enter path }, after⟩ ∧
      ∃ requirement ∈ after.ledger.notes.requirements, requirement.resource = resource := by
  obtain ⟨container, inside⟩ := Render.Ends.container ends.within
  exact ⟨_, .dataRoute body inside rfl selected rfl, PageNotes.exists_mem_require _ resource⟩

end Stage

namespace Site

variable {config : Config} {root : View}

/-! ## Pages -/

theorem PageStarts.tidy (free : config.BraceFree) (rootTidy : root.Tidy) {ledger start : Ledger}
    {routes : List Entry} {route : Entry}
    (starts : PageStarts config root ledger routes start route) (tidy : ledger.Tidy) :
    start.Tidy := by
  induction starts with
  | here => exact tidy
  | later built _ inductionHypothesis =>
      exact inductionHypothesis (balanced_buildPage free rootTidy tidy built).2

/-- What is noted before a view is rendered in the course of a page is noted in the end, under
the key of the resource. -/
theorem mem_requirements_of_leads {start : Ledger} {route : Entry} {view : View}
    {setting : Setting} {state : State} {requirement : Requirement}
    (leads : (pageStage config root start route).Leads ⟨.view view, setting, state⟩)
    (noted : requirement ∈ state.ledger.notes.requirements) :
    .ofResource requirement.resource ∈
      (pageStage config root start route).outcome.2.ledger.notes.requirements := by
  have empty : start.nextPage.notes.Keyed := by
    simp [PageNotes.Keyed, Ledger.nextPage, PageNotes.empty]
  have steps := View.render_steps root
    { config, pass := .build, scope := .page route.path route.title } start.nextPage
  have during := (View.render_stepwise view setting state leads.waits).1
  have passed := leads.passes.notes.1 (during.notes.1 noted)
  rw [← steps.notes.2 empty requirement passed]
  exact passed

/-- Page data in loops. In a build of a view whose strings cannot be taken for actions, take
any route with a resource that is selected on a page, inside of so many loops. Its callback
is given the path to the resource, and the page notes the key behind the dot. The text of
every use stands on the page, and wherever an action stands in it, the path and its fields
lead from there to the data of the page if and only if no loop is around the use, be it
around the route or in the callback. -/
theorem page_data_reached_outside_loops (config : Config) (root : View)
    (store after : Asset.Store) (site : Site) (optionsFree : config.BraceFree)
    (reachable : store.Reachable) (addressFree : BraceFree store.staticUrl)
    (directoryFree : BraceFree store.directory) (tidy : root.Tidy)
    (built : build config root store = (.ok site, after)) (routes : Table)
    (found : survey config root = .ok routes) (start : Ledger) (route : Entry)
    (starts : PageStarts config root (.ofBuild routes store) routes.entries start route)
    (path title resource : String) (body : DataRef → View) (setting : Setting) (state : State)
    (outer : Nat)
    (encloses : (pageStage config root start route).Encloses outer
      ⟨.view (.dataRoute path title resource body), setting, state⟩)
    (selected : setting.scope.selects path = true) :
    ∃ page ∈ site.pages, page.route = route.path.text ∧
      .ofResource resource ∈ page.requirements ∧
      ∃ callback : Stage,
        Stage.Inner ⟨.view (.dataRoute path title resource body), setting, state⟩ callback ∧
        callback.task = .view (body (.ofResource resource)) ∧
        ∀ loops use, callback.Encloses loops use → ∃ text front back,
          use.outcome.1 = .ok text ∧ page.html = front ++ text ++ back ∧
          ∀ lead rest, text = lead ++ rest → Balanced lead → ∀ fields : List String,
            (ReachesData (front ++ lead) (fields.foldl DataRef.field (.ofResource resource)) ↔
              outer + loops = 0) := by
  obtain ⟨others, pages, ledger, foundToo, pagesBuilt, rfl⟩ := build_eq_ok built
  obtain rfl := routes_eq_of_found found foundToo
  obtain ⟨page, member, sameRoute, outcome, requirements⟩ := starts.page pagesBuilt
  have began := Ledger.tidy_ofBuild (tidy_of_survey optionsFree tidy found)
    (reachable.tidy addressFree directoryFree)
  have pageTidy : (pageStage config root start route).Tidy :=
    ⟨⟨root, rfl, tidy⟩, ⟨optionsFree, Scope.tidy_page route.path route.title⟩,
      State.tidy_ofLedger (starts.tidy optionsFree tidy began).nextPage⟩
  obtain ⟨-, holds⟩ := encloses.tidy_holds pageTidy
  obtain ⟨content, isContent, -⟩ := holds page.html _ (Prod.ext outcome rfl)
  obtain ⟨later, called, noted⟩ :=
    Stage.callback_of_dataRoute selected ⟨content, _, Prod.ext isContent rfl⟩
  have within := encloses.trans (.part rfl called (.self _))
  refine ⟨page, member, sameRoute, ?_, _, called, rfl, ?_⟩
  · obtain ⟨requirement, known, rfl⟩ := noted
    have leads := within.leads (State.stepwise_ofLedger True start.nextPage)
    rw [requirements]
    exact mem_requirements_of_leads leads known
  · intro loops use inside
    obtain ⟨-, shown⟩ := (within.trans inside).tidy_holds pageTidy
    obtain ⟨text, isText, front, back, shape, enters⟩ := shown page.html _ (Prod.ext outcome rfl)
    refine ⟨text, front, back, isText, shape, ?_⟩
    intro lead rest _ balanced fields
    exact (enters.append balanced.enters).reachesData_iff
      ((DataRef.relative_ofResource resource).fields fields)

/-- The title of items, and the same once more for every item. -/
def titles (items : DataRef) : View :=
  .group [.ofRef (items.field "title"), .loop items fun _ _ => .ofRef (items.field "title")]

/-- A page of items. -/
def titledItems : View :=
  .switch "main" [] [.dataRoute "stock" "Stock" "items" titles]

theorem tidy_titledItems : titledItems.Tidy := by
  have items : BraceFree (DataRef.ofResource "items").name := by decide
  have title : View.Tidy (.ofRef ((DataRef.ofResource "items").field "title")) :=
    View.tidy_ofRef ⟨by decide, by decide⟩
  unfold titledItems
  simp only [titles, View.Tidy, View.AllTidy]
  exact ⟨inert_of_braceFree (by decide), Markup.Attributes.inert_nil,
    ⟨by decide, title, ⟨items, fun _ => title⟩, trivial⟩, trivial⟩

/-- The page of the route has the route outside of all loops. -/
theorem titledItems_encloses (start : Ledger) {route : Entry} (path : route.path = ⟨["stock"]⟩) :
    ∃ setting state, setting.scope.selects "stock" = true ∧
      (pageStage .standard titledItems start route).Encloses 0
        ⟨.view (.dataRoute "stock" "Stock" "items" titles), setting, state⟩ := by
  obtain ⟨_, name, container⟩ := route
  obtain rfl : _ = (⟨["stock"]⟩ : Path) := path
  have entered : Stage.Inner (pageStage .standard titledItems start ⟨⟨["stock"]⟩, name, container⟩)
      ⟨.view (.group [.dataRoute "stock" "Stock" "items" titles]), _, _⟩ := .switch [] _ rfl
  exact ⟨_, _, rfl, .part rfl entered (.part rfl (.child (.here _ _ _)) (.self _))⟩

/-- Both actions of `titledItems` are the same, but only the first one shows the title that
the page has. -/
theorem titledItems_reach_data_once :
    ∃ (site : Site) (after : Asset.Store) (page : Page) (outside inside : String),
      build Config.standard titledItems (.ofConfig Config.standard) = (.ok site, after) ∧
      page ∈ site.pages ∧ page.route = "stock" ∧ .ofResource "items" ∈ page.requirements ∧
      (∃ back, page.html = outside ++ action ".Items.title" ++ back) ∧
      ReachesData outside ⟨".Items.title"⟩ ∧
      (∃ back, page.html = inside ++ action ".Items.title" ++ back) ∧
      ¬ ReachesData inside ⟨".Items.title"⟩ := by
  have paths : (survey .standard titledItems).toOption.map
      (fun routes => routes.entries.map Entry.path) = some [⟨["stock"]⟩] := by decide +kernel
  have succeeds : (build .standard titledItems (.ofConfig .standard)).1.toOption.isSome = true := by
    decide +kernel
  rcases built : build .standard titledItems (.ofConfig .standard) with ⟨fault | site, after⟩
  · rw [built] at succeeds
    cases succeeds
  · obtain ⟨routes, pages, ledger, found, pagesBuilt, -⟩ := build_eq_ok built
    rw [found] at paths
    have listed : routes.entries.map Entry.path = [⟨["stock"]⟩] := Option.some.inj paths
    obtain ⟨route, member, path⟩ : ∃ route ∈ routes.entries, route.path = ⟨["stock"]⟩ :=
      List.mem_map.mp (by simp [listed])
    obtain ⟨start, starts⟩ := PageStarts.of_mem pagesBuilt member
    obtain ⟨setting, state, selected, encloses⟩ := titledItems_encloses start path
    obtain ⟨page, inSite, sameRoute, noted, ⟨_, within, before⟩, -, rfl, uses⟩ :=
      page_data_reached_outside_loops .standard titledItems (.ofConfig .standard) after site
        ⟨by decide, by decide, by decide, by decide⟩ (.ofConfig .standard) (by decide) (by decide)
        tidy_titledItems built routes found start route starts "stock" "Stock" "items" titles
        setting state 0 encloses selected
    obtain ⟨first, outside, outerBack, isFirst, outerShape, outerReaches⟩ :=
      uses 0 _ (.part rfl (.child (.here _ _ _)) (.self _))
    obtain ⟨second, inside, innerBack, isSecond, innerShape, innerReaches⟩ :=
      uses 1 _ (.part rfl (.child (.later rfl (.here _ _ _))) (.loop (.loop _ _ rfl) (.self _)))
    obtain rfl : action ".Items.title" = first := Except.ok.inj isFirst
    obtain rfl : action ".Items.title" = second := Except.ok.inj isSecond
    have empty : Balanced "" := (inert_of_braceFree braceFree_empty).balanced
    have title : ["title"].foldl DataRef.field (.ofResource "items") = ⟨".Items.title"⟩ := rfl
    have reaches := outerReaches "" _ String.empty_append.symm empty ["title"]
    have misses := innerReaches "" _ String.empty_append.symm empty ["title"]
    rw [title, String.append_empty] at reaches misses
    rw [path] at sameRoute
    exact ⟨site, after, page, outside, inside, rfl, inSite, sameRoute, noted,
      ⟨outerBack, outerShape⟩, reaches.mpr rfl, ⟨innerBack, innerShape⟩,
      fun reached => by cases misses.mp reached⟩

end Site

end Sitewright

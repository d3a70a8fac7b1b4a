import Sitewright.Proofs.Render.FormIds
import Sitewright.Proofs.Site.Hosts
import Sitewright.Proofs.Site.Search

/-!
Contract: the documents of a site, and the names of the loops in each of them.

Every page is a document, and so is every search. The template of each region that is met in a
document is one more, which knows nothing of how far its host has counted, and leaves it so.

Owns:
- `Starts`, the renders that builds and searches start, and `Stage.Opens`, the documents that
  come about in their course;
- the numbering of a document at its start, at each of its renders, and at its end;
- the variables that the loops of a document bind.

Does not own: the ids of forms.
-/

namespace Sitewright

open Template Routing Relation

/-! ## Documents -/

namespace Stage

/-- The documents that come about in the course of a render: its own, and the template of each
region that is met in a document, with the resource that it serves. -/
inductive Opens (start : Stage) : Stage → (served : Option String) → Prop where
  | own : Opens start start none
  | template {document host : Stage} {served : Option String} {log : List Stage} {region : Region}
      {template : DataRef → View} {fallback : View} (opens : Opens start document served)
      (logged : Log [document] log) (member : host ∈ log)
      (shown : host.task = .view (.remote region template fallback)) :
      Opens start (host.ofTemplate region template) (some region.resource)

variable {start document : Stage} {served : Option String}

/-- A document counts from the start, whatever has been counted before. -/
theorem Opens.numbering (opens : Opens start document served)
    (began : start.state.numbering = .ofPage) :
    document.state.numbering = .ofServed served := by
  cases opens with
  | own => exact began
  | template => rfl

theorem inner_ofTemplate {host : Stage} {region : Region} {template : DataRef → View}
    {fallback : View} (shown : host.task = .view (.remote region template fallback)) :
    Inner host (host.ofTemplate region template) := by
  obtain ⟨task, setting, state⟩ := host
  obtain rfl : task = .view (.remote region template fallback) := shown
  exact .template setting state region template fallback

theorem Opens.course (opens : Opens start document served) :
    ReflTransGen Inner start document := by
  induction opens with
  | own => exact .refl
  | @template document host served log region template fallback _ logged member shown
      inductionHypothesis =>
      obtain ⟨first, isDocument, course⟩ := logged.course host member
      obtain rfl := List.mem_singleton.mp isDocument
      exact (inductionHypothesis.trans course).tail (inner_ofTemplate shown)

theorem Opens.asks {allowed : Allowance} (opens : Opens start document served)
    (asks : start.task.Asks allowed) : document.task.Asks allowed := by
  induction opens with
  | own => exact asks
  | @template document host served log region template fallback _ logged member shown
      inductionHypothesis =>
      have hostAsks := logged.asks (List.forall_mem_singleton.mpr inductionHypothesis) host member
      rw [shown] at hostAsks
      exact hostAsks.1 .ofFragment

/-- Where components take nothing, only the loops of a document take names. -/
theorem Opens.takesNames_eq (opens : Opens start document served)
    (asks : start.task.Asks Request.TakesNothing) {log : List Stage}
    (logged : Log [document] log) : ∀ stage ∈ log, stage.takesNames = stage.isLoop :=
  fun stage member => takesNames_of_asks
    (logged.asks (List.forall_mem_singleton.mpr (opens.asks asks)) stage member)

/-- When the template of a region is compiled, the host counts on from where it was. -/
theorem numbering_compileTemplate (resource : String) (template : Render String)
    (setting : Setting) (state : State) :
    (Render.compileTemplate resource template setting state).2.numbering = state.numbering :=
  congrArg (fun carried => carried.1.1)
    (Render.carried_compileTemplate resource template setting state rfl)

end Stage

namespace Site

variable {config : Config} {root : View} {store : Asset.Store}

/-- The renders that builds and searches start: those of the pages, and those of the searches. -/
inductive Starts (config : Config) (root : View) (store : Asset.Store) : Stage → Prop where
  | page {routes : Table} {start : Ledger} {route : Entry}
      (found : survey config root = .ok routes)
      (starts : PageStarts config root (.ofBuild routes store) routes.entries start route) :
      Starts config root store (pageStage config root start route)
  | search (known : Table) (selected : Path) :
      Starts config root store (searchStage config root known selected)

theorem Starts.numbering {start : Stage} (starts : Starts config root store start) :
    start.state.numbering = .ofPage := by
  cases starts <;> rfl

theorem Starts.asks {allowed : Allowance} {start : Stage}
    (starts : Starts config root store start) (asks : root.Asks allowed) :
    start.task.Asks allowed := by
  cases starts <;> exact asks

theorem Starts.form {start : Stage} (starts : Starts config root store start) :
    start.setting.scope.form = none := by
  cases starts <;> rfl

/-- If no component takes names of loops or ids of forms for itself, then in every document of
a site - a page, a search, or the template of a region, however deep - each loop binds the two
names that have its place among the loops of the document, in the order in which they are
rendered, and these are four different names for any two of them. A document begins to count
anew and counts nothing but its own renders, among which are the fallbacks of its regions but
not their templates: when one of them is compiled, its host counts on from where it was. -/
theorem loops_bind_names_in_order (asks : root.Asks Request.TakesNothing)
    {start document : Stage} {served : Option String} (starts : Starts config root store start)
    (opens : start.Opens document served) :
    document.state.numbering = .ofServed served ∧
    (∃ log, Stage.Log [document] log) ∧
    ∀ log, Stage.Log [document] log →
      (∀ (place : Nat) (loop : Stage), (log.filter Stage.isLoop)[place]? = some loop →
        loop.Binds ("$_i" ++ toString place) ("$_i" ++ toString place ++ "_key")) ∧
      (∀ (place other : Nat) (first second : Stage), place ≠ other →
        (log.filter Stage.isLoop)[place]? = some first →
        (log.filter Stage.isLoop)[other]? = some second →
        ∃ element position otherElement otherPosition,
          first.Binds element position ∧ second.Binds otherElement otherPosition ∧
            [element, position, otherElement, otherPosition].Nodup) ∧
      (∀ earlier stage later, log = earlier ++ stage :: later →
        stage.state.numbering = Stage.counted (.ofServed served) earlier) ∧
      document.outcome.2.numbering = Stage.counted (.ofServed served) log ∧
      (∀ host ∈ log, ∀ region template fallback,
        host.task = .view (.remote region template fallback) →
          start.Opens (host.ofTemplate region template) (some region.resource) ∧
          (Render.compileTemplate region.resource (template .ofFragment).render host.setting
            host.state).2.numbering = host.state.numbering) := by
  have began : document.state.numbering = .ofServed served := opens.numbering starts.numbering
  refine ⟨began, document.exists_log, fun log logged => ?_⟩
  have binds : ∀ (place : Nat) (loop : Stage), (log.filter Stage.isLoop)[place]? = some loop →
      loop.Binds ("$_i" ++ toString place) ("$_i" ++ toString place ++ "_key") := by
    have alone := opens.takesNames_eq (starts.asks asks) logged
    have zero : document.state.numbering.loops = 0 := by
      rw [began]
      cases served <;> rfl
    exact fun place loop found => logged.binds zero alone found
  refine ⟨binds, ?_, ?_, ?_, ?_⟩
  · intro place other first second different found otherFound
    exact ⟨_, _, _, _, binds place first found, binds other second otherFound,
      nodup_loopNames different⟩
  · rintro earlier stage later rfl
    rw [logged.numbering_eq, began]
  · rw [logged.numbering_final, began]
  · exact fun host member region template fallback shown =>
      ⟨.template opens logged member shown, Stage.numbering_compileTemplate _ _ _ _⟩

/-- A list of items on a page, a cart that lists its own items, and a list of prices. -/
def stockLists : View :=
  .switch "main" []
    [.route "stock" "Stock"
      [.loop ⟨".items"⟩ fun item _ => .element "li" [⟨"title", .ref item⟩] [],
       .remote cartRegion (fun cart => .loop cart fun _ _ => .blank) .blank,
       .loop ⟨".prices"⟩ fun _ _ => .blank]]

/-- The routes of `stockLists`. -/
def stockListsTable : Table :=
  { entries := [⟨⟨["stock"]⟩, "Stock", "main"⟩], topContainer := "main" }

/-- The render of the page with the lists. -/
def stockListsPage : Stage :=
  pageStage .standard stockLists (.ofBuild stockListsTable (.ofConfig .standard))
    ⟨⟨["stock"]⟩, "Stock", "main"⟩

theorem survey_stockLists : survey Config.standard stockLists = .ok stockListsTable :=
  eq_ok_of_toOption (by decide +kernel)

theorem starts_stockListsPage : Starts .standard stockLists (.ofConfig .standard) stockListsPage :=
  .page survey_stockLists (.here _ _ [])

/-- The loops of the page have the numbers 0 and 1, although its cart has one in between. -/
theorem stockLists_bind_names_in_order :
    ∃ log items prices, Stage.Log [stockListsPage] log ∧ log.filter Stage.isLoop = [items, prices] ∧
      items.Binds "$_i0" "$_i0_key" ∧ prices.Binds "$_i1" "$_i1_key" := by
  have asks : stockLists.Asks Request.TakesNothing := by
    simp [stockLists, View.Asks, View.AllAsk]
  obtain ⟨-, ⟨log, logged⟩, all⟩ := loops_bind_names_in_order asks starts_stockListsPage .own
  obtain ⟨binds, -, -, final, -⟩ := all log logged
  have loops : stockListsPage.outcome.2.numbering.loops = 2 := by decide +kernel
  have listed : (log.filter Stage.isLoop).length = 2 := by
    rw [← List.countP_eq_length_filter, ← loops, final]
    refine Eq.trans ?_ (Nat.zero_add _).symm
    refine List.countP_congr fun stage member => ?_
    rw [Stage.Opens.own.takesNames_eq (starts_stockListsPage.asks asks) logged stage member]
  obtain ⟨items, prices, both⟩ := List.length_eq_two.mp listed
  rw [both] at binds
  exact ⟨log, items, prices, logged, both, binds 0 items rfl, binds 1 prices rfl⟩

end Site

end Sitewright

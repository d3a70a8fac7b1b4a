import Sitewright.Proofs.Render.Limit
import Sitewright.Proofs.Render.Step
import Sitewright.Site.Survey

/-!
Contract: a survey searches the root and then every route it finds, once each and
in the order in which the routes were found.

Owns:
- `Progress`, how far a survey is, and `Turn`, one search on the way;
- `Sound`, what holds at every turn: paths searched and paths pending are together
  the root and the paths of all routes known;
- `Ends`, the three ways in which a survey ends;
- what a larger limit of probes changes.

Does not own: which routes a view has.
-/

namespace Sitewright.Site

open Routing Relation

/-- How far a survey is. -/
structure Progress where
  searched : List Path
  /-- Paths still to be searched, the next one first. -/
  pending : List Path
  routes : Table

namespace Progress

/-- Only the root is pending, and no route is known. -/
def start : Progress := ⟨[], [.root], .empty⟩

section Turns

variable (config : Config) (root : View)

/-- One search: the first pending path is searched, and the paths found are pending
behind all others. -/
inductive Turn : Progress → Progress → Prop where
  | search {searched pending found : List Path} {selected : Path} {routes known : Table}
      (allowed : searched.length < config.probeLimit)
      (outcome : search config root routes selected = .ok (known, found)) :
      Turn ⟨searched, selected :: pending, routes⟩
        ⟨searched ++ [selected], pending ++ found, known⟩

/-- A survey gets here. -/
abbrev Reached (progress : Progress) : Prop :=
  ReflTransGen (Turn config root) start progress

/-- The survey ends here, and with this result. -/
inductive Ends : Progress → Except BuildFault Table → Prop where
  | settled (searched : List Path) (routes : Table) : Ends ⟨searched, [], routes⟩ (.ok routes)
  | unsettled {searched : List Path} (selected : Path) (pending : List Path) (routes : Table)
      (spent : searched.length = config.probeLimit) :
      Ends ⟨searched, selected :: pending, routes⟩ (.error (.unsettled config.probeLimit))
  | failed {searched : List Path} {selected : Path} (pending : List Path) {routes : Table}
      {fault : Fault} (allowed : searched.length < config.probeLimit)
      (outcome : search config root routes selected = .error fault) :
      Ends ⟨searched, selected :: pending, routes⟩ (.error (.render fault))

/-- What the survey still does from here on. -/
def rest (progress : Progress) : Except BuildFault Table :=
  searchAll config root config.probeLimit (config.probeLimit - progress.searched.length)
    progress.pending progress.routes

/-- What holds at every turn. -/
structure Sound (progress : Progress) : Prop where
  order : progress.searched ++ progress.pending =
    .root :: progress.routes.entries.map Entry.path
  bounded : progress.searched.length ≤ config.probeLimit
  distinct : progress.routes.Distinct

end Turns

variable {config : Config} {root : View}

/-! ## One turn -/

/-- What a search yields is read off the ledger of its render. -/
theorem search_eq_ok {routes known : Table} {selected : Path} {found : List Path}
    (outcome : search config root routes selected = .ok (known, found)) :
    ∃ text state,
      root.render { config, pass := .search, scope := .probe selected }
          (.ofLedger (.ofSearch config routes)) = (.ok text, state) ∧
        state.ledger.routes = known ∧ state.ledger.found = found := by
  simp only [search] at outcome
  split at outcome
  · next text state rendered =>
    simp only [Except.ok.injEq, Prod.mk.injEq] at outcome
    exact ⟨text, state, rendered, outcome⟩
  · cases outcome

/-- A search is a run of changes of a ledger. -/
theorem steps_of_search {routes known : Table} {selected : Path} {found : List Path}
    (outcome : search config root routes selected = .ok (known, found)) :
    ∃ ledger, Ledger.Steps config .search True (.ofSearch config routes) ledger ∧
      ledger.routes = known ∧ ledger.found = found := by
  obtain ⟨text, state, rendered, results⟩ := search_eq_ok outcome
  have steps := View.render_steps root { config, pass := .search, scope := .probe selected }
    (.ofSearch config routes)
  rw [rendered] at steps
  exact ⟨state.ledger, steps, results⟩

/-- A search adds routes behind the known ones and finds their paths. -/
theorem adds_of_search {routes known : Table} {selected : Path} {found : List Path}
    (outcome : search config root routes selected = .ok (known, found)) :
    ∃ added : List Entry,
      known.entries = routes.entries ++ added ∧ found = added.map Entry.path := by
  obtain ⟨ledger, steps, rfl, rfl⟩ := steps_of_search outcome
  obtain ⟨added, entries, record⟩ := steps.adds
  exact ⟨added, entries, by simpa [Ledger.ofSearch] using record⟩

theorem distinct_of_search {routes known : Table} {selected : Path} {found : List Path}
    (outcome : search config root routes selected = .ok (known, found))
    (distinct : routes.Distinct) : known.Distinct := by
  obtain ⟨ledger, steps, rfl, rfl⟩ := steps_of_search outcome
  exact steps.distinct distinct

/-- A turn does not change what the survey comes to. -/
theorem Turn.rest_eq {before after : Progress} (turn : Turn config root before after) :
    before.rest config root = after.rest config root := by
  obtain @⟨searched, pending, found, selected, routes, known, allowed, outcome⟩ := turn
  obtain ⟨left, enough⟩ : ∃ left, config.probeLimit - searched.length = left + 1 :=
    ⟨config.probeLimit - searched.length - 1, by omega⟩
  have later : config.probeLimit - (searched ++ [selected]).length = left := by
    rw [List.length_append, List.length_singleton]
    omega
  unfold rest
  simp only [enough, later, searchAll, outcome]

theorem Turn.sound {before after : Progress} (turn : Turn config root before after)
    (sound : before.Sound config) : after.Sound config := by
  obtain @⟨searched, pending, found, selected, routes, known, allowed, outcome⟩ := turn
  obtain ⟨added, entries, record⟩ := adds_of_search outcome
  constructor
  · -- The path searched only changes sides; what is found stands behind on both.
    have order : searched ++ selected :: pending = .root :: routes.entries.map Entry.path :=
      sound.order
    show (searched ++ [selected]) ++ (pending ++ found) = .root :: known.entries.map Entry.path
    calc (searched ++ [selected]) ++ (pending ++ found)
        = (searched ++ selected :: pending) ++ found := by simp
      _ = (.root :: routes.entries.map Entry.path) ++ added.map Entry.path := by
          rw [order, record]
      _ = .root :: known.entries.map Entry.path := by
          rw [entries, List.map_append, List.cons_append]
  · show (searched ++ [selected]).length ≤ config.probeLimit
    rw [List.length_append, List.length_singleton]
    omega
  · exact distinct_of_search outcome sound.distinct

/-! ## All turns -/

theorem sound_start : start.Sound config where
  order := rfl
  bounded := Nat.zero_le _
  distinct := Table.distinct_empty

theorem sound_of_reached {progress : Progress} (reached : Reached config root progress) :
    progress.Sound config := by
  induction reached with
  | refl => exact sound_start
  | tail _ turn inductionHypothesis => exact turn.sound inductionHypothesis

theorem survey_eq_rest (describes : root.isBlank = false) {progress : Progress}
    (reached : Reached config root progress) :
    survey config root = progress.rest config root := by
  induction reached with
  | refl => simp [survey, describes, rest, start]
  | tail _ turn inductionHypothesis => rw [inductionHypothesis, turn.rest_eq]

theorem Ends.rest_eq {progress : Progress} {result : Except BuildFault Table}
    (ends : Ends config root progress result) : progress.rest config root = result := by
  cases ends with
  | settled searched routes => simp [rest, searchAll]
  | unsettled selected pending routes spent => simp [rest, spent, searchAll]
  | @failed searched selected pending routes fault allowed outcome =>
      obtain ⟨left, enough⟩ : ∃ left, config.probeLimit - searched.length = left + 1 :=
        ⟨config.probeLimit - searched.length - 1, by omega⟩
      unfold rest
      simp only [enough, searchAll, outcome]

/-- Every survey ends, since each turn uses up one of the probes that are left. -/
theorem exists_ends (config : Config) (root : View) (left : Nat) (progress : Progress)
    (count : progress.searched.length + left = config.probeLimit) :
    ∃ last result, ReflTransGen (Turn config root) progress last ∧
      Ends config root last result := by
  induction left generalizing progress with
  | zero =>
      obtain ⟨searched, pending, routes⟩ := progress
      cases pending with
      | nil => exact ⟨_, _, .refl, .settled searched routes⟩
      | cons selected pending => exact ⟨_, _, .refl, .unsettled selected pending routes count⟩
  | succ left inductionHypothesis =>
      obtain ⟨searched, pending, routes⟩ := progress
      have allowed : searched.length < config.probeLimit := by
        have total : searched.length + (left + 1) = config.probeLimit := count
        omega
      cases pending with
      | nil => exact ⟨_, _, .refl, .settled searched routes⟩
      | cons selected pending =>
          rcases outcome : search config root routes selected with fault | ⟨known, found⟩
          · exact ⟨_, _, .refl, .failed pending allowed outcome⟩
          · have turn : Turn config root ⟨searched, selected :: pending, routes⟩
                ⟨searched ++ [selected], pending ++ found, known⟩ := .search allowed outcome
            obtain ⟨last, result, turns, ends⟩ :=
              inductionHypothesis ⟨searched ++ [selected], pending ++ found, known⟩ (by
                have total : searched.length + (left + 1) = config.probeLimit := count
                rw [List.length_append, List.length_singleton]
                omega)
            exact ⟨last, result, .head turn turns, ends⟩

theorem survey_eq_iff (describes : root.isBlank = false) (result : Except BuildFault Table) :
    survey config root = result ↔
      ∃ progress, Reached config root progress ∧ Ends config root progress result := by
  constructor
  · intro outcome
    obtain ⟨last, found, reached, ends⟩ :=
      exists_ends config root config.probeLimit start (Nat.zero_add _)
    have same : found = result := by
      rw [← ends.rest_eq, ← survey_eq_rest describes reached, outcome]
    exact ⟨last, reached, same ▸ ends⟩
  · rintro ⟨progress, reached, ends⟩
    rw [survey_eq_rest describes reached, ends.rest_eq]

/-- A survey that settles has searched the root and all its routes. -/
theorem reached_of_survey (describes : root.isBlank = false) {routes : Table}
    (settled : survey config root = .ok routes) :
    Reached config root ⟨.root :: routes.entries.map Entry.path, [], routes⟩ := by
  obtain ⟨progress, reached, ends⟩ := (survey_eq_iff describes _).mp settled
  cases ends with
  | settled searched =>
      have order : searched ++ [] = .root :: routes.entries.map Entry.path :=
        (sound_of_reached reached).order
      rwa [← order, List.append_nil]

end Progress

/-- A survey that settles is of a view that describes something. -/
theorem describes_of_survey {config : Config} {root : View} {routes : Table}
    (found : survey config root = .ok routes) : root.isBlank = false := by
  unfold survey at found
  split at found
  · cases found
  · next describes => exact Bool.eq_false_iff.mpr describes

theorem distinct_of_survey {config : Config} {root : View} {routes : Table}
    (found : survey config root = .ok routes) : routes.Distinct :=
  (Progress.sound_of_reached
    (Progress.reached_of_survey (describes_of_survey found) found)).distinct

/-! ## Another limit -/

section Limit

variable {config : Config} {root : View}

theorem search_withLimit (ignores : root.Asks .ignoringLimit) (limit : Nat) (routes : Table)
    (selected : Path) :
    search (config.withLimit limit) root routes selected = search config root routes selected := by
  have same : root.render
      { config := config.withLimit limit, pass := .search, scope := .probe selected }
      (.ofLedger (.ofSearch (config.withLimit limit) routes)) =
        root.render { config, pass := .search, scope := .probe selected }
          (.ofLedger (.ofSearch config routes)) :=
    View.render_withLimit ignores
      { config, pass := .search, scope := .probe selected } limit (.ofSearch config routes)
  simp only [search, same]

/-- A search that settles does so with more probes. -/
theorem searchAll_withLimit (ignores : root.Asks .ignoringLimit) {limit larger probes : Nat}
    {queue : List Path} {routes settled : Table} (extra : Nat)
    (outcome : searchAll config root limit probes queue routes = .ok settled) :
    searchAll (config.withLimit larger) root larger (probes + extra) queue routes =
      .ok settled := by
  induction probes generalizing queue routes with
  | zero =>
      cases queue with
      | nil => simpa [searchAll] using outcome
      | cons selected queue => simp [searchAll] at outcome
  | succ probes inductionHypothesis =>
      cases queue with
      | nil => simpa [searchAll] using outcome
      | cons selected queue =>
          rw [Nat.succ_add]
          simp only [searchAll, search_withLimit ignores] at outcome ⊢
          split at outcome
          · exact inductionHypothesis outcome
          · cases outcome

end Limit

/-- The survey of a view that describes something, turn by turn. At every turn the
paths searched and those pending are the root and the paths of all routes known, in
order, and no two routes match. The survey ends when nothing is pending, when the
probes are spent, or when a search fails; if it settles, it has searched the root
and each of its routes. A view that does not use the limit has the same routes under
every larger one. -/
theorem survey_searches_root_and_routes_in_order (config : Config) (root : View)
    (describes : root.isBlank = false) :
    (∀ progress, Progress.Reached config root progress →
      progress.Sound config ∧ survey config root = progress.rest config root) ∧
    (∀ result, survey config root = result ↔
      ∃ progress, Progress.Reached config root progress ∧
        progress.Ends config root result) ∧
    (∀ routes, survey config root = .ok routes →
      Progress.Reached config root ⟨.root :: routes.entries.map Entry.path, [], routes⟩ ∧
        routes.entries.length + 1 ≤ config.probeLimit) ∧
    (root.Asks .ignoringLimit → ∀ routes limit, config.probeLimit ≤ limit →
      survey config root = .ok routes →
        survey (config.withLimit limit) root = .ok routes) := by
  refine ⟨?_, Progress.survey_eq_iff describes, ?_, ?_⟩
  · intro progress reached
    exact ⟨Progress.sound_of_reached reached, Progress.survey_eq_rest describes reached⟩
  · intro routes settled
    have reached := Progress.reached_of_survey describes settled
    have bounded := (Progress.sound_of_reached reached).bounded
    exact ⟨reached, by simpa using bounded⟩
  · intro ignores routes limit larger settled
    obtain ⟨extra, rfl⟩ := Nat.exists_eq_add_of_le larger
    simp only [survey, describes] at settled ⊢
    exact searchAll_withLimit ignores extra settled

/-- A router with a wildcard route inside of one of its routes. -/
def nestedRoutes : View :=
  .switch "main" []
    [.route "docs" "Docs" [.route ":page" "Page" []], .route "about" "About" []]

/-- The routes of `nestedRoutes`; the inner one is found last. -/
def nestedTable : Table :=
  { entries :=
      [⟨⟨["docs"]⟩, "Docs", "main"⟩,
       ⟨⟨["about"]⟩, "About", "main"⟩,
       ⟨⟨["docs", ":page"]⟩, "Page", "main"⟩]
    topContainer := "main" }

/-- Four probes are enough for three routes, and so are more. -/
theorem nestedRoutes_searched_in_order :
    nestedRoutes.isBlank = false ∧
      Progress.Reached (Config.standard.withLimit 4) nestedRoutes
        ⟨[.root, ⟨["docs"]⟩, ⟨["about"]⟩, ⟨["docs", ":page"]⟩], [], nestedTable⟩ ∧
      survey (Config.standard.withLimit 9) nestedRoutes = .ok nestedTable := by
  have describes : nestedRoutes.isBlank = false := rfl
  have settled : survey (Config.standard.withLimit 4) nestedRoutes = .ok nestedTable :=
    eq_ok_of_toOption (by decide +kernel)
  have ignores : nestedRoutes.Asks .ignoringLimit := by
    simp [nestedRoutes, View.Asks, View.AllAsk]
  obtain ⟨-, -, reached, larger⟩ :=
    survey_searches_root_and_routes_in_order (Config.standard.withLimit 4) nestedRoutes describes
  exact ⟨describes, (reached nestedTable settled).1,
    larger ignores nestedTable 9 (by decide) settled⟩

end Sitewright.Site

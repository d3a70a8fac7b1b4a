import Sitewright.Proofs.Routing.Matching

/-!
Contract: what a table keeps of the calls that are made on it.

A table only ever gets more entries at its end. So what is found in it is found for ever, though
matching is not transitive: the first entry that matches stays the first one.

Owns:
- `Table.Call`, and the table after a sequence of calls;
- `Table.Grows`, which every call and so every sequence of calls keeps;
- the container of the first router, as a function of the calls;
- what is known after any calls, and what stays known.

Does not own: which calls the search of a view makes.
-/

namespace Sitewright.Routing.Table

/-- What is told to a table: a route, or the container of a router. -/
inductive Call where
  | add (entry : Entry)
  | seeContainer (container : String)
deriving DecidableEq, Repr

def Call.container? : Call → Option String
  | .add _ => none
  | .seeContainer container => some container

/-- The table after a call. A route that matches a known one leaves it as it is. -/
def after (table : Table) : Call → Table
  | .add entry => (table.add? entry).getD table
  | .seeContainer container => table.seeContainer container

@[simp] theorem after_add (table : Table) (entry : Entry) :
    table.after (.add entry) = (table.add? entry).getD table :=
  rfl

@[simp] theorem after_seeContainer (table : Table) (container : String) :
    table.after (.seeContainer container) = table.seeContainer container :=
  rfl

/-- The table after several calls, in order. -/
def run (table : Table) (calls : List Call) : Table :=
  calls.foldl after table

theorem run_append (table : Table) (early late : List Call) :
    table.run (early ++ late) = (table.run early).run late := by
  simp only [run, List.foldl_append]

/-! ## Registration -/

variable {table : Table} {entry : Entry}

/-- A route that matches no known one is added at the end. -/
theorem add?_of_unknown
    (unknown : ∀ known ∈ table.entries, known.path.matchesPath entry.path = false) :
    table.add? entry = some { table with entries := table.entries ++ [entry] } := by
  have absent : ¬ table.has entry.path = true := by
    rw [has_iff]
    rintro ⟨known, member, matching⟩
    rw [unknown known member] at matching
    cases matching
  unfold add?
  rw [if_neg absent]

/-- A route that matches a known one is refused. -/
theorem add?_of_known
    (known : ∃ other ∈ table.entries, other.path.matchesPath entry.path = true) :
    table.add? entry = none := by
  unfold add?
  rw [if_pos (has_iff.mpr known)]

theorem known_or_unknown (table : Table) (entry : Entry) :
    (∃ known ∈ table.entries, known.path.matchesPath entry.path = true) ∨
      ∀ known ∈ table.entries, known.path.matchesPath entry.path = false := by
  by_cases known : ∃ other ∈ table.entries, other.path.matchesPath entry.path = true
  · exact .inl known
  · exact .inr fun other member =>
      Bool.eq_false_iff.mpr fun matching => known ⟨other, member, matching⟩

/-- A route that was offered is known. -/
theorem has_after_add (table : Table) (entry : Entry) :
    (table.after (.add entry)).has entry.path = true := by
  rcases table.known_or_unknown entry with known | unknown
  · rw [after_add, add?_of_known known]
    exact has_iff.mpr known
  · rw [after_add, add?_of_unknown unknown]
    refine has_iff.mpr ⟨entry, ?_, Path.matchesPath_self entry.path⟩
    exact List.mem_append_right _ List.mem_cons_self

theorem Distinct.after (distinct : table.Distinct) (call : Call) :
    (table.after call).Distinct := by
  cases call with
  | seeContainer container => exact distinct.seeContainer container
  | add entry =>
      rw [after_add]
      cases added : table.add? entry with
      | none => exact distinct
      | some larger => exact distinct.add? added

theorem Distinct.run (distinct : table.Distinct) (calls : List Call) :
    (table.run calls).Distinct := by
  induction calls generalizing table with
  | nil => exact distinct
  | cons call rest inductionHypothesis => exact inductionHypothesis (distinct.after call)

/-! ## Growth -/

/-- All that a table may do to its entries: get more of them at the end. -/
def Grows (table later : Table) : Prop :=
  table.entries <+: later.entries

theorem grows_after (table : Table) (call : Call) : table.Grows (table.after call) := by
  unfold Grows
  cases call with
  | seeContainer container =>
      exact ⟨[], by rw [after_seeContainer, entries_seeContainer, List.append_nil]⟩
  | add entry =>
      rw [after_add]
      cases added : table.add? entry with
      | none => exact List.prefix_refl _
      | some larger =>
          rw [Option.getD_some, entries_of_add? added]
          exact List.prefix_append _ _

theorem grows_run (table : Table) (calls : List Call) : table.Grows (table.run calls) := by
  induction calls generalizing table with
  | nil => exact List.prefix_refl _
  | cons call rest inductionHypothesis =>
      exact (table.grows_after call).trans (inductionHypothesis (table.after call))

variable {later : Table} {path : Path}

/-- The first entry that matches a path stays the first one. -/
theorem Grows.get? (grows : table.Grows later) (found : table.get? path = some entry) :
    later.get? path = some entry :=
  List.IsPrefix.find?_eq_some grows found

theorem Grows.has (grows : table.Grows later) (known : table.has path = true) :
    later.has path = true := by
  obtain ⟨entry, found⟩ := Option.isSome_iff_exists.mp known
  exact Option.isSome_iff_exists.mpr ⟨entry, grows.get? found⟩

theorem containerOf_of_get? (found : table.get? path = some entry) :
    table.containerOf path = entry.container := by
  unfold containerOf
  rw [found]

/-- What was offered at any time is known afterwards. -/
theorem has_run_of_mem {calls : List Call} (offered : .add entry ∈ calls) :
    (table.run calls).has entry.path = true := by
  obtain ⟨early, late, rfl⟩ := List.append_of_mem offered
  rw [run_append]
  exact (grows_run _ late).has (has_after_add _ entry)

/-! ## Containers -/

/-- The first container that is not empty, or the empty one. -/
def firstContainer (calls : List Call) : String :=
  ((calls.filterMap Call.container?).find? fun container => !container.isEmpty).getD ""

@[simp] theorem topContainer_add? (table : Table) (entry : Entry) :
    ((table.add? entry).getD table).topContainer = table.topContainer := by
  cases added : table.add? entry with
  | none => rfl
  | some larger => rw [Option.getD_some, entries_of_add? added]

/-- The first container is kept. Until there is one, that of the calls decides. -/
theorem topContainer_run (table : Table) (calls : List Call) :
    (table.run calls).topContainer =
      if table.topContainer.isEmpty then firstContainer calls else table.topContainer := by
  induction calls generalizing table with
  | nil =>
      by_cases blank : table.topContainer.isEmpty = true
      · rw [if_pos blank]
        exact String.isEmpty_iff.mp blank
      · rw [if_neg blank]
        rfl
  | cons call rest inductionHypothesis =>
      refine (inductionHypothesis (table.after call)).trans ?_
      cases call with
      | add entry =>
          rw [after_add, topContainer_add?]
          rfl
      | seeContainer container =>
          rw [after_seeContainer, seeContainer]
          by_cases blank : table.topContainer.isEmpty = true
          · rw [if_pos blank, if_pos blank]
            by_cases skipped : container.isEmpty = true
            · simp [firstContainer, Call.container?, skipped]
            · simp [firstContainer, Call.container?, skipped]
          · rw [if_neg blank, if_neg blank, if_neg blank]

/-! ## All that is known -/

/-- After any calls on the empty table, and after any further ones. No two routes match each
other. The routes stay, in their order, at the front. A route is accepted exactly if no known
one matches it, and then it comes at the end; otherwise nothing changes. Every route that was ever
offered stays known, and what is found under a path is found there for ever, so its container is
settled. The top container is the first one that was seen and is not empty. -/
theorem calls_keep_routes (early late : List Call) :
    (empty.run early).Distinct ∧
    (empty.run early).entries <+: (empty.run (early ++ late)).entries ∧
    (∀ entry,
      ((∀ known ∈ (empty.run early).entries, known.path.matchesPath entry.path = false) ∧
        (empty.run early).add? entry = some (empty.run (early ++ [.add entry])) ∧
        (empty.run (early ++ [.add entry])).entries = (empty.run early).entries ++ [entry]) ∨
      ((∃ known ∈ (empty.run early).entries, known.path.matchesPath entry.path = true) ∧
        (empty.run early).add? entry = none ∧
        empty.run (early ++ [.add entry]) = empty.run early)) ∧
    (∀ entry, .add entry ∈ early → (empty.run (early ++ late)).has entry.path = true) ∧
    (∀ path entry, (empty.run early).get? path = some entry →
      (empty.run (early ++ late)).get? path = some entry ∧
      (empty.run early).containerOf path = entry.container ∧
      (empty.run (early ++ late)).containerOf path = entry.container) ∧
    (empty.run early).topContainer = firstContainer early := by
  have grows : (empty.run early).Grows (empty.run (early ++ late)) := by
    rw [run_append]
    exact grows_run _ late
  refine ⟨distinct_empty.run early, grows, fun entry => ?_, fun entry offered => ?_,
    fun path entry found => ?_, ?_⟩
  · have offered : empty.run (early ++ [.add entry]) =
        ((empty.run early).add? entry).getD (empty.run early) := run_append _ early [.add entry]
    rw [offered]
    rcases (empty.run early).known_or_unknown entry with known | unknown
    · have refused := add?_of_known known
      refine .inr ⟨known, refused, ?_⟩
      rw [refused, Option.getD_none]
    · have accepted := add?_of_unknown unknown
      rw [accepted, Option.getD_some]
      exact .inl ⟨unknown, rfl, rfl⟩
  · exact has_run_of_mem (List.mem_append_left late offered)
  · have still := grows.get? found
    exact ⟨still, containerOf_of_get? found, containerOf_of_get? still⟩
  · rw [topContainer_run]
    rfl

/-- A wildcard matches two routes that do not match each other. The first of them answers for it,
also after it was offered itself, and a container without a name is passed over. -/
theorem wildcard_finds_first_route :
    let posts : Entry := ⟨⟨["posts"]⟩, "Posts", "main"⟩
    let users : Entry := ⟨⟨["users"]⟩, "Users", "side"⟩
    let anyone : Entry := ⟨⟨[":name"]⟩, "Anyone", "side"⟩
    let early : List Call :=
      [.add posts, .seeContainer "", .seeContainer "main", .add users, .seeContainer "side"]
    let table := empty.run (early ++ [.add anyone])
    table.entries = [posts, users] ∧ table.get? anyone.path = some posts ∧
      table.containerOf anyone.path = "main" ∧ table.has anyone.path = true ∧
      (empty.run early).topContainer = "main" := by
  intro posts users anyone early table
  obtain ⟨-, -, offers, -, finds, top⟩ := calls_keep_routes early [.add anyone]
  obtain ⟨-, -, -, offered, -, -⟩ := calls_keep_routes (early ++ [.add anyone]) []
  have found : (empty.run early).get? anyone.path = some posts := by decide
  obtain ⟨still, -, container⟩ := finds _ _ found
  refine ⟨?_, still, container, ?_, ?_⟩
  · rcases offers anyone with ⟨unknown, -⟩ | ⟨-, -, unchanged⟩
    · have matching := unknown posts (by decide)
      exact absurd matching (by decide)
    · show (empty.run (early ++ [.add anyone])).entries = [posts, users]
      rw [unchanged]
      decide
  · have known := offered anyone (List.mem_append_right early List.mem_cons_self)
    rwa [List.append_nil] at known
  · rw [top]
    decide

end Sitewright.Routing.Table

import Sitewright.Proofs.Render.Earlier

/-!
Contract: a store that several builds share.

Every build works on the store through a ledger of its own, which notes the addresses that it was
given; others may use the store without any build. Whoever calls, the files are those that the store
was made to keep, and each build can tell which of them are its own.

Owns:
- `SharedStore`, its calls, and what is answered and left behind after a sequence of them;
- `SharedStore.answer_eq`: every answer comes from the store, and the build that called notes it;
- what registration and lookup leave of the store;
- what is known after any calls, and what stays known.

Does not own: which calls a build makes.
-/

namespace Sitewright

/-- What may be asked of a store. -/
inductive Demand where
  | register (contents name : String) (kind : AssetKind)
  | lookup (name : String)
deriving DecidableEq, Repr

/-- What a store makes of a demand: the store afterwards, and an address if there is one. -/
def Demand.meet (store : Asset.Store) : Demand → Except Fault (Asset.Store × Option String)
  | .register contents name kind =>
      (store.register contents name kind).map fun stored => (stored.1, some stored.2)
  | .lookup name => .ok (store, store.lookup? name)

/-- A store, and for each build the addresses that it was given. A build that has not begun was
given none, so builds may begin at any time. -/
structure SharedStore where
  store : Asset.Store
  given : Nat → List String

namespace SharedStore

/-- A demand, made by a build or by nobody in particular. -/
structure Call where
  build : Option Nat
  demand : Demand
deriving DecidableEq, Repr

def ofConfig (config : Config) : SharedStore :=
  ⟨.ofConfig config, fun _ => []⟩

/-- The ledger through which a build works on the store. -/
def ledger (shared : SharedStore) (build : Nat) : Ledger :=
  { Ledger.ofBuild .empty shared.store with usedUrls := shared.given build }

/-- The store after a build went on with its ledger. -/
def withLedger (shared : SharedStore) (build : Nat) (ledger : Ledger) : SharedStore :=
  { store := ledger.assets, given := Function.update shared.given build ledger.usedUrls }

/-- The files of a build. -/
def report (shared : SharedStore) (build : Nat) : List Asset :=
  shared.store.used (shared.given build)

/-- What is left behind by a call, and its answer. -/
def answer (shared : SharedStore) (call : Call) : SharedStore × Except Fault (Option String) :=
  match call.build, call.demand with
  | none, .register contents name kind =>
      match shared.store.register contents name kind with
      | .ok (store, url) => ({ shared with store }, .ok (some url))
      | .error fault => (shared, .error fault)
  | none, .lookup name => (shared, .ok (shared.store.lookup? name))
  | some build, .register contents name kind =>
      match (shared.ledger build).storeAsset .build contents name kind with
      | .ok (ledger, url) => (shared.withLedger build ledger, .ok (some url))
      | .error fault => (shared, .error fault)
  | some build, .lookup name =>
      let found := (shared.ledger build).lookupAsset .build name
      (shared.withLedger build found.1, .ok found.2)

/-- What several calls leave behind, in order. -/
def run (shared : SharedStore) (calls : List Call) : SharedStore :=
  calls.foldl (fun running call => (running.answer call).1) shared

/-- The address that an answer to a call gives to a build, if the build made the call. -/
def Call.receives (call : Call) (answered : Except Fault (Option String)) (build : Nat) :
    List String :=
  match answered with
  | .ok (some url) => if call.build = some build then [url] else []
  | _ => []

/-- The addresses that the calls of a build were answered with, in order. -/
def received (shared : SharedStore) (build : Nat) : List Call → List String
  | [] => []
  | call :: rest =>
      let answered := shared.answer call
      call.receives answered.2 build ++ answered.1.received build rest

/-! ## One call -/

variable {shared : SharedStore} {call : Call}

@[simp] theorem withLedger_ledger (shared : SharedStore) (build : Nat) :
    shared.withLedger build (shared.ledger build) = shared := by
  have kept : Function.update shared.given build (shared.given build) = shared.given :=
    Function.update_eq_self build shared.given
  unfold withLedger ledger Ledger.ofBuild
  rw [kept]

theorem given_withLedger_useUrl (shared : SharedStore) (store : Asset.Store) (build : Nat)
    (demand : Demand) (url : String) :
    shared.withLedger build ({ shared.ledger build with assets := store }.useUrl url) =
      { store, given := fun other => addAll id (shared.given other)
          (Call.receives ⟨some build, demand⟩ (.ok (some url)) other) } := by
  unfold withLedger
  rw [Ledger.useUrl_eq]
  congr 1
  funext other
  by_cases same : other = build
  · subst same
    simp [ledger, Call.receives, addAll]
  · have different : ¬ build = other := fun equal => same equal.symm
    simp [Function.update_of_ne same, Call.receives, addAll, different]

/-- The demand is met by the store alone. The build that called notes the address. -/
theorem answer_eq (shared : SharedStore) (call : Call) :
    shared.answer call =
      match call.demand.meet shared.store with
      | .error fault => (shared, .error fault)
      | .ok (store, answered) =>
          ({ store, given := fun build =>
              addAll id (shared.given build) (call.receives (.ok answered) build) },
            .ok answered) := by
  obtain ⟨build, demand⟩ := call
  cases build with
  | none =>
      cases demand with
      | register contents name kind =>
          simp only [answer, Demand.meet]
          cases shared.store.register contents name kind with
          | error fault => rfl
          | ok stored => simp [Except.map, Call.receives, addAll]
      | lookup name =>
          simp only [answer, Demand.meet]
          cases shared.store.lookup? name <;> simp [Call.receives, addAll]
  | some build =>
      cases demand with
      | register contents name kind =>
          simp only [answer, Demand.meet, Ledger.storeAsset, ledger, Ledger.ofBuild]
          cases shared.store.register contents name kind with
          | error fault => rfl
          | ok stored =>
              exact Prod.ext (given_withLedger_useUrl shared stored.1 build _ stored.2) rfl
      | lookup name =>
          simp only [answer, Demand.meet, Ledger.lookupAsset_build_eq, ledger, Ledger.ofBuild]
          cases shared.store.lookup? name with
          | none => exact Prod.ext (withLedger_ledger shared build) rfl
          | some url =>
              exact Prod.ext (given_withLedger_useUrl shared shared.store build _ url) rfl

/-- A demand that is refused leaves everything as it was. -/
theorem answer_of_error {fault : Fault} (refused : (shared.answer call).2 = .error fault) :
    (shared.answer call).1 = shared := by
  rw [answer_eq] at refused ⊢
  split at refused
  · rfl
  · cases refused

theorem given_answer (shared : SharedStore) (call : Call) (build : Nat) :
    (shared.answer call).1.given build =
      addAll id (shared.given build) (call.receives (shared.answer call).2 build) := by
  rw [answer_eq]
  split <;> rfl

/-- Content with a name is stored and its address is given, whoever asks. -/
theorem answer_register (shared : SharedStore) (build : Option Nat) (contents : String)
    {name : String} (kind : AssetKind) (named : name.isEmpty = false) :
    (shared.answer ⟨build, .register contents name kind⟩).2 =
        .ok (some (shared.store.place contents name kind).url) ∧
      (shared.answer ⟨build, .register contents name kind⟩).1.store =
        shared.store.add (shared.store.place contents name kind) := by
  rw [answer_eq, Demand.meet, Asset.Store.register_of_named _ _ _ named]
  exact ⟨rfl, rfl⟩

theorem answer_unnamed (shared : SharedStore) (build : Option Nat) (contents : String)
    (kind : AssetKind) :
    shared.answer ⟨build, .register contents "" kind⟩ =
      (shared, .error (Asset.Store.unnamed "")) := by
  rw [answer_eq, Demand.meet, Asset.Store.register_unnamed]
  rfl

/-- A lookup is answered by the store and leaves it as it is, whoever asks. -/
theorem answer_lookup (shared : SharedStore) (build : Option Nat) (name : String) :
    (shared.answer ⟨build, .lookup name⟩).2 = .ok (shared.store.lookup? name) ∧
      (shared.answer ⟨build, .lookup name⟩).1.store = shared.store := by
  rw [answer_eq]
  exact ⟨rfl, rfl⟩

/-- What a call does to the store is nothing, or registration. -/
theorem store_answer (shared : SharedStore) (call : Call) :
    (shared.answer call).1.store = shared.store ∨
      ∃ contents name kind url, shared.store.register contents name kind =
        .ok ((shared.answer call).1.store, url) := by
  obtain ⟨build, demand⟩ := call
  cases demand with
  | lookup name => exact Or.inl (shared.answer_lookup build name).2
  | register contents name kind =>
      by_cases named : name.isEmpty = false
      · rw [(shared.answer_register build contents kind named).2]
        exact Or.inr ⟨contents, name, kind, _, Asset.Store.register_of_named _ _ _ named⟩
      · obtain rfl : name = "" := by simpa using named
        rw [answer_unnamed]
        exact Or.inl rfl

theorem reachable_answer (reachable : shared.store.Reachable) (call : Call) :
    (shared.answer call).1.store.Reachable := by
  rcases shared.store_answer call with same | ⟨contents, name, kind, url, registered⟩
  · rw [same]
    exact reachable
  · exact reachable.register registered

theorem partOf_answer (shared : SharedStore) (call : Call) :
    shared.store.PartOf (shared.answer call).1.store := by
  rcases shared.store_answer call with same | ⟨contents, name, kind, url, registered⟩
  · rw [same]
    exact .refl _
  · exact Asset.Store.partOf_register registered

/-! ## Several calls -/

theorem run_append (shared : SharedStore) (early late : List Call) :
    shared.run (early ++ late) = (shared.run early).run late := by
  simp only [run, List.foldl_append]

theorem reachable_run (reachable : shared.store.Reachable) (calls : List Call) :
    (shared.run calls).store.Reachable := by
  induction calls generalizing shared with
  | nil => exact reachable
  | cons call rest inductionHypothesis =>
      exact inductionHypothesis (reachable_answer reachable call)

theorem partOf_run (shared : SharedStore) (calls : List Call) :
    shared.store.PartOf (shared.run calls).store := by
  induction calls generalizing shared with
  | nil => exact .refl _
  | cons call rest inductionHypothesis =>
      exact (shared.partOf_answer call).trans (inductionHypothesis (shared.answer call).1)

/-- A build has noted the addresses that its own calls were answered with, and no others. -/
theorem given_run (shared : SharedStore) (calls : List Call) (build : Nat) :
    (shared.run calls).given build =
      addAll id (shared.given build) (shared.received build calls) := by
  induction calls generalizing shared with
  | nil => rfl
  | cons call rest inductionHypothesis =>
      refine (inductionHypothesis (shared.answer call).1).trans ?_
      rw [given_answer, received, addAll_append]

/-- Content that was stored is not stored again, however much later it is offered and by whom. It
gets the address that it had. -/
theorem register_again {contents name url : String} {kind : AssetKind} {build : Option Nat}
    (registered : (shared.answer ⟨build, .register contents name kind⟩).2 = .ok (some url))
    (calls : List Call) (again : Option Nat) :
    let later := (shared.answer ⟨build, .register contents name kind⟩).1.run calls
    (later.answer ⟨again, .register contents name kind⟩).2 = .ok (some url) ∧
      (later.answer ⟨again, .register contents name kind⟩).1.store = later.store := by
  intro later
  have named : name.isEmpty = false := by
    rw [Bool.eq_false_iff]
    intro blank
    obtain rfl : name = "" := by simpa using blank
    rw [answer_unnamed] at registered
    cases registered
  obtain ⟨address, stored⟩ := shared.answer_register build contents kind named
  obtain ⟨sameAddress, storedAgain⟩ := later.answer_register again contents kind named
  have first : shared.store.PartOf (shared.answer ⟨build, .register contents name kind⟩).1.store :=
    shared.partOf_answer _
  have rest := partOf_run (shared.answer ⟨build, .register contents name kind⟩).1 calls
  have part : shared.store.PartOf later.store := first.trans rest
  have place : later.store.place contents name kind = shared.store.place contents name kind :=
    Asset.Store.place_congr part.staticUrl part.directory contents name kind
  have there : (shared.store.place contents name kind).file ∈ later.store.files.map Asset.file := by
    have atFirst := Asset.Store.file_mem_add shared.store (shared.store.place contents name kind)
    rw [← stored] at atFirst
    exact List.map_subset Asset.file rest.files.subset atFirst
  rw [address] at registered
  rw [sameAddress, storedAgain, place]
  exact ⟨registered, Asset.Store.add_of_stored there⟩

/-- What a build reports is the part of the files that its own calls were answered with. -/
theorem mem_report_run {config : Config} {calls : List Call} {build : Nat} {asset : Asset} :
    asset ∈ ((ofConfig config).run calls).report build ↔
      asset ∈ ((ofConfig config).run calls).store.files ∧
        asset.url ∈ (ofConfig config).received build calls := by
  have noted : asset.url ∈ ((ofConfig config).run calls).given build ↔
      asset.url ∈ (ofConfig config).received build calls := by
    rw [given_run, mem_addAll_id]
    simp [ofConfig]
  unfold report Asset.Store.used
  rw [List.mem_filter, List.contains_iff_mem, noted]

/-! ## All that is known -/

/-- After any calls on a store without files, made by any builds or by nobody in particular, and
after any further ones. No two files have one path or one address, and every file has a name. The
files stay, in their order, at the front. Content with a name is given an address; without one it is
refused, and nothing changes. Whoever offers it again, however much later, gets the same address and
the store stays as it is. A lookup is answered with the address of the first file that was stored
under the name, leaves the store as it is, and is answered alike for ever. A build reports, in the
order of the store and once each, the files whose addresses its own calls were answered with. -/
theorem calls_keep_files (config : Config) (early late : List Call) :
    let before := (ofConfig config).run early
    let later := (ofConfig config).run (early ++ late)
    (before.store.files.map Asset.file).Nodup ∧
    (before.store.files.map Asset.url).Nodup ∧
    (∀ asset ∈ before.store.files, asset.name ≠ "") ∧
    before.store.files <+: later.store.files ∧
    (∀ build contents name kind,
      let first := before.answer ⟨build, .register contents name kind⟩
      (name = "" ∧ first = (before, .error (Asset.Store.unnamed name))) ∨
      (name ≠ "" ∧ ∃ url, first.2 = .ok (some url) ∧ ∀ again,
        let second := (first.1.run late).answer ⟨again, .register contents name kind⟩
        second.2 = .ok (some url) ∧ second.1.store = (first.1.run late).store)) ∧
    (∀ call fault, (before.answer call).2 = .error fault → (before.answer call).1 = before) ∧
    (∀ build name,
      (before.answer ⟨build, .lookup name⟩).1.store = before.store ∧
      (before.answer ⟨build, .lookup name⟩).2 =
        .ok ((before.store.files.find? fun asset => asset.name = name).map Asset.url) ∧
      ∀ url again, (before.answer ⟨build, .lookup name⟩).2 = .ok (some url) →
        (later.answer ⟨again, .lookup name⟩).2 = .ok (some url)) ∧
    (∀ build, (before.report build).Sublist before.store.files ∧ (before.report build).Nodup ∧
      ∀ asset, asset ∈ before.report build ↔
        asset ∈ before.store.files ∧ asset.url ∈ (ofConfig config).received build early) := by
  intro before later
  have reachable : before.store.Reachable :=
    reachable_run (.ofConfig config) early
  have grown : before.store.PartOf later.store := by
    have split : later = before.run late := run_append (ofConfig config) early late
    rw [split]
    exact before.partOf_run late
  have files : before.store.files.Nodup := .of_map Asset.file reachable.nodup
  refine ⟨reachable.nodup, reachable.nodup_urls, reachable.named, grown.files,
    fun build contents name kind => ?_, fun call fault refused => answer_of_error refused,
    fun build name => ?_, fun build => ⟨List.filter_sublist, files.filter _, fun asset =>
      mem_report_run⟩⟩
  · by_cases blank : name = ""
    · subst blank
      exact Or.inl ⟨rfl, before.answer_unnamed build contents kind⟩
    · have named : name.isEmpty = false := by simpa using blank
      have address := (before.answer_register build contents kind named).1
      exact Or.inr ⟨blank, _, address, register_again address late⟩
  · obtain ⟨answered, same⟩ := before.answer_lookup build name
    refine ⟨same, answered, fun url again found => ?_⟩
    rw [answered] at found
    rw [(later.answer_lookup again name).1, grown.lookup? (Except.ok.inj found)]

/-- Two builds report the file that the one stored and the other looked up. A build that was refused
reports nothing, and what is looked up without a build is reported by none. -/
example :
    let shared := (ofConfig .standard).run
      [⟨some 0, .register "p" "site.css" .css⟩, ⟨some 1, .lookup "site.css"⟩,
        ⟨none, .register "q" "page.js" .js⟩, ⟨none, .lookup "site.css"⟩,
        ⟨some 2, .register "r" "" .css⟩]
    shared.store.files.map Asset.name = ["site.css", "page.js"] ∧
      (shared.report 0).map Asset.name = ["site.css"] ∧
      (shared.report 1).map Asset.name = ["site.css"] ∧ shared.report 2 = [] := by
  decide +kernel

end SharedStore

end Sitewright

import Sitewright.Proofs.Render.Sharing
import Sitewright.Proofs.Render.Thread

/-!
Contract: what a script is linked to that is only given by its name.

Scripts and stylesheets are stored under names that they share. A lookup by name answers with the
file that was stored first, so the order in which a name was used decides what is linked, and only
up to its first use.

Owns:
- `Asset.Store.first?`, the file that a name leads to, and when it is a script;
- where the files of a store come from;
- the reference to a script as it is rendered;
- `reference_links_first_stored`, what a reference is linked to after any calls on a store.

Does not own: scripts with content of their own.
-/

namespace Sitewright

namespace Asset.Store

/-! ## The first file of a name -/

/-- The first file stored under a name. -/
def first? (store : Store) (name : String) : Option Asset :=
  store.files.find? fun asset => asset.name = name

/-- In front of every stylesheet of the name, there is a script of that name. -/
def ScriptFirst (store : Store) (name : String) : Prop :=
  ∀ front sheet back, store.files = front ++ sheet :: back → sheet.name = name →
    sheet.kind = .css → ∃ script ∈ front, script.name = name ∧ script.kind = .js

variable {store larger : Store} {name : String} {asset : Asset}

theorem lookup?_eq_first? (store : Store) (name : String) :
    store.lookup? name = (store.first? name).map Asset.url :=
  rfl

/-- No file in front of the first one has the name. -/
theorem exists_split_of_first? (first : store.first? name = some asset) :
    asset.name = name ∧ ∃ front back, store.files = front ++ asset :: back ∧
      ∀ other ∈ front, other.name ≠ name := by
  obtain ⟨named, front, back, split, unnamed⟩ := List.find?_eq_some_iff_append.mp first
  refine ⟨of_decide_eq_true named, front, back, split, fun other member same => ?_⟩
  have refused := unnamed other member
  rw [same] at refused
  simp at refused

/-- A name leads to a script exactly if that is stored in front of the stylesheets of the name. -/
theorem kind_eq_js_iff (first : store.first? name = some asset) :
    asset.kind = .js ↔ store.ScriptFirst name := by
  obtain ⟨named, front, back, split, unnamed⟩ := exists_split_of_first? first
  constructor
  · intro isScript before sheet behind others sameName isSheet
    rw [split] at others
    -- The stylesheet is neither the first file of the name nor in front of it.
    rcases List.append_eq_append_iff.mp others with
      ⟨between, shape, rest⟩ | ⟨between, shape, rest⟩
    · cases between with
      | nil =>
          obtain ⟨rfl, -⟩ := List.cons.inj rest
          rw [isScript] at isSheet
          cases isSheet
      | cons head tail =>
          obtain ⟨rfl, -⟩ := List.cons.inj rest
          refine ⟨asset, ?_, named, isScript⟩
          rw [shape]
          exact List.mem_append_right _ List.mem_cons_self
    · cases between with
      | nil =>
          obtain ⟨rfl, -⟩ := List.cons.inj rest
          rw [isScript] at isSheet
          cases isSheet
      | cons head tail =>
          obtain ⟨rfl, -⟩ := List.cons.inj rest
          have inFront : sheet ∈ front := by
            rw [shape]
            exact List.mem_append_right _ List.mem_cons_self
          exact absurd sameName (unnamed sheet inFront)
  · intro scriptFirst
    cases kind : asset.kind with
    | js => rfl
    | css =>
        obtain ⟨script, inFront, sameName, -⟩ := scriptFirst front asset back split named kind
        exact absurd sameName (unnamed script inFront)

/-- What a name leads to at one time, it leads to for ever. -/
theorem PartOf.first? (part : store.PartOf larger) (first : store.first? name = some asset) :
    larger.first? name = some asset :=
  part.files.find?_eq_some first

end Asset.Store

/-! ## Where files come from -/

namespace SharedStore

/-- A file is there already, or the call registers it. -/
theorem mem_files_answer {shared : SharedStore} {call : Call} {asset : Asset}
    (member : asset ∈ (shared.answer call).1.store.files) :
    asset ∈ shared.store.files ∨
      call.demand = .register asset.contents asset.name asset.kind := by
  obtain ⟨build, demand⟩ := call
  cases demand with
  | lookup name =>
      rw [(shared.answer_lookup build name).2] at member
      exact .inl member
  | register contents name kind =>
      by_cases named : name.isEmpty = false
      · rw [(shared.answer_register build contents kind named).2, Asset.Store.add_eq] at member
        rcases mem_of_mem_addNew member with old | rfl
        · exact .inl old
        · exact .inr rfl
      · obtain rfl : name = "" := by simpa using named
        rw [answer_unnamed] at member
        exact .inl member

/-- Every file is one that some call registers, under its name and as its kind. -/
theorem mem_files_run {shared : SharedStore} {calls : List Call} {asset : Asset}
    (member : asset ∈ (shared.run calls).store.files) :
    asset ∈ shared.store.files ∨
      ∃ call ∈ calls, call.demand = .register asset.contents asset.name asset.kind := by
  induction calls generalizing shared with
  | nil => exact .inl member
  | cons call rest inductionHypothesis =>
      rcases inductionHypothesis member with before | ⟨later, inRest, registers⟩
      · rcases mem_files_answer before with old | registers
        · exact .inl old
        · exact .inr ⟨call, List.mem_cons_self, registers⟩
      · exact .inr ⟨later, List.mem_cons_of_mem call inRest, registers⟩

end SharedStore

/-! ## References -/

/-- The name is known exactly while pages are built, and then by its first file. -/
theorem Ledger.lookupAsset_eq_first? (ledger : Ledger) (pass : Pass) (name : String) :
    (ledger.lookupAsset pass name).2 =
      match pass with
      | .search => none
      | .build => (ledger.assets.first? name).map Asset.url := by
  cases pass with
  | search => rfl
  | build => rw [lookupAsset_build_eq, Asset.Store.lookup?_eq_first?]

section References

open Render

variable {source : ScriptSource} (reference : source.contents = none) {setting : Setting}
  {state : State}
include reference

/-- A reference whose name is known is a link to the address. -/
theorem View.script_of_known {url : String}
    (known : (state.ledger.lookupAsset setting.pass source.name).2 = some url) :
    ((View.script source).render setting state).1 = .ok (linkedScript source.asModule url) := by
  have looked : lookupAsset source.name setting state =
      (.ok (some url), (lookupAsset source.name setting state).2) :=
    Prod.ext (congrArg Except.ok known) rfl
  show (within Construct.script.label (Render.script source) setting state).1 = _
  simp only [within, Render.script, reference]
  rw [bind_of_ok looked]
  rfl

/-- A reference whose name is unknown is refused while pages are built, and is nothing before. -/
theorem View.script_of_unknown
    (unknown : (state.ledger.lookupAsset setting.pass source.name).2 = none) :
    ((View.script source).render setting state).1 =
      if setting.scope.building then .error (.within Construct.script.label
        (.asset source.name "no asset registered under this name"))
      else .ok "" := by
  have looked : lookupAsset source.name setting state =
      (.ok none, (lookupAsset source.name setting state).2) :=
    Prod.ext (congrArg Except.ok unknown) rfl
  show (within Construct.script.label (Render.script source) setting state).1 = _
  simp only [within, Render.script, reference]
  rw [bind_of_ok looked]
  simp only [setting_bind]
  cases setting.scope.building <;> rfl

/-- While pages are built, a reference is a link to the first file of its name. -/
theorem View.script_of_first {asset : Asset} (building : setting.pass = .build)
    (first : state.ledger.assets.first? source.name = some asset) :
    ((View.script source).render setting state).1 =
      .ok (linkedScript source.asModule asset.url) := by
  apply View.script_of_known reference
  rw [Ledger.lookupAsset_eq_first?, building, first]
  rfl

/-- Nothing else is ever shown for a reference, unless it is nothing at all. -/
theorem View.exists_first_of_script {text : String}
    (shown : ((View.script source).render setting state).1 = .ok text) (nonempty : text ≠ "") :
    ∃ asset, state.ledger.assets.first? source.name = some asset ∧
      text = linkedScript source.asModule asset.url := by
  cases known : (state.ledger.lookupAsset setting.pass source.name).2 with
  | none =>
      rw [View.script_of_unknown reference known] at shown
      split at shown
      · cases shown
      · exact absurd (Except.ok.inj shown).symm nonempty
  | some url =>
      rw [View.script_of_known reference known] at shown
      rw [Ledger.lookupAsset_eq_first?] at known
      split at known
      · cases known
      · obtain ⟨asset, first, rfl⟩ := Option.map_eq_some_iff.mp known
        exact ⟨asset, first, (Except.ok.inj shown).symm⟩

end References

/-- Take any calls on a store that begins without files, and a reference to a script, rendered
anywhere with that store. What is shown for it, if anything, is a link to the first file stored
under its name, and this is shown whenever there is such a file and pages are built. Some call has
registered the file, under the name. It is a script exactly if a script of the name is stored in
front of each of its stylesheets. And what was first under the name at an earlier time is still the
first. -/
theorem reference_links_first_stored (config : Config) (early late : List SharedStore.Call)
    (source : ScriptSource) (reference : source.contents = none) (setting : Setting)
    (state : State)
    (history : state.ledger.assets =
      ((SharedStore.ofConfig config).run (early ++ late)).store) :
    let shown := ((View.script source).render setting state).1
    let store := state.ledger.assets
    (∀ text, shown = .ok text → text ≠ "" → ∃ asset, store.first? source.name = some asset ∧
      text = Render.linkedScript source.asModule asset.url) ∧
    ∀ asset, store.first? source.name = some asset →
      (setting.pass = .build → shown = .ok (Render.linkedScript source.asModule asset.url)) ∧
      asset ∈ store.files ∧ asset.name = source.name ∧
      (∃ call ∈ early ++ late, call.demand = .register asset.contents source.name asset.kind) ∧
      (asset.kind = .js ↔ store.ScriptFirst source.name) ∧
      ∀ known, ((SharedStore.ofConfig config).run early).store.first? source.name = some known →
        asset = known := by
  intro shown store
  refine ⟨fun text isShown nonempty => View.exists_first_of_script reference isShown nonempty,
    fun asset first => ?_⟩
  have member : asset ∈ store.files := List.mem_of_find?_eq_some first
  obtain ⟨named, -⟩ := Asset.Store.exists_split_of_first? first
  refine ⟨fun building => View.script_of_first reference building first, member, named, ?_,
    Asset.Store.kind_eq_js_iff first, fun known wasFirst => ?_⟩
  · have inRun : asset ∈ ((SharedStore.ofConfig config).run (early ++ late)).store.files :=
      history ▸ member
    rcases SharedStore.mem_files_run inRun with none | ⟨call, made, registers⟩
    · cases none
    · rw [named] at registers
      exact ⟨call, made, registers⟩
  · have grown : ((SharedStore.ofConfig config).run early).store.PartOf store := by
      show Asset.Store.PartOf _ state.ledger.assets
      rw [history, SharedStore.run_append]
      exact SharedStore.partOf_run _ late
    have still : store.first? source.name = some known := grown.first? wasFirst
    rw [first] at still
    exact Option.some.inj still

/-! ### Two orders -/

def appReference : ScriptSource :=
  { name := "app", contents := none, inlined := false, asModule := false }

def registerAppScript : SharedStore.Call := ⟨none, .register "run()" "app" .js⟩

def registerAppSheet : SharedStore.Call := ⟨none, .register "p { }" "app" .css⟩

def appSetting : Setting :=
  { config := .standard, pass := .build, scope := .page .root "" }

/-- A build begins with the store that some calls have left. -/
def afterCalls (calls : List SharedStore.Call) : State :=
  .ofLedger (.ofBuild .empty ((SharedStore.ofConfig .standard).run calls).store)

/-- A script that is stored first stays linked behind a stylesheet of its name. -/
theorem appScript_stays_linked :
    let state := afterCalls [registerAppScript, registerAppSheet]
    ∃ script ∈ state.ledger.assets.files, script.kind = .js ∧ script.name = "app" ∧
      ((View.script appReference).render appSetting state).1 =
        .ok (Render.linkedScript false script.url) := by
  intro state
  obtain ⟨-, first⟩ := reference_links_first_stored .standard [registerAppScript]
    [registerAppSheet] appReference rfl appSetting state rfl
  have stored : ∃ script, state.ledger.assets.first? "app" = some script ∧ script.kind = .js := by
    have kinds : (state.ledger.assets.first? "app").map Asset.kind = some .js := by decide +kernel
    exact Option.map_eq_some_iff.mp kinds
  obtain ⟨script, isFirst, isScript⟩ := stored
  obtain ⟨linked, member, named, -⟩ := first script isFirst
  exact ⟨script, member, isScript, named, linked rfl⟩

/-- A stylesheet that is stored first is linked as a script, though there is a script of its name
as well. -/
theorem appSheet_linked_as_script :
    let state := afterCalls [registerAppSheet, registerAppScript]
    let shown := ((View.script appReference).render appSetting state).1.toOption
    (∃ script ∈ state.ledger.assets.files, script.kind = .js ∧ script.name = "app") ∧
      (∃ sheet ∈ state.ledger.assets.files, sheet.kind = .css ∧ sheet.name = "app" ∧
        shown = some (Render.linkedScript false sheet.url)) ∧
      ¬ ∃ script ∈ state.ledger.assets.files, script.kind = .js ∧ script.name = "app" ∧
        shown = some (Render.linkedScript false script.url) := by
  decide +kernel

end Sitewright

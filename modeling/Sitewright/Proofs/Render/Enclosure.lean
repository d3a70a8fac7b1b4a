import Sitewright.Proofs.Render.Closure
import Sitewright.Proofs.Render.Confined

/-!
Contract: confined views are rendered to texts that keep the loops of their documents.

A render places a property if its value has it, with the numbers of loops before and
after the render, whenever the setting and the state may be written in the frame. The
state is left so that it may be written there still. An alternative that waits in the
state is a render of its own, in the frame of its conditional.

Owns:
- `Places`, with one rule for each operation and one lemma for each construct;
- the induction over confined views.

Does not own: pages and fragments of a build.
-/

namespace Sitewright

open Text Template Markup Routing Catalog

/-- The number of the next loop in the document. -/
abbrev State.loops (state : State) : Nat :=
  state.ledger.numbering.loops

namespace Render

/-- From a state that may be written in the frame, the render ends with a value that
has the property between the numbers of loops, or ends with a fault. -/
def Places {α : Type} (frame : Frame) (conditionals : List Frame)
    (property : (first : Nat) → α → (last : Nat) → Prop) (render : Render α) : Prop :=
  ∀ (setting : Setting) (state : State) (value : α) (after : State),
    setting.Confined frame conditionals →
      state.Confined frame.shared frame.routers frame.shell conditionals →
        render setting state = (.ok value, after) →
          state.loops ≤ after.loops ∧ property state.loops value after.loops ∧
            after.Confined frame.shared frame.routers frame.shell conditionals

/-- The render writes a text whose loops are those that it numbers. -/
def Writes (frame : Frame) (conditionals : List Frame) (render : Render String) : Prop :=
  render.Places frame conditionals fun first text last =>
    Enclosed frame.visible first last text

/-- A property of the value of a render that numbers no loops. -/
def Still {α : Type} (property : α → Prop) (first : Nat) (value : α) (last : Nat) : Prop :=
  last = first ∧ property value

namespace Places

variable {α β : Type} {frame : Frame} {conditionals : List Frame}

/-! ## Operations -/

theorem value {property : Nat → α → Nat → Prop} {value : α}
    (holds : ∀ number, property number value number) :
    Places frame conditionals property (pure value) := by
  intro setting state result after _ stateConfined outcome
  obtain ⟨same, rfl⟩ := Prod.mk.inj outcome
  obtain rfl := Except.ok.inj same
  exact ⟨Nat.le_refl _, holds _, stateConfined⟩

theorem fault {property : Nat → α → Nat → Prop} (fault : Fault) :
    Places frame conditionals property (fail fault : Render α) := by
  intro setting state result after _ _ outcome
  cases (Prod.mk.inj outcome).1

theorem misuse {property : Nat → α → Nat → Prop} (construct : Construct) (reason : String) :
    Places frame conditionals property (Render.misuse construct reason : Render α) :=
  fault _

/-- One render after another. The second begins with the number that the first ends
with. -/
theorem sequence {middle : Nat → α → Nat → Prop} {property : Nat → β → Nat → Prop}
    {first : Render α} {next : α → Render β}
    (firstPlaces : Places frame conditionals middle first)
    (nextPlaces : ∀ start value between, start ≤ between → middle start value between →
      Places frame conditionals
        (fun now result last => now = between → property start result last) (next value)) :
    Places frame conditionals property (first >>= next) := by
  intro setting state result after settingConfined stateConfined outcome
  obtain ⟨value, between, early, late⟩ := ok_of_bind outcome
  obtain ⟨ordered, holds, betweenConfined⟩ :=
    firstPlaces _ _ _ _ settingConfined stateConfined early
  obtain ⟨orderedLate, resultHolds, afterConfined⟩ :=
    nextPlaces _ value _ ordered holds _ _ _ _ settingConfined betweenConfined late
  exact ⟨Nat.le_trans ordered orderedLate, resultHolds rfl, afterConfined⟩

/-- A render that numbers no loops in front of another. -/
theorem behind {middle : α → Prop} {property : Nat → β → Nat → Prop} {first : Render α}
    {next : α → Render β} (firstPlaces : Places frame conditionals (Still middle) first)
    (nextPlaces : ∀ value, middle value → Places frame conditionals property (next value)) :
    Places frame conditionals property (first >>= next) := by
  refine sequence firstPlaces fun start value between _ ⟨same, holds⟩ => ?_
  intro setting state result after settingConfined stateConfined outcome
  obtain ⟨ordered, resultHolds, afterConfined⟩ :=
    nextPlaces value holds _ _ _ _ settingConfined stateConfined outcome
  refine ⟨ordered, ?_, afterConfined⟩
  intro now
  rw [← same, ← now]
  exact resultHolds

/-- A value computed from that of a render. -/
theorem map {middle : Nat → α → Nat → Prop} {property : Nat → β → Nat → Prop}
    {render : Render α} {change : α → β} (places : Places frame conditionals middle render)
    (changes : ∀ first value last, middle first value last → property first (change value) last) :
    Places frame conditionals property (render >>= fun value => pure (change value)) := by
  refine sequence places fun first result last _ holds => value fun number same => ?_
  rw [same]
  exact changes first result last holds

theorem setting :
    Places frame conditionals (Still (Setting.Confined frame conditionals)) Render.setting := by
  intro setting state result after settingConfined stateConfined outcome
  obtain ⟨same, rfl⟩ := Prod.mk.inj outcome
  rw [← Except.ok.inj same]
  exact ⟨Nat.le_refl _, ⟨rfl, settingConfined⟩, stateConfined⟩

theorem modifyGet {property : α → Prop} {change : Setting → Ledger → α × Ledger}
    (still : ∀ setting ledger,
      (change setting ledger).2.numbering.loops = ledger.numbering.loops)
    (keeps : ∀ (setting : Setting) (ledger : Ledger), setting.Confined frame conditionals →
      ledger.Confined frame.shared frame.routers frame.shell →
        property (change setting ledger).1 ∧
          (change setting ledger).2.Confined frame.shared frame.routers frame.shell) :
    Places frame conditionals (Still property) (Render.modifyGet change) := by
  intro setting state result after settingConfined stateConfined outcome
  obtain ⟨same, rfl⟩ := Prod.mk.inj outcome
  rw [← Except.ok.inj same]
  obtain ⟨holds, ledgerConfined⟩ :=
    keeps setting state.ledger settingConfined stateConfined.ledger
  have number := still setting state.ledger
  exact ⟨Nat.le_of_eq number.symm, ⟨number, holds⟩, ledgerConfined, stateConfined.branch⟩

theorem modify {change : Setting → Ledger → Ledger}
    (still : ∀ setting ledger, (change setting ledger).numbering.loops = ledger.numbering.loops)
    (keeps : ∀ (setting : Setting) (ledger : Ledger), setting.Confined frame conditionals →
      ledger.Confined frame.shared frame.routers frame.shell →
        (change setting ledger).Confined frame.shared frame.routers frame.shell) :
    Places frame conditionals (Still fun _ => True) (Render.modify change) :=
  modifyGet still fun current ledger currentConfined ledgerConfined =>
    ⟨trivial, keeps current ledger currentConfined ledgerConfined⟩

/-- A render in a changed scope and another frame for the same documents. -/
theorem inScope {inner : Frame} {property : Nat → α → Nat → Prop} {change : Scope → Scope}
    {render : Render α} (places : Places inner conditionals property render)
    (keeps : ∀ scope : Scope, scope.Confined frame conditionals →
      (change scope).Confined inner conditionals)
    (shared : inner.shared = frame.shared) (routers : inner.routers = frame.routers)
    (shell : inner.shell = frame.shell) :
    Places frame conditionals property (Render.inScope change render) := by
  intro setting state result after settingConfined stateConfined outcome
  have changed : Setting.Confined inner conditionals
      { setting with scope := change setting.scope } :=
    ⟨settingConfined.config, keeps _ settingConfined.scope⟩
  rw [← shared, ← routers, ← shell] at stateConfined ⊢
  exact places _ _ _ _ changed stateConfined outcome

/-- A render in another frame for the same documents and forms. -/
theorem inFrame {inner : Frame} {property : Nat → α → Nat → Prop} {render : Render α}
    (places : Places inner conditionals property render)
    (shared : inner.shared = frame.shared) (routers : inner.routers = frame.routers)
    (shell : inner.shell = frame.shell) (form : inner.form = frame.form) :
    Places frame conditionals property render := by
  intro setting state result after settingConfined stateConfined outcome
  have changed : Setting.Confined inner conditionals setting := by
    refine ⟨settingConfined.config, settingConfined.scope.current, ?_, ?_,
      settingConfined.scope.conditional⟩
    · rw [routers]
      exact settingConfined.scope.container
    · rw [form]
      exact settingConfined.scope.form
  rw [← shared, ← routers, ← shell] at stateConfined ⊢
  exact places _ _ _ _ changed stateConfined outcome

theorem within {property : Nat → α → Nat → Prop} {component : String} {render : Render α}
    (places : Places frame conditionals property render) :
    Places frame conditionals property (Render.within component render) := by
  intro setting state result after settingConfined stateConfined outcome
  exact places _ _ _ _ settingConfined stateConfined (ok_of_within outcome)

theorem construct {property : Nat → α → Nat → Prop} {construct : Construct} {render : Render α}
    (places : Places frame conditionals property render) :
    Places frame conditionals property (Render.construct construct render) :=
  within places

theorem leaveBranch {around : Frame} {outer : List Frame} {render : Render String}
    (writes : Writes around outer render) :
    Places frame (around :: outer) (Still fun _ => True) (Render.leaveBranch render.toBranch) := by
  intro setting state result after settingConfined stateConfined outcome
  -- The branch runs later, in the frame of the conditional and with no branch of its own.
  have confined : Branch.Confined around outer render.toBranch := by
    intro current ledger text later currentConfined ledgerConfined written
    obtain ⟨same, rfl⟩ := Prod.mk.inj written
    have outcome : render current (.ofLedger ledger) =
        (.ok text, (render current (.ofLedger ledger)).2) := by
      rw [← same]
    obtain ⟨ordered, enclosed, laterConfined⟩ := writes _ _ _ _ currentConfined
      (State.confined_ofLedger ledgerConfined outer) outcome
    exact ⟨ordered, enclosed, laterConfined.ledger⟩
  unfold Render.leaveBranch at outcome
  split at outcome
  · rw [← (Prod.mk.inj outcome).2]
    exact ⟨Nat.le_refl _, ⟨rfl, trivial⟩, stateConfined⟩
  · rw [← (Prod.mk.inj outcome).2]
    refine ⟨Nat.le_refl _, ⟨rfl, trivial⟩, stateConfined.ledger, ?_⟩
    intro branch member
    rw [← Option.mem_some.mp member]
    exact confined

theorem ofBranch {branch : Branch} (confined : branch.Confined frame conditionals) :
    Writes frame conditionals (Render.ofBranch branch) := by
  intro setting state result after settingConfined stateConfined outcome
  obtain ⟨same, rfl⟩ := Prod.mk.inj outcome
  have written : branch setting state.ledger = (.ok result, (branch setting state.ledger).2) := by
    rw [← same]
  obtain ⟨ordered, enclosed, afterConfined⟩ :=
    confined _ _ _ _ settingConfined stateConfined.ledger written
  exact ⟨ordered, enclosed, afterConfined, stateConfined.branch⟩

/-- A body and the alternative that it leaves. -/
theorem collectBranch {property : Nat → α → Nat → Prop} {render : Render α}
    (places : Places frame (frame :: conditionals) property render) :
    Places frame conditionals (fun first pair last => property first pair.1 last ∧
      ∀ branch ∈ pair.2, Branch.Confined frame conditionals branch)
      (Render.collectBranch render) := by
  intro setting state result after settingConfined stateConfined outcome
  have inside : Setting.Confined frame (frame :: conditionals)
      { setting with scope := setting.scope.inConditional } :=
    ⟨settingConfined.config, settingConfined.scope.inConditional⟩
  have cleared : State.Confined frame.shared frame.routers frame.shell (frame :: conditionals)
      { state with branch := none } := ⟨stateConfined.ledger, by simp⟩
  rcases run : Render.inScope Scope.inConditional render setting { state with branch := none }
    with ⟨fault | value, inner⟩
  · rw [collectBranch_of_error run] at outcome
    cases (Prod.mk.inj outcome).1
  · rw [collectBranch_of_ok run] at outcome
    obtain ⟨same, rfl⟩ := Prod.mk.inj outcome
    rw [← Except.ok.inj same]
    obtain ⟨ordered, holds, innerConfined⟩ := places _ _ _ _ inside cleared run
    exact ⟨ordered, ⟨holds, innerConfined.branch⟩, innerConfined.ledger, stateConfined.branch⟩

/-- A document of its own, whose loops are numbered apart. -/
theorem inDocument {property : Nat → α → Nat → Prop} {numbering : Numbering} {render : Render α}
    (free : BraceFree numbering.formPrefix)
    (places : Places frame.detached conditionals property render) :
    Places frame conditionals
      (Still fun value => ∃ last, property numbering.loops value last)
      (Render.inDocument numbering render) := by
  intro setting state result after settingConfined stateConfined outcome
  obtain ⟨same, rfl⟩ := Prod.mk.inj outcome
  have inside : Setting.Confined frame.detached conditionals
      { setting with scope := setting.scope.detached } :=
    ⟨settingConfined.config, settingConfined.scope.detached⟩
  -- Only the numbering differs inside, and the outer one is put back afterwards.
  have started : State.Confined frame.shared frame.routers frame.shell conditionals
      { state with ledger := { state.ledger with numbering } } :=
    ⟨{ stateConfined.ledger with forms := free }, stateConfined.branch⟩
  obtain ⟨-, holds, confined⟩ := places _ _ _ _ inside started (Prod.ext same rfl)
  exact ⟨Nat.le_refl _, ⟨rfl, _, holds⟩,
    { confined.ledger with forms := stateConfined.ledger.forms }, confined.branch⟩

/-- A render and the meta tags that it collects. -/
theorem collectMetaTags {property : Nat → α → Nat → Prop} {render : Render α}
    (places : Places frame.inShell conditionals property render) :
    Places frame conditionals (fun first pair last => property first pair.1 last ∧
      ∀ attributes ∈ pair.2, attributes.Speaks frame.visible)
      (Render.collectMetaTags render) := by
  intro setting state result after settingConfined stateConfined outcome
  have inside : Setting.Confined frame.inShell conditionals
      { setting with scope := setting.scope.inShell } :=
    ⟨settingConfined.config, settingConfined.scope.inShell⟩
  have started : State.Confined frame.shared frame.routers frame.visible conditionals
      { state with ledger := { state.ledger with metaTags := [] } } :=
    ⟨{ stateConfined.ledger with metaTags := by simp }, stateConfined.branch⟩
  rcases run : Render.inScope Scope.inShell render setting
    { state with ledger := { state.ledger with metaTags := [] } } with ⟨fault | value, inner⟩
  · simp [Render.collectMetaTags, run] at outcome
  · simp only [Render.collectMetaTags, run, Prod.mk.injEq, Except.ok.injEq] at outcome
    obtain ⟨rfl, rfl⟩ := outcome
    obtain ⟨ordered, holds, innerConfined⟩ := places _ _ _ _ inside started run
    exact ⟨ordered, ⟨holds, innerConfined.ledger.metaTags⟩,
      { innerConfined.ledger with metaTags := stateConfined.ledger.metaTags },
      innerConfined.branch⟩

/-! ## Replies -/

theorem nextLoopNames :
    Places frame conditionals (fun first names last => last = first + 1 ∧
      ∃ numbering : Numbering, numbering.loops = first ∧
        names = (numbering.elementName, numbering.positionName)) Render.nextLoopNames := by
  intro setting state result after _ stateConfined outcome
  obtain ⟨same, rfl⟩ := Prod.mk.inj outcome
  rw [← Except.ok.inj same]
  exact ⟨Nat.le_succ _, ⟨rfl, _, rfl, rfl⟩, { stateConfined.ledger with }, stateConfined.branch⟩

theorem nextFormId : Places frame conditionals (Still BraceFree) Render.nextFormId :=
  modifyGet (fun _ _ => rfl) fun _ _ _ confined =>
    ⟨Numbering.braceFree_formId confined.forms, { confined with }⟩

theorem require (resource : String) :
    Places frame conditionals (Still fun key => key = resourceKey resource)
      (Render.require resource) :=
  modifyGet (fun _ _ => rfl) fun _ _ _ confined => ⟨rfl, { confined with }⟩

theorem note (key : String) (value : Json) :
    Places frame conditionals (Still fun _ => True) (Render.note key value) :=
  modify (fun _ _ => rfl) fun _ _ _ confined => { confined with }

theorem storeTemplate (resource : String) {template : String} {loops : Nat}
    (enclosed : Enclosed frame.shared 0 loops template) :
    Places frame conditionals (Still fun handle => BraceFree handle.url)
      (Render.storeTemplate resource template) :=
  modifyGet (by simp) fun _ _ currentConfined confined => by
    obtain ⟨stored, address⟩ := confined.storeTemplate currentConfined.config resource enclosed
    exact ⟨address, stored⟩

theorem recordIsland (record : IslandRecord) :
    Places frame conditionals (Still fun _ => True) (Render.recordIsland record) :=
  modify (by simp) fun _ _ _ confined => confined.recordIsland _ record

theorem containerOf (route : Path) :
    Places frame conditionals (Still (Speaks frame.routers)) (Render.containerOf route) :=
  modifyGet (fun _ _ => rfl) fun _ _ _ confined =>
    ⟨confined.routes.speaks_containerOf route, confined⟩

theorem addRoute {entry : Entry} (speaks : Speaks frame.routers entry.container) :
    Places frame conditionals (Still fun _ => True) (Render.addRoute entry) :=
  modify (by simp) fun _ _ _ confined => confined.addRoute _ speaks

theorem seeContainer {container : String} (speaks : Speaks frame.routers container) :
    Places frame conditionals (Still fun _ => True) (Render.seeContainer container) :=
  modify (by simp) fun _ _ _ confined => confined.seeContainer _ speaks

theorem addMetaTag {attributes : Attributes} (speaks : attributes.Speaks frame.shell) :
    Places frame conditionals (Still fun _ => True) (Render.addMetaTag attributes) :=
  modify (fun _ _ => rfl) fun _ _ _ confined => by
    refine { confined with metaTags := ?_ }
    intro other member
    rcases List.mem_append.mp member with old | new
    · exact confined.metaTags other old
    · rw [List.mem_singleton.mp new]
      exact speaks

theorem storeAsset (contents name : String) (kind : AssetKind) :
    Places frame conditionals (Still BraceFree) (Render.storeAsset contents name kind) := by
  have offered : Places frame conditionals
      (Still fun outcome => ∀ url, outcome = .ok url → BraceFree url)
      (Render.offerAsset contents name kind) := by
    refine modifyGet (fun current ledger => ?_) fun current ledger _ confined => ?_
    · rcases stored : ledger.storeAsset current.pass contents name kind with fault | ⟨after, url⟩
      · rfl
      · exact congrArg Numbering.loops (ledger.numbering_storeAsset current.pass stored)
    · rcases stored : ledger.storeAsset current.pass contents name kind with fault | ⟨after, url⟩
      · exact ⟨by simp, confined⟩
      · obtain ⟨afterConfined, free⟩ := confined.storeAsset current.pass stored
        refine ⟨?_, afterConfined⟩
        intro other same
        rw [← Except.ok.inj same]
        exact free
  refine behind offered fun outcome addresses => ?_
  cases outcome with
  | ok url => exact value fun _ => ⟨rfl, addresses url rfl⟩
  | error reason => exact fault reason

theorem lookupAsset (name : String) :
    Places frame conditionals (Still fun found => ∀ url ∈ found, BraceFree url)
      (Render.lookupAsset name) :=
  modifyGet (by simp) fun current _ _ confined => by
    obtain ⟨after, addresses⟩ := confined.lookupAsset current.pass name
    exact ⟨addresses, after⟩

/-! ## Markup -/

/-- A text without blocks. -/
theorem spoken {text : String} (speaks : Speaks frame.visible text) :
    Writes frame conditionals (pure text) :=
  value fun number => speaks.enclosed number number

theorem nothing : Writes frame conditionals Render.nothing :=
  spoken (.of_braceFree braceFree_empty)

theorem element {tag : String} {attributes : Attributes} {content : Render String}
    (tagSpeaks : Speaks frame.visible tag) (speaks : attributes.Speaks frame.visible)
    (writes : Writes frame conditionals content) :
    Writes frame conditionals (Render.element tag attributes content) :=
  map writes fun _ _ _ enclosed => enclosed_elementText tagSpeaks speaks enclosed

/-- The texts of two renders, the later one in front or behind. -/
theorem both {first second : Render String} {join : String → String → String}
    (firstWrites : Writes frame conditionals first)
    (secondWrites : Writes frame conditionals second)
    (joins : ∀ {start between last : Nat} {early late : String}, start ≤ between →
      between ≤ last → Enclosed frame.visible start between early →
        Enclosed frame.visible between last late →
          Enclosed frame.visible start last (join early late)) :
    Writes frame conditionals (do
      let early ← first
      let late ← second
      return join early late) := by
  refine sequence firstWrites fun start early between ordered earlyEnclosed => ?_
  refine sequence secondWrites fun now late last lateOrdered lateEnclosed => ?_
  refine value fun number same now => ?_
  subst now same
  exact joins ordered lateOrdered earlyEnclosed lateEnclosed

/-! ## Conditionals and loops -/

theorem chooseAlternative {otherwise : Option (Render String)} {left : Option Branch}
    (otherwiseWrites : ∀ render ∈ otherwise, Writes frame conditionals render)
    (leftConfined : ∀ branch ∈ left, Branch.Confined frame conditionals branch) :
    Places frame conditionals
      (Still fun chosen => ∀ render ∈ chosen, Writes frame conditionals render)
      (Render.chooseAlternative otherwise left) := by
  cases otherwise with
  | none =>
      cases left with
      | none => exact value fun _ => ⟨rfl, by simp⟩
      | some branch =>
          have writes := ofBranch (leftConfined branch rfl)
          exact value fun _ => ⟨rfl, by simpa using writes⟩
  | some given =>
      cases left with
      | none => exact value fun _ => ⟨rfl, otherwiseWrites⟩
      | some branch => exact misuse _ _

theorem alternativeText {chosen : Option (Render String)}
    (writes : ∀ render ∈ chosen, Writes frame conditionals render) :
    Places frame conditionals
      (fun first text last => ∀ other ∈ text, Enclosed frame.visible first last other)
      (Render.alternativeText chosen) := by
  cases chosen with
  | none => exact value (by simp)
  | some render =>
      have inside := inScope (writes render rfl) (fun _ confined => confined.outsideConditional)
        rfl rfl rfl
      exact map inside fun _ _ _ enclosed => by simpa using enclosed

theorem conditional {condition : Expr} (free : condition.BraceFree)
    (uses : condition.UsesOnly frame.visible) (negated : Bool) {body : Render String}
    {otherwise : Option (Render String)} (bodyWrites : Writes frame (frame :: conditionals) body)
    (otherwiseWrites : ∀ render ∈ otherwise, Writes frame conditionals render) :
    Writes frame conditionals (Render.conditional condition negated body otherwise) := by
  unfold Render.conditional
  split
  · exact misuse _ _
  · refine sequence (collectBranch bodyWrites)
      fun start collected between ordered ⟨bodyEnclosed, leftConfined⟩ => ?_
    refine behind (chooseAlternative otherwiseWrites leftConfined) fun chosen writes => ?_
    refine sequence (alternativeText writes) fun now alternative last lastOrdered enclosed => ?_
    refine value fun number same now => ?_
    subst now same
    exact .ifBlock (free.header negated) (uses.header negated) negated bodyEnclosed enclosed
      ordered lastOrdered

theorem alternative {branch : Render String}
    (writes : ∀ around outer, conditionals = around :: outer → Writes around outer branch) :
    Writes frame conditionals (Render.alternative branch) := by
  refine behind setting fun current currentConfined => ?_
  split
  · next accepts =>
    cases conditionals with
    | nil => exact absurd rfl (currentConfined.scope.conditional accepts)
    | cons around outer =>
        refine behind (leaveBranch (writes around outer rfl)) fun accepted _ => ?_
        split
        · exact nothing
        · exact misuse _ _
  · exact misuse _ _

theorem loop {source : DataRef} {body : (element position : DataRef) → Render String}
    (free : BraceFree source.name) (uses : UsesOnly frame.visible source.name)
    (writes : ∀ numbering : Numbering, Writes (frame.inLoop numbering) conditionals
      (body ⟨numbering.elementName⟩ ⟨numbering.positionName⟩)) :
    Writes frame conditionals (Render.loop source body) := by
  refine sequence nextLoopNames fun start names between ordered known => ?_
  obtain ⟨rfl, numbering, rfl, rfl⟩ := known
  have bodyPlaces : Places frame conditionals
      (fun first text last => Enclosed (frame.inLoop numbering).visible first last text)
      (body ⟨numbering.elementName⟩ ⟨numbering.positionName⟩) :=
    inFrame (writes numbering) rfl rfl rfl rfl
  refine sequence bodyPlaces fun now text last textOrdered enclosed => ?_
  refine value fun number same now => ?_
  subst now same
  exact .rangeBlock free uses enclosed textOrdered

/-! ## Forms -/

theorem requireNoForm (construct : Construct) :
    Places frame conditionals (Still fun _ => True) (Render.requireNoForm construct) := by
  refine behind setting fun current _ => ?_
  split
  · exact misuse _ _
  · exact value fun _ => ⟨rfl, trivial⟩

theorem form {action : Action} {refresh : Refresh} {attributes : Attributes} {names : Names}
    {children : Render String} (refreshSpeaks : refresh.Speaks names action)
    (speaks : attributes.Speaks frame.visible)
    (writes : Writes (frame.inForm names) conditionals children) :
    Writes frame conditionals (Render.form action refresh attributes children) := by
  refine behind (requireNoForm _) fun _ _ => behind nextFormId fun id idFree => ?_
  have opened : OpenForm.Confined names (openForm action refresh id) :=
    ⟨idFree, refreshSpeaks.islands, refreshSpeaks.items⟩
  have withId := speaks_withId speaks (.of_braceFree idFree)
  have inside : Writes (frame.inForm names) conditionals
      (Render.element "form" (attributes.set "id" (.string id)) children) :=
    element (.of_braceFree (by decide)) withId writes
  exact inScope inside (fun _ confined => confined.inForm opened) rfl rfl rfl

theorem submit {action : Action} {attributes : Attributes} {children : Render String}
    (reaches : ∀ name, frame.form name → frame.visible name)
    (nameSpeaks : Speaks frame.visible action.name) (speaks : attributes.Speaks frame.visible)
    (writes : Writes frame conditionals children) :
    Writes frame conditionals (Render.submit action attributes children) := by
  refine behind setting fun current currentConfined => ?_
  split
  · exact misuse _ _
  · next form isOpen =>
    split
    · have opened := currentConfined.scope.form form isOpen
      have islands : ∀ id ∈ form.islands, Speaks frame.visible id :=
        fun id member => (opened.islands id member).mono reaches
      have items : ∀ item ∈ form.items, item.Speaks frame.visible :=
        fun item member => (opened.items item member).mono reaches
      exact element (.of_braceFree (by decide))
        (speaks_buttonAttributes nameSpeaks (.of_braceFree opened.id)
          currentConfined.scope.speaks_current islands items speaks) writes
    · exact misuse _ _

theorem quickButton {action : Action} {refresh : Refresh} {formAttributes attributes : Attributes}
    {hidden children : Render String} (nameSpeaks : Speaks frame.visible action.name)
    (refreshSpeaks : refresh.Speaks frame.visible action)
    (formSpeaks : formAttributes.Speaks frame.visible)
    (hiddenWrites : Writes frame conditionals hidden) (speaks : attributes.Speaks frame.visible)
    (writes : Writes frame conditionals children) :
    Writes frame conditionals
      (Render.quickButton action refresh formAttributes hidden attributes children) := by
  refine behind (requireNoForm _) fun _ _ => behind nextFormId fun id idFree => ?_
  refine behind setting fun current currentConfined => ?_
  have withId := speaks_withId formSpeaks (.of_braceFree idFree)
  have buttonSpeaks := speaks_buttonAttributes nameSpeaks (.of_braceFree idFree)
    currentConfined.scope.speaks_current refreshSpeaks.islands refreshSpeaks.items speaks
  have button := element (.of_braceFree (by decide : BraceFree "button")) buttonSpeaks writes
  refine element (.of_braceFree (by decide)) withId ?_
  refine both hiddenWrites button fun ordered lastOrdered inputs text => ?_
  exact (inputs.append text (Or.inl (Nat.le_refl _))).widen (by omega) (by omega)

/-! ## Regions -/

theorem compileTemplate (resource : String) {template : Render String}
    (writes : Writes frame.detached conditionals template) :
    Places frame conditionals (Still fun handle => BraceFree handle.url)
      (Render.compileTemplate resource template) :=
  behind (inDocument (Numbering.braceFree_formPrefix_ofTemplate resource) writes)
    fun _ ⟨_, enclosed⟩ => storeTemplate resource enclosed

theorem recordRegion (region : Region) (handle : Handle) :
    Places frame conditionals (Still fun _ => True) (Render.recordRegion region handle) := by
  unfold Render.recordRegion
  split
  · exact recordIsland _
  · exact value fun _ => ⟨rfl, trivial⟩

theorem remote {region : Region} {template : DataRef → Render String} {fallback : Render String}
    (loading : region.loading.Speaks frame.visible)
    (templateWrites : Writes frame.detached conditionals (template .ofFragment))
    (fallbackWrites : Writes frame conditionals fallback) :
    Writes frame conditionals (Render.remote region template fallback) := by
  refine behind setting fun current currentConfined => ?_
  refine behind (compileTemplate region.resource templateWrites) fun handle address => ?_
  refine behind (recordRegion region handle) fun _ _ => ?_
  exact element (.of_braceFree (by decide))
    (speaks_placeholderAttributes loading currentConfined.config.fragmentHeader
      currentConfined.scope.speaks_current (.of_braceFree address)) fallbackWrites

/-! ## Routes -/

theorem switch {id : String} {attributes : Attributes} {children : Render String}
    (idSpeaks : Speaks frame.visible id) (routerSpeaks : Speaks frame.routers id)
    (speaks : attributes.Speaks frame.visible)
    (writes : Writes frame conditionals children) :
    Writes frame conditionals (Render.switch id attributes children) :=
  behind (seeContainer routerSpeaks) fun _ _ =>
    inScope (element (.of_braceFree (by decide))
        (speaks_switchAttributes idSpeaks speaks) writes)
      (fun _ confined => confined.inRouter routerSpeaks) rfl rfl rfl

theorem route {path title : String} {content : Render String} (free : BraceFree path)
    (writes : Writes frame conditionals content) :
    Writes frame conditionals (Render.route path title content) := by
  refine behind setting fun current currentConfined => ?_
  split
  · exact misuse _ _
  · next container around =>
    have containerSpeaks := currentConfined.scope.container container around
    refine behind (addRoute containerSpeaks) fun _ _ => ?_
    split
    · exact inScope writes (fun _ confined => confined.enter free) rfl rfl rfl
    · exact nothing

theorem withResource {resource : String} {content : DataRef → Render String}
    (writes : Writes frame conditionals (content (.ofResource resource))) :
    Writes frame conditionals (Render.withResource resource content) := by
  refine behind (require resource) fun key known => ?_
  rw [known]
  exact writes

theorem link {target : String} {locale : Option String} {attributes : Attributes}
    {children : Render String} (reaches : ∀ name, frame.routers name → frame.visible name)
    (targetSpeaks : Speaks frame.visible target)
    (localeSpeaks : ∀ language ∈ locale, Speaks frame.visible language)
    (speaks : attributes.Speaks frame.visible) (writes : Writes frame conditionals children) :
    Writes frame conditionals (Render.link target locale attributes children) := by
  refine behind setting fun current _ => ?_
  refine behind (containerOf _) fun container containerSpeaks => ?_
  exact element (.of_braceFree (by decide))
    (speaks_linkAttributes targetSpeaks (containerSpeaks.mono reaches) localeSpeaks
      speaks) writes

theorem redirect (target : String) : Writes frame conditionals (Render.redirect target) :=
  behind (note _ _) fun _ _ => behind (note _ _) fun _ _ => nothing

/-! ## The document around a page -/

theorem head {content : Render String} (writes : Writes frame conditionals content) :
    Writes frame conditionals (Render.head content) := by
  have loader (number : Nat) :
      Enclosed frame.visible number number (elementText "script" loaderAttributes "") :=
    enclosed_elementText (.of_braceFree (by decide)) speaks_loaderAttributes
      (Speaks.enclosed (.of_braceFree braceFree_empty) number number)
  have continued : Writes frame conditionals
      (content >>= fun text => pure (elementText "script" loaderAttributes "" ++ text)) := by
    refine sequence writes fun start text last ordered enclosed => value fun number same => ?_
    subst same
    have whole := (loader start).append enclosed (Or.inl (Nat.le_refl _))
    exact whole.widen (by omega) (by omega)
  exact element (.of_braceFree (by decide)) Attributes.speaks_nil continued

theorem withMetaTags {tags : List Attributes} {content : Render String}
    (speaks : ∀ attributes ∈ tags, attributes.Speaks frame.visible)
    (writes : Writes frame conditionals content) :
    Writes frame conditionals (Render.withMetaTags tags content) := by
  refine sequence writes fun start text last ordered enclosed => value fun number same => ?_
  subst same
  have whole := enclosed.append (enclosed_metaTagsText speaks number) (Or.inl (Nat.le_refl _))
  exact whole.widen (by omega) (by omega)

/-- The loops of the head are numbered behind those of the body. -/
theorem shell {morph : Bool} {headContent children : Render String}
    (headWrites : Writes frame conditionals headContent)
    (writes : Writes frame.inShell conditionals children) :
    Writes frame conditionals (Render.shell morph headContent children) := by
  have start : Speaks frame.visible "<html>" := .of_braceFree (by decide)
  have ending : Speaks frame.visible "</html>" := .of_braceFree (by decide)
  have body : Writes frame.inShell conditionals
      (Render.element "body" (bodyAttributes morph) children) :=
    element (.of_braceFree (by decide)) (speaks_bodyAttributes morph) writes
  refine sequence (collectMetaTags body)
    fun first collected middle ordered ⟨bodyEnclosed, tags⟩ => ?_
  have headPlaces : Writes frame conditionals
      (Render.construct .head (Render.head (Render.withMetaTags collected.2 headContent))) :=
    construct (head (withMetaTags tags headWrites))
  refine sequence headPlaces fun now text last lastOrdered enclosed =>
    value fun number same now => ?_
  subst now same
  have contents : Enclosed frame.visible first number (text ++ collected.1) :=
    (enclosed.append bodyEnclosed (Or.inr (Nat.le_refl _))).widen (by omega) (by omega)
  have whole := contents.between start ending
  rwa [← String.append_assoc] at whole

theorem metaTag {attributes : Attributes} (speaks : attributes.Speaks frame.shell) :
    Writes frame conditionals (Render.metaTag attributes) := by
  refine behind setting fun current _ => ?_
  split
  · exact behind (addMetaTag speaks) fun _ _ => nothing
  · exact misuse _ _

theorem stylesheet {name contents : String} {inlined : Bool}
    (speaks : inlined = true → Speaks frame.visible name ∧ Speaks frame.visible contents) :
    Writes frame conditionals (Render.stylesheet name contents inlined) := by
  have empty : Speaks frame.visible "" := .of_braceFree braceFree_empty
  unfold Render.stylesheet
  dsimp only
  split
  · next isInlined =>
    obtain ⟨nameSpeaks, contentsSpeak⟩ := speaks isInlined
    have opening : Speaks frame.visible "/* " := .of_braceFree (by decide)
    have closing : Speaks frame.visible " */\n" := .of_braceFree (by decide)
    have text : Speaks frame.visible (stylesheetText name contents) :=
      ((opening.append nameSpeaks).append closing).append contentsSpeak
    exact value fun number => enclosed_elementText (.of_braceFree (by decide))
      Attributes.speaks_nil (text.enclosed number number)
  · refine behind (storeAsset _ _ _) fun address free => ?_
    have attributes : Attributes.Speaks frame.visible
        [⟨"rel", .string "stylesheet"⟩,
         ⟨"href", .string address⟩,
         ⟨"type", .string "text/css"⟩,
         ⟨"media", .string "screen"⟩] :=
      .fixed (by decide) (by decide) <|
        .fixed (by decide) free <|
          .fixed (by decide) (by decide) <|
            .fixed (by decide) (by decide) Attributes.speaks_nil
    exact value fun number => enclosed_elementText (.of_braceFree (by decide)) attributes
      (empty.enclosed number number)

theorem script {source : ScriptSource} (speaks : source.Speaks frame.visible) :
    Writes frame conditionals (Render.script source) := by
  unfold Render.script
  split
  · next contents given =>
    split
    · next isInlined =>
      have attributes : Attributes.Speaks frame.visible [scriptType source.asModule] :=
        Attributes.speaks_nil.cons (speaks_scriptType _)
      have text := speaks isInlined contents given
      exact value fun number => enclosed_elementText (.of_braceFree (by decide)) attributes
        (text.enclosed number number)
    · exact behind (storeAsset _ _ _) fun address free =>
        value fun number => enclosed_linkedScript _ free number
  · refine behind (lookupAsset _) fun found addresses => ?_
    split
    · next address =>
      exact value fun number => enclosed_linkedScript _ (addresses address rfl) number
    · refine behind setting fun current _ => ?_
      split
      · exact fault _
      · exact nothing

end Places

end Render

/-! ## Views -/

mutual

/-- A confined view is rendered to a text whose loops are those that the render
numbers, in whatever surroundings fit its frame. -/
theorem View.render_writes : ∀ (view : View) (frame : Frame) (conditionals : List Frame),
    view.Confined frame conditionals → view.render.Writes frame conditionals
  | .blank, _, _, _ => .nothing
  | .text _, _, _, confined => .spoken (speaks_escapeText confined)
  | .raw _, _, _, confined => .spoken confined
  | .group children, frame, conditionals, confined =>
      View.renderAll_writes children frame conditionals confined
  | .element _ _ children, frame, conditionals, confined =>
      .element confined.1 confined.2.1 (View.renderAll_writes children frame conditionals confined.2.2)
  | .conditional _ _ body none, frame, conditionals, confined =>
      .construct (.conditional confined.1.1 confined.1.2 _
        (View.renderAll_writes body frame (frame :: conditionals) confined.2) (by simp))
  | .conditional _ _ body (some otherwise), frame, conditionals, confined =>
      .construct (.conditional confined.1.1 confined.1.2 _
        (View.renderAll_writes body frame (frame :: conditionals) confined.2.1)
        (by simpa using View.render_writes otherwise frame conditionals confined.2.2))
  | .alternative branch, _, conditionals, confined =>
      .construct (.alternative fun around outer same => by
        subst same
        exact View.render_writes branch around outer confined)
  | .loop _ body, frame, conditionals, confined =>
      .construct (.loop confined.1.1 confined.1.2 fun numbering =>
        View.render_writes (body ⟨numbering.elementName⟩ ⟨numbering.positionName⟩)
          (frame.inLoop numbering) conditionals (confined.2 numbering))
  | .switch _ _ children, frame, conditionals, confined =>
      .construct (.switch confined.1.1 confined.1.2 confined.2.1
        (View.renderAll_writes children frame conditionals confined.2.2))
  | .route _ _ children, frame, conditionals, confined =>
      .construct (.route confined.1
        (View.renderAll_writes children frame conditionals confined.2))
  | .dataRoute _ _ resource body, frame, conditionals, confined =>
      .construct (.route confined.1 (.withResource
        (View.render_writes (body (.ofResource resource)) frame conditionals confined.2)))
  | .link _ _ _ children, frame, conditionals, confined =>
      .construct (.link confined.1 confined.2.1 confined.2.2.1 confined.2.2.2.1
        (View.renderAll_writes children frame conditionals confined.2.2.2.2))
  | .redirect _, _, _, _ => .construct (.redirect _)
  | .shell _ headChildren children, frame, conditionals, confined =>
      .construct (.shell (View.renderAll_writes headChildren frame conditionals confined.1)
        (View.renderAll_writes children frame.inShell conditionals confined.2))
  | .head children, frame, conditionals, confined =>
      .construct (.head (View.renderAll_writes children frame conditionals confined))
  | .metaTag _, _, _, confined => .construct (.metaTag confined)
  | .stylesheet _ _ _, _, _, confined => .construct (.stylesheet confined)
  | .script _, _, _, confined => .construct (.script confined)
  | .remote _ template fallback, frame, conditionals, confined =>
      .construct (.remote confined.1
        (View.render_writes (template .ofFragment) frame.detached conditionals confined.2.1)
        (View.render_writes fallback frame conditionals confined.2.2))
  | .form _ _ _ children, frame, conditionals, ⟨speaks, names, refreshSpeaks, confined⟩ =>
      .construct (.form refreshSpeaks speaks
        (View.renderAll_writes children (frame.inForm names) conditionals confined))
  | .submit _ _ children, frame, conditionals, confined =>
      .construct (.submit confined.1 confined.2.1 confined.2.2.1
        (View.renderAll_writes children frame conditionals confined.2.2.2))
  | .quickButton _ _ _ hidden _ children, frame, conditionals,
      ⟨⟨nameSpeaks, refreshSpeaks⟩, ⟨formSpeaks, hiddenConfined⟩, speaks, confined⟩ =>
      .construct (.quickButton nameSpeaks refreshSpeaks formSpeaks
        (View.renderAll_writes hidden frame conditionals hiddenConfined) speaks
        (View.renderAll_writes children frame conditionals confined))
  | .component _ _, _, _, confined => confined.elim

theorem View.renderAll_writes : ∀ (views : List View) (frame : Frame)
    (conditionals : List Frame), View.AllConfined views frame conditionals →
      (View.renderAll views).Writes frame conditionals
  | [], _, _, _ => .nothing
  | first :: rest, frame, conditionals, confined =>
      .both (View.render_writes first frame conditionals confined.1)
        (View.renderAll_writes rest frame conditionals confined.2)
        fun ordered lastOrdered text others =>
          (text.append others (Or.inl (Nat.le_refl _))).widen (by omega) (by omega)

end

end Sitewright

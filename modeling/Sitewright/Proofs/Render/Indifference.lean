import Sitewright.Proofs.Render.Closure

/-!
Contract: renders that do not notice a change of their setting.

A change that leaves the replies to requests, the header of fragment requests and the scope but for
the form around as they are is not noticed by any construct that has nothing to do with forms. It
makes no difference to the outcome of a render nor to the state it leaves, whatever was in the state
before; for a branch that the render leaves may only be rendered in another setting later on.

Owns:
- `Render.Ignores`, renders that go the same way when the setting is changed;
- one lemma for each operation;
- `Setting.Slight`, the changes that constructs without forms ignore.

Does not own: any particular change.
-/

namespace Sitewright

/-- A branch that ends alike in the changed setting. -/
def Branch.Ignores (change : Setting → Setting) (branch : Branch) : Prop :=
  ∀ setting ledger, branch (change setting) ledger = branch setting ledger

/-- A render that goes the same way in the changed setting, and leaves no other branch than one that
waited before or that does so too. -/
structure Render.Ignores (change : Setting → Setting) {α : Type} (render : Render α) : Prop where
  same : ∀ setting state, render (change setting) state = render setting state
  leaves : ∀ setting state, ∀ branch ∈ (render setting state).2.branch,
    branch ∈ state.branch ∨ branch.Ignores change

namespace Render.Ignores

variable {change : Setting → Setting} {α β : Type}

/-- A render that neither leaves a branch nor takes one. -/
theorem of_branch_eq {render : Render α}
    (same : ∀ setting state, render (change setting) state = render setting state)
    (waits : ∀ setting state, (render setting state).2.branch = state.branch) :
    render.Ignores change where
  same := same
  leaves := by
    intro setting state branch member
    rw [waits] at member
    exact .inl member

theorem pure (value : α) : (Pure.pure value : Render α).Ignores change :=
  of_branch_eq (fun _ _ => rfl) fun _ _ => rfl

theorem fail (fault : Fault) : (Render.fail fault : Render α).Ignores change :=
  of_branch_eq (fun _ _ => rfl) fun _ _ => rfl

theorem bind {first : Render α} {next : α → Render β} (firstIgnores : first.Ignores change)
    (nextIgnores : ∀ value, (next value).Ignores change) : (first >>= next).Ignores change where
  same := by
    intro setting state
    have early := firstIgnores.same setting state
    rcases outcome : first setting state with ⟨fault | value, after⟩
    · rw [bind_of_error outcome, bind_of_error (early.trans outcome)]
    · rw [bind_of_ok outcome, bind_of_ok (early.trans outcome)]
      exact (nextIgnores value).same setting after
  leaves := by
    intro setting state branch member
    have early := firstIgnores.leaves setting state
    rcases outcome : first setting state with ⟨fault | value, after⟩
    all_goals rw [outcome] at early
    · rw [bind_of_error outcome] at member
      exact early branch member
    · rw [bind_of_ok outcome] at member
      rcases (nextIgnores value).leaves setting after branch member with waited | ignores
      · exact early branch waited
      · exact .inr ignores

theorem within (component : String) {render : Render α} (ignores : render.Ignores change) :
    (Render.within component render).Ignores change where
  same := by
    intro setting state
    unfold Render.within
    rw [ignores.same]
  leaves := by
    intro setting state
    rw [state_within]
    exact ignores.leaves setting state

/-- A move to another scope, if it comes to the same place from the changed setting. -/
theorem inScope {move : Scope → Scope}
    (same : ∀ setting, change { change setting with scope := move (change setting).scope } =
      change { setting with scope := move setting.scope })
    {render : Render α} (ignores : render.Ignores change) :
    (Render.inScope move render).Ignores change where
  same := by
    intro setting state
    calc render { change setting with scope := move (change setting).scope } state
        = render (change { change setting with scope := move (change setting).scope }) state :=
          (ignores.same _ state).symm
      _ = render (change { setting with scope := move setting.scope }) state := by rw [same]
      _ = render { setting with scope := move setting.scope } state := ignores.same _ state
  leaves := fun setting => ignores.leaves { setting with scope := move setting.scope }

/-! ## Branches -/

theorem toBranch {render : Render String} (ignores : render.Ignores change) :
    render.toBranch.Ignores change := by
  intro setting ledger
  unfold Render.toBranch
  rw [ignores.same]

theorem ofBranch {branch : Branch} (ignores : branch.Ignores change) :
    (Render.ofBranch branch).Ignores change := by
  refine of_branch_eq (fun setting state => ?_) fun _ _ => rfl
  unfold Render.ofBranch
  rw [ignores]

theorem leaveBranch {render : Render String} (ignores : render.Ignores change) :
    (Render.leaveBranch render.toBranch).Ignores change where
  same := fun _ _ => rfl
  leaves := by
    intro setting state branch member
    unfold Render.leaveBranch at member
    split at member
    · exact .inl member
    · obtain rfl : render.toBranch = branch := Option.some.inj member
      exact .inr ignores.toBranch

/-- Nothing waits when a conditional is entered, so whatever it collects ignores the change. -/
theorem collectBranch {render : Render α} {next : α × Option Branch → Render β}
    (ignores : (Render.inScope Scope.inConditional render).Ignores change)
    (nextIgnores : ∀ value left, (∀ branch ∈ left, (Render.ofBranch branch).Ignores change) →
      (next (value, left)).Ignores change) :
    (Render.collectBranch render >>= next).Ignores change := by
  have collected : ∀ setting state, Render.collectBranch render (change setting) state =
      Render.collectBranch render setting state := by
    intro setting state
    unfold Render.collectBranch
    rw [ignores.same]
  have left : ∀ (setting : Setting) (state : State), ∀ branch ∈
      (Render.inScope Scope.inConditional render setting { state with branch := none }).2.branch,
        (Render.ofBranch branch).Ignores change := by
    intro setting state branch member
    rcases ignores.leaves setting { state with branch := none } branch member with waited | ignores
    · cases waited
    · exact ofBranch ignores
  constructor
  all_goals
    intro setting state
    specialize left setting state
    rcases outcome : Render.inScope Scope.inConditional render setting { state with branch := none }
      with ⟨fault | value, inner⟩
    all_goals rw [outcome] at left
  · have failed := collectBranch_of_error outcome
    rw [bind_of_error failed, bind_of_error ((collected setting state).trans failed)]
  · have finished := collectBranch_of_ok outcome
    rw [bind_of_ok finished, bind_of_ok ((collected setting state).trans finished)]
    exact (nextIgnores value inner.branch left).same setting { inner with branch := state.branch }
  · rw [bind_of_error (collectBranch_of_error outcome)]
    exact fun branch member => .inl member
  · rw [bind_of_ok (collectBranch_of_ok outcome)]
    exact (nextIgnores value inner.branch left).leaves setting
      { inner with branch := state.branch }

/-! ## Documents and shells -/

theorem inDocument (numbering : Numbering) {render : Render α}
    (ignores : (Render.inScope Scope.detached render).Ignores change) :
    (Render.inDocument numbering render).Ignores change where
  same := by
    intro setting state
    unfold Render.inDocument
    rw [ignores.same]
  leaves := fun setting state =>
    ignores.leaves setting { state with ledger := { state.ledger with numbering } }

theorem collectMetaTags {render : Render α}
    (ignores : (Render.inScope Scope.inShell render).Ignores change) :
    (Render.collectMetaTags render).Ignores change where
  same := by
    intro setting state
    unfold Render.collectMetaTags
    rw [ignores.same]
  leaves := by
    intro setting state
    have inside := ignores.leaves setting
      { state with ledger := { state.ledger with metaTags := [] } }
    unfold Render.collectMetaTags
    rcases outcome : Render.inScope Scope.inShell render setting
        { state with ledger := { state.ledger with metaTags := [] } } with ⟨fault | value, inner⟩
    all_goals
      rw [outcome] at inside
      exact inside

end Render.Ignores

/-! ## Slight changes -/

/-- A change of which neither requests other than that for the configuration nor constructs without
forms can tell. -/
structure Setting.Slight (change : Setting → Setting) : Prop where
  reply : ∀ request : Request, request ≠ .config → ∀ setting state,
    request.reply (change setting) state = request.reply setting state
  header : ∀ setting, (change setting).config.fragmentHeader = setting.config.fragmentHeader
  scope : ∀ setting, (change setting).scope.withoutForm = setting.scope.withoutForm
  moved : ∀ move : Scope → Scope,
    (∀ scope : Scope, (move scope.withoutForm).withoutForm = (move scope).withoutForm) →
      ∀ setting, change { change setting with scope := move (change setting).scope } =
        change { setting with scope := move setting.scope }

namespace Setting.Slight

variable {change : Setting → Setting} (slight : Slight change)

include slight

theorem ignores_reply {request : Request} (other : request ≠ .config) :
    request.reply.Ignores change := by
  refine .of_branch_eq (slight.reply request other) ?_
  cases request with
  | _ => exact fun _ _ => rfl

theorem ignores_inScope {α : Type} (move : Scope → Scope) {render : Render α}
    (blind : ∀ scope : Scope, (move scope.withoutForm).withoutForm = (move scope).withoutForm)
    (ignores : render.Ignores change) : (Render.inScope move render).Ignores change :=
  .inScope (slight.moved move blind) ignores

theorem ignores_recordRegion (region : Region) (handle : Catalog.Handle) :
    (Render.recordRegion region handle).Ignores change := by
  unfold Render.recordRegion
  split
  · next id _ =>
    have other : Request.recordIsland (Render.islandRecord region handle id) ≠ .config := by simp
    exact slight.ignores_reply other
  · exact .pure ()

/-- All operations of constructs without forms ignore a slight change. -/
theorem kept : Render.Kept (fun _ => True) (@Render.Ignores change) where
  outermost := trivial
  entered := fun _ _ => trivial
  value := .pure
  fault := .fail
  sequence := .bind
  glancing := by
    intro α next blind ignores
    refine ⟨fun setting state => ?_, fun setting =>
      (ignores setting.scope setting.config.fragmentHeader trivial).leaves setting⟩
    have same : next (change setting).scope (change setting).config.fragmentHeader =
        next setting.scope setting.config.fragmentHeader := by
      rw [slight.header, ← blind, slight.scope, blind]
    rw [same]
    exact (ignores setting.scope setting.config.fragmentHeader trivial).same setting state
  reply := fun _ common _ => slight.ignores_reply (by rintro rfl; exact common)
  addMetaTag := fun _ => .of_branch_eq (fun _ _ => rfl) fun _ _ => rfl
  inScope := fun move _ blind _ ignores => slight.ignores_inScope move blind ignores
  within := .within
  leaveBranch := .leaveBranch
  collectBranch := fun ignores => .collectBranch (slight.ignores_inScope _ (fun _ => rfl) ignores)
  inDocument := fun numbering _ ignores =>
    .inDocument numbering (slight.ignores_inScope _ (fun _ => rfl) ignores)
  collectMetaTags := fun ignores =>
    .collectMetaTags (slight.ignores_inScope _ (fun _ => rfl) ignores)
  region := by
    intro region template rest templateIgnores restIgnores
    have other : ∀ text, Request.storeTemplate region.resource text ≠ .config := by simp
    have detached := slight.ignores_inScope Scope.detached (fun _ => rfl) templateIgnores
    have compiled : (Render.compileTemplate region.resource template).Ignores change :=
      .bind (.inDocument _ detached) fun text => slight.ignores_reply (other text)
    exact .bind compiled fun handle =>
      .bind (slight.ignores_recordRegion region handle) fun _ => restIgnores handle

end Setting.Slight

end Sitewright

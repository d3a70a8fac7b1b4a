import Sitewright.Proofs.Render.Stage

/-!
Contract: what each construct hands on to what is rendered after it in its document.

Three things pass from one render to the next: the numbering, from which names of loops and ids of
forms are drawn, the meta tags that wait for the head, and the alternative that waits for the
conditional around. The meta tags do not pass into the body of a shell, and not out of it.

Owns:
- `State.carried`, all that passes on, and `State.thread`, the part that passes through shells;
- the state in which each construct ends, as that of what it renders last;
- what replies to requests do to what is carried on.

Does not own: in which order the renders of a document start.
-/

namespace Sitewright

open Markup Template Catalog Routing

/-! ## Numberings -/

/-- The numbering of the document that is rendered. -/
def State.numbering (state : State) : Numbering :=
  state.ledger.numbering

/-- What a render hands on to the next one in its document: the numbering, and the alternative
that waits. -/
def State.thread (state : State) : Numbering × Option Branch :=
  (state.numbering, state.branch)

/-- The meta tags that wait for the head of the innermost shell. -/
def State.metaTags (state : State) : List Attributes :=
  state.ledger.metaTags

/-- The numbering together with the meta tags. -/
def State.document (state : State) : Numbering × List Attributes :=
  state.ledger.document

/-- What a render hands on to the next one in the same shell. -/
def State.carried (state : State) : (Numbering × List Attributes) × Option Branch :=
  (state.document, state.branch)

/-- The numbering after the reply to a request: names of a loop and ids of forms are drawn
from it. -/
def Request.draw (numbering : Numbering) : Request → Numbering
  | .loopNames => numbering.afterLoop
  | .formId => numbering.afterForm
  | _ => numbering

namespace Render

variable {α β : Type} {setting : Setting} {state after : State}

/-! ## Last changes -/

/-- What comes after the last change only makes a value. -/
theorem state_last {first : Render α} {next : α → Render β} (value : α → β)
    (last : ∀ result, next result = pure (value result)) (setting : Setting) (state : State) :
    ((first >>= next) setting state).2 = (first setting state).2 := by
  rcases outcome : first setting state with ⟨fault | result, after⟩
  · rw [bind_of_error outcome]
  · rw [bind_of_ok outcome, last]
    rfl

theorem state_element (tag : String) (attributes : Attributes) (content : Render String)
    (setting : Setting) (state : State) :
    (element tag attributes content setting state).2 = (content setting state).2 :=
  state_last (elementText tag attributes) (fun _ => rfl) setting state

theorem state_route {path title container : String} {content : Render String}
    (inside : setting.scope.container = some container)
    (added : addRoute { path := setting.scope.current.extend path, title, container }
      setting state = (.ok (), after)) (selected : setting.scope.selects path = true) :
    (route path title content setting state).2 =
      (content { setting with scope := setting.scope.enter path } after).2 := by
  unfold route
  rw [setting_bind]
  simp only [inside]
  rw [bind_of_ok added, if_pos selected]
  rfl

/-- A conditional ends where its alternative does. -/
theorem state_conditional {condition : Expr} {negated : Bool} {body chosen : Render String}
    {otherwise : Option (Render String)} {left : Option Branch} {text : String}
    (writable : condition.defect? = none)
    (rendered : collectBranch body setting state = (.ok (text, left), after))
    (choice : chooseAlternative otherwise left = pure (some chosen)) :
    (conditional condition negated body otherwise setting state).2 =
      (chosen { setting with scope := setting.scope.outsideConditional } after).2 := by
  rw [conditional_of_writable writable, bind_of_ok rendered]
  simp only [choice, value_bind]
  rw [state_last (fun alternative => ifBlock (condition.header negated) negated text alternative)
    fun _ => rfl]
  exact state_last some (fun _ => rfl) setting after

/-- Without an alternative, a conditional ends where its body does. -/
theorem state_conditional_of_last {condition : Expr} {negated : Bool} {body : Render String}
    {otherwise : Option (Render String)} {result : Except Fault (String × Option Branch)}
    (writable : condition.defect? = none)
    (rendered : collectBranch body setting state = (result, after))
    (last : ∀ text left, result = .ok (text, left) → left.isSome = otherwise.isSome) :
    (conditional condition negated body otherwise setting state).2 = after := by
  rw [conditional_of_writable writable]
  rcases result with fault | ⟨text, left⟩
  · rw [bind_of_error rendered]
  · rw [bind_of_ok rendered]
    have both := last text left rfl
    -- Two alternatives are a misuse, and without any there is nothing more to render.
    cases otherwise with
    | none =>
        cases left with
        | none => rfl
        | some branch => cases both
    | some chosen =>
        cases left with
        | none => cases both
        | some branch => rfl

/-! ## Requests -/

theorem carried_modifyGet {change : Setting → Ledger → α × Ledger}
    (same : (change setting state.ledger).2.document = state.ledger.document) :
    (modifyGet change setting state).2.carried = state.carried :=
  Prod.ext same rfl

/-- A reply changes the numbering only if it draws from it, and never the meta tags or the
alternative that waits. -/
theorem carried_reply (request : Request) (setting : Setting) (state : State) :
    (request.reply setting state).2.carried =
      ((request.draw state.numbering, state.metaTags), state.branch) := by
  cases request with
  | loopNames | formId | resource | note | containerOf | config => rfl
  | storeTemplate resource template =>
      exact carried_modifyGet (Ledger.document_storeTemplate _ _ _ _)
  | recordIsland record => exact carried_modifyGet (Ledger.document_recordIsland _ _ _)
  | fragmentCount =>
      refine carried_modifyGet ?_
      split <;> rfl
  | islandFragment id =>
      refine carried_modifyGet ?_
      split <;> rfl
  | addRoute route title container => exact carried_modifyGet (Ledger.document_addRoute _ _ _)
  | seeContainer container => exact carried_modifyGet (Ledger.document_seeContainer _ _ _)
  | storeAsset contents name kind =>
      refine carried_modifyGet ?_
      split
      · next stored => exact Ledger.document_storeAsset _ _ stored
      · rfl
  | lookupAsset name => exact carried_modifyGet (Ledger.document_lookupAsset _ _ _)

/-- A request is always answered. -/
theorem reply_ok (request : Request) (setting : Setting) (state : State) :
    ∃ reply, (request.reply setting state).1 = .ok reply := by
  cases request <;> exact ⟨_, rfl⟩

theorem carried_storeAsset (contents name : String) (kind : AssetKind) (setting : Setting)
    (state : State) : (storeAsset contents name kind setting state).2.carried = state.carried := by
  have offered : (offerAsset contents name kind setting state).2.carried = state.carried :=
    carried_reply (.storeAsset contents name kind) setting state
  obtain ⟨answer, answered⟩ := reply_ok (.storeAsset contents name kind) setting state
  have outcome : offerAsset contents name kind setting state = (.ok answer, _) :=
    Prod.ext answered rfl
  unfold storeAsset
  rw [bind_of_ok outcome]
  cases answer <;> exact offered

theorem carried_stylesheet (name contents : String) (inlined : Bool) (setting : Setting)
    (state : State) :
    (stylesheet name contents inlined setting state).2.carried = state.carried := by
  unfold stylesheet
  split
  · rfl
  · rw [state_last _ fun _ => rfl]
    exact carried_storeAsset _ _ _ _ _

theorem carried_script (source : ScriptSource) (setting : Setting) (state : State) :
    (script source setting state).2.carried = state.carried := by
  unfold script
  cases source.contents with
  | some contents =>
      dsimp only
      cases source.inlined with
      | true => rfl
      | false =>
          rw [if_neg Bool.false_ne_true, state_last _ fun _ => rfl]
          exact carried_storeAsset _ _ _ _ _
  | none =>
      dsimp only
      have found : (lookupAsset source.name setting state).2.carried = state.carried :=
        carried_reply (.lookupAsset source.name) setting state
      rcases outcome : lookupAsset source.name setting state with ⟨fault | address, after⟩
      all_goals rw [outcome] at found
      · rw [bind_of_error outcome]
        exact found
      · rw [bind_of_ok outcome]
        cases address with
        | some address => exact found
        | none =>
            dsimp only
            rw [setting_bind]
            by_cases building : setting.scope.building = true
            · simp only [building, if_true]
              exact found
            · simp only [building]
              exact found

/-- In a shell, a meta tag joins those that wait. -/
theorem carried_metaTag (attributes : Attributes) (setting : Setting) (state : State) :
    (metaTag attributes setting state).2.carried =
      ((state.numbering,
        if setting.scope.shell then state.metaTags ++ [attributes] else state.metaTags),
        state.branch) := by
  unfold metaTag
  rw [setting_bind]
  cases inShell : setting.scope.shell with
  | true =>
      simp only [inShell, if_true]
      rfl
  | false =>
      simp only [inShell]
      rfl

/-- A marker never changes the ledger. -/
theorem ledger_alternative (branch : Render String) (setting : Setting) (state : State) :
    (alternative branch setting state).2.ledger = state.ledger := by
  unfold alternative
  rw [setting_bind]
  dsimp only
  split
  · unfold leaveBranch
    cases waiting : state.branch with
    | none => simp [bind, waiting, nothing, pure]
    | some earlier => simp [bind, waiting, misuse, fail]
  · rfl

/-- A route that is not entered is registered only. -/
theorem carried_route_of_passed {path title : String} {content : Render String}
    (passed : ∀ container, setting.scope.container = some container →
      setting.scope.selects path = false) (state : State) :
    (route path title content setting state).2.carried = state.carried := by
  unfold route
  rw [setting_bind]
  cases inside : setting.scope.container with
  | none =>
      simp only [inside]
      rfl
  | some container =>
      have added : addRoute { path := setting.scope.current.extend path, title, container }
          setting state = (.ok (), _) := rfl
      simp only [inside]
      rw [bind_of_ok added, passed container inside]
      exact carried_reply (.addRoute _ title container) setting state

theorem requireNoForm_of_open (construct : Construct) {form : OpenForm}
    (around : setting.scope.form = some form) (state : State) :
    requireNoForm construct setting state =
      (misuse construct "form actions cannot be nested" : Render Unit) setting state := by
  unfold requireNoForm
  rw [setting_bind]
  simp [around]

/-! ## Shells and buttons -/

/-- Only the meta tags differ inside of a shell, and the outer ones are put back afterwards. -/
theorem thread_collectMetaTags (content : Render α) (setting : Setting)
    (state : State) : (collectMetaTags content setting state).2.thread =
      (content { setting with scope := setting.scope.inShell }
        { state with ledger := { state.ledger with metaTags := [] } }).2.thread := by
  unfold collectMetaTags
  dsimp only [inScope]
  split <;> rfl

/-- The body of a shell hands on what its content ends with. -/
theorem thread_of_shellBody {morph : Bool} {children : Render String}
    {result : Except Fault (String × List Attributes)}
    (ended : collectMetaTags (element "body" (bodyAttributes morph) children) setting state =
      (result, after)) :
    (children { setting with scope := setting.scope.inShell }
      { state with ledger := { state.ledger with metaTags := [] } }).2.thread = after.thread := by
  rw [← state_element "body" (bodyAttributes morph), ← thread_collectMetaTags, ended]

theorem state_head (content : Render String) (setting : Setting) (state : State) :
    (head content setting state).2 = (content setting state).2 := by
  unfold head
  rw [state_element]
  exact state_last _ (fun _ => rfl) setting state

theorem state_shell_of_error {morph : Bool} {headContent children : Render String} {fault : Fault}
    (failed : collectMetaTags (element "body" (bodyAttributes morph) children) setting state =
      (.error fault, after)) : (shell morph headContent children setting state).2 = after := by
  unfold shell
  rw [bind_of_error failed]

theorem state_shell_of_ok {morph : Bool} {headContent children : Render String}
    {collected : String × List Attributes}
    (rendered : collectMetaTags (element "body" (bodyAttributes morph) children) setting state =
      (.ok collected, after)) :
    (shell morph headContent children setting state).2 = (headContent setting after).2 := by
  unfold shell
  rw [bind_of_ok rendered, state_last _ fun _ => rfl]
  refine (state_within _ _ _ _).trans ((state_head _ _ _).trans ?_)
  exact state_last _ (fun _ => rfl) setting after

/-- A button that may stand here is its hidden inputs and its content, behind a new id. -/
theorem state_quickButton {action : Action} {refresh : Refresh}
    {formAttributes attributes : Attributes} {hidden children : Render String} {id : String}
    (alone : setting.scope.form = none) (fresh : nextFormId setting state = (.ok id, after)) :
    (quickButton action refresh formAttributes hidden attributes children setting state).2 =
      ((do
        let inputs ← hidden
        let button ← element "button"
          (action.buttonAttributes id setting.scope.current.text (refresh.islandIds action)
            refresh.items attributes) children
        return inputs ++ button : Render String) setting after).2 := by
  unfold quickButton
  rw [bind_of_ok (requireNoForm_of_alone .quickButton alone state), bind_of_ok fresh, setting_bind]
  exact state_element _ _ _ setting after

/-! ## Branches and regions -/

theorem ledger_collectBranch (body : Render α) (setting : Setting) (state : State) :
    (collectBranch body setting state).2.ledger =
      (body { setting with scope := setting.scope.inConditional }
        { state with branch := none }).2.ledger := by
  unfold collectBranch
  dsimp only [inScope]
  split
  all_goals next outcome => rw [outcome]

theorem branch_collectBranch (body : Render α) (setting : Setting) (state : State) :
    (collectBranch body setting state).2.branch = state.branch := by
  unfold collectBranch
  split <;> rfl

/-- What a region leaves behind once its template is compiled: the numbering of the host is as
it was, whatever the template has drawn. -/
theorem carried_compileTemplate (resource : String) (template : Render String) (setting : Setting)
    (state : State) {inner : State}
    (rendered : (template { setting with scope := setting.scope.detached }
      { state with ledger := { state.ledger with numbering := .ofTemplate resource } }).2 =
        inner) :
    (compileTemplate resource template setting state).2.carried =
      ((state.numbering, inner.metaTags), inner.branch) := by
  rcases outcome : inDocument (.ofTemplate resource) template setting state
    with ⟨fault | text, after⟩
  all_goals
    have ended := congrArg (fun outcome => State.carried outcome.2) outcome
    subst rendered
    unfold compileTemplate
  · rw [bind_of_error outcome]
    exact ended.symm
  · rw [bind_of_ok outcome]
    exact (carried_reply (.storeTemplate resource text) setting after).trans ended.symm

theorem carried_recordRegion (region : Region) (handle : Handle) (setting : Setting)
    (state : State) : (recordRegion region handle setting state).2.carried = state.carried := by
  unfold recordRegion
  cases region.island with
  | some id => exact carried_reply (.recordIsland _) setting state
  | none => rfl

theorem state_remote_of_error {region : Region} {fault : Fault}
    {template : DataRef → Render String} {fallback : Render String}
    (failed : compileTemplate region.resource (template .ofFragment) setting state =
      (.error fault, after)) : (remote region template fallback setting state).2 = after := by
  unfold remote
  rw [setting_bind]
  dsimp only
  rw [bind_of_error failed]

theorem state_remote {region : Region} {handle : Handle} {later : State}
    {template : DataRef → Render String} {fallback : Render String}
    (compiled : compileTemplate region.resource (template .ofFragment) setting state =
      (.ok handle, after))
    (recorded : recordRegion region handle setting after = (.ok (), later)) :
    (remote region template fallback setting state).2 = (fallback setting later).2 := by
  unfold remote
  rw [setting_bind]
  dsimp only
  rw [bind_of_ok compiled, bind_of_ok recorded]
  exact state_element _ _ _ _ _

/-- A marker leaves its branch in a conditional, and nothing else. -/
theorem branch_alternative (branch : Render String) (setting : Setting) (state : State) :
    (alternative branch setting state).2.branch = state.branch ∨
      setting.scope.conditional = true ∧
        (alternative branch setting state).2.branch = some branch.toBranch := by
  unfold alternative
  rw [setting_bind]
  cases inside : setting.scope.conditional with
  | false =>
      simp only [inside]
      exact Or.inl rfl
  | true =>
      cases waiting : state.branch with
      | none => simp [inside, bind, leaveBranch, waiting, nothing, pure]
      | some earlier => simp [inside, bind, leaveBranch, waiting, misuse, fail]

theorem recordRegion_ok (region : Region) (handle : Handle) (setting : Setting)
    (state : State) : (recordRegion region handle setting state).1 = .ok () := by
  unfold recordRegion
  cases region.island <;> rfl

end Render

end Sitewright

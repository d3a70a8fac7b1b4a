import Sitewright.Proofs.Keyed
import Sitewright.Proofs.Render.Reference
import Sitewright.Proofs.Render.Trace

/-!
Contract: what is noted about a page while it is rendered.

Selected routes with a resource, redirects and the requests of components make remarks about the
page. Nothing else writes into its notes, and nothing sets them aside: not the templates of regions,
which are documents of their own, and not the bodies of shells or conditionals. So the notes in the
end are those of all renders in the course of the page, in the order in which they start.

Owns:
- `Remark`, one thing noted, and `PageNotes.takeAll`, the notes after several remarks;
- `Stage.remarks`, what a render itself remarks;
- `Stage.Trace.notes_eq`: the notes after a render.

Does not own: how notes are written.
-/

namespace Sitewright

open Markup Template Catalog Routing

/-! ## Remarks -/

/-- What is noted about a page: a resource that it needs, or a value under a key. -/
inductive Remark where
  | need (resource : String)
  | note (key : String) (value : Json)

namespace Remark

def resource? : Remark → Option String
  | .need resource => some resource
  | .note .. => none

def member? : Remark → Option (String × Json)
  | .need _ => none
  | .note key value => some (key, value)

/-- The resources needed, in order and as often as they are named. -/
def resources (remarks : List Remark) : List String :=
  remarks.filterMap resource?

/-- The values noted, in order, with their keys. -/
def members (remarks : List Remark) : List (String × Json) :=
  remarks.filterMap member?

end Remark

namespace PageNotes

def take (notes : PageNotes) : Remark → PageNotes
  | .need resource => notes.require resource
  | .note key value => notes.note key value

def takeAll (notes : PageNotes) (remarks : List Remark) : PageNotes :=
  remarks.foldl take notes

variable (notes : PageNotes)

theorem takeAll_append (early late : List Remark) :
    notes.takeAll (early ++ late) = (notes.takeAll early).takeAll late :=
  List.foldl_append

/-- A resource is listed unless it is listed already. -/
theorem require_eq (resource : String) :
    notes.require resource =
      { notes with
        requirements :=
          addNew Requirement.resource notes.requirements (.ofResource resource) } := by
  have key : (Requirement.ofResource resource).resource = resource := rfl
  unfold require addNew
  rw [key]
  split <;> rfl

theorem requirements_takeAll (remarks : List Remark) :
    (notes.takeAll remarks).requirements =
      addAll Requirement.resource notes.requirements
        ((Remark.resources remarks).map .ofResource) := by
  induction remarks generalizing notes with
  | nil => rfl
  | cons first rest inductionHypothesis =>
      refine (inductionHypothesis (notes.take first)).trans ?_
      cases first with
      | need resource =>
          rw [take, require_eq]
          rfl
      | note key value => rfl

theorem metadata_takeAll (remarks : List Remark) :
    (notes.takeAll remarks).metadata =
      (Remark.members remarks).foldl
        (fun sorted entry => Json.insertMember entry.1 entry.2 sorted) notes.metadata := by
  induction remarks generalizing notes with
  | nil => rfl
  | cons first rest inductionHypothesis =>
      refine (inductionHypothesis (notes.take first)).trans ?_
      cases first with
      | need resource =>
          rw [take, require_eq]
          rfl
      | note key value => rfl

end PageNotes

/-! ## Changes of the ledger -/

namespace Ledger

variable (ledger : Ledger) (pass : Pass)

theorem notes_addRoute (entry : Entry) : (ledger.addRoute pass entry).notes = ledger.notes := by
  unfold addRoute
  split <;> rfl

theorem notes_seeContainer (container : String) :
    (ledger.seeContainer pass container).notes = ledger.notes := by
  cases pass <;> rfl

theorem notes_recordIsland (record : IslandRecord) :
    (ledger.recordIsland pass record).notes = ledger.notes := by
  cases pass <;> rfl

theorem notes_storeTemplate (setting : Setting) (resource template : String) :
    (ledger.storeTemplate setting resource template).1.notes = ledger.notes := by
  unfold storeTemplate
  split <;> rfl

theorem notes_storeAsset {ledger after : Ledger} {pass : Pass} {contents name url : String}
    {kind : AssetKind} (stored : ledger.storeAsset pass contents name kind = .ok (after, url)) :
    after.notes = ledger.notes := by
  cases pass with
  | search => rw [storeAsset_search stored]
  | build =>
      obtain ⟨assets, registered, rfl⟩ := storeAsset_build stored
      exact notes_useUrl _ _

theorem notes_lookupAsset (name : String) :
    (ledger.lookupAsset pass name).1.notes = ledger.notes := by
  cases pass with
  | search => rfl
  | build =>
      rcases lookupAsset_build ledger name with absent | ⟨url, -, found⟩
      · rw [absent]
      · rw [found, notes_useUrl]

end Ledger

/-! ## Replies and silent renders -/

def State.notes (state : State) : PageNotes :=
  state.ledger.notes

/-- What a request remarks about the page. -/
def Request.remarks : Request → List Remark
  | .resource name => [.need name]
  | .note key value => [.note key value]
  | _ => []

namespace Render

variable {α β : Type} {setting : Setting} {state after : State}

theorem notes_reply (request : Request) (setting : Setting) (state : State) :
    (request.reply setting state).2.notes = state.notes.takeAll request.remarks := by
  cases request with
  | loopNames | formId | resource | note | containerOf | config => rfl
  | storeTemplate resource template => exact Ledger.notes_storeTemplate _ _ _ _
  | recordIsland record => exact Ledger.notes_recordIsland _ _ _
  | fragmentCount | islandFragment =>
      show Ledger.notes (Prod.snd _) = _
      split <;> rfl
  | addRoute route title container => exact Ledger.notes_addRoute _ _ _
  | seeContainer container => exact Ledger.notes_seeContainer _ _ _
  | storeAsset contents name kind =>
      show Ledger.notes (Prod.snd _) = _
      split
      · next stored => exact Ledger.notes_storeAsset stored
      · rfl
  | lookupAsset name => exact Ledger.notes_lookupAsset _ _ _

/-- The render remarks nothing about the page. -/
def Silent (render : Render α) : Prop :=
  ∀ setting state, (render setting state).2.notes = state.notes

theorem silent_pure (value : α) : (pure value : Render α).Silent := fun _ _ => rfl

theorem silent_fail (fault : Fault) : (fail fault : Render α).Silent := fun _ _ => rfl

/-- What comes after the last remark makes no difference to the notes. -/
theorem notes_bind_of_silent (first : Render α) {next : α → Render β}
    (later : ∀ value, (next value).Silent) (setting : Setting) (state : State) :
    ((first >>= next) setting state).2.notes = (first setting state).2.notes := by
  rcases outcome : first setting state with ⟨fault | value, after⟩
  · rw [bind_of_error outcome]
  · rw [bind_of_ok outcome]
    exact later value setting after

theorem Silent.bind {first : Render α} {next : α → Render β} (silent : first.Silent)
    (later : ∀ value, (next value).Silent) : (first >>= next).Silent :=
  fun setting state => (notes_bind_of_silent first later setting state).trans (silent setting state)

theorem Silent.reading {next : Setting → Render α} (silent : ∀ current, (next current).Silent) :
    (Render.setting >>= next).Silent := by
  rw [setting_bind]
  exact fun setting => silent setting setting

theorem silent_reply (request : Request) (remarksNothing : request.remarks = []) :
    request.reply.Silent := by
  intro setting state
  rw [notes_reply, remarksNothing]
  rfl

theorem silent_ofExcept (outcome : Except Fault α) : (ofExcept outcome).Silent := by
  cases outcome with
  | ok value => exact silent_pure value
  | error fault => exact silent_fail fault

theorem silent_storeAsset (contents name : String) (kind : AssetKind) :
    (storeAsset contents name kind).Silent :=
  Silent.bind (silent_reply (.storeAsset contents name kind) rfl) silent_ofExcept

theorem silent_stylesheet (name contents : String) (inlined : Bool) :
    (stylesheet name contents inlined).Silent := by
  unfold stylesheet
  split
  · exact silent_pure _
  · exact (silent_storeAsset _ _ _).bind fun _ => silent_pure _

theorem silent_script (source : ScriptSource) : (script source).Silent := by
  unfold script
  split
  · split
    · exact silent_pure _
    · exact (silent_storeAsset _ _ _).bind fun _ => silent_pure _
  · refine Silent.bind (silent_reply (.lookupAsset source.name) rfl) fun found => ?_
    split
    · exact silent_pure _
    · refine .reading fun current => ?_
      split
      · exact silent_fail _
      · exact silent_pure _

theorem silent_recordRegion (region : Region) (handle : Handle) :
    (recordRegion region handle).Silent := by
  unfold recordRegion
  split
  · exact silent_reply (.recordIsland _) rfl
  · exact silent_pure ()

theorem silent_metaTag (attributes : Attributes) : (metaTag attributes).Silent := by
  refine .reading fun current => ?_
  split
  · exact Silent.bind (fun _ _ => rfl) fun _ => silent_pure _
  · exact silent_fail _

/-- The notes are those of the page, also in the template of a region. -/
theorem notes_compileTemplate (resource : String) (template : Render String) (setting : Setting)
    (state : State) :
    (compileTemplate resource template setting state).2.notes =
      (template { setting with scope := setting.scope.detached }
        { state with ledger := { state.ledger with numbering := .ofTemplate resource } }).2.notes :=
  notes_bind_of_silent _ (fun text => silent_reply (.storeTemplate resource text) rfl) _ _

/-- The notes are those of the page, also in the body of a shell. -/
theorem notes_collectMetaTags (content : Render α) (setting : Setting) (state : State) :
    (collectMetaTags content setting state).2.notes =
      (content { setting with scope := setting.scope.inShell }
        { state with ledger := { state.ledger with metaTags := [] } }).2.notes := by
  unfold collectMetaTags
  dsimp only [inScope]
  split <;> rfl

end Render

/-! ## Remarks of renders -/

namespace Stage

open Render

/-- What the render itself remarks about the page, before anything in it is rendered. A route with a
resource does so if it is selected in a router. -/
def remarks (stage : Stage) : List Remark :=
  match stage.task with
  | .program (.ask request _) => request.remarks
  | .view (.redirect target) =>
      [.note "redirectUrl" (.string target), .note "shouldRedirect" (.bool true)]
  | .view (.dataRoute path _ resource _) =>
      if stage.setting.scope.container.isSome && stage.setting.scope.selects path then
        [.need resource]
      else []
  | _ => []

/-- The notes with what the render itself remarks. -/
def noted (stage : Stage) : PageNotes :=
  stage.state.notes.takeAll stage.remarks

/-- A route that is passed over leaves the notes as they are. -/
theorem notes_route_of_passed {path title : String} {content : Render String} {setting : Setting}
    (passed : ∀ container, setting.scope.container = some container →
      setting.scope.selects path = false) (state : State) :
    (route path title content setting state).2.notes = state.notes := by
  unfold route
  rw [setting_bind]
  cases inside : setting.scope.container with
  | none =>
      simp only [inside]
      rfl
  | some container =>
      have added : addRoute { path := setting.scope.current.extend path, title, container }
          setting state = (.ok (), _) := rfl
      simp only [inside]
      rw [bind_of_ok added, passed container inside]
      exact Ledger.notes_addRoute _ _ _

/-- A render that starts no other one leaves only its own remarks behind. -/
theorem notes_of_alone {stage : Stage} (alone : ∀ inner, ¬ stage.Inner inner) :
    stage.outcome.2.notes = stage.noted := by
  obtain ⟨task, setting, state⟩ := stage
  have isAlone : Alone setting task := alone_of_not_inner alone
  cases isAlone with
  | blank | text | raw | group | redirect | fail => rfl
  | defective defective =>
      exact congrArg State.notes (state_conditional_of_defect defective _ _ _ _ _)
  | alternative branch =>
      have ended := ledger_alternative branch.render setting state
      exact congrArg Ledger.notes ((congrArg State.ledger (state_within _ _ _ _)).trans ended)
  | route passed =>
      exact (congrArg State.notes (state_within _ _ _ _)).trans (notes_route_of_passed passed state)
  | @dataRoute path passed title resource body =>
      have silent : remarks ⟨.view (.dataRoute path title resource body), setting, state⟩ = [] := by
        unfold remarks
        cases inside : setting.scope.container with
        | none => rfl
        | some container => simp [passed container inside]
      rw [noted, silent]
      exact (congrArg State.notes (state_within _ _ _ _)).trans (notes_route_of_passed passed state)
  | metaTag =>
      exact (congrArg State.notes (state_within _ _ _ _)).trans (silent_metaTag _ _ _)
  | stylesheet =>
      exact (congrArg State.notes (state_within _ _ _ _)).trans (silent_stylesheet _ _ _ _ _)
  | script => exact (congrArg State.notes (state_within _ _ _ _)).trans (silent_script _ _ _)
  | form opened => exact congrArg State.notes (state_form_of_open opened _ _ _ _ _)
  | submit refused => exact congrArg State.notes (state_submit_of_refused refused _ _ _)
  | quickButton opened =>
      exact congrArg State.notes (state_quickButton_of_open opened _ _ _ _ _ _ _)

/-- The only render that a render starts begins with what that one has noted. -/
theorem Inner.notes_of_single {outer inner : Stage} (step : Inner outer inner)
    (single : outer.task.isSingle = true) : inner.state.notes = outer.noted := by
  cases step with
  | element | link | head | submit | component | output | readScope => rfl
  | @loop setting state after names source body fresh =>
      rw [← show _ = after from congrArg Prod.snd fresh]
      rfl
  | @switch setting state after id attributes children seen =>
      rw [← show _ = after from congrArg Prod.snd seen]
      exact Ledger.notes_seeContainer _ _ _
  | @route setting state after path title container children inside added selected =>
      rw [← show _ = after from congrArg Prod.snd added]
      exact Ledger.notes_addRoute _ _ _
  | @dataRoute setting state after later path title container resource key body inside added
      selected required =>
      have own : remarks ⟨.view (.dataRoute path title resource body), setting, state⟩ =
          [.need resource] := by
        simp [remarks, inside, selected]
      rw [← show _ = later from congrArg Prod.snd required,
        ← show _ = after from congrArg Prod.snd added, noted, own]
      exact congrArg (PageNotes.require · resource) (Ledger.notes_addRoute _ _ _)
  | @form setting state after id action refresh attributes children alone fresh =>
      rw [← show _ = after from congrArg Prod.snd fresh]
      rfl
  | @ask setting state after request reply next replied =>
      rw [← show _ = after from congrArg Prod.snd replied]
      exact notes_reply request setting state
  | _ => cases single

/-- The body of a shell hands its notes on to what comes after it. -/
theorem notes_of_shellBody {morph : Bool} {children : List View} {setting : Setting}
    {state after : State} {result : Except Fault (String × List Attributes)}
    (ended : collectMetaTags (element "body" (bodyAttributes morph) (View.renderAll children))
      setting state = (result, after)) :
    (ofShellBody setting state children).outcome.2.notes = after.notes := by
  have same := notes_collectMetaTags
    (element "body" (bodyAttributes morph) (View.renderAll children)) setting state
  rw [ended, state_element] at same
  exact same.symm

theorem Parts.notes_of_first {stage part : Stage} {rest : List Stage}
    (parted : stage.Parts (part :: rest)) (local_ : stage.task.isRegion = false) :
    part.state.notes = stage.noted := by
  cases parted with
  | group siblings => exact congrArg State.notes siblings.follow.1
  | single single step => exact step.notes_of_single single
  | body | otherwise | left | shellBody | shellHead | rendering | rendered => rfl
  | hidden action refresh formAttributes attributes children alone fresh =>
      exact (congrArg (fun outcome => State.notes outcome.2) fresh).symm
  | button action refresh formAttributes attributes children alone fresh =>
      exact (congrArg (fun outcome => State.notes outcome.2) fresh).symm
  | fallback => cases local_

/-- From one phase to the next the notes are handed on, be it into the template of a region or the
body of a shell and out of it. -/
theorem Phases.follow_notes {stage : Stage} {phases : List Stage} (phased : stage.Phases phases) :
    Follow State.notes stage.noted phases stage.outcome.2.notes := by
  cases phased with
  | parts inDocument parted =>
      cases phases with
      | nil => exact (notes_of_alone (parted.alone_of_nil inDocument)).symm
      | cons part rest =>
          have first := parted.notes_of_first inDocument
          cases shared : stage.task.isShell with
          | false =>
              have follow := (parted.follow_ledger shared inDocument).map Ledger.notes
              rwa [show part.state.ledger.notes = _ from first] at follow
          | true =>
              cases parted with
              | shellBody head failed =>
                  refine ⟨first, (notes_of_shellBody failed).trans ?_⟩
                  refine congrArg State.notes (Eq.trans ?_ (state_within _ _ _ _).symm)
                  exact (state_shell_of_error failed).symm
              | shellHead head rendered =>
                  refine ⟨first, (notes_of_shellBody rendered).symm, ?_⟩
                  refine congrArg State.notes (Eq.trans ?_ (state_within _ _ _ _).symm)
                  exact (state_shell_of_ok rendered).symm
              | single single step =>
                  exact absurd (not_isShell_of_single single) (by simp [shared])
              | _ => cases shared
  | @template setting state after region template fault fallback failed =>
      have ended :=
        notes_compileTemplate region.resource (template .ofFragment).render setting state
      rw [failed] at ended
      refine ⟨rfl, ended.symm.trans (congrArg State.notes ?_)⟩
      exact (state_remote_of_error failed).symm.trans (state_within _ _ _ _).symm
  | @fallback setting state after later region handle template fallback compiled recorded =>
      have ended :=
        notes_compileTemplate region.resource (template .ofFragment).render setting state
      have kept := silent_recordRegion region handle setting after
      rw [compiled] at ended
      rw [recorded] at kept
      refine ⟨rfl, kept.trans ended, congrArg State.notes ?_⟩
      exact (state_remote compiled recorded).symm.trans (state_within _ _ _ _).symm

/-- The notes after several renders are those before, with the remarks of everything in the course
of the renders, in the order in which that starts. -/
theorem Trace.notes_eq {agenda trace : List Stage} {given final : PageNotes}
    (traced : Trace agenda trace) (follow : Follow State.notes given agenda final) :
    final = given.takeAll (trace.flatMap remarks) := by
  induction traced generalizing given with
  | done => exact Eq.symm follow
  | next phased _ inductionHypothesis =>
      obtain ⟨begins, behind⟩ := follow
      rw [inductionHypothesis (phased.follow_notes.append behind), noted, begins,
        List.flatMap_cons, PageNotes.takeAll_append]

/-- The notes in the end of a render. -/
theorem Trace.notes_of_single {stage : Stage} {trace : List Stage} (traced : Trace [stage] trace) :
    stage.outcome.2.notes = stage.state.notes.takeAll (trace.flatMap remarks) :=
  traced.notes_eq ⟨rfl, rfl⟩

end Stage

end Sitewright

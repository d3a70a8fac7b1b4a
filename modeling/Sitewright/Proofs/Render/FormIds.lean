import Sitewright.Proofs.Markup.Settings
import Sitewright.Proofs.Render.Forms
import Sitewright.Proofs.Render.Numbering

/-!
Contract: the ids of the forms in a document, and the buttons that refer to them.

A form has the next id of its document. A submit button sends the form that it is rendered
under, however deep, and a button with a form of its own sends that one.

Owns:
- `Stage.WritesForm`, the id that a form is written with;
- `Stage.formIds`, the ids in a document that is rendered to a text, all of them different;
- `Stage.UnderForm`, the form that a submit button stands under, and
  `Stage.UnderForm.submit`, the reference to its id.

Does not own: ids of different documents.
-/

namespace Sitewright

open Markup Template Relation

namespace Stage

open Render

/-! ## Ids -/

def isForm (stage : Stage) : Bool :=
  stage.task.formConstruct?.isSome

/-- The form is written with the id in place of the one that its view may have. The button in
a form of its own sends the form with that id, whatever its view says. -/
inductive WritesForm : Stage → (id : String) → Prop where
  | form {setting : Setting} {state : State} {action : Action} {refresh : Refresh}
      {attributes : Attributes} {children : List View} {id content : String}
      (written : (outcome ⟨.view (.form action refresh attributes children), setting, state⟩).1 =
        .ok (elementText "form" (attributes.set "id" (.string id)) content)) :
      WritesForm ⟨.view (.form action refresh attributes children), setting, state⟩ id
  | quickButton {setting : Setting} {state : State} {action : Action} {refresh : Refresh}
      {formAttributes attributes buttonAttributes : Attributes} {hidden children : List View}
      {id inputs content : String}
      (refers : buttonAttributes.get? "hx-include" = some (.string ("#" ++ id)))
      (written : (outcome ⟨.view (.quickButton action refresh formAttributes hidden attributes
        children), setting, state⟩).1 =
        .ok (elementText "form" (formAttributes.set "id" (.string id))
          (inputs ++ elementText "button" buttonAttributes content))) :
      WritesForm ⟨.view (.quickButton action refresh formAttributes hidden attributes children),
        setting, state⟩ id

end Stage

/-! ## References -/

/-- What a submit button sets, in order. -/
def Action.buttonSettings (action : Action) (formId route : String) (islands : List String)
    (items : List Value) : List Attribute :=
  ⟨"hx-include", .string ("#" ++ formId)⟩ ::
    ⟨action.method.attributeName, .string action.address⟩ ::
    ⟨"hx-swap", .string "none"⟩ ::
    if islands.isEmpty then []
    else [⟨"hx-headers", .string ("javascript: ..." ++ refreshCall route islands items)⟩]

theorem Action.nodup_buttonSettings (action : Action) (formId route : String)
    (islands : List String) (items : List Value) :
    ((action.buttonSettings formId route islands items).map Attribute.name).Nodup := by
  unfold buttonSettings
  cases action.method <;> split <;> simp [Method.attributeName]

/-- The button sends the form with the id, whatever else its attributes say. -/
theorem Action.include_buttonAttributes (action : Action) (formId route : String)
    (islands : List String) (items : List Value) (attributes : Attributes) :
    (action.buttonAttributes formId route islands items attributes).get? "hx-include" =
      some (.string ("#" ++ formId)) := by
  have included := Attributes.lastValue?_of_mem
    (action.nodup_buttonSettings formId route islands items) List.mem_cons_self
  refine (Attributes.get?_setAll "hx-include" (action.buttonSettings formId route islands items)
    attributes).trans ?_
  rw [included]
  rfl

namespace Stage

open Render

theorem ok_of_element {tag : String} {attributes : Attributes} {content : Render String}
    {setting : Setting} {state : State} {text : String}
    (ended : (element tag attributes content setting state).1 = .ok text) :
    ∃ inside, (content setting state).1 = .ok inside ∧
      text = elementText tag attributes inside := by
  have outcome : element tag attributes content setting state = (.ok text, _) := Prod.ext ended rfl
  obtain ⟨inside, after, shown, written⟩ := ok_of_bind outcome
  exact ⟨inside, congrArg Prod.fst shown, (Except.ok.inj (congrArg Prod.fst written)).symm⟩

/-- A form that is rendered to a text stands in no other one. -/
theorem alone_of_ended {stage : Stage} {text : String} (shown : stage.isForm = true)
    (ended : stage.outcome.1 = .ok text) : stage.setting.scope.form = none := by
  obtain ⟨construct, isForm⟩ := Option.isSome_iff_exists.mp shown
  by_contra around
  have refused := outcome_of_open isForm (Option.isSome_iff_ne_none.mpr around)
  rw [refused] at ended
  cases ended

/-- A button in a form of its own, which has the next id, is written with the islands and items that
are refreshed. -/
theorem written_of_quickButton {setting : Setting} {state : State} {action : Action}
    {refresh : Refresh} {formAttributes attributes : Attributes} {hidden children : List View}
    {text : String}
    (ended : (outcome ⟨.view (.quickButton action refresh formAttributes hidden attributes
      children), setting, state⟩).1 = .ok text) :
    ∃ inputs content, text =
      elementText "form" (formAttributes.set "id" (.string state.numbering.formId))
        (inputs ++ elementText "button" (action.buttonAttributes state.numbering.formId
          setting.scope.current.text (refresh.islandIds action) refresh.items attributes)
          content) := by
  have alone := alone_of_ended rfl ended
  have outcome : View.render (.quickButton action refresh formAttributes hidden attributes
      children) setting state = (.ok text, _) := Prod.ext ended rfl
  have inside := ok_of_within outcome
  rw [Render.quickButton, bind_of_ok (requireNoForm_of_alone .quickButton alone state)] at inside
  obtain ⟨id, later, fresh, rest⟩ := ok_of_bind inside
  obtain ⟨named, rfl⟩ := Prod.mk.inj fresh
  obtain rfl := Except.ok.inj named
  rw [setting_bind] at rest
  obtain ⟨content, shownContent, written⟩ := ok_of_element (congrArg Prod.fst rest)
  obtain ⟨inputs, behind, -, both⟩ := ok_of_bind (Prod.ext shownContent rfl)
  obtain ⟨button, last, shownButton, together⟩ := ok_of_bind both
  obtain ⟨label, -, rfl⟩ := ok_of_element (congrArg Prod.fst shownButton)
  obtain rfl := Except.ok.inj (congrArg Prod.fst together)
  exact ⟨inputs, label, written⟩

/-- A form that is rendered to a text has the next id of its document. -/
theorem writesForm_of_ended {stage : Stage} {text : String} (shown : stage.isForm = true)
    (ended : stage.outcome.1 = .ok text) : stage.WritesForm stage.state.numbering.formId := by
  have alone := alone_of_ended shown ended
  obtain ⟨task, setting, state⟩ := stage
  cases task with
  | program running => cases shown
  | view view =>
      have outcome : view.render setting state = (.ok text, _) := Prod.ext ended rfl
      cases view
      case form action refresh attributes children =>
        have inside := ok_of_within outcome
        rw [Render.form, bind_of_ok (requireNoForm_of_alone .form alone state)] at inside
        obtain ⟨id, later, fresh, rest⟩ := ok_of_bind inside
        obtain ⟨named, rfl⟩ := Prod.mk.inj fresh
        obtain rfl := Except.ok.inj named
        obtain ⟨content, -, written⟩ := ok_of_element (congrArg Prod.fst rest)
        rw [written] at ended
        exact .form ended
      case quickButton action refresh formAttributes hidden attributes children =>
        obtain ⟨inputs, content, written⟩ := written_of_quickButton ended
        exact .quickButton (Action.include_buttonAttributes ..) (ended.trans (congrArg _ written))
      all_goals cases shown

/-! ## The forms of a document -/

/-- The ids of the forms in a document, in their order. -/
def formIds (log : List Stage) : List String :=
  (log.filter isForm).map fun form => form.state.numbering.formId

theorem ended_of_course {start inner : Stage} {text : String}
    (course : ReflTransGen Inner start inner) (ended : start.outcome.1 = .ok text) :
    ∃ text, inner.outcome.1 = .ok text := by
  have ends : inner.task.render.Ends inner.setting inner.state := by
    induction course with
    | refl => exact ⟨text, _, Prod.ext ended rfl⟩
    | tail _ step inductionHypothesis => exact step.ends inductionHypothesis
  obtain ⟨text, final, outcome⟩ := ends
  exact ⟨text, congrArg Prod.fst outcome⟩

theorem Log.ended {document : Stage} {log : List Stage} {text : String}
    (logged : Log [document] log) (ended : document.outcome.1 = .ok text) :
    ∀ stage ∈ log, ∃ text, stage.outcome.1 = .ok text := by
  intro stage member
  obtain ⟨start, isDocument, course⟩ := logged.course stage member
  obtain rfl := List.mem_singleton.mp isDocument
  exact ended_of_course course ended

/-- In a document that is rendered to a text, all forms are written with their ids. -/
theorem Log.writesForms {document : Stage} {log : List Stage} {text : String}
    (logged : Log [document] log) (ended : document.outcome.1 = .ok text) :
    List.Forall₂ WritesForm (log.filter isForm) (formIds log) := by
  rw [formIds, List.forall₂_map_right_iff, List.forall₂_same]
  intro form member
  obtain ⟨inLog, shown⟩ := List.mem_filter.mp member
  obtain ⟨text, formEnded⟩ := logged.ended ended form inLog
  exact writesForm_of_ended shown formEnded

theorem takesId_of_alone {stage : Stage} (shown : stage.isForm = true)
    (alone : stage.setting.scope.form = none) : stage.takesId = true := by
  obtain ⟨task, setting, state⟩ := stage
  cases task with
  | program running => cases shown
  | view view =>
      cases view
      case form => exact Option.isNone_iff_eq_none.mpr alone
      case quickButton => exact Option.isNone_iff_eq_none.mpr alone
      all_goals cases shown

/-- In a document that is rendered to a text, every form takes an id. -/
theorem Log.takesId_of_isForm {document : Stage} {log : List Stage} {text : String}
    (logged : Log [document] log) (ended : document.outcome.1 = .ok text) :
    ∀ stage ∈ log, stage.isForm = true → stage.takesId = true := by
  intro stage member shown
  obtain ⟨text, stageEnded⟩ := logged.ended ended stage member
  exact takesId_of_alone shown (alone_of_ended shown stageEnded)

theorem Numbered.forms_le {given final : Numbering} {log : List Stage}
    (numbered : Numbered given log final) :
    ∀ stage ∈ log, given.forms ≤ stage.state.numbering.forms := by
  intro stage member
  obtain ⟨earlier, later, rfl⟩ := List.append_of_mem member
  rw [numbered.numbering_eq]
  exact Nat.le_add_right _ _

/-- Every form has a greater number than the ones before it. -/
theorem Numbered.ascending {given final : Numbering} {log : List Stage}
    (numbered : Numbered given log final)
    (takes : ∀ stage ∈ log, stage.isForm = true → stage.takesId = true) :
    (log.filter isForm).Pairwise fun first second =>
      first.state.numbering.forms < second.state.numbering.forms := by
  induction log generalizing given with
  | nil => exact .nil
  | cons first rest inductionHypothesis =>
      obtain ⟨-, later⟩ := numbered
      obtain ⟨firstTakes, restTake⟩ := List.forall_mem_cons.mp takes
      by_cases shown : first.isForm = true
      · rw [List.filter_cons_of_pos shown, List.pairwise_cons]
        refine ⟨fun form member => ?_, inductionHypothesis later restTake⟩
        have passed := later.forms_le form (List.mem_filter.mp member).1
        have next : first.drawn.forms = first.state.numbering.forms + 1 := by
          rw [drawn, draw, firstTakes shown]
          rfl
        omega
      · rw [List.filter_cons_of_neg shown]
        exact inductionHypothesis later restTake

theorem Log.formPrefix_eq {document : Stage} {log : List Stage} (logged : Log [document] log) :
    ∀ stage ∈ log,
      stage.state.numbering.formPrefix = document.state.numbering.formPrefix := by
  intro stage member
  obtain ⟨earlier, later, rfl⟩ := List.append_of_mem member
  rw [logged.numbering_eq]
  rfl

end Stage

/-! ## Ids apart -/

namespace Numbering

/-- In one document, different numbers have different ids. -/
theorem forms_eq_of_formId {first second : Numbering}
    (prefixes : first.formPrefix = second.formPrefix) (same : first.formId = second.formId) :
    first.forms = second.forms := by
  unfold formId at same
  rw [prefixes, String.append_right_inj] at same
  exact Nat.succ.inj (number_injective same)

/-- The numbering with which a document starts: that of a page or a search, or of the template
of a region, which serves a resource. -/
def ofServed : (served : Option String) → Numbering
  | none => ofPage
  | some resource => ofTemplate resource

end Numbering

theorem ne_underscore_of_isAsciiLetter {character : Char}
    (letter : isAsciiLetter character = true) : character ≠ '_' := by
  rintro rfl
  exact absurd letter (by decide)

theorem toUpper_ne_underscore {character : Char} (letter : isAsciiLetter character = true) :
    character.toUpper ≠ '_' := by
  unfold Char.toUpper
  split
  · next lower =>
    intro same
    have code := congrArg (fun letter : Char => letter.val.toNat) same
    dsimp only at code
    rw [UInt32.toNat_add] at code
    have step : ('A'.val - 'a'.val).toNat = 4294967264 := by decide
    have underscore : '_'.val.toNat = 95 := by decide
    have low : 97 ≤ character.val.toNat := UInt32.le_iff_toNat_le.mp lower.1
    have high : character.val.toNat ≤ 122 := UInt32.le_iff_toNat_le.mp lower.2
    omega
  · exact ne_underscore_of_isAsciiLetter letter

/-- The key of a resource has letters only. -/
theorem underscore_notMem_resourceKey (resource : String) :
    '_' ∉ (resourceKey resource).toList := by
  have letters : ∀ letter ∈ resource.toList.filter isAsciiLetter, isAsciiLetter letter = true :=
    fun letter inFilter => (List.mem_filter.mp inFilter).2
  unfold resourceKey
  split
  · simp
  · next first rest equal =>
    rw [equal] at letters
    rw [String.toList_ofList, List.mem_cons, not_or]
    exact ⟨Ne.symm (toUpper_ne_underscore (letters first List.mem_cons_self)), fun inRest =>
      ne_underscore_of_isAsciiLetter (letters '_' (List.mem_cons_of_mem _ inRest)) rfl⟩

namespace Numbering

/-- What stands behind the beginning that all ids have in common. -/
def idEnding (served : Option String) (number : Nat) : List Char :=
  match served with
  | none => (toString number).toList
  | some resource => (resourceKey resource).toList ++ '_' :: (toString number).toList

/-- An id tells the key of the resource that its document serves: behind the key there is a
second underscore, and on a page there is only one. -/
theorem eq_of_formId {first second : Numbering} {served other : Option String}
    (firstServes : first.formPrefix = (ofServed served).formPrefix)
    (secondServes : second.formPrefix = (ofServed other).formPrefix)
    (same : first.formId = second.formId) :
    served.map resourceKey = other.map resourceKey ∧ first.forms = second.forms := by
  have digits : ∀ number : Nat, '_' ∉ (toString number).toList :=
    fun number member => absurd (isDigit_of_mem_number member) (by decide)
  have spelled : ∀ {numbering : Numbering} {served : Option String},
      numbering.formPrefix = (ofServed served).formPrefix →
        numbering.formId.toList = "form_".toList ++ idEnding served (numbering.forms + 1) := by
    intro numbering served serves
    rw [formId, serves]
    cases served <;> simp [ofServed, ofPage, ofTemplate, idEnding]
  have endings := congrArg String.toList same
  rw [spelled firstServes, spelled secondServes, List.append_cancel_left_eq] at endings
  have numbers : ∀ {first second : Nat}, (toString (first + 1)).toList =
      (toString (second + 1)).toList → first = second :=
    fun same => Nat.succ.inj (number_injective (String.toList_inj.mp same))
  cases served with
  | none =>
      cases other with
      | none => exact ⟨rfl, numbers endings⟩
      | some resource =>
          refine absurd ?_ (digits (first.forms + 1))
          rw [show (toString (first.forms + 1)).toList = _ from endings]
          simp [idEnding]
  | some resource =>
      cases other with
      | none =>
          refine absurd ?_ (digits (second.forms + 1))
          rw [show (toString (second.forms + 1)).toList = _ from endings.symm]
          simp [idEnding]
      | some otherResource =>
          obtain ⟨keys, -, same⟩ := (List.append_cons_inj_of_notMem
            (underscore_notMem_resourceKey resource) (digits _)).mp endings
          exact ⟨congrArg some (String.toList_inj.mp keys), numbers same⟩

end Numbering

namespace Stage

open Render

/-- The forms of a document that is rendered to a text have different ids. -/
theorem Log.nodup_formIds {document : Stage} {log : List Stage} {text : String}
    (logged : Log [document] log) (ended : document.outcome.1 = .ok text) :
    (formIds log).Nodup := by
  rw [List.Nodup, formIds, List.pairwise_map]
  refine (logged.numbered_document.ascending (logged.takesId_of_isForm ended)).imp_of_mem ?_
  intro first second inFirst inSecond before same
  have prefixes : first.state.numbering.formPrefix = second.state.numbering.formPrefix :=
    (logged.formPrefix_eq first (List.mem_filter.mp inFirst).1).trans
      (logged.formPrefix_eq second (List.mem_filter.mp inSecond).1).symm
  exact absurd (Numbering.forms_eq_of_formId prefixes same) (Nat.ne_of_lt before)

/-- Where components take nothing, only forms take ids. -/
theorem isForm_of_takesId {stage : Stage} (asks : stage.task.Asks Request.TakesNothing)
    (takes : stage.takesId = true) : stage.isForm = true := by
  obtain ⟨task, setting, state⟩ := stage
  cases task with
  | view shown => cases shown <;> first | rfl | cases takes
  | program running =>
      cases running with
      | ask request next =>
          cases request with
          | formId => cases asks.1
          | _ => cases takes
      | _ => cases takes

/-- Where nothing else takes ids, the forms of a document are numbered in their order. -/
theorem Log.formIds_eq {document : Stage} {log : List Stage} (logged : Log [document] log)
    (began : document.state.numbering.forms = 0)
    (alone : ∀ stage ∈ log, stage.takesId = stage.isForm) :
    formIds log = (List.range (log.countP isForm)).map fun place =>
      { document.state.numbering with forms := place }.formId := by
  refine List.ext_getElem? fun place => ?_
  rw [formIds, List.getElem?_map, List.getElem?_map, List.countP_eq_length_filter]
  rcases found : (log.filter isForm)[place]? with _ | form
  · have past := List.getElem?_eq_none_iff.mp found
    rw [List.getElem?_eq_none (by rwa [List.length_range])]
    rfl
  · have inside := (List.getElem?_eq_some_iff.mp found).1
    obtain ⟨earlier, later, rfl, counted⟩ := exists_split_of_filter found
    have same : earlier.countP takesId = earlier.countP isForm :=
      List.countP_congr fun before member => by rw [alone before (List.mem_append_left _ member)]
    rw [List.getElem?_range inside, Option.map_some, Option.map_some, logged.numbering_eq]
    unfold Numbering.formId Stage.counted
    simp only [began, same, counted, Nat.zero_add]

/-! ## Submit buttons -/

/-- The render takes place in the element of the form, however deep; a component that renders
another page or a search leaves it. -/
inductive UnderForm (form : Stage) : Stage → Prop where
  | content {content : Stage} (opens : form.task.formConstruct? = some .form)
      (step : Inner form content) : UnderForm form content
  | kept {outer inner : Stage} (under : UnderForm form outer) (step : Inner outer inner)
      (stays : ¬ Task.Departs outer.task inner.task) : UnderForm form inner

/-- The scope of what is neither a form nor departs has the form of the scope around. -/
theorem Inner.form_eq {outer inner : Stage} (step : Inner outer inner)
    (opensNone : outer.task.formConstruct? ≠ some .form)
    (stays : ¬ Task.Departs outer.task inner.task) :
    inner.setting.scope.form = outer.setting.scope.form := by
  cases step with
  | form => exact absurd rfl opensNone
  | rendering setting state steps view next =>
      refine (setting.scope.form_steps steps).trans ?_
      rw [if_neg fun anew => stays (.departs view next anew)]
  | _ => rfl

/-- Under a form, the scope has what the form tells its submit buttons. -/
theorem UnderForm.open_eq {form stage : Stage} (under : UnderForm form stage) :
    ∃ action refresh attributes children,
      form.task = .view (.form action refresh attributes children) ∧
      stage.setting.scope.form = some (openForm action refresh form.state.numbering.formId) := by
  induction under with
  | content opens step =>
      cases step with
      | form action refresh attributes children alone fresh =>
          obtain ⟨named, -⟩ := Prod.mk.inj fresh
          obtain rfl := Except.ok.inj named
          exact ⟨action, refresh, attributes, children, rfl, rfl⟩
      | _ => cases opens
  | @kept outer inner _ step stays inductionHypothesis =>
      obtain ⟨action, refresh, attributes, children, shown, around⟩ := inductionHypothesis
      by_cases opens : outer.task.formConstruct? = some .form
      · cases step with
        | form action refresh attributes children alone fresh =>
            rw [alone] at around
            cases around
        | _ => cases opens
      · exact ⟨action, refresh, attributes, children, shown,
          (step.form_eq opens stays).trans around⟩

theorem UnderForm.scope_eq {form stage : Stage} (under : UnderForm form stage) :
    ∃ opened, stage.setting.scope.form = some opened ∧
      opened.id = form.state.numbering.formId := by
  obtain ⟨action, refresh, attributes, children, -, around⟩ := under.open_eq
  exact ⟨_, around, rfl⟩

/-- What takes place in the element of a form, outside of which the render starts, takes place
under a form. -/
theorem exists_underForm {start stage : Stage} (outside : start.setting.scope.form = none)
    (inForm : InForm start stage) :
    ∃ form, ReflTransGen Inner start form ∧ UnderForm form stage := by
  induction inForm with
  | start around =>
      rw [outside] at around
      cases around
  | opened course opens step => exact ⟨_, course, .content opens step⟩
  | kept _ step stays inductionHypothesis =>
      obtain ⟨form, course, under⟩ := inductionHypothesis
      exact ⟨form, course, .kept under step stays⟩

/-- The button is written with a reference to the id, in place of the one that its view may
have. -/
def SendsForm (stage : Stage) (id : String) : Prop :=
  ∃ attributes content, stage.outcome.1 = .ok (elementText "button" attributes content) ∧
    attributes.get? "hx-include" = some (.string ("#" ++ id))

/-- A submit button is written with what the form that is open tells it. -/
theorem written_of_submit {setting : Setting} {state : State} {action : Action}
    {attributes : Attributes} {children : List View} {text : String}
    (ended : (outcome ⟨.view (.submit action attributes children), setting, state⟩).1 =
      .ok text) :
    ∃ opened content, setting.scope.form = some opened ∧ text =
      elementText "button" (action.buttonAttributes opened.id setting.scope.current.text
        opened.islands opened.items attributes) content := by
  have outcome : View.render (.submit action attributes children) setting state = (.ok text, _) :=
    Prod.ext ended rfl
  have inside := ok_of_within outcome
  rw [Render.submit, setting_bind] at inside
  cases around : setting.scope.form with
  | none =>
      simp only [around] at inside
      cases inside
  | some opened =>
      simp only [around] at inside
      by_cases same : opened.action = action.identity
      · rw [if_pos same] at inside
        obtain ⟨content, -, written⟩ := ok_of_element (congrArg Prod.fst inside)
        exact ⟨opened, content, rfl, written⟩
      · rw [if_neg same] at inside
        cases inside

/-- A submit button that is rendered to a text sends the form that is open. -/
theorem sendsForm_of_ended {stage : Stage} {action : Action} {attributes : Attributes}
    {children : List View} {text : String}
    (shown : stage.task = .view (.submit action attributes children))
    (ended : stage.outcome.1 = .ok text) :
    ∃ opened, stage.setting.scope.form = some opened ∧ stage.SendsForm opened.id := by
  obtain ⟨task, setting, state⟩ := stage
  obtain rfl : task = .view (.submit action attributes children) := shown
  obtain ⟨opened, content, around, rfl⟩ := written_of_submit ended
  exact ⟨opened, around, _, content, ended, Action.include_buttonAttributes ..⟩

end Stage

end Sitewright

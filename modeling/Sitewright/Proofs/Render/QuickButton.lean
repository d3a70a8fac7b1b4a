import Sitewright.Proofs.Render.Formless
import Sitewright.Proofs.Render.Regrouping
import Sitewright.View.Form

/-!
Contract: a quick button is a form with one submit button.

A quick button writes its form and its button at once, where a form tells its submit buttons through
the scope what to post. The content of the button stands in a form in the one case and in none in
the other, which only forms and buttons of forms can tell. Faults are attributed to what raised them
in both cases, since everything in a view that can fail attributes its own faults.

Owns:
- `Render.Attributed`, renders whose faults are attributed already, such as those of views;
- changes of scope around the parts of a render;
- quick buttons and forms with one submit button, rendered alike.

Does not own: where forms may stand.
-/

namespace Sitewright

open Markup Template

/-! ## Attributed faults -/

/-- An attributed fault stays as it is. -/
theorem Fault.attributed_of_attributed {fault : Fault} (attributed : fault.component?.isSome = true)
    (component : String) : fault.attributed component = fault := by
  cases fault with
  | within inner source => rfl
  | misuse _ _ | asset _ _ | raised _ => cases attributed

/-- A render that ends with no other faults than attributed ones. -/
def Render.Attributed {α : Type} (render : Render α) : Prop :=
  ∀ setting state fault after, render setting state = (.error fault, after) →
    fault.component?.isSome = true

namespace Render.Attributed

variable {α β : Type}

theorem pure (value : α) : (Pure.pure value : Render α).Attributed := by
  rintro _ _ _ _ ⟨⟩

theorem bind {first : Render α} {next : α → Render β} (firstAttributed : first.Attributed)
    (nextAttributed : ∀ value, (next value).Attributed) : (first >>= next).Attributed := by
  intro setting state fault after failed
  rcases outcome : first setting state with ⟨early | value, between⟩
  · rw [bind_of_error outcome] at failed
    obtain ⟨rfl, rfl⟩ : early = fault ∧ between = after := by simpa using failed
    exact firstAttributed _ _ _ _ outcome
  · rw [bind_of_ok outcome] at failed
    exact nextAttributed value _ _ _ _ failed

/-- A component attributes whatever is not attributed yet. -/
theorem within (component : String) (render : Render α) :
    (Render.within component render).Attributed := by
  intro setting state fault after failed
  unfold Render.within at failed
  split at failed
  · cases failed
  · next source _ _ =>
    obtain ⟨rfl, -⟩ : source.attributed component = fault ∧ _ := by simpa using failed
    cases source <;> rfl

theorem element (tag : String) (attributes : Attributes) {content : Render String}
    (attributed : content.Attributed) : (Render.element tag attributes content).Attributed :=
  bind attributed fun _ => pure _

/-- There is nothing left to attribute. -/
theorem within_eq {render : Render α} (attributed : render.Attributed) (component : String) :
    Render.within component render = render := by
  funext setting state
  unfold Render.within
  split
  · next outcome => exact outcome.symm
  · next outcome =>
    rw [Fault.attributed_of_attributed (attributed _ _ _ _ outcome)]
    exact outcome.symm

end Render.Attributed

mutual

/-- Markup does not fail by itself, and everything else is a component or a construct. -/
theorem View.render_attributed : ∀ view : View, view.render.Attributed
  | .blank | .text _ | .raw _ => .pure _
  | .group children => View.renderAll_attributed children
  | .element _ _ children => .element _ _ (View.renderAll_attributed children)
  | .redirect target => .within Construct.redirect.label (Render.redirect target)
  | .conditional _ _ _ none | .conditional _ _ _ (some _) | .alternative _ | .loop .. | .switch ..
  | .route .. | .dataRoute .. | .link .. | .shell .. | .head _ | .metaTag _ | .stylesheet ..
  | .script _ | .remote .. | .form .. | .submit .. | .quickButton .. | .component .. => .within _ _

theorem View.renderAll_attributed : ∀ views : List View, (View.renderAll views).Attributed
  | [] => .pure _
  | first :: rest =>
      .bind (View.render_attributed first) fun _ =>
        .bind (View.renderAll_attributed rest) fun _ => .pure _

end

/-! ## Sequences -/

/-- The text of the last view stands behind that of the others. -/
theorem View.renderAll_concat (views : List View) (last : View) :
    View.renderAll (views ++ [last]) = (do
      let text ← View.renderAll views
      let ending ← last.render
      return text ++ ending) := by
  rw [View.renderAll_append, View.renderAll_singleton]

/-- Two sequences that begin alike and go on alike in one setting end alike there. -/
theorem Render.bind_congr_at {α β : Type} {first other : Render α} {next last : α → Render β}
    {setting : Setting} {state : State} (begins : first setting state = other setting state)
    (goesOn : ∀ value after, next value setting after = last value setting after) :
    (first >>= next) setting state = (other >>= last) setting state := by
  rcases outcome : first setting state with ⟨fault | value, after⟩
  all_goals have otherwise := begins.symm.trans outcome
  · rw [bind_of_error outcome, bind_of_error otherwise]
  · rw [bind_of_ok outcome, bind_of_ok otherwise, goesOn]

theorem Render.element_congr_at {content other : Render String} {setting : Setting} {state : State}
    (tag : String) (attributes : Attributes)
    (same : content setting state = other setting state) :
    Render.element tag attributes content setting state =
      Render.element tag attributes other setting state :=
  bind_congr_at same fun _ _ => rfl

theorem Render.construct_congr_at {α : Type} (construct : Construct) {render other : Render α}
    {setting : Setting} {state : State} (same : render setting state = other setting state) :
    Render.construct construct render setting state =
      Render.construct construct other setting state := by
  unfold Render.construct Render.within
  rw [same]

theorem Render.inScope_bind {α β : Type} (move : Scope → Scope) (first : Render α)
    (next : α → Render β) :
    Render.inScope move (first >>= next) =
      Render.inScope move first >>= fun value => Render.inScope move (next value) :=
  rfl

theorem Render.inScope_element (move : Scope → Scope) (tag : String) (attributes : Attributes)
    (content : Render String) :
    Render.inScope move (Render.element tag attributes content) =
      Render.element tag attributes (Render.inScope move content) :=
  rfl

/-! ## Forms -/

namespace Render

variable (action : Action) (refresh : Refresh) (formAttributes attributes : Attributes)
  {hidden children : Render String} {setting : Setting}

/-- A button that posts the form with the given id. -/
def buttonOf (id route : String) (children : Render String) : Render String :=
  element "button"
    (action.buttonAttributes id route (refresh.islandIds action) refresh.items attributes) children

/-- A form with its button behind the hidden inputs. -/
def formWithButton (route : String) (hidden children : Render String) : Render String := do
  let id ← nextFormId
  element "form" (formAttributes.set "id" (.string id)) do
    let inputs ← hidden
    let button ← buttonOf action refresh attributes id route children
    return inputs ++ button

theorem attributed_formWithButton (route : String) (hiddenAttributed : hidden.Attributed)
    (childrenAttributed : children.Attributed) :
    (formWithButton action refresh formAttributes attributes route hidden children).Attributed := by
  have counted : nextFormId.Attributed := by rintro _ _ _ _ ⟨⟩
  exact .bind counted fun _ => .element _ _ (.bind hiddenAttributed fun _ =>
    .bind (.element _ _ childrenAttributed) fun _ => .pure _)

theorem quickButton_of_alone (alone : setting.scope.form = none) (state : State) :
    quickButton action refresh formAttributes hidden attributes children setting state =
      formWithButton action refresh formAttributes attributes setting.scope.current.text hidden
        children setting state := by
  unfold quickButton formWithButton
  rw [bind_of_ok (requireNoForm_of_alone .quickButton alone state)]
  refine bind_congr_at rfl fun id after => ?_
  rw [setting_bind]
  rfl

/-- In a form of its action, a submit button is the button of the form. -/
theorem submit_inForm (id : String) (ignores : children.Ignores Setting.withoutForm)
    (state : State) :
    inScope (fun scope => scope.inForm (openForm action refresh id))
        (submit action attributes children) setting state =
      buttonOf action refresh attributes id setting.scope.current.text children setting state := by
  have inside : inScope (fun scope => scope.inForm (openForm action refresh id))
        (submit action attributes children) setting state =
      buttonOf action refresh attributes id setting.scope.current.text
        (inScope (fun scope => scope.inForm (openForm action refresh id)) children) setting
        state := by
    unfold submit inScope
    rw [setting_bind]
    simp only [Scope.inForm, openForm, if_pos]
    rfl
  rw [inside, ignores.inForm]

theorem form_of_alone (hiddenIgnores : hidden.Ignores Setting.withoutForm)
    (childrenIgnore : children.Ignores Setting.withoutForm)
    (childrenAttributed : children.Attributed) (alone : setting.scope.form = none)
    (state : State) :
    form action refresh formAttributes (do
        let inputs ← hidden
        let button ← construct .submit (submit action attributes children)
        return inputs ++ button) setting state =
      formWithButton action refresh formAttributes attributes setting.scope.current.text hidden
        children setting state := by
  unfold form formWithButton
  rw [bind_of_ok (requireNoForm_of_alone .form alone state)]
  refine bind_congr_at rfl fun id after => ?_
  -- The form only changes the scope of its parts, and of these only the button looks at it.
  rw [inScope_element]
  refine element_congr_at _ _ ?_
  rw [inScope_bind, hiddenIgnores.inForm]
  refine bind_congr_at rfl fun inputs between => ?_
  rw [inScope_bind]
  refine bind_congr_at ?_ fun _ _ => rfl
  have button : (buttonOf action refresh attributes id setting.scope.current.text
      children).Attributed := .element _ _ childrenAttributed
  calc construct .submit (inScope (fun scope => scope.inForm (openForm action refresh id))
          (submit action attributes children)) setting between
      = construct .submit (buttonOf action refresh attributes id setting.scope.current.text
          children) setting between :=
        construct_congr_at .submit
          (submit_inForm action refresh attributes id childrenIgnore between)
    _ = buttonOf action refresh attributes id setting.scope.current.text children setting
          between := congrFun (congrFun (button.within_eq _) setting) between

end Render

/-! ## Views -/

theorem formless_hiddenInput (name : String) (value : Value) :
    (hiddenInput name value).Formless := by
  cases value with
  | null | bool _ => simp [hiddenInput, hiddenCheckbox, View.Formless, View.AllFormless]
  | ref source =>
      simp [hiddenInput, hiddenChoice, hiddenCheckbox, hiddenText, View.Formless, View.AllFormless]
  | _ => simp [hiddenInput, hiddenText, View.Formless, View.AllFormless]

theorem allFormless_hiddenInputs (data : List Attribute) :
    View.AllFormless (hiddenInputs data) := by
  induction data with
  | nil => trivial
  | cons entry rest inductionHypothesis =>
      exact ⟨formless_hiddenInput entry.name entry.value, inductionHypothesis⟩

/-- Outside of forms, a quick button whose content has nothing to do with forms is the form of its
action with the submit button of the action in it: with the same data, islands, items and attributes
both end with the same text or fault, and in the same state. -/
theorem Action.quickButton_eq_form (action : Action) (refresh : Refresh) (data : List Attribute)
    (formAttributes attributes : Attributes) (content : List View)
    (formless : View.AllFormless content) (setting : Setting)
    (alone : setting.scope.form = none) (state : State) :
    (action.quickButton refresh data formAttributes attributes content).render setting state =
      (action.form refresh data formAttributes [.submit action attributes content]).render setting
        state := by
  have hiddenAttributed := View.renderAll_attributed (hiddenInputs data)
  have contentAttributed := View.renderAll_attributed content
  have whole := Render.attributed_formWithButton action refresh formAttributes attributes
    setting.scope.current.text hiddenAttributed contentAttributed
  have form := Render.form_of_alone action refresh formAttributes attributes
    (View.allIgnoreForm (allFormless_hiddenInputs data)) (View.allIgnoreForm formless)
    contentAttributed alone state
  calc Render.construct .quickButton (Render.quickButton action refresh formAttributes
          (View.renderAll (hiddenInputs data)) attributes (View.renderAll content)) setting state
      = Render.construct .quickButton (Render.formWithButton action refresh formAttributes
          attributes setting.scope.current.text (View.renderAll (hiddenInputs data))
          (View.renderAll content)) setting state :=
        Render.construct_congr_at _
          (Render.quickButton_of_alone action refresh formAttributes attributes alone state)
    _ = Render.construct .form (Render.formWithButton action refresh formAttributes attributes
          setting.scope.current.text (View.renderAll (hiddenInputs data))
          (View.renderAll content)) setting state := by
        unfold Render.construct
        rw [whole.within_eq, whole.within_eq]
    _ = Render.construct .form (Render.form action refresh formAttributes (do
          let inputs ← View.renderAll (hiddenInputs data)
          let button ← (View.submit action attributes content).render
          return inputs ++ button)) setting state := (Render.construct_congr_at _ form).symm
    _ = (View.form action refresh formAttributes
          (hiddenInputs data ++ [.submit action attributes content])).render setting state := by
        rw [View.render, View.renderAll_concat]

/-- Puts an offer into the cart. -/
def addToCart : Action :=
  { identity := 0, method := .post, name := "addToCart", islands := ["cart"] }

/-- What the button says: whether the offer is still there, and on which page it is. -/
def cartLabel : List View :=
  [.conditional (.ref ⟨".sold"⟩) false [.text "Sold out", .alternative (.text "Buy")] none,
   .component "PageName" (.readScope fun scope => .done (.text scope.current.text))]

/-- A button that sends the number of the offer and refreshes two islands. -/
theorem cartButton_eq_form :
    ∃ (setting : Setting) (state : State) (text : String),
      View.AllFormless cartLabel ∧ setting.scope.form = none ∧
      ((addToCart.quickButton ⟨["stock"], []⟩ [⟨"offer", .ref ⟨".number"⟩⟩] [] []
        cartLabel).render setting state).1 = .ok text ∧
      (addToCart.quickButton ⟨["stock"], []⟩ [⟨"offer", .ref ⟨".number"⟩⟩] [] []
          cartLabel).render setting state =
        (addToCart.form ⟨["stock"], []⟩ [⟨"offer", .ref ⟨".number"⟩⟩] []
          [.submit addToCart [] cartLabel]).render setting state := by
  have formless : View.AllFormless cartLabel := by
    simp [cartLabel, View.AllFormless, View.Formless, Program.Formless, Scope.withoutForm]
  let setting : Setting := { config := .standard, pass := .build, scope := .page ⟨["shop"]⟩ "Shop" }
  have same := addToCart.quickButton_eq_form ⟨["stock"], []⟩ [⟨"offer", .ref ⟨".number"⟩⟩] [] []
    cartLabel formless setting rfl (.ofLedger (.ofBuild .empty (.ofConfig .standard)))
  exact ⟨setting, _, _, formless, rfl, rfl, same⟩

end Sitewright

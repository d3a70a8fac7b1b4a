import Sitewright.Proofs.Render.FormIds
import Sitewright.Proofs.Render.RequestHeaders
import Sitewright.Proofs.View.Refresh
import Sitewright.View.Form

/-!
Contract: the islands in the calls of buttons that post an action.

A button with a form of its own and a submit button under a form are written with a call that makes
the headers of the refresh. Its islands are those that the form has refreshed.

Owns:
- `Stage.Posts`, the buttons that post a form of an action;
- `Stage.Calls`, the call that a button is written with;
- `Stage.related_named_in_turn`: which islands are in the call, and how often.

Does not own: the other attributes of the buttons.
-/

namespace Sitewright

open Markup Relation

namespace Stage

open Render

/-- The button posts a form of the action, which has islands refreshed: the form of its own, or the
one that it stands under. -/
inductive Posts (action : Action) (refresh : Refresh) : Stage → Prop where
  | quickButton (setting : Setting) (state : State) (formAttributes attributes : Attributes)
      (hidden children : List View) :
      Posts action refresh ⟨.view (.quickButton action refresh formAttributes hidden attributes
        children), setting, state⟩
  | submit {form : Stage} {setting : Setting} {state : State} {formAttributes : Attributes}
      {formChildren : List View} {posted : Action} {attributes : Attributes}
      {children : List View}
      (opens : form.task = .view (.form action refresh formAttributes formChildren))
      (under : form.UnderForm ⟨.view (.submit posted attributes children), setting, state⟩) :
      Posts action refresh ⟨.view (.submit posted attributes children), setting, state⟩

/-- The button is written with headers that the call makes. -/
inductive Calls : Stage → (call : String) → Prop where
  | quickButton {setting : Setting} {state : State} {action : Action} {refresh : Refresh}
      {formAttributes attributes own buttonAttributes : Attributes} {hidden children : List View}
      {inputs content call : String}
      (calls : buttonAttributes.get? "hx-headers" = some (.string ("javascript: ..." ++ call)))
      (written : (outcome ⟨.view (.quickButton action refresh formAttributes hidden attributes
        children), setting, state⟩).1 =
        .ok (elementText "form" own (inputs ++ elementText "button" buttonAttributes content))) :
      Calls ⟨.view (.quickButton action refresh formAttributes hidden attributes children),
        setting, state⟩ call
  | submit {setting : Setting} {state : State} {action : Action}
      {attributes buttonAttributes : Attributes} {children : List View} {content call : String}
      (calls : buttonAttributes.get? "hx-headers" = some (.string ("javascript: ..." ++ call)))
      (written : (outcome ⟨.view (.submit action attributes children), setting, state⟩).1 =
        .ok (elementText "button" buttonAttributes content)) :
      Calls ⟨.view (.submit action attributes children), setting, state⟩ call

/-- If there are islands, the attributes of the button have the call, whatever they had before. -/
theorem get?_headers_buttonAttributes {islands : List String} (named : islands ≠ [])
    (action : Action) (formId route : String) (items : List Value) (attributes : Attributes) :
    (action.buttonAttributes formId route islands items attributes).get? "hx-headers" =
      some (.string ("javascript: ..." ++ refreshCall route islands items)) := by
  obtain ⟨first, rest, rfl⟩ := List.exists_cons_of_ne_nil named
  exact (Sender.button action formId route first rest items attributes).get?_headers

/-- A button that is rendered to a text calls with all islands that its form has refreshed, if there
are any. -/
theorem Posts.calls {stage : Stage} {action : Action} {refresh : Refresh} {text : String}
    (posts : stage.Posts action refresh) (ended : stage.outcome.1 = .ok text)
    (named : refresh.islandIds action ≠ []) :
    stage.Calls (refreshCall stage.setting.scope.current.text (refresh.islandIds action)
      refresh.items) := by
  cases posts with
  | quickButton setting state formAttributes attributes hidden children =>
      obtain ⟨inputs, content, rfl⟩ := written_of_quickButton ended
      exact .quickButton (get?_headers_buttonAttributes named ..) ended
  | submit opens under =>
      obtain ⟨opened, content, around, rfl⟩ := written_of_submit ended
      obtain ⟨formAction, formRefresh, attributes, children, shown, aroundToo⟩ := under.open_eq
      obtain ⟨rfl, rfl, -, -⟩ := View.form.inj (Task.view.inj (opens.symm.trans shown))
      obtain rfl := Option.some.inj (around.symm.trans aroundToo)
      exact .submit (get?_headers_buttonAttributes named ..) ended

/-- A form has the islands of its action refreshed in the order in which the action was related to
them, then those of its own that are new, each of them once. So an island that is listed more than
once is one that the action was related to more than once, and it is listed as often as that; each
island is listed once, at its first mention, exactly if the action was never related to one again.
All of them stand in the call of every button that posts the form. -/
theorem related_listed_as_often {action : Action} {related : List String}
    (made : action.Made related) (refresh : Refresh) :
    refresh.islandIds action = related ++ (refresh.islands.removeAll related).eraseDups ∧
    (∀ island, (refresh.islandIds action).count island =
      max (related.count island) (if island ∈ refresh.islands then 1 else 0)) ∧
    (refresh.islandIds action = (related ++ refresh.islands).eraseDups ↔ related.Nodup) ∧
    ∀ stage text, Posts action refresh stage → stage.outcome.1 = .ok text →
      refresh.islandIds action ≠ [] →
        stage.Calls (refreshCall stage.setting.scope.current.text (refresh.islandIds action)
          refresh.items) := by
  obtain rfl := made.islands_eq
  exact ⟨refresh.islandIds_eq action, refresh.count_islandIds action,
    refresh.islandIds_eq_eraseDups_iff action, fun stage text posts => posts.calls⟩

/-! ## A shop with a cart -/

/-- An action that was related to the cart, and to the cart again. -/
def cartAction : Action :=
  ((do (← Action.create .post "add").relateAll ["cart", "cart"]) : Supply Action).run 0 |>.1

theorem made_cartAction : cartAction.Made ["cart", "cart"] :=
  (Action.Made.created .post "add" 0).relateAll ["cart", "cart"] 1

/-- What a form refreshes on top of the cart. -/
def badges : Refresh :=
  { islands := ["badge", "cart", "badge"], items := [] }

/-- Where the shop is rendered. -/
def shopSetting : Setting :=
  { config := .standard, pass := .build, scope := (Scope.page ⟨["shop"]⟩ "Shop").enter "shop" }

/-- A form of the action with a submit button. -/
def cartForm : Stage :=
  { task := .view (cartAction.form badges [] [] [.submit cartAction [] [.text "Add"]])
    setting := shopSetting
    state := .ofLedger (.ofBuild .empty (.ofConfig .standard)) }

/-- The submit button in the form, which is the first one of its document. -/
def cartSubmit : Stage :=
  { task := .view (.submit cartAction [] [.text "Add"])
    setting := { shopSetting with
      scope := shopSetting.scope.inForm (openForm cartAction badges "form_1") }
    state := { cartForm.state with
      ledger := { cartForm.state.ledger with numbering := Numbering.ofPage.afterForm } } }

theorem cartSubmit_posts : Posts cartAction badges cartSubmit :=
  .submit (rfl : cartForm.task = _) <|
    .kept (.content rfl (.form cartAction badges [] _ rfl rfl)) (.child (.here _ _ _))
      (by rintro ⟨⟩)

/-- The submit button calls with the cart twice, and with the badge once. -/
theorem cartSubmit_lists_cart_twice :
    cartAction.Made ["cart", "cart"] ∧ Posts cartAction badges cartSubmit ∧
      badges.islandIds cartAction = ["cart", "cart"] ++ ["badge"] ∧
      cartSubmit.Calls "__hardwire.formHeaders(\"shop\", [\"cart\",\"cart\",\"badge\"], [])" := by
  obtain ⟨text, computed⟩ : ∃ text, cartSubmit.outcome.1.toOption = some text :=
    Option.isSome_iff_exists.mp (by decide +kernel)
  obtain ⟨listed, -, -, calls⟩ := related_listed_as_often made_cartAction badges
  have call := calls cartSubmit text cartSubmit_posts (eq_ok_of_toOption computed)
    (by decide +kernel)
  have written : refreshCall cartSubmit.setting.scope.current.text (badges.islandIds cartAction)
      badges.items = "__hardwire.formHeaders(\"shop\", [\"cart\",\"cart\",\"badge\"], [])" := by
    decide +kernel
  rw [written] at call
  exact ⟨made_cartAction, cartSubmit_posts, listed.trans (by decide +kernel), call⟩

/-- A button of the action with a form of its own. -/
def cartButton : Stage :=
  { cartForm with task := .view (cartAction.quickButton badges [] [] [] [.text "Add"]) }

/-- An island that the action was related to twice is listed twice. -/
theorem cartButton_lists_cart_twice :
    cartAction.Made ["cart", "cart"] ∧
      cartButton.Calls "__hardwire.formHeaders(\"shop\", [\"cart\",\"cart\",\"badge\"], [])" ∧
      badges.islandIds cartAction = ["cart", "cart", "badge"] ∧
      (["cart", "cart"] ++ badges.islands).eraseDups = ["cart", "badge"] ∧
      ¬ ∀ (action : Action) (related : List String) (refresh : Refresh), action.Made related →
        refresh.islandIds action = (related ++ refresh.islands).eraseDups := by
  obtain ⟨text, computed⟩ : ∃ text, cartButton.outcome.1.toOption = some text :=
    Option.isSome_iff_exists.mp (by decide +kernel)
  have listed : badges.islandIds cartAction = ["cart", "cart", "badge"] := by decide +kernel
  have posts : Posts cartAction badges cartButton :=
    .quickButton shopSetting cartForm.state [] [] [] [.text "Add"]
  have call := posts.calls (eq_ok_of_toOption computed) (by rw [listed]; simp)
  have once : (["cart", "cart"] ++ badges.islands).eraseDups = ["cart", "badge"] := by
    decide +kernel
  have written : refreshCall shopSetting.scope.current.text (badges.islandIds cartAction)
      badges.items = "__hardwire.formHeaders(\"shop\", [\"cart\",\"cart\",\"badge\"], [])" := by
    decide +kernel
  refine ⟨made_cartAction, written ▸ call, listed, once, fun deduplicated => ?_⟩
  have same := deduplicated cartAction ["cart", "cart"] badges made_cartAction
  rw [listed, once] at same
  exact absurd same (by decide)

end Stage

end Sitewright

import Sitewright.Proofs.Render.FormIds
import Sitewright.Proofs.Render.Plain

/-!
Contract: the attributes that a construct writes over those it is given.

Containers of routes, links, forms and buttons take attributes and set their own behind them. Since
attributes hold what was set last, an element has the values of its construct under the names that
the construct sets, and the last values that it was given under all others.

Owns:
- `Overriding`, the constructs that set attributes, and what they set;
- `Stage.Overrides`, the elements that a render writes with such attributes;
- what the element of a construct has under each name.

Does not own: elements whose attributes are all made by the library.
-/

namespace Sitewright

open Markup Routing

/-- A construct that sets attributes behind those it is given. -/
inductive Overriding where
  | switch (id : String)
  | link (target container : String) (locale : Option String)
  | form (id : String)
  | button (action : Action) (formId route : String) (islands : List String) (items : List Value)

namespace Overriding

/-- What the construct sets, in order. The class of a container goes on from the one given. -/
def own (given : Attributes) : Overriding → List Attribute
  | .switch id => [⟨"id", .string id⟩, ⟨"class", .string (Render.withSwitchClass given)⟩]
  | .link target container locale =>
      [⟨"href", .string target⟩, ⟨"hx-headers", Render.languageHeaders locale⟩,
       ⟨"hx-boost", .string "true"⟩, ⟨"hx-target", .string ("#" ++ container)⟩,
       ⟨"hx-swap", .string "outerHTML"⟩]
  | .form id => [⟨"id", .string id⟩]
  | .button action formId route islands items =>
      action.buttonSettings formId route islands items

/-- The attributes that the element of the construct is written with. -/
def attributes (given : Attributes) : Overriding → Attributes
  | .switch id => Render.switchAttributes id given
  | .link target container locale => Render.linkAttributes target container locale given
  | .form id => given.set "id" (.string id)
  | .button action formId route islands items =>
      action.buttonAttributes formId route islands items given

/-- The attributes are those given and then what the construct sets. -/
theorem attributes_eq (construct : Overriding) (given : Attributes) :
    construct.attributes given = given.setAll (construct.own given) := by
  cases construct <;> rfl

theorem attributes_ofSettings (construct : Overriding) (settings : List Attribute) :
    construct.attributes (Attributes.ofSettings settings) =
      Attributes.ofSettings (settings ++ construct.own (Attributes.ofSettings settings)) := by
  rw [attributes_eq, Attributes.setAll_ofSettings]

/-- No construct sets a name twice. -/
theorem nodup_own (construct : Overriding) (given : Attributes) :
    ((construct.own given).map Attribute.name).Nodup := by
  cases construct with
  | switch | link | form => simp [own]
  | button action formId route islands items =>
      exact action.nodup_buttonSettings formId route islands items

end Overriding

/-! ## Elements of constructs -/

namespace Stage

open Render

/-- The text of the render has an element with the tag, written by the construct over the attributes
that the view gives to it. -/
inductive Overrides : Stage → (tag : String) → (given : Attributes) → Overriding → Prop where
  | switch {setting : Setting} {state : State} {id : String} {given : Attributes}
      {children : List View} :
      Overrides ⟨.view (.switch id given children), setting, state⟩ "div" given (.switch id)
  | link {setting : Setting} {state : State} {target : String} {locale : Option String}
      {given : Attributes} {children : List View} :
      Overrides ⟨.view (.link target locale given children), setting, state⟩ "a" given
        (.link target (state.ledger.routes.containerOf
          (linkTarget (Path.ofText target) setting.scope.current)) locale)
  | form {setting : Setting} {state : State} {action : Action} {refresh : Refresh}
      {given : Attributes} {children : List View} :
      Overrides ⟨.view (.form action refresh given children), setting, state⟩ "form" given
        (.form state.numbering.formId)
  | submit {setting : Setting} {state : State} {action : Action} {given : Attributes}
      {children : List View} {form : OpenForm} (around : setting.scope.form = some form) :
      Overrides ⟨.view (.submit action given children), setting, state⟩ "button" given
        (.button action form.id setting.scope.current.text form.islands form.items)
  | quickForm {setting : Setting} {state : State} {action : Action} {refresh : Refresh}
      {given attributes : Attributes} {hidden children : List View} :
      Overrides ⟨.view (.quickButton action refresh given hidden attributes children), setting,
        state⟩ "form" given (.form state.numbering.formId)
  | quickButton {setting : Setting} {state : State} {action : Action} {refresh : Refresh}
      {formAttributes given : Attributes} {hidden children : List View} :
      Overrides ⟨.view (.quickButton action refresh formAttributes hidden given children), setting,
        state⟩ "button" given
        (.button action state.numbering.formId setting.scope.current.text
          (refresh.islandIds action) refresh.items)

/-- The element with the tag and the attributes stands in the text. -/
def HasElement (text tag : String) (attributes : Attributes) : Prop :=
  ∃ front content back, text = front ++ elementText tag attributes content ++ back

theorem hasElement_self (tag : String) (attributes : Attributes) (content : String) :
    HasElement (elementText tag attributes content) tag attributes :=
  ⟨"", content, "", by simp⟩

/-- What stands in the content of an element stands in the element. -/
theorem HasElement.within {content tag outer : String} {attributes outerAttributes : Attributes}
    (inside : HasElement content tag attributes) :
    HasElement (elementText outer outerAttributes content) tag attributes := by
  obtain ⟨before, inner, behind, rfl⟩ := inside
  obtain ⟨front, back, shape⟩ := exists_elementText outer outerAttributes
    (before ++ elementText tag attributes inner ++ behind)
  refine ⟨front ++ before, inner, behind ++ back, ?_⟩
  rw [shape]
  simp only [String.append_assoc]

theorem hasElement_of_element {tag : String} {attributes : Attributes} {content : Render String}
    {setting : Setting} {state final : State} {text : String}
    (outcome : element tag attributes content setting state = (.ok text, final)) :
    HasElement text tag attributes := by
  obtain ⟨inside, -, rfl⟩ := ok_of_element (congrArg Prod.fst outcome)
  exact hasElement_self tag attributes inside

/-- An element is written with the attributes of its construct. -/
theorem Overrides.hasElement {stage : Stage} {tag text : String} {given : Attributes}
    {construct : Overriding} (overrides : Overrides stage tag given construct)
    (ended : stage.outcome.1 = .ok text) : HasElement text tag (construct.attributes given) := by
  have outcome : stage.outcome = (.ok text, stage.outcome.2) := Prod.ext ended rfl
  cases overrides with
  | switch =>
      obtain ⟨seen, after, -, written⟩ := ok_of_bind (ok_of_within outcome)
      exact hasElement_of_element written
  | link =>
      have linked := ok_of_within outcome
      rw [link_eq_element] at linked
      exact hasElement_of_element linked
  | form =>
      cases writesForm_of_ended rfl ended with
      | form written =>
          obtain rfl := Except.ok.inj (ended.symm.trans written)
          exact hasElement_self _ _ _
  | @submit setting state action given children form around =>
      have submitted := ok_of_within outcome
      unfold Render.submit at submitted
      rw [setting_bind] at submitted
      simp only [around] at submitted
      split at submitted
      · exact hasElement_of_element submitted
      · cases submitted
  | quickForm =>
      obtain ⟨inputs, content, rfl⟩ := written_of_quickButton ended
      exact hasElement_self _ _ _
  | quickButton =>
      obtain ⟨inputs, content, rfl⟩ := written_of_quickButton ended
      exact HasElement.within ⟨inputs, content, "", by simp [Overriding.attributes]⟩

end Stage

/-! ## Values by name -/

namespace Overriding

/-- What a construct sets is what its element has, and under all other names the element has what
it was given last. -/
theorem get?_own (construct : Overriding) (settings : List Attribute) :
    let own := construct.own (.ofSettings settings)
    (∀ setting ∈ own, (Attributes.ofSettings (settings ++ own)).get? setting.name =
      some setting.value) ∧
    ∀ name ∉ own.map Attribute.name, (Attributes.ofSettings (settings ++ own)).get? name =
      Attributes.lastValue? name settings := by
  intro own
  refine ⟨fun setting member => ?_, fun name absent => ?_⟩
  · rw [Attributes.get?_ofSettings, Attributes.lastValue?_append,
      Attributes.lastValue?_of_mem (construct.nodup_own _) member]
    rfl
  · rw [Attributes.get?_ofSettings, Attributes.lastValue?_append,
      Attributes.lastValue?_of_not_mem absent]
    rfl

end Overriding

/-- Attributes that are set one after another are kept by name. No name is there twice, the names
stand in the order in which they were set first, and under each one is found the value that was set
last. The text holds a name where its last value has a text, once and in that order; if the names
are proper, the text can be read in no other way. So the values that a construct sets behind those
it is given are the ones that its element is written with, and under all other names it is written
with what it was given last. -/
theorem settings_kept_by_name (settings : List Attribute) :
    ((Attributes.ofSettings settings).map Attribute.name).Nodup ∧
    (Attributes.ofSettings settings).map Attribute.name =
      (settings.map Attribute.name).eraseDups ∧
    (∀ name, (Attributes.ofSettings settings).get? name =
      Attributes.lastValue? name settings) ∧
    (Attributes.ofSettings settings).text = Text.joinWith " "
      ((settings.map Attribute.name).eraseDups.filterMap fun name =>
        (Attributes.lastValue? name settings).bind fun value => Attribute.text? ⟨name, value⟩) ∧
    ((∀ setting ∈ settings, IsName setting.name) →
      ∃ listed, Lists (Attributes.ofSettings settings).text listed ∧
        (∀ others, Lists (Attributes.ofSettings settings).text others → others = listed) ∧
        (listed.map Prod.fst).Nodup ∧
        ∀ name, name ∈ listed.map Prod.fst ↔
          ∃ value, Attributes.lastValue? name settings = some value ∧ value.text?.isSome) ∧
    ∀ construct : Overriding,
      let own := construct.own (Attributes.ofSettings settings)
      (∀ setting ∈ own, (Attributes.ofSettings (settings ++ own)).get? setting.name =
        some setting.value) ∧
      (∀ name ∉ own.map Attribute.name, (Attributes.ofSettings (settings ++ own)).get? name =
        Attributes.lastValue? name settings) ∧
      ∀ stage tag text, Stage.Overrides stage tag (Attributes.ofSettings settings) construct →
        stage.outcome.1 = .ok text →
          Stage.HasElement text tag (Attributes.ofSettings (settings ++ own)) := by
  have names := Attributes.names_ofSettings settings
  have distinct : ((Attributes.ofSettings settings).map Attribute.name).Nodup := by
    rw [names]
    exact nodup_eraseDups _
  refine ⟨distinct, names, fun name => Attributes.get?_ofSettings name settings, ?_, ?_, ?_⟩
  · rw [Attributes.text, Attributes.filterMap_eq distinct, names]
    simp only [Attributes.get?_ofSettings]
  · intro proper
    have named : ∀ entry ∈ Attributes.ofSettings settings, IsName entry.name := by
      intro entry member
      have listed : entry.name ∈ (Attributes.ofSettings settings).map Attribute.name :=
        List.mem_map_of_mem member
      rw [names, List.mem_eraseDups] at listed
      obtain ⟨setting, given, same⟩ := List.mem_map.mp listed
      exact same ▸ proper setting given
    obtain ⟨listed, lists, unique, once, shown⟩ := Attributes.exists_lists named distinct
    refine ⟨listed, lists, unique, once, fun name => ?_⟩
    rw [shown, Attributes.get?_ofSettings]
  · intro construct own
    obtain ⟨sets, keeps⟩ := construct.get?_own settings
    refine ⟨sets, keeps, fun stage tag text overrides ended => ?_⟩
    rw [← construct.attributes_ofSettings]
    exact overrides.hasElement ended

/-- Settings in which names come again and a value is taken back. -/
def menuSettings : List Attribute :=
  [⟨"class", .string "wide"⟩, ⟨"id", .string "mine"⟩, ⟨"title", .string "Menu"⟩,
   ⟨"class", .string "narrow"⟩, ⟨"hidden", .bool true⟩, ⟨"title", .null⟩]

/-- A container with the settings. -/
def menuStage : Stage where
  task := .view (.switch "main" (.ofSettings menuSettings) [.text "Menu"])
  setting := { config := .standard, pass := .build, scope := .page .root "Menu" }
  state := .ofLedger (.ofBuild .empty (.ofConfig .standard))

/-- The menu has its last class, and no title; as a container it has another id. -/
theorem menuSettings_kept_by_name :
    (Attributes.ofSettings menuSettings).map Attribute.name = ["class", "id", "title", "hidden"] ∧
    (Attributes.ofSettings menuSettings).text = "class=\"narrow\" id=\"mine\" hidden" ∧
    (∀ listed, Lists (Attributes.ofSettings menuSettings).text listed →
      "title" ∉ listed.map Prod.fst) ∧
    ∃ text attributes, menuStage.outcome.1 = .ok text ∧
      Stage.HasElement text "div" attributes ∧
      attributes.get? "id" = some (.string "main") ∧
      attributes.get? "class" = some (.string "narrow __route-switch") ∧
      attributes.get? "hidden" = some (.bool true) := by
  obtain ⟨-, names, -, text, listed, overridden⟩ := settings_kept_by_name menuSettings
  have proper : ∀ setting ∈ menuSettings, IsName setting.name := by decide
  obtain ⟨shown, lists, unique, -, members⟩ := listed proper
  obtain ⟨sets, keeps, written⟩ := overridden (.switch "main")
  have ended : menuStage.outcome.1 =
      .ok "<div class=\"narrow __route-switch\" id=\"main\" hidden>Menu</div>" := by
    decide +kernel
  have classes : Render.withSwitchClass (.ofSettings menuSettings) = "narrow __route-switch" := by
    decide +kernel
  refine ⟨names.trans (by decide +kernel), text.trans (by decide +kernel), ?_, _, _, ended,
    written menuStage "div" _ .switch ended, ?_, ?_, ?_⟩
  · intro others listsToo isShown
    rw [unique others listsToo, members] at isShown
    obtain ⟨value, last, isText⟩ := isShown
    have none : Attributes.lastValue? "title" menuSettings = some .null := by decide +kernel
    obtain rfl := Option.some.inj (none.symm.trans last)
    cases isText
  · exact sets ⟨"id", .string "main"⟩ List.mem_cons_self
  · rw [← classes]
    exact sets ⟨"class", _⟩ (List.mem_cons_of_mem _ List.mem_cons_self)
  · rw [keeps "hidden" (by decide)]
    decide +kernel

end Sitewright

import Sitewright.Proofs.View.Refresh
import Sitewright.Proofs.View.Tidy
import Sitewright.Render.Forms
import Sitewright.Render.Routes
import Sitewright.Render.Shell

/-!
Contract: the attributes that constructs write are inert if what they are made of is.

Does not own: attributes given by the user.
-/

namespace Sitewright

open Text Template Markup

/-! ## Forms -/

theorem inert_islandIds {action : Action} {refresh : Refresh} (tidy : action.Tidy)
    (refreshTidy : refresh.Tidy) : ∀ id ∈ refresh.islandIds action, Inert id := by
  intro id member
  rcases (refresh.mem_islandIds action).mp member with ofAction | ofForm
  · exact tidy.islands id ofAction
  · exact refreshTidy.islands id ofForm

theorem inert_withId {attributes : Attributes} {id : String} (inert : attributes.Inert)
    (idInert : Inert id) : (attributes.set "id" (.string id)).Inert :=
  inert.set (inert_of_braceFree (by decide)) (Value.inert_string idInert)

theorem inert_refreshCall {route : String} {islands : List String} {items : List Value}
    (routeInert : Inert route) (islandsInert : ∀ id ∈ islands, Inert id)
    (itemsInert : ∀ item ∈ items, item.Inert) : Inert (refreshCall route islands items) := by
  have call : Inert "__hardwire.formHeaders(" := inert_of_braceFree (by decide)
  have comma : Inert ", " := inert_of_braceFree (by decide)
  have keys : ∀ key ∈ items.filterMap Value.text?, Inert key := by
    intro key member
    obtain ⟨item, inItems, written⟩ := List.mem_filterMap.mp member
    exact itemsInert item inItems key written
  have arguments := ((call.append (Json.inert_quoted routeInert)).append comma).append
    (Json.inert_stringsText islandsInert)
  exact ((arguments.append comma).append (Json.inert_stringsText keys)).append
    (inert_of_braceFree braceFree_closing)

theorem inert_buttonAttributes {action : Action} {formId route : String} {islands : List String}
    {items : List Value} {attributes : Attributes} (tidy : action.Tidy) (idInert : Inert formId)
    (routeInert : Inert route) (islandsInert : ∀ id ∈ islands, Inert id)
    (itemsInert : ∀ item ∈ items, item.Inert) (inert : attributes.Inert) :
    (action.buttonAttributes formId route islands items attributes).Inert := by
  have hash : Inert "#" := inert_of_braceFree (by decide)
  have address : Inert action.address := by
    have base : Inert "/__actions/" := inert_of_braceFree (by decide)
    exact base.append tidy.name
  have method : BraceFree action.method.attributeName := by
    cases action.method <;> decide
  have code : Inert ("javascript: ..." ++ refreshCall route islands items) := by
    have start : Inert "javascript: ..." := inert_of_braceFree (by decide)
    exact start.append (inert_refreshCall routeInert islandsInert itemsInert)
  have headers : Attributes.Inert
      (if islands.isEmpty then []
        else [⟨"hx-headers", .string ("javascript: ..." ++ refreshCall route islands items)⟩]) := by
    split
    · exact Attributes.inert_nil
    · exact .entry (by decide) (Value.inert_string code) Attributes.inert_nil
  unfold Action.buttonAttributes
  exact inert.setAll <|
    .entry (by decide) (Value.inert_string (hash.append idInert)) <|
      .entry method (Value.inert_string address) <|
        .fixed (by decide) (by decide) headers

/-! ## Placeholders -/

theorem inert_headers {loading : Loading} {header route : String} (tidy : loading.Tidy)
    (headerInert : Inert header) (routeInert : Inert route) :
    Inert (loading.headers header route).text := by
  have slash : Inert "/" := inert_of_braceFree braceFree_slash
  have language : Inert Loading.languageHeader := inert_of_braceFree (by decide)
  apply Json.inert_object
  intro entry member
  rcases List.mem_cons.mp (Json.mem_sortMembers member) with rfl | inRest
  · exact ⟨headerInert, Json.inert_quoted (slash.append routeInert)⟩
  · split at inRest
    · next locale given =>
      rw [List.mem_singleton.mp inRest]
      exact ⟨language, Json.inert_quoted (tidy.locale locale given)⟩
    · cases inRest

theorem inert_delayText {label : String} {delay : Option String} (labelFree : BraceFree label)
    (inert : ∀ given ∈ delay, Inert given) : Inert (Loading.delayText label delay) := by
  cases delay with
  | none => exact inert_of_braceFree braceFree_empty
  | some given =>
      have colon : Inert ":" := inert_of_braceFree (by decide)
      have start := inert_of_braceFree (braceFree_space.append labelFree)
      exact (start.append colon).append (inert given rfl)

theorem inert_placeholderAttributes {loading : Loading} {header route url : String}
    (tidy : loading.Tidy) (headerFree : BraceFree header) (routeInert : Inert route)
    (urlInert : Inert url) : (loading.placeholderAttributes header route url).Inert := by
  have trigger : BraceFree loading.trigger.text := by
    cases loading.trigger <;> decide
  have style : BraceFree (if loading.morph then "morph:outerHTML" else "outerHTML") := by
    cases loading.morph <;> decide
  have swap : Inert loading.swapText :=
    ((inert_of_braceFree style).append (inert_delayText (by decide) tidy.swap)).append
      (inert_delayText (by decide) tidy.settle)
  have headers := inert_headers tidy (inert_of_braceFree headerFree) routeInert
  unfold Loading.placeholderAttributes
  exact .fixed (by decide) trigger <|
    .entry (by decide) (Value.inert_string urlInert) <|
      .entry (by decide) (Value.inert_string swap) <|
        .entry (by decide) (Value.inert_string headers) Attributes.inert_nil

/-! ## Routes, links and the document around a page -/

namespace Render

theorem inert_switchAttributes {id : String} {attributes : Attributes} (idInert : Inert id)
    (inert : attributes.Inert) : (switchAttributes id attributes).Inert := by
  have marker : Inert switchClass := inert_of_braceFree (by decide)
  have classes : Inert (withSwitchClass attributes) := by
    unfold withSwitchClass
    split
    · next own found =>
      obtain ⟨value, given, written⟩ := Option.bind_eq_some_iff.mp found
      have ownInert := inert.get? value given own written
      split
      · exact marker
      · exact (ownInert.append (inert_of_braceFree braceFree_space)).append marker
    · exact marker
  unfold switchAttributes
  exact inert.setAll <|
    .entry (by decide) (Value.inert_string idInert) <|
      .entry (by decide) (Value.inert_string classes) Attributes.inert_nil

theorem inert_languageHeaders {locale : Option String}
    (inert : ∀ language ∈ locale, Inert language) : (languageHeaders locale).Inert := by
  apply Value.inert_ofString?
  intro text member
  obtain ⟨language, given, rfl⟩ := Option.map_eq_some_iff.mp member
  have header : Inert Loading.languageHeader := inert_of_braceFree (by decide)
  apply Json.inert_object
  intro entry inMembers
  rw [List.mem_singleton.mp inMembers]
  exact ⟨header, Json.inert_quoted (inert language given)⟩

theorem inert_linkAttributes {target container : String} {locale : Option String}
    {attributes : Attributes} (targetInert : Inert target) (containerInert : Inert container)
    (localeInert : ∀ language ∈ locale, Inert language) (inert : attributes.Inert) :
    (linkAttributes target container locale attributes).Inert := by
  have hash : Inert "#" := inert_of_braceFree (by decide)
  unfold linkAttributes
  exact inert.setAll <|
    .entry (by decide) (Value.inert_string targetInert) <|
      .entry (by decide) (inert_languageHeaders localeInert) <|
        .fixed (by decide) (by decide) <|
          .entry (by decide) (Value.inert_string (hash.append containerInert)) <|
            .fixed (by decide) (by decide) Attributes.inert_nil

theorem inert_loaderAttributes : loaderAttributes.Inert :=
  .fixed (by decide) (by decide) <|
    .fixed (by decide) (by decide +kernel) <|
      .fixed (by decide) (by decide) Attributes.inert_nil

theorem inert_bodyAttributes (morph : Bool) : (bodyAttributes morph).Inert := by
  have extension : BraceFree (if morph then "morph" else "") := by
    cases morph <;> decide
  exact .fixed (by decide) extension Attributes.inert_nil

theorem balanced_metaTagsText {tags : List Attributes}
    (inert : ∀ attributes ∈ tags, attributes.Inert) : Balanced (metaTagsText tags) := by
  have empty : Balanced "" := (inert_of_braceFree braceFree_empty).balanced
  unfold metaTagsText
  induction tags with
  | nil => exact empty
  | cons first rest inductionHypothesis =>
      have firstBalanced : Balanced (metaTagText first) :=
        balanced_elementText (inert_of_braceFree (by decide)) (inert first List.mem_cons_self) empty
      have restBalanced := inductionHypothesis fun attributes member =>
        inert attributes (List.mem_cons_of_mem _ member)
      rw [List.map_cons, String.join_cons]
      exact firstBalanced.append restBalanced

theorem inert_scriptType (asModule : Bool) : (scriptType asModule).Inert := by
  have name : Inert "type" := inert_of_braceFree (by decide)
  have type : BraceFree (if asModule then "module" else "text/javascript") := by
    cases asModule <;> decide
  exact ⟨name, Value.inert_string (inert_of_braceFree type)⟩

theorem balanced_linkedScript (asModule : Bool) {address : String} (free : BraceFree address) :
    Balanced (linkedScript asModule address) := by
  have attributes : Attributes.Inert [scriptType asModule, ⟨"src", .string address⟩] :=
    (Attributes.Inert.fixed (by decide) free Attributes.inert_nil).cons (inert_scriptType asModule)
  exact balanced_elementText (inert_of_braceFree (by decide)) attributes
    (inert_of_braceFree braceFree_empty).balanced

end Render

end Sitewright

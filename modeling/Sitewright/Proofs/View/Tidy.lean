import Sitewright.Proofs.Markup.Inert
import Sitewright.View.Form
import Sitewright.View.Region
import Sitewright.Render.Ledger

/-!
Contract: views whose own strings cannot disturb the blocks of a template.

Texts, names and values are inert; what is written into actions or cut into
segments is free of braces. A body that depends on data is only asked about for the
references that a render gives it.

Owns:
- tidy actions, refreshes, loadings and views;
- the regions, islands and forms of the library as tidy views.

Does not own: components, which may write anything.
-/

namespace Sitewright

open Text Template Markup

structure Action.Tidy (action : Action) : Prop where
  name : Inert action.name
  islands : ∀ id ∈ action.islands, Inert id

structure Refresh.Tidy (refresh : Refresh) : Prop where
  islands : ∀ id ∈ refresh.islands, Inert id
  items : ∀ item ∈ refresh.items, item.Inert

structure Loading.Tidy (loading : Loading) : Prop where
  swap : ∀ delay ∈ loading.swap, Inert delay
  settle : ∀ delay ∈ loading.settle, Inert delay
  locale : ∀ language ∈ loading.locale, Inert language

/-- Content that is written into the page; stored content is not. -/
def ScriptSource.Tidy (source : ScriptSource) : Prop :=
  source.inlined = true → ∀ contents ∈ source.contents, Inert contents

/-- The reference that the page of a route gets to the resource it needs. -/
def Template.DataRef.ofResource (resource : String) : DataRef :=
  ⟨"." ++ resourceKey resource⟩

mutual

def View.Tidy : View → Prop
  | .blank => True
  | .text content => Inert content
  | .raw content => Inert content
  | .group children => View.AllTidy children
  | .element tag attributes children => Inert tag ∧ attributes.Inert ∧ View.AllTidy children
  | .conditional condition _ body none => condition.BraceFree ∧ View.AllTidy body
  | .conditional condition _ body (some otherwise) =>
      condition.BraceFree ∧ View.AllTidy body ∧ otherwise.Tidy
  | .alternative branch => branch.Tidy
  | .loop source body =>
      BraceFree source.name ∧ ∀ numbering : Numbering,
        (body ⟨numbering.elementName⟩ ⟨numbering.positionName⟩).Tidy
  | .switch id attributes children => Inert id ∧ attributes.Inert ∧ View.AllTidy children
  | .route path _ children => BraceFree path ∧ View.AllTidy children
  | .dataRoute path _ resource body => BraceFree path ∧ (body (.ofResource resource)).Tidy
  | .link target locale attributes children =>
      Inert target ∧ (∀ language ∈ locale, Inert language) ∧ attributes.Inert ∧
        View.AllTidy children
  | .redirect _ => True
  | .shell _ headChildren children => View.AllTidy headChildren ∧ View.AllTidy children
  | .head children => View.AllTidy children
  | .metaTag attributes => attributes.Inert
  | .stylesheet name contents inlined => inlined = true → Inert name ∧ Inert contents
  | .script source => source.Tidy
  | .remote region template fallback =>
      region.loading.Tidy ∧ (template .ofFragment).Tidy ∧ fallback.Tidy
  | .form action refresh attributes children =>
      action.Tidy ∧ refresh.Tidy ∧ attributes.Inert ∧ View.AllTidy children
  | .submit action attributes children =>
      action.Tidy ∧ attributes.Inert ∧ View.AllTidy children
  | .quickButton action refresh formAttributes hidden attributes children =>
      action.Tidy ∧ refresh.Tidy ∧ formAttributes.Inert ∧ View.AllTidy hidden ∧
        attributes.Inert ∧ View.AllTidy children
  | .component _ _ => False

def View.AllTidy : List View → Prop
  | [] => True
  | first :: rest => first.Tidy ∧ View.AllTidy rest

end

theorem View.allTidy_iff {views : List View} : AllTidy views ↔ ∀ view ∈ views, view.Tidy := by
  induction views with
  | nil => simp [AllTidy]
  | cons first rest inductionHypothesis => simp [AllTidy, inductionHypothesis]

theorem View.AllTidy.append {front back : List View} (frontTidy : AllTidy front)
    (backTidy : AllTidy back) : AllTidy (front ++ back) := by
  rw [allTidy_iff] at frontTidy backTidy ⊢
  intro view member
  rcases List.mem_append.mp member with inFront | inBack
  · exact frontTidy view inFront
  · exact backTidy view inBack

/-! ## References -/

namespace Template

/-- What cannot belong to a word ends the first word, or leaves none. -/
theorem firstWord_append {front back : List Char} {separator : Char}
    (noBlank : separator.isWhitespace = false) (noWord : isWordChar separator = false) :
    firstWord (front ++ separator :: back) = firstWord front := by
  induction front with
  | nil => simp [firstWord, noBlank, noWord]
  | cons first rest inductionHypothesis =>
      by_cases blank : first.isWhitespace = true
      · simpa [firstWord, blank] using inductionHypothesis
      · simp only [Bool.not_eq_true] at blank
        have ended : ∀ word : List Char,
            (word ++ separator :: back).takeWhile isWordChar = word.takeWhile isWordChar := by
          intro word
          induction word with
          | nil => simp [noWord]
          | cons head tail tailHypothesis =>
              rw [List.cons_append, List.takeWhile_cons, List.takeWhile_cons, tailHypothesis]
        rw [List.cons_append]
        unfold firstWord
        rw [List.dropWhile_cons_of_neg (by simp [blank]),
          List.dropWhile_cons_of_neg (by simp [blank]), ← List.cons_append, ended]

namespace DataRef

theorem plain_ofFragment : ofFragment.Plain where
  free := by decide
  kind := by decide

theorem plain_ofResource (resource : String) : (ofResource resource).Plain where
  free := by
    have point : BraceFree "." := by decide
    exact point.append (braceFree_resourceKey resource)
  kind := by
    unfold ofResource
    rw [String.toList_append]
    rfl

theorem plain_elementName (numbering : Numbering) : Plain ⟨numbering.elementName⟩ where
  free := numbering.braceFree_elementName
  kind := by
    unfold Numbering.elementName
    rw [String.toList_append]
    rfl

theorem plain_positionName (numbering : Numbering) : Plain ⟨numbering.positionName⟩ where
  free := numbering.braceFree_positionName
  kind := by
    unfold Numbering.positionName Numbering.elementName
    rw [String.append_assoc, String.toList_append]
    rfl

theorem Plain.field {source : DataRef} (plain : source.Plain) {label : String}
    (labelFree : BraceFree label) : (source.field label).Plain where
  free := by
    have point : BraceFree "." := by decide
    exact (plain.free.append point).append labelFree
  kind := by
    have same : firstWord (source.field label).name.toList = firstWord source.name.toList := by
      unfold DataRef.field
      rw [String.append_assoc, String.toList_append, String.toList_append]
      exact firstWord_append (by decide) (by decide)
    unfold ActionKind.ofPipeline
    rw [same]
    exact plain.kind

theorem Plain.element {source : DataRef} (plain : source.Plain) (position : Nat) :
    (source.element position).Plain where
  free := by
    have call : BraceFree "(index " := by decide
    have name := (call.append plain.free).append braceFree_space
    exact (name.append (braceFree_nat position)).append braceFree_closing
  kind := by
    unfold DataRef.element
    rw [String.append_assoc, String.append_assoc, String.append_assoc, String.toList_append]
    rfl

theorem Plain.length {source : DataRef} (plain : source.Plain) : source.length.Plain where
  free := by
    have call : BraceFree "len " := by decide
    exact call.append plain.free
  kind := by
    unfold DataRef.length
    rw [String.toList_append]
    rfl

end DataRef

end Template

theorem View.tidy_ofRef {source : DataRef} (plain : source.Plain) : (View.ofRef source).Tidy := by
  unfold View.ofRef View.Tidy
  exact plain.inert

/-! ## Regions and islands -/

/-- A value of the user: a string without braces, a reference, or anything else. -/
def Markup.Value.Plain : Value → Prop
  | .string text => BraceFree text
  | .ref source => source.Plain
  | _ => True

namespace Markup.Value

theorem Plain.inert {value : Value} (plain : value.Plain) : value.Inert := by
  cases value with
  | null => exact inert_null
  | bool flag => exact inert_bool flag
  | string text => exact inert_string (inert_of_braceFree plain)
  | whole number => exact inert_whole number
  | float number => exact inert_float number
  | ref source => exact inert_ref plain

end Markup.Value

theorem Text.trimBlank_action (pipeline : String) :
    trimBlank (action pipeline) = action pipeline := by
  have opening : ¬ isBlank '\x7b' = true := by decide
  have closing : ¬ isBlank '\x7d' = true := by decide
  have written : (action pipeline).toList =
      '\x7b' :: ('\x7b' :: pipeline.toList ++ ['\x7d', '\x7d']) := by
    simp [action]
  have reversed : ('\x7b' :: ('\x7b' :: pipeline.toList ++ ['\x7d', '\x7d'])).reverse =
      '\x7d' :: ('\x7d' :: pipeline.toList.reverse ++ ['\x7b', '\x7b']) := by
    simp
  unfold trimBlank
  rw [written, List.dropWhile_cons_of_neg opening, reversed, List.dropWhile_cons_of_neg closing,
    ← reversed, List.reverse_reverse, ← written, String.ofList_toList]

theorem Text.BraceFree.trimBlank {text : String} (free : BraceFree text) :
    BraceFree (Text.trimBlank text) := by
  apply free.ofList_of_subset
  intro character member
  have inFront := List.dropWhile_subset _ (List.mem_reverse.mp member)
  exact List.dropWhile_subset _ (List.mem_reverse.mp inFront)

/-- White space is cut off outside of actions only. -/
theorem Markup.Value.Plain.inert_trimBlank {value : Value} (plain : value.Plain) :
    ∀ text ∈ value.text?, Template.Inert (Text.trimBlank text) := by
  intro text member
  cases value with
  | null => cases member
  | bool flag =>
      cases flag with
      | false => cases member
      | true =>
          obtain rfl : "" = text := Option.some.inj member
          exact inert_of_braceFree braceFree_empty.trimBlank
  | string given =>
      simp only [Value.text?] at member
      split at member
      · cases member
      · rw [← Option.mem_some.mp member]
        exact inert_of_braceFree (BraceFree.trimBlank plain)
  | whole number =>
      rw [← Option.mem_some.mp member]
      exact inert_of_braceFree (braceFree_int number).trimBlank
  | float number =>
      rw [← Option.mem_some.mp member]
      exact inert_of_braceFree number.braceFree_text_plain.trimBlank
  | ref source =>
      rw [← Option.mem_some.mp member, DataRef.interpolation, trimBlank_action]
      exact DataRef.Plain.inert plain

theorem inert_joinedClass {base : String} {extra : Option Value} (baseFree : BraceFree base)
    (plain : ∀ value ∈ extra, value.Plain) : (joinedClass base extra).Inert := by
  have baseInert := inert_of_braceFree baseFree
  unfold joinedClass
  split
  · next text found =>
    obtain ⟨value, given, written⟩ := Option.bind_eq_some_iff.mp found
    have trimmed := (plain value given).inert_trimBlank text written
    dsimp only
    split
    · exact Value.inert_string baseInert
    · exact Value.inert_string
        ((baseInert.append (inert_of_braceFree braceFree_space)).append trimmed)
  · exact Value.inert_string baseInert

theorem tidy_templateView {attributes : Attributes} {content : View} (inert : attributes.Inert)
    (tidy : content.Tidy) : (templateView attributes content).Tidy := by
  have tag : Inert "dynamic-fragment" := inert_of_braceFree (by decide)
  have binding : (View.raw bindFragmentRoot).Tidy := by
    unfold View.Tidy
    exact inert_action (by decide) (by decide)
  unfold templateView
  simp only [View.Tidy, View.AllTidy]
  exact ⟨tag, inert, binding, tidy, trivial⟩

/-- The region of a tidy body is tidy. -/
theorem SingleRegion.tidy_view {single : SingleRegion}
    (classInert : ∀ name ∈ single.class?, Inert name) (loading : single.loading.Tidy)
    (body : (single.body .ofFragment).Tidy) (fallback : single.fallback.Tidy) :
    single.view.Tidy := by
  have attributes : Attributes.Inert [⟨"class", .ofString? single.class?⟩] :=
    .entry (by decide) (Value.inert_ofString? classInert) Attributes.inert_nil
  unfold SingleRegion.view View.Tidy
  exact ⟨loading, tidy_templateView attributes body, fallback⟩

namespace ListRegion

/-- The strings of a list region apart from its content and fallback. -/
structure Tidy (list : ListRegion) : Prop where
  id : ∀ id ∈ list.id, Inert id
  class? : ∀ value ∈ list.class?, value.Plain
  itemClass : ∀ value ∈ list.itemClass, value.Plain
  key : ∀ key ∈ list.key, ∀ numbering : Numbering,
    (key ⟨numbering.elementName⟩ ⟨numbering.positionName⟩).Inert
  wrapper : ∀ wrapper ∈ list.wrapper, ∀ items : View,
    items.Tidy → (wrapper items .ofFragment).Tidy
  loading : list.loading.Tidy

theorem tidy_item {list : ListRegion} (tidy : list.Tidy) {numbering : Numbering}
    (body : (list.body ⟨numbering.elementName⟩ ⟨numbering.positionName⟩).Tidy) :
    (list.item ⟨numbering.elementName⟩ ⟨numbering.positionName⟩).Tidy := by
  have key : (list.keyOf ⟨numbering.elementName⟩ ⟨numbering.positionName⟩).Inert := by
    unfold keyOf
    split
    · next key given => exact tidy.key key given numbering
    · exact Value.inert_ref (DataRef.plain_positionName numbering)
  have attributes : Attributes.Inert
      [⟨"data-item-key", list.keyOf ⟨numbering.elementName⟩ ⟨numbering.positionName⟩⟩,
       ⟨"class", joinedClass "dynamic-list-element" list.itemClass⟩] :=
    .entry (by decide) key
      (.entry (by decide) (inert_joinedClass (by decide) tidy.itemClass) Attributes.inert_nil)
  unfold item
  simp only [View.Tidy, View.AllTidy]
  exact ⟨inert_of_braceFree (by decide), attributes, body, trivial⟩

theorem tidy_items {list : ListRegion} (tidy : list.Tidy)
    (body : ∀ numbering : Numbering,
      (list.body ⟨numbering.elementName⟩ ⟨numbering.positionName⟩).Tidy) :
    (list.items .ofFragment).Tidy := by
  unfold items View.Tidy
  exact ⟨DataRef.plain_ofFragment.free, fun numbering => tidy_item tidy (body numbering)⟩

/-- The region of a tidy body is tidy if its wrapper keeps views tidy. -/
theorem tidy_view {list : ListRegion} (tidy : list.Tidy)
    (body : ∀ numbering : Numbering,
      (list.body ⟨numbering.elementName⟩ ⟨numbering.positionName⟩).Tidy)
    (fallback : list.fallback.Tidy) : list.view.Tidy := by
  have items := tidy_items tidy body
  have attributes : Attributes.Inert
      [⟨"id", .ofString? list.id⟩, ⟨"class", joinedClass "dynamic-list" list.class?⟩] :=
    .entry (by decide) (Value.inert_ofString? tidy.id)
      (.entry (by decide) (inert_joinedClass (by decide) tidy.class?) Attributes.inert_nil)
  unfold view View.Tidy
  refine ⟨tidy.loading, tidy_templateView attributes ?_, fallback⟩
  split
  · next wrapper given => exact tidy.wrapper wrapper given _ items
  · exact items

end ListRegion

namespace Island

/-- The content of an island is tidy for the references that a render gives it. -/
def TidyBody (island : Island) : Prop :=
  match island.body with
  | .single body => (body .ofFragment).Tidy
  | .list body => ∀ numbering : Numbering,
      (body ⟨numbering.elementName⟩ ⟨numbering.positionName⟩).Tidy

theorem tidy_view {island : Island} (idFree : BraceFree island.id) (loading : island.loading.Tidy)
    (tidy : island.TidyBody) : island.view.Tidy := by
  have idInert := inert_of_braceFree idFree
  unfold TidyBody at tidy
  unfold Island.view
  split
  · next body isSingle =>
    rw [isSingle] at tidy
    have attributes : Attributes.Inert [⟨"id", .string island.id⟩] :=
      .entry (by decide) (Value.inert_string idInert) Attributes.inert_nil
    have region : (SingleRegion.view
        { SingleRegion.ofBody island.resource body with
          loading := island.loading, island := some island.id }).Tidy :=
      SingleRegion.tidy_view (by simp [SingleRegion.ofBody]) loading tidy trivial
    simp only [View.Tidy, View.AllTidy]
    exact ⟨inert_of_braceFree (by decide), attributes, region, trivial⟩
  · next body isList =>
    rw [isList] at tidy
    have start : BraceFree "island_" := by decide
    refine ListRegion.tidy_view ⟨?_, ?_, ?_, ?_, ?_, loading⟩ tidy trivial
    · simpa using idInert
    · simpa [Value.Plain] using start.append idFree
    · simp [ListRegion.ofBody]
    · simp [ListRegion.ofBody]
    · simp [ListRegion.ofBody]

end Island

/-! ## Forms -/

theorem tidy_hiddenCheckbox {name : String} (nameInert : Inert name) (checked : Bool) :
    (hiddenCheckbox name checked).Tidy := by
  have checkedInert : (if checked then Value.string "true" else .null).Inert := by
    split
    · exact Value.inert_string (inert_of_braceFree (by decide))
    · exact Value.inert_null
  have attributes : Attributes.Inert
      [⟨"style", .string "display: none;"⟩,
       ⟨"type", .string "checkbox"⟩,
       ⟨"name", .string name⟩,
       ⟨"checked", if checked then .string "true" else .null⟩] :=
    .fixed (by decide) (by decide) <|
      .fixed (by decide) (by decide) <|
        .entry (by decide) (Value.inert_string nameInert) <|
          .entry (by decide) checkedInert Attributes.inert_nil
  unfold hiddenCheckbox View.Tidy
  exact ⟨inert_of_braceFree (by decide), attributes, trivial⟩

theorem tidy_hiddenText {name : String} {value : Value} (nameInert : Inert name)
    (valueInert : value.Inert) : (hiddenText name value).Tidy := by
  have attributes : Attributes.Inert
      [⟨"type", .string "hidden"⟩, ⟨"name", .string name⟩, ⟨"value", value⟩] :=
    .fixed (by decide) (by decide) <|
      .entry (by decide) (Value.inert_string nameInert) <|
        .entry (by decide) valueInert Attributes.inert_nil
  unfold hiddenText View.Tidy
  exact ⟨inert_of_braceFree (by decide), attributes, trivial⟩

theorem tidy_hiddenChoice {name : String} {source : DataRef} (nameInert : Inert name)
    (plain : source.Plain) : (hiddenChoice name source).Tidy := by
  have checkbox := tidy_hiddenCheckbox nameInert
  have text := tidy_hiddenText nameInert (Value.inert_ref plain)
  have equality : (Expr.compare .equal (.ref source) (.literal (.bool true))).BraceFree :=
    ⟨plain.free, trivial⟩
  have isBool : (Expr.hasType (.ref source) "bool").BraceFree := ⟨plain.free, by decide⟩
  unfold hiddenChoice
  simp only [View.Tidy, View.AllTidy]
  exact ⟨isBool, ⟨⟨equality, ⟨checkbox true, trivial⟩, checkbox false⟩, trivial⟩, text⟩

theorem tidy_hiddenInput {name : String} {value : Value} (nameInert : Inert name)
    (plain : value.Plain) : (hiddenInput name value).Tidy := by
  cases value with
  | null => trivial
  | bool checked => exact tidy_hiddenCheckbox nameInert checked
  | ref source => exact tidy_hiddenChoice nameInert plain
  | string text => exact tidy_hiddenText nameInert plain.inert
  | whole number => exact tidy_hiddenText nameInert plain.inert
  | float number => exact tidy_hiddenText nameInert plain.inert

theorem allTidy_hiddenInputs {data : List Attribute}
    (tidy : ∀ entry ∈ data, Inert entry.name ∧ entry.value.Plain) :
    View.AllTidy (hiddenInputs data) := by
  rw [View.allTidy_iff]
  intro view member
  obtain ⟨entry, inData, rfl⟩ := List.mem_map.mp member
  exact tidy_hiddenInput (tidy entry inData).1 (tidy entry inData).2

namespace Action

variable {action : Action} {refresh : Refresh} {data : List Attribute}
  {attributes : Attributes} {children : List View}

theorem tidy_form (tidy : action.Tidy) (refreshTidy : refresh.Tidy)
    (dataTidy : ∀ entry ∈ data, Inert entry.name ∧ entry.value.Plain)
    (inert : attributes.Inert) (childrenTidy : View.AllTidy children) :
    (action.form refresh data attributes children).Tidy := by
  unfold Action.form View.Tidy
  exact ⟨tidy, refreshTidy, inert, (allTidy_hiddenInputs dataTidy).append childrenTidy⟩

theorem tidy_quickButton {formAttributes : Attributes} (tidy : action.Tidy)
    (refreshTidy : refresh.Tidy)
    (dataTidy : ∀ entry ∈ data, Inert entry.name ∧ entry.value.Plain)
    (formInert : formAttributes.Inert) (inert : attributes.Inert)
    (childrenTidy : View.AllTidy children) :
    (action.quickButton refresh data formAttributes attributes children).Tidy := by
  unfold Action.quickButton View.Tidy
  exact ⟨tidy, refreshTidy, formInert, allTidy_hiddenInputs dataTidy, inert, childrenTidy⟩

end Action

end Sitewright

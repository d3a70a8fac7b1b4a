import Sitewright.Proofs.Keyed
import Sitewright.Proofs.Markup.Structure

/-!
Contract: attributes that are set one after another.

A name keeps the place where it was set first and the value that was set last, so what is set later
overrides what was there.

Owns:
- `Attributes.lastValue?`, the value that was given last under a name;
- the names and values of attributes after any number of settings;
- attributes with names of their own, which their names and values determine;
- `Lists`, the attributes that the text of a tag can be read as.

Does not own: which attributes the constructs set.
-/

namespace Sitewright.Markup

namespace Attributes

/-! ## Last values -/

/-- The value that was given last under a name, `none` if there was none. -/
def lastValue? (name : String) (settings : List Attribute) : Option Value :=
  ((settings.filter fun setting => setting.name = name).getLast?).map Attribute.value

variable {name : String} {settings : List Attribute} {attributes : Attributes}

/-- Values that are given later come before those that were given earlier. -/
theorem lastValue?_append (name : String) (early late : List Attribute) :
    lastValue? name (early ++ late) = (lastValue? name late).or (lastValue? name early) := by
  unfold lastValue?
  rw [List.filter_append, List.getLast?_append]
  cases ((late.filter fun setting => setting.name = name).getLast?) <;> rfl

theorem lastValue?_singleton (name : String) (setting : Attribute) :
    lastValue? name [setting] = if setting.name = name then some setting.value else none := by
  unfold lastValue?
  split
  · next same => simp [same]
  · next different => simp [different]

theorem lastValue?_of_not_mem (absent : name ∉ settings.map Attribute.name) :
    lastValue? name settings = none := by
  have none : (settings.filter fun setting => setting.name = name) = [] := by
    refine List.filter_eq_nil_iff.mpr fun setting member => ?_
    have different : setting.name ≠ name :=
      fun same => absent (List.mem_map.mpr ⟨setting, member, same⟩)
    simpa using different
  rw [lastValue?, none]
  rfl

/-- Where no name is given twice, the value given under a name is the last one. -/
theorem lastValue?_of_mem (distinct : (settings.map Attribute.name).Nodup) {setting : Attribute}
    (member : setting ∈ settings) : lastValue? setting.name settings = some setting.value := by
  obtain ⟨early, late, rfl⟩ := List.append_of_mem member
  rw [List.map_append, List.map_cons, List.nodup_append] at distinct
  have behind : setting.name ∉ late.map Attribute.name := (List.nodup_cons.mp distinct.2.1).1
  have split : early ++ setting :: late = early ++ [setting] ++ late := by simp
  rw [split, lastValue?_append, lastValue?_of_not_mem behind, lastValue?_append,
    lastValue?_singleton, if_pos rfl]
  rfl

/-! ## Setting -/

theorem get?_set (name other : String) (value : Value) (attributes : Attributes) :
    get? other (set name value attributes) =
      if name = other then some value else get? other attributes := by
  split
  · next same => rw [← same, get?_set_same]
  · next different => rw [get?_set_other (Ne.symm different)]

/-- What is found is what was set last, or else what was there. -/
theorem get?_setAll (name : String) (settings : List Attribute) (attributes : Attributes) :
    get? name (attributes.setAll settings) =
      (lastValue? name settings).or (get? name attributes) := by
  unfold setAll
  induction settings generalizing attributes with
  | nil => rfl
  | cons first rest inductionHypothesis =>
      rw [List.foldl_cons, inductionHypothesis, get?_set, ← List.singleton_append (l := rest),
        lastValue?_append, lastValue?_singleton, Option.or_assoc]
      split <;> rfl

theorem names_set (name : String) (value : Value) (attributes : Attributes) :
    (set name value attributes).map Attribute.name =
      addNew id (attributes.map Attribute.name) name := by
  rw [addNew_id]
  induction attributes with
  | nil => rfl
  | cons head tail inductionHypothesis =>
      by_cases same : head.name = name
      · simp [set, same]
      · rw [set, if_neg same, List.map_cons, inductionHypothesis]
        simp only [List.map_cons, List.contains_cons, beq_eq_false_iff_ne.mpr (Ne.symm same),
          Bool.false_or]
        split <;> rfl

/-- New names follow in the order in which they were set first. -/
theorem names_setAll (settings : List Attribute) (attributes : Attributes) :
    (attributes.setAll settings).map Attribute.name =
      addAll id (attributes.map Attribute.name) (settings.map Attribute.name) := by
  unfold setAll addAll
  induction settings generalizing attributes with
  | nil => rfl
  | cons first rest inductionHypothesis =>
      rw [List.foldl_cons, inductionHypothesis, names_set, List.map_cons, List.foldl_cons]

theorem names_ofSettings (settings : List Attribute) :
    (ofSettings settings).map Attribute.name = (settings.map Attribute.name).eraseDups := by
  rw [ofSettings, names_setAll, List.map_nil, addAll_id_nil]

theorem get?_ofSettings (name : String) (settings : List Attribute) :
    (ofSettings settings).get? name = lastValue? name settings := by
  rw [ofSettings, get?_setAll]
  exact Option.or_none

/-- To set more is to have set it behind the rest. -/
theorem setAll_ofSettings (settings further : List Attribute) :
    (ofSettings settings).setAll further = ofSettings (settings ++ further) := by
  unfold ofSettings setAll
  rw [List.foldl_append]

/-! ## Names of their own -/

theorem get?_of_mem (distinct : (attributes.map Attribute.name).Nodup) {entry : Attribute}
    (member : entry ∈ attributes) : attributes.get? entry.name = some entry.value := by
  induction attributes with
  | nil => cases member
  | cons head tail inductionHypothesis =>
      obtain ⟨apart, tailDistinct⟩ := List.nodup_cons.mp distinct
      rcases List.mem_cons.mp member with rfl | inTail
      · simp [get?]
      · have different : head.name ≠ entry.name :=
          fun same => apart (List.mem_map.mpr ⟨entry, inTail, same.symm⟩)
        rw [← inductionHypothesis tailDistinct inTail]
        simp [get?, different]

theorem mem_of_get? {value : Value} (found : attributes.get? name = some value) :
    ⟨name, value⟩ ∈ attributes := by
  obtain ⟨entry, isEntry, rfl⟩ := Option.map_eq_some_iff.mp found
  have named : entry.name = name := by simpa using List.find?_some isEntry
  rw [← named]
  exact List.mem_of_find?_eq_some isEntry

/-- Attributes with names of their own are read off by their names and values. -/
theorem filterMap_eq {α : Type} (distinct : (attributes.map Attribute.name).Nodup)
    (read : Attribute → Option α) :
    attributes.filterMap read = (attributes.map Attribute.name).filterMap fun name =>
      (attributes.get? name).bind fun value => read ⟨name, value⟩ := by
  rw [List.filterMap_map]
  refine List.filterMap_congr fun entry member => ?_
  rw [Function.comp_apply, get?_of_mem distinct member]
  rfl

end Attributes

/-! ## Reading the text -/

/-- The text lists attributes that can be told apart, with a space between neighbours. -/
structure Lists (text : String) (listed : List Shown) : Prop where
  legible : ∀ shown ∈ listed, Node.Legible shown
  joined : text = Text.joinWith " " (listed.map Shown.text)

/-- A text lists attributes in one way. -/
theorem Lists.unique {text : String} {listed others : List Shown} (lists : Lists text listed)
    (listsToo : Lists text others) : others = listed := by
  have written : others.flatMap Shown.write = listed.flatMap Shown.write :=
    (toList_spaced listsToo.legible listsToo.joined).symm.trans
      (toList_spaced lists.legible lists.joined)
  exact (Node.attributes_unique listsToo.legible lists.legible (.opened []) (.opened [])
    (by rw [written])).1

/-- The names that are listed are those of the attributes that are not left out. -/
theorem Attributes.names_listed (attributes : Attributes) :
    (attributes.filterMap Attribute.shown?).map Prod.fst =
      (attributes.filter fun entry => entry.value.text?.isSome).map Attribute.name := by
  induction attributes with
  | nil => rfl
  | cons entry rest inductionHypothesis =>
      rw [List.filterMap_cons, List.filter_cons]
      cases isText : entry.value.text? with
      | none => simpa [Attribute.shown?, isText] using inductionHypothesis
      | some value => simpa [Attribute.shown?, isText] using inductionHypothesis

/-- Attributes with proper names of their own are listed in one way, each of them once if it is not
left out. -/
theorem Attributes.exists_lists {attributes : Attributes}
    (named : ∀ entry ∈ attributes, IsName entry.name)
    (distinct : (attributes.map Attribute.name).Nodup) :
    ∃ listed, Lists attributes.text listed ∧
      (∀ others, Lists attributes.text others → others = listed) ∧
      (listed.map Prod.fst).Nodup ∧
      ∀ name, name ∈ listed.map Prod.fst ↔
        ∃ value, attributes.get? name = some value ∧ value.text?.isSome := by
  have lists : Lists attributes.text (attributes.filterMap Attribute.shown?) :=
    ⟨legible_of_named named, attributes.text_eq⟩
  refine ⟨_, lists, fun others listsToo => lists.unique listsToo, ?_, fun name => ?_⟩
  · rw [names_listed]
    exact distinct.sublist (List.filter_sublist.map _)
  · rw [names_listed, List.mem_map]
    constructor
    · rintro ⟨entry, kept, rfl⟩
      obtain ⟨member, isText⟩ := List.mem_filter.mp kept
      exact ⟨entry.value, get?_of_mem distinct member, isText⟩
    · rintro ⟨value, found, isText⟩
      exact ⟨⟨name, value⟩, List.mem_filter.mpr ⟨mem_of_get? found, isText⟩, rfl⟩

end Sitewright.Markup

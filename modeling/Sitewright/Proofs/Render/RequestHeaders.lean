import Sitewright.Proofs.Markup.Delivery
import Sitewright.Render.Routes

/-!
Contract: how the headers of requests arrive.

Placeholders, links that ask for a language, and buttons that have islands refreshed write headers
as JSON or as a call with JSON arguments, and put that into an attribute.

Owns:
- `Sender`, whatever sends headers, and what they are made of;
- `delivered_iff_referenceFree`: attribute values, and such headers, arrive as they were exactly if
  nothing that they are made of holds a reference.

Does not own: the attributes beside the headers.
-/

namespace Sitewright

open Markup

/-- What stands in the headers of a placeholder: the name of the header for routes, the route, and
the language. A language takes the place of the route when both have one name. -/
def Loading.given (loading : Loading) (routeHeader route : String) : List String :=
  match loading.locale with
  | none => [routeHeader, route]
  | some locale =>
      if languageHeader = routeHeader then [locale] else [routeHeader, route, locale]

/-- What sends headers with its requests, and all that it is given for them. -/
inductive Sender where
  /-- A placeholder that fetches its fragment. -/
  | placeholder (loading : Loading) (routeHeader route url : String)
  /-- A link that asks for a language. -/
  | link (target container locale : String) (attributes : Attributes)
  /-- A button that posts an action and has at least one island refreshed. -/
  | button (action : Action) (formId route island : String) (islands : List String)
      (items : List Value) (attributes : Attributes)

namespace Sender

def attributes : Sender → Attributes
  | .placeholder loading routeHeader route url =>
      loading.placeholderAttributes routeHeader route url
  | .link target container locale attributes =>
      Render.linkAttributes target container (some locale) attributes
  | .button action formId route island islands items attributes =>
      action.buttonAttributes formId route (island :: islands) items attributes

/-- The headers before they are escaped. -/
def headers : Sender → String
  | .placeholder loading routeHeader route _ => (loading.headers routeHeader route).text
  | .link _ _ locale _ => (Json.object [(Loading.languageHeader, .string locale)]).text
  | .button _ _ route island islands items _ =>
      "javascript: ..." ++ refreshCall route (island :: islands) items

/-- Routes, languages, names of headers, islands and items that stand in the headers. -/
def given : Sender → List String
  | .placeholder loading routeHeader route _ => loading.given routeHeader route
  | .link _ _ locale _ => [locale]
  | .button _ _ route island islands items _ =>
      route :: island :: islands ++ items.filterMap Value.text?

theorem get?_headers (sender : Sender) :
    sender.attributes.get? "hx-headers" = some (.string sender.headers) := by
  cases sender with
  | placeholder loading routeHeader route url =>
      show Attributes.get? "hx-headers" (loading.placeholderAttributes routeHeader route url) =
        some (.string (loading.headers routeHeader route).text)
      simp [Loading.placeholderAttributes, Attributes.get?]
  | link target container locale attributes =>
      unfold Sender.attributes Render.linkAttributes Attributes.setAll
      simp only [List.foldl_cons, List.foldl_nil]
      rw [Attributes.get?_set_other (by decide), Attributes.get?_set_other (by decide),
        Attributes.get?_set_other (by decide), Attributes.get?_set_same]
      rfl
  | button action formId route island islands items attributes =>
      unfold Sender.attributes Sender.headers Action.buttonAttributes Attributes.setAll
      simp only [List.isEmpty_cons, Bool.false_eq_true, if_false, List.foldl_append,
        List.foldl_cons, List.foldl_nil, Attributes.get?_set_same]

/-! ## References in headers -/

theorem referenceFree_languageHeader : ReferenceFree Loading.languageHeader := by
  decide +kernel

/-- Of two members with one key, the second one is kept. -/
theorem referenceFree_pair_iff (key other value another : String) :
    ReferenceFree (Json.sortedObject [(key, .string value), (other, .string another)]).text ↔
      (other ≠ key → ReferenceFree key ∧ ReferenceFree value) ∧
        ReferenceFree other ∧ ReferenceFree another := by
  unfold Json.sortedObject Json.sortMembers
  rw [Json.referenceFree_object_iff]
  simp only [List.foldl_cons, List.foldl_nil, Json.insertMember]
  by_cases same : other = key
  · subst same
    simp only [String.lt_irrefl, if_false, if_true, List.forall_mem_singleton,
      Json.referenceFree_string_iff, ne_eq, not_true_eq_false, false_implies, true_and]
  · rw [if_neg same, forall_prop_of_true same]
    split
    all_goals simp only [List.forall_mem_cons, List.not_mem_nil, false_implies, implies_true,
      and_true, Json.referenceFree_string_iff]
    exact and_comm

theorem referenceFree_headers_iff (loading : Loading) (routeHeader route : String) :
    ReferenceFree (loading.headers routeHeader route).text ↔
      ∀ text ∈ loading.given routeHeader route, ReferenceFree text := by
  have slash : ReferenceFree ("/" ++ route) ↔ ReferenceFree route :=
    referenceFree_separator_append_iff (by decide)
  unfold Loading.headers Loading.given
  cases loading.locale with
  | none =>
      show ReferenceFree (Json.object [(routeHeader, .string ("/" ++ route))]).text ↔ _
      rw [Json.referenceFree_object_iff, List.forall_mem_singleton,
        Json.referenceFree_string_iff, slash, List.forall_mem_cons, List.forall_mem_singleton]
  | some locale =>
      show ReferenceFree (Json.sortedObject [_, _]).text ↔
        ∀ text ∈ if Loading.languageHeader = routeHeader then _ else _, ReferenceFree text
      rw [referenceFree_pair_iff, slash, and_iff_right referenceFree_languageHeader]
      split
      · next same =>
          rw [List.forall_mem_singleton, and_iff_right fun different => absurd same different]
      · next different =>
          rw [forall_prop_of_true different, List.forall_mem_cons, List.forall_mem_cons,
            List.forall_mem_singleton, and_assoc]

theorem referenceFree_refreshCall_iff {route : String} {islands : List String}
    {items : List Value} :
    ReferenceFree ("javascript: ..." ++ refreshCall route islands items) ↔
      ReferenceFree route ∧ (∀ island ∈ islands, ReferenceFree island) ∧
        ∀ item ∈ items.filterMap Value.text?, ReferenceFree item := by
  have name : ReferenceFree "javascript: ...__hardwire.formHeaders" := by decide +kernel
  have opening : "javascript: ..." ++ "__hardwire.formHeaders(" =
      "javascript: ...__hardwire.formHeaders" ++ "(" := by decide +kernel
  have whole : "javascript: ..." ++ refreshCall route islands items =
      "javascript: ...__hardwire.formHeaders" ++ "(" ++
        (Json.quoted route ++ ", " ++ Json.stringsText islands ++ ", " ++
          Json.stringsText (items.filterMap Value.text?) ++ ")") := by
    unfold refreshCall
    rewrite [← opening]
    simp only [String.append_assoc]
  rw [whole, referenceFree_between_iff (by decide) (by decide), and_iff_right name,
    referenceFree_append_separator_iff (by decide) (by decide),
    referenceFree_between_iff (by decide) (by decide),
    referenceFree_between_iff (by decide) (by decide), and_assoc,
    Json.referenceFree_quoted_iff, Json.referenceFree_stringsText_iff,
    Json.referenceFree_stringsText_iff]

theorem referenceFree_iff (sender : Sender) :
    ReferenceFree sender.headers ↔ ∀ text ∈ sender.given, ReferenceFree text := by
  cases sender with
  | placeholder loading routeHeader route url =>
      exact referenceFree_headers_iff loading routeHeader route
  | link target container locale attributes =>
      show ReferenceFree (Json.object [(Loading.languageHeader, .string locale)]).text ↔
        ∀ text ∈ [locale], ReferenceFree text
      rw [Json.referenceFree_object_iff, List.forall_mem_singleton, List.forall_mem_singleton,
        Json.referenceFree_string_iff, and_iff_right referenceFree_languageHeader]
  | button action formId route island islands items attributes =>
      show ReferenceFree ("javascript: ..." ++ refreshCall route (island :: islands) items) ↔
        ∀ text ∈ route :: (island :: islands ++ items.filterMap Value.text?), ReferenceFree text
      rw [List.forall_mem_cons, List.forall_mem_append, referenceFree_refreshCall_iff]

end Sender

/-! ## Delivery -/

/-- Escaping an attribute value makes no difference to what a browser reads it as, for all values.
So a value arrives as it was exactly if it holds none of the references that are resolved. In
particular, the headers that placeholders, links and buttons put into an attribute arrive as they
were exactly if none of the routes, languages, names of headers, islands and items in them holds a
reference. -/
theorem delivered_iff_referenceFree :
    (∀ value, resolved (escapeAttribute value) = resolved value) ∧
    (∀ value, resolved (escapeAttribute value) = value ↔ ReferenceFree value) ∧
    ∀ sender : Sender, sender.attributes.get? "hx-headers" = some (.string sender.headers) ∧
      (resolved (escapeAttribute sender.headers) = sender.headers ↔
        ∀ text ∈ sender.given, ReferenceFree text) := by
  have delivered : ∀ value, resolved (escapeAttribute value) = value ↔ ReferenceFree value := by
    intro value
    rw [resolved_escapeAttribute, resolved_eq_self_iff]
  refine ⟨resolved_escapeAttribute, delivered, fun sender => ⟨sender.get?_headers, ?_⟩⟩
  rw [delivered, sender.referenceFree_iff]

/-- A link that asks for a language, the name of which is a reference to a quote. -/
def quoteLink : Sender :=
  .link "/about" "main" "&quot;" []

/-- A value that holds a reference does not arrive, and JSON that does so is none any more. -/
theorem quoteLink_not_delivered :
    resolved (escapeAttribute "&lt;") = "<" ∧
      quoteLink.headers = "\x7b\"Accept-Language\":\"&quot;\"\x7d" ∧
      resolved (escapeAttribute quoteLink.headers) = "\x7b\"Accept-Language\":\"\"\"\x7d" ∧
      (¬ ∀ value, resolved (escapeAttribute value) = value) ∧
      ¬ ∀ sender : Sender, resolved (escapeAttribute sender.headers) = sender.headers := by
  have value : resolved (escapeAttribute "&lt;") = "<" := by decide +kernel
  have headers : quoteLink.headers = "\x7b\"Accept-Language\":\"&quot;\"\x7d" := by decide +kernel
  have read : resolved (escapeAttribute quoteLink.headers) =
      "\x7b\"Accept-Language\":\"\"\"\x7d" := by decide +kernel
  refine ⟨value, headers, read, fun delivered => ?_, fun delivered => ?_⟩
  · exact absurd (value.symm.trans (delivered "&lt;")) (by decide +kernel)
  · exact absurd (read.symm.trans ((delivered quoteLink).trans headers)) (by decide +kernel)

end Sitewright

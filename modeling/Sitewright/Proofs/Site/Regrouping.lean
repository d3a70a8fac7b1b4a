import Sitewright.Proofs.Render.Regrouping
import Sitewright.Site.Build

/-!
Contract: groups and blank views make no difference to a site.

A survey and a build see of a view how it is rendered and whether it is blank, and neither depends
on how children are divided into groups. Blank views are the only ones of which a survey says that
there is nothing to render, and those do nothing anyway.

Owns:
- surveys and builds of views that are rendered alike;
- the views that a survey refuses;
- `regrouped_rendered_alike`: the render and the site of a view whose children are divided
  otherwise.

Does not own: the texts of views.
-/

namespace Sitewright.Site

open Routing Template

variable {root other : View} (config : Config)

/-! ## Surveys and builds of views rendered alike -/

theorem search_congr (same : root.render = other.render) :
    search config root = search config other := by
  funext routes selected
  unfold search
  rw [same]

theorem searchAll_congr (same : root.render = other.render) (limit probes : Nat)
    (queue : List Path) (routes : Table) :
    searchAll config root limit probes queue routes =
      searchAll config other limit probes queue routes := by
  induction probes generalizing queue routes with
  | zero => cases queue <;> rfl
  | succ probes inductionHypothesis =>
      cases queue with
      | nil => rfl
      | cons selected queue => simp only [searchAll, search_congr config same, inductionHypothesis]

theorem survey_congr (same : root.render = other.render) (blank : root.isBlank = other.isBlank) :
    survey config root = survey config other := by
  unfold survey
  rw [blank, searchAll_congr config same]

theorem buildPage_congr (same : root.render = other.render) :
    buildPage config root = buildPage config other := by
  funext ledger route
  unfold buildPage
  rw [same]

theorem buildPages_congr (same : root.render = other.render) (ledger : Ledger)
    (routes : List Entry) :
    buildPages config root ledger routes = buildPages config other ledger routes := by
  induction routes generalizing ledger with
  | nil => rfl
  | cons route rest inductionHypothesis =>
      simp only [buildPages, buildPage_congr config same, inductionHypothesis]

/-- A build sees of a view how it is rendered and whether it is blank. -/
theorem build_congr (same : root.render = other.render) (blank : root.isBlank = other.isBlank)
    (store : Asset.Store) : build config root store = build config other store := by
  unfold build buildRoutes
  simp only [survey_congr config same blank, buildPages_congr config same]

/-! ## Nothing to render -/

theorem searchAll_ne_missingRoot (root : View) (limit probes : Nat) (queue : List Path)
    (routes : Table) :
    searchAll config root limit probes queue routes ≠ .error .missingRoot := by
  fun_induction searchAll config root limit probes queue routes with
  | case1 | case2 | case4 => exact fun refused => nomatch refused
  | case3 _ _ _ _ _ _ _ inductionHypothesis => exact inductionHypothesis

/-- Exactly the blank views are refused for having nothing to render. -/
theorem survey_eq_missingRoot_iff (root : View) :
    survey config root = .error .missingRoot ↔ root.isBlank = true := by
  unfold survey
  split
  · next blank => exact iff_of_true rfl blank
  · next filled => exact iff_of_false (searchAll_ne_missingRoot config root _ _ _ _) filled

/-! ## Groups and blank views -/

/-- Groups and blank views make no difference. Wherever children stand in a view, a group among them
may be replaced by its children or put around some of them, and blank views may be added or left
out, again and again. Such views end in every setting and every state with the same text or the same
fault and leave the same state behind, and the same site is built from them. A blank view is
rendered to the empty text and changes nothing; blank views are what a survey refuses to search, and
so it refuses nothing that could leave anything behind. -/
theorem regrouped_rendered_alike :
    (Equivalence View.Regrouped ∧
      (∀ front children back : List View,
        View.Regrouped (front ++ .group children :: back) (front ++ children ++ back)) ∧
      ∀ view : View, view.isBlank = true → ∀ front back : List View,
        View.Regrouped (front ++ view :: back) (front ++ back)) ∧
    (∀ views others : List View, View.Regrouped views others → ∀ setting state,
      View.renderAll views setting state = View.renderAll others setting state) ∧
    (∀ root other : View, View.Regrouped [root] [other] →
      (∀ setting state, root.render setting state = other.render setting state) ∧
        ∀ config store, build config root store = build config other store) ∧
    (∀ view : View, view.isBlank = true → ∀ setting state,
      view.render setting state = (.ok "", state)) ∧
    ∀ config root, survey config root = .error .missingRoot →
      ∀ setting state, root.render setting state = (.ok "", state) := by
  have nothing : ∀ view : View, view.isBlank = true → ∀ setting state,
      view.render setting state = (.ok "", state) := by
    intro view blank setting state
    rw [View.render_of_isBlank blank]
    rfl
  refine ⟨⟨View.Regrouped.equivalence, .spliced, fun _ => .omitted⟩, ?lists, ?views, nothing,
    ?refused⟩
  case lists =>
    intro views others regrouped setting state
    rw [regrouped.renderAll_eq]
  case views =>
    intro root other regrouped
    have same : root.render = other.render := View.render_congr regrouped.renderAll_eq
    exact ⟨fun setting state => by rw [same],
      fun config store => build_congr config same regrouped.isBlank_eq store⟩
  case refused =>
    intro config root refused
    exact nothing root ((survey_eq_missingRoot_iff config root).mp refused)

/-- A price list with groups in groups, an empty group in a tag without content, and blank views. -/
def looseList : View :=
  .switch "main" [] [.blank, .route "prices" "Prices"
    [.group [.text "Prices", .group [.element "br" [] [.group [.blank]]]],
      .loop ⟨".prices"⟩ fun price _ => .group [.ofRef price, .blank, .text ";"]]]

/-- The same list with no more groups than it needs. -/
def tightList : View :=
  .switch "main" [] [.route "prices" "Prices"
    [.text "Prices", .element "br" [] [],
      .loop ⟨".prices"⟩ fun price _ => .group [.ofRef price, .text ";"]]]

theorem looseList_regrouped : View.Regrouped [looseList] [tightList] := by
  have lineBreak : View.Regrouped [.element "br" [] [.group [.blank]]] [.element "br" [] []] :=
    .element "br" [] (.blank rfl)
  have heading : View.Regrouped
      [.group ([.text "Prices"] ++ [.group [.element "br" [] [.group [.blank]]]])]
      ([.text "Prices"] ++ [.element "br" [] []]) :=
    .trans (.group _) (.append (.refl _) (.trans (.group _) lineBreak))
  have items (price position : DataRef) : View.Regrouped
      [.group ([.ofRef price] ++ .blank :: [.text ";"])]
      [.group ([.ofRef price] ++ [.text ";"])] :=
    .trans (.group _) (.trans (.omitted rfl _ _) (.symm (.group _)))
  have route : View.Regrouped ([.blank] ++ [_]) ([] ++ [_]) :=
    .append (.blank rfl)
      (.route "prices" "Prices" (.append heading (.loop ⟨".prices"⟩ items)))
  exact .switch "main" [] route

/-- On the page of the prices, one line break and one sign behind each price are left. -/
theorem looseList_rendered_alike :
    View.Regrouped [looseList] [tightList] ∧
      (∀ setting state, looseList.render setting state = tightList.render setting state) ∧
      (∀ store, build .standard looseList store = build .standard tightList store) ∧
      survey .standard (.group [.blank, .group []]) = .error .missingRoot ∧
      ∀ setting state,
        View.render (.group [.blank, .group []]) setting state = (.ok "", state) := by
  obtain ⟨-, -, alike, -, refusedOnly⟩ := regrouped_rendered_alike
  obtain ⟨rendered, built⟩ := alike looseList tightList looseList_regrouped
  have refused : survey .standard (.group [.blank, .group []]) = .error .missingRoot := rfl
  exact ⟨looseList_regrouped, rendered, built .standard, refused, refusedOnly _ _ refused⟩

end Sitewright.Site

import Sitewright.Proofs.Site.Documents
import Sitewright.View.Region

/-!
Contract: the ids of the forms of a site, within one document and across documents.

Within a document the ids are different. Across documents an id tells the key of the resource
that its document serves, and a page serves none. So the form of a page is never confused with
one of a fragment, but the forms of two fragments are, if their resources have the same key.

Owns:
- ids and references in every document that is rendered to a text;
- which documents of a page have ids in common.

Does not own: what posts of forms are answered with.
-/

namespace Sitewright

open Template Routing Markup Relation

namespace Stage

/-! ## Ids in common -/

variable {start document : Stage} {served : Option String} {log : List Stage}

/-- An id in a document begins as the resource says that the document serves. -/
theorem Opens.formPrefix_eq (opens : Opens start document served)
    (began : start.state.numbering = .ofPage) (logged : Log [document] log) :
    ∀ stage ∈ log, stage.state.numbering.formPrefix = (Numbering.ofServed served).formPrefix := by
  intro stage member
  rw [logged.formPrefix_eq stage member, opens.numbering began]

/-- Documents with an id in common serve resources with the same key, or both serve none. -/
theorem Opens.key_eq_of_mem {otherStart other : Stage} {otherServed : Option String}
    {otherLog : List Stage} {id : String} (opens : Opens start document served)
    (began : start.state.numbering = .ofPage) (logged : Log [document] log)
    (otherOpens : Opens otherStart other otherServed)
    (otherBegan : otherStart.state.numbering = .ofPage) (otherLogged : Log [other] otherLog)
    (member : id ∈ formIds log) (inOther : id ∈ formIds otherLog) :
    served.map resourceKey = otherServed.map resourceKey := by
  obtain ⟨form, listed, rfl⟩ := List.mem_map.mp member
  obtain ⟨otherForm, otherListed, same⟩ := List.mem_map.mp inOther
  have inLog := (List.mem_filter.mp listed).1
  have inOtherLog := (List.mem_filter.mp otherListed).1
  exact (Numbering.eq_of_formId (opens.formPrefix_eq began logged form inLog)
    (otherOpens.formPrefix_eq otherBegan otherLogged otherForm inOtherLog) same.symm).1

/-- Where components take nothing, only the forms of a document that is rendered to a text take
ids. -/
theorem Opens.takesId_eq {text : String} (opens : Opens start document served)
    (asks : start.task.Asks Request.TakesNothing) (logged : Log [document] log)
    (ended : document.outcome.1 = .ok text) : ∀ stage ∈ log, stage.takesId = stage.isForm := by
  intro stage member
  have stageAsks := logged.asks (List.forall_mem_singleton.mpr (opens.asks asks)) stage member
  exact Bool.eq_iff_iff.mpr
    ⟨isForm_of_takesId stageAsks, logged.takesId_of_isForm ended stage member⟩

/-- Where components take nothing, the forms of a document that is rendered to a text are
counted from one. -/
theorem Opens.formIds_eq {text : String} (opens : Opens start document served)
    (began : start.state.numbering = .ofPage) (asks : start.task.Asks Request.TakesNothing)
    (logged : Log [document] log) (ended : document.outcome.1 = .ok text) :
    formIds log = (List.range document.outcome.2.numbering.forms).map fun place =>
      { Numbering.ofServed served with forms := place }.formId := by
  have numbering := opens.numbering began
  have alone := opens.takesId_eq asks logged ended
  have zero : (Numbering.ofServed served).forms = 0 := by cases served <;> rfl
  have forms : document.outcome.2.numbering.forms = log.countP isForm := by
    rw [logged.numbering_final, numbering]
    refine (congrArg (· + log.countP takesId) zero).trans ((Nat.zero_add _).trans ?_)
    exact List.countP_congr fun stage member => by rw [alone stage member]
  rw [logged.formIds_eq (by rw [numbering, zero]) alone, numbering, forms]

/-- The first id depends on the key only. -/
theorem Opens.mem_formIds {text : String} (opens : Opens start document served)
    (began : start.state.numbering = .ofPage) (asks : start.task.Asks Request.TakesNothing)
    (logged : Log [document] log) (ended : document.outcome.1 = .ok text)
    (any : formIds log ≠ []) : (Numbering.ofServed served).formId ∈ formIds log := by
  rw [opens.formIds_eq began asks logged ended] at any ⊢
  have positive : 0 < document.outcome.2.numbering.forms := by
    refine Nat.pos_of_ne_zero fun none => any ?_
    rw [none]
    rfl
  refine List.mem_map.mpr ⟨0, List.mem_range.mpr positive, ?_⟩
  cases served <;> rfl

theorem UnderForm.isForm {form stage : Stage} (under : form.UnderForm stage) :
    form.isForm = true := by
  induction under with
  | content opens step => exact Option.isSome_iff_exists.mpr ⟨_, opens⟩
  | kept _ _ _ inductionHypothesis => exact inductionHypothesis

end Stage

namespace Site

variable {config : Config} {root : View} {store : Asset.Store}

/-- In every document of a site that is rendered to a text - a page, a search, or the template
of a region - all forms are written with different ids, and a button with a form of its own
refers to the id of that. No id in a page is an id in the template of a region of any site,
whatever resource that serves. Every submit button refers to the id of the form under which it
is rendered, and there is such a form. -/
theorem forms_have_own_ids {start : Stage} (starts : Starts config root store start) :
    (∀ document served log text, start.Opens document served → Stage.Log [document] log →
      document.outcome.1 = .ok text →
        List.Forall₂ Stage.WritesForm (log.filter Stage.isForm) (Stage.formIds log) ∧
          (Stage.formIds log).Nodup) ∧
    (∀ otherConfig otherRoot otherStore otherStart fragment resource log fragmentLog,
      Starts otherConfig otherRoot otherStore otherStart →
      otherStart.Opens fragment (some resource) → Stage.Log [start] log →
      Stage.Log [fragment] fragmentLog →
        List.Disjoint (Stage.formIds log) (Stage.formIds fragmentLog)) ∧
    (∀ document served text stage action attributes children, start.Opens document served →
      document.outcome.1 = .ok text → ReflTransGen Stage.Inner document stage →
      stage.task = .view (.submit action attributes children) →
        (∃ form : Stage, ReflTransGen Stage.Inner start form ∧ form.UnderForm stage) ∧
        ∀ form : Stage, form.UnderForm stage → ∃ id, stage.SendsForm id ∧
          ∀ formText, form.outcome.1 = .ok formText → form.WritesForm id) := by
  refine ⟨?_, ?_, ?_⟩
  · intro document served log text opens logged ended
    exact ⟨logged.writesForms ended, logged.nodup_formIds ended⟩
  · intro otherConfig otherRoot otherStore otherStart fragment resource log fragmentLog
      otherStarts opens logged fragmentLogged id inPage inFragment
    have keys := Stage.Opens.own.key_eq_of_mem starts.numbering logged opens
      otherStarts.numbering fragmentLogged inPage inFragment
    cases keys
  · intro document served text stage action attributes children opens ended course shown
    obtain ⟨stageText, stageEnded⟩ := Stage.ended_of_course course ended
    obtain ⟨opened, around, sends⟩ := Stage.sendsForm_of_ended shown stageEnded
    refine ⟨?_, fun form under => ?_⟩
    · have inForm := (Stage.inForm_iff (opens.course.trans course)).mpr (by rw [around]; rfl)
      exact Stage.exists_underForm starts.form inForm
    · obtain ⟨known, aroundToo, named⟩ := under.scope_eq
      obtain rfl := Option.some.inj (around.symm.trans aroundToo)
      refine ⟨opened.id, sends, fun formText formEnded => ?_⟩
      rw [named]
      exact Stage.writesForm_of_ended under.isForm formEnded

/-! ## A shop -/

/-- A form, the region of a cart with a button, and a button, on one page. -/
def shopForms : View :=
  .switch "main" []
    [.route "shop" "Shop"
      [.form likeAction .none [] [.submit likeAction [⟨"hx-include", .string "#mine"⟩] []],
       SingleRegion.view (.ofBody "cart" fun _ => likeButton []),
       likeButton []]]

/-- The routes of `shopForms`. -/
def shopFormsTable : Table :=
  { entries := [⟨⟨["shop"]⟩, "Shop", "main"⟩], topContainer := "main" }

/-- The render of the page of the shop. -/
def shopFormsPage : Stage :=
  pageStage .standard shopForms (.ofBuild shopFormsTable (.ofConfig .standard))
    ⟨⟨["shop"]⟩, "Shop", "main"⟩

theorem survey_shopForms : survey Config.standard shopForms = .ok shopFormsTable :=
  eq_ok_of_toOption (by decide +kernel)

theorem starts_shopFormsPage :
    Starts .standard shopForms (.ofConfig .standard) shopFormsPage :=
  .page survey_shopForms (.here _ _ [])

/-- The page has a form with a submit button, and a cart, whose template has one form. -/
theorem exists_forms_of_shopFormsPage {log : List Stage}
    (logged : Stage.Log [shopFormsPage] log) :
    ∃ cart form submit : Stage, shopFormsPage.Opens cart (some "cart") ∧
      cart.outcome.2.numbering.forms = 1 ∧ form ∈ log ∧ submit ∈ log ∧ form.UnderForm submit ∧
      submit.task = .view (.submit likeAction [⟨"hx-include", .string "#mine"⟩] []) := by
  have page : shopFormsPage ∈ log := logged.mem_of_mem _ List.mem_cons_self
  have main := logged.mem_of_inner page (.switch [] _ rfl) rfl
  have route := logged.mem_of_inner main (.child (.here _ _ _)) rfl
  have shop := logged.mem_of_inner route (.route _ rfl rfl rfl) rfl
  have form := logged.mem_of_inner shop (.child (.here _ _ _)) rfl
  have content := logged.mem_of_inner form (.form likeAction .none [] _ rfl rfl) rfl
  have submit := logged.mem_of_inner content (.child (.here _ _ _)) rfl
  have cart := logged.mem_of_inner shop (.child (.later rfl (.here _ _ _))) rfl
  exact ⟨_, _, _, .template .own logged cart rfl, by decide +kernel, form, submit,
    .kept (.content rfl (.form likeAction .none [] _ rfl rfl)) (.child (.here _ _ _))
      (by rintro ⟨⟩), rfl⟩

/-- The page and its cart have forms with different ids, and the submit button sends its form. -/
theorem shopForms_have_own_ids :
    ∃ (log cartLog : List Stage) (cart form submit : Stage) (id : String),
      Stage.Log [shopFormsPage] log ∧ Stage.formIds log = ["form_1", "form_2"] ∧
      List.Forall₂ Stage.WritesForm (log.filter Stage.isForm) ["form_1", "form_2"] ∧
      shopFormsPage.Opens cart (some "cart") ∧ Stage.Log [cart] cartLog ∧
      Stage.formIds cartLog = ["form_Cart_1"] ∧
      List.Disjoint (Stage.formIds log) (Stage.formIds cartLog) ∧
      submit ∈ log ∧ form.UnderForm submit ∧ submit.SendsForm id ∧ form.WritesForm id := by
  have asks : shopForms.Asks Request.TakesNothing := by
    simp [shopForms, likeButton, SingleRegion.view, SingleRegion.ofBody, SingleRegion.template,
      templateView, View.Asks, View.AllAsk]
  have began := starts_shopFormsPage.numbering
  have rootAsks := starts_shopFormsPage.asks asks
  obtain ⟨text, computed⟩ : ∃ text, shopFormsPage.outcome.1.toOption = some text :=
    Option.isSome_iff_exists.mp (by decide +kernel)
  have ended : shopFormsPage.outcome.1 = .ok text := eq_ok_of_toOption computed
  obtain ⟨written, apart, refers⟩ := forms_have_own_ids starts_shopFormsPage
  obtain ⟨log, logged⟩ := shopFormsPage.exists_log
  have ids : Stage.formIds log = ["form_1", "form_2"] := by
    have forms : shopFormsPage.outcome.2.numbering.forms = 2 := by decide +kernel
    rw [Stage.Opens.own.formIds_eq began rootAsks logged ended, forms]
    decide
  obtain ⟨cart, form, submit, opens, oneForm, inLog, submitInLog, under, shown⟩ :=
    exists_forms_of_shopFormsPage logged
  obtain ⟨cartLog, cartLogged⟩ := cart.exists_log
  obtain ⟨cartText, cartEnded⟩ := Stage.ended_of_course opens.course ended
  have cartIds : Stage.formIds cartLog = ["form_Cart_1"] := by
    rw [opens.formIds_eq began rootAsks cartLogged cartEnded, oneForm]
    decide
  obtain ⟨first, isPage, course⟩ := logged.course submit submitInLog
  obtain rfl := List.mem_singleton.mp isPage
  obtain ⟨-, sends⟩ := refers shopFormsPage none text submit likeAction _ _ .own ended course shown
  obtain ⟨id, sendsId, writesId⟩ := sends form under
  obtain ⟨formText, formEnded⟩ := logged.ended ended form inLog
  refine ⟨log, cartLog, cart, form, submit, id, logged, ids, ?_, opens, cartLogged, cartIds, ?_,
    submitInLog, under, sendsId, writesId formText formEnded⟩
  · rw [← ids]
    exact (written shopFormsPage none log text .own logged ended).1
  · exact apart .standard shopForms (.ofConfig .standard) shopFormsPage cart "cart" log cartLog
      starts_shopFormsPage opens logged cartLogged

theorem Rendered.of_course {start stage : Stage} (rendered : Rendered config root store start)
    (course : ReflTransGen Stage.Inner start stage) : Rendered config root store stage := by
  induction course with
  | refl => exact rendered
  | tail _ step inductionHypothesis => exact inductionHypothesis.inner step

theorem formId_ofServed_of_key {served other : Option String}
    (keys : served.map resourceKey = other.map resourceKey) :
    (Numbering.ofServed served).formId = (Numbering.ofServed other).formId := by
  cases served with
  | none =>
      cases other with
      | none => rfl
      | some resource => cases keys
  | some resource =>
      cases other with
      | none => cases keys
      | some otherResource =>
          have same : resourceKey resource = resourceKey otherResource := Option.some.inj keys
          simp only [Numbering.ofServed, Numbering.ofTemplate, Numbering.formId, same]

/-- The documents of a page of a successful build: the page itself, which serves no resource,
and the fragments that its placeholders fetch, directly or through other fragments. All their
forms are written with their ids. Two of the documents have an id in common only if both are
the page, or if both are fragments whose resources have the same key; and then they do as soon
as each of them has a form and no component takes ids for itself. -/
theorem documents_share_ids_by_key {site : Site} {after : Asset.Store}
    (built : build config root store = (.ok site, after)) :
    ∃ routes, survey config root = .ok routes ∧ ∀ start route,
      PageStarts config root (.ofBuild routes store) routes.entries start route →
      (∃ page ∈ site.pages, page.route = route.path.text ∧
        (pageStage config root start route).outcome.1 = .ok page.html) ∧
      (∀ document served log host region template fallback,
        (pageStage config root start route).Opens document served → Stage.Log [document] log →
        host ∈ log → host.task = .view (.remote region template fallback) →
          ∃ text content, (host.ofTemplate region template).outcome.1 = .ok text ∧
            ∃ fragment ∈ site.fragments,
              fragment.fingerprint = Digest.fingerprint region.resource text ∧
              host.outcome.1 = .ok (elementText "div"
                (region.loading.placeholderAttributes config.fragmentHeader
                  host.setting.scope.current.text (config.fragmentUrl fragment.fingerprint))
                content)) ∧
      ∀ first served log second other otherLog,
        (pageStage config root start route).Opens first served → Stage.Log [first] log →
        (pageStage config root start route).Opens second other → Stage.Log [second] otherLog →
          List.Forall₂ Stage.WritesForm (log.filter Stage.isForm) (Stage.formIds log) ∧
          (∀ id, id ∈ Stage.formIds log → id ∈ Stage.formIds otherLog →
            served.map resourceKey = other.map resourceKey) ∧
          (root.Asks Request.TakesNothing → served.map resourceKey = other.map resourceKey →
            Stage.formIds log ≠ [] → Stage.formIds otherLog ≠ [] →
              ∃ id, id ∈ Stage.formIds log ∧ id ∈ Stage.formIds otherLog) := by
  obtain ⟨routes, pages, ledger, found, pagesBuilt, rfl⟩ := build_eq_ok built
  refine ⟨routes, found, fun start route starts => ?_⟩
  obtain ⟨page, member, isPage, ended, -⟩ := starts.page pagesBuilt
  have began : Starts config root store (pageStage config root start route) := .page found starts
  refine ⟨⟨page, member, isPage, ended⟩, ?_, ?_⟩
  · intro document served log host region template fallback opens logged inLog shown
    obtain ⟨first, isDocument, inDocument⟩ := logged.course host inLog
    obtain rfl := List.mem_singleton.mp isDocument
    have course := opens.course.trans inDocument
    have rendered := (Rendered.page found starts).of_course course
    obtain ⟨hostText, hostEnded⟩ := Stage.ended_of_course course ended
    obtain ⟨text, content, compiles, stores, written⟩ := rendered.compiled shown found hostEnded
    rw [pagesBuilt] at stores
    obtain ⟨fragment, stored, same⟩ := stores
    refine ⟨text, content, compiles, fragment, stored, same, hostEnded.trans ?_⟩
    rw [written, same]
  · intro first served log second other otherLog opens logged otherOpens otherLogged
    obtain ⟨text, firstEnded⟩ := Stage.ended_of_course opens.course ended
    obtain ⟨otherText, secondEnded⟩ := Stage.ended_of_course otherOpens.course ended
    refine ⟨logged.writesForms firstEnded, fun id inFirst inSecond => ?_,
      fun asks keys any otherAny => ?_⟩
    · exact opens.key_eq_of_mem began.numbering logged otherOpens began.numbering otherLogged
        inFirst inSecond
    · refine ⟨_, opens.mem_formIds began.numbering (began.asks asks) logged firstEnded any, ?_⟩
      rw [formId_ofServed_of_key keys]
      exact otherOpens.mem_formIds began.numbering (began.asks asks) otherLogged secondEnded
        otherAny

/-- On the page of the shop, the cart has no id of the page. -/
theorem shopForms_share_no_ids :
    ∃ (site : Site) (after : Asset.Store) (cart : Stage) (log cartLog : List Stage),
      build .standard shopForms (.ofConfig .standard) = (.ok site, after) ∧
      shopFormsPage.Opens cart (some "cart") ∧ Stage.Log [shopFormsPage] log ∧
      Stage.Log [cart] cartLog ∧ ∀ id ∈ Stage.formIds log, id ∉ Stage.formIds cartLog := by
  have computed : (build .standard shopForms (.ofConfig .standard)).1.toOption.map
      (fun site => site.fragments.length) = some 1 := by decide +kernel
  obtain ⟨site, after, built, -⟩ := exists_site_of_computed computed
  obtain ⟨routes, found, pages⟩ := documents_share_ids_by_key built
  obtain rfl := routes_eq_of_found survey_shopForms found
  obtain ⟨-, -, both⟩ := pages _ _ (.here _ _ [])
  obtain ⟨log, logged⟩ := shopFormsPage.exists_log
  obtain ⟨cart, -, -, opens, -⟩ := exists_forms_of_shopFormsPage logged
  obtain ⟨cartLog, cartLogged⟩ := cart.exists_log
  obtain ⟨-, apart, -⟩ :=
    both shopFormsPage none log cart (some "cart") cartLog .own logged opens cartLogged
  refine ⟨site, after, cart, log, cartLog, built, opens, logged, cartLogged, ?_⟩
  intro id inPage inCart
  cases apart id inPage inCart

def addAction : Action :=
  { identity := 0, method := .post, name := "add", islands := [] }

def clearAction : Action :=
  { identity := 1, method := .post, name := "clear", islands := [] }

/-- Two regions of a cart on one page, with a form each. -/
def twoCarts : View :=
  .switch "main" []
    [.route "shop" "Shop"
      [SingleRegion.view (.ofBody "cart" fun _ => .form addAction .none [] [.text "Add"]),
       SingleRegion.view (.ofBody "cart" fun _ => .form clearAction .none [] [.text "Clear"])]]

/-- The render of the page with the carts. -/
def twoCartsPage : Stage :=
  pageStage .standard twoCarts (.ofBuild shopFormsTable (.ofConfig .standard))
    ⟨⟨["shop"]⟩, "Shop", "main"⟩

theorem survey_twoCarts : survey Config.standard twoCarts = .ok shopFormsTable :=
  eq_ok_of_toOption (by decide +kernel)

theorem starts_twoCartsPage : Starts .standard twoCarts (.ofConfig .standard) twoCartsPage :=
  .page survey_twoCarts (.here _ _ [])

/-- The template of a cart with a form. -/
def cartTemplate (label : String) : String :=
  "<dynamic-fragment>\x7b\x7b$frag_root := .\x7d\x7d<form id=\"form_Cart_1\">" ++ label ++
    "</form></dynamic-fragment>"

theorem exists_carts_of_twoCartsPage {log : List Stage} (logged : Stage.Log [twoCartsPage] log) :
    ∃ first second : Stage, twoCartsPage.Opens first (some "cart") ∧
      first.outcome.1.toOption = some (cartTemplate "Add") ∧
      first.outcome.2.numbering.forms = 1 ∧ twoCartsPage.Opens second (some "cart") ∧
      second.outcome.1.toOption = some (cartTemplate "Clear") ∧
      second.outcome.2.numbering.forms = 1 := by
  have page : twoCartsPage ∈ log := logged.mem_of_mem _ List.mem_cons_self
  have main := logged.mem_of_inner page (.switch [] _ rfl) rfl
  have route := logged.mem_of_inner main (.child (.here _ _ _)) rfl
  have shop := logged.mem_of_inner route (.route _ rfl rfl rfl) rfl
  have first := logged.mem_of_inner shop (.child (.here _ _ _)) rfl
  have second := logged.mem_of_inner shop (.child (.later rfl (.here _ _ _))) rfl
  exact ⟨_, _, .template .own logged first rfl, by decide +kernel, by decide +kernel,
    .template .own logged second rfl, by decide +kernel, by decide +kernel⟩

/-- The page has two different fragments, and both have a form with the same id. -/
theorem twoCarts_share_form_id :
    ∃ (site : Site) (after : Asset.Store) (first second : Stage) (log otherLog : List Stage),
      build .standard twoCarts (.ofConfig .standard) = (.ok site, after) ∧
      site.fragments.length = 2 ∧
      twoCartsPage.Opens first (some "cart") ∧ Stage.Log [first] log ∧
      first.outcome.1 = .ok (cartTemplate "Add") ∧
      twoCartsPage.Opens second (some "cart") ∧ Stage.Log [second] otherLog ∧
      second.outcome.1 = .ok (cartTemplate "Clear") ∧
      "form_Cart_1" ∈ Stage.formIds log ∧ "form_Cart_1" ∈ Stage.formIds otherLog := by
  have computed : (build .standard twoCarts (.ofConfig .standard)).1.toOption.map
      (fun site => site.fragments.length) = some 2 := by decide +kernel
  obtain ⟨site, after, built, two⟩ := exists_site_of_computed computed
  have asks : twoCarts.Asks Request.TakesNothing := by
    simp [twoCarts, SingleRegion.view, SingleRegion.ofBody, SingleRegion.template,
      templateView, View.Asks, View.AllAsk]
  have began := starts_twoCartsPage.numbering
  have rootAsks := starts_twoCartsPage.asks asks
  obtain ⟨pageLog, pageLogged⟩ := twoCartsPage.exists_log
  obtain ⟨first, second, opens, text, oneForm, otherOpens, otherText, otherOneForm⟩ :=
    exists_carts_of_twoCartsPage pageLogged
  obtain ⟨log, logged⟩ := first.exists_log
  obtain ⟨otherLog, otherLogged⟩ := second.exists_log
  have ended := eq_ok_of_toOption text
  have otherEnded := eq_ok_of_toOption otherText
  refine ⟨site, after, first, second, log, otherLog, built, two, opens, logged, ended, otherOpens,
    otherLogged, otherEnded, ?_, ?_⟩
  · rw [opens.formIds_eq began rootAsks logged ended, oneForm]
    decide
  · rw [otherOpens.formIds_eq began rootAsks otherLogged otherEnded, otherOneForm]
    decide

end Site

end Sitewright

import Sitewright.Proofs.Markup.Speech
import Sitewright.Proofs.View.Tidy

/-!
Contract: views that use the variables of a loop only where its block is around them.

What is written where it stands may use the variables of all loops around it. Some
content is moved: the branch of a marker to its conditional, a meta tag to the head of
its shell, the template of a region to a document of its own, and the id of a router to
links anywhere. It may only use what is visible where it goes.

Owns:
- the variables that conditions use;
- `Frame`, the variables that are visible in the places that content is moved to;
- confined views, and the regions and lists of the library as confined views.

Does not own: components, which may write anything.
-/

namespace Sitewright.Template

open Text

variable {names : Names}

/-! ## Conditions -/

namespace UsesOnly

variable {front back text : String}

theorem spaced (frontUses : UsesOnly names front) (backUses : UsesOnly names back) :
    UsesOnly names (front ++ " " ++ back) := by
  have space : UsesOnly names (" " ++ back) := .behind (by decide) backUses
  have written : (" " ++ back).toList = ' ' :: back.toList := by
    rw [String.toList_append]
    rfl
  rw [String.append_assoc]
  exact frontUses.append written (by decide) space

theorem closed (uses : UsesOnly names text) : UsesOnly names (text ++ ")") :=
  uses.append (by rfl : ")".toList = ')' :: []) (by decide) (.of_noSign (by decide))

theorem parenthesized (uses : UsesOnly names text) : UsesOnly names ("(" ++ text ++ ")") :=
  closed (.behind (by decide) uses)

theorem quote (uses : UsesOnly names text) : UsesOnly names (quote text) := by
  have token : '$' ∉ quoteToken.toList := by decide
  have keeps := keepsVariables_substitute (by rfl : quoteToken.toList = '@' :: _)
    (by decide : ¬ IsBrace '"') (by decide) (by decide) (by decide) (by decide) token
  have inside : UsesOnly names (substitute '"' quoteToken text) := by
    intro name member
    rw [Text.substitute, String.toList_ofList] at member
    exact uses name (keeps.loopVariables_flatMap _ name member)
  exact (behind token inside).append (by rfl : quoteToken.toList = '@' :: _) (by decide)
    (.of_noSign token)

/-- A call with two arguments, as conditions write it. -/
theorem call {function left right : String} (noSign : '$' ∉ function.toList)
    (leftUses : UsesOnly names left) (rightUses : UsesOnly names right) :
    UsesOnly names ("(" ++ function ++ " " ++ left ++ " " ++ right ++ ")") := by
  have applied : '$' ∉ ("(" ++ function ++ " ").toList := by
    simp [noSign]
  exact closed (spaced (behind applied leftUses) rightUses)

end UsesOnly

/-- The strings of a literal use only the given variables. -/
def Literal.UsesOnly (names : Names) : Literal → Prop
  | .string value => Template.UsesOnly names value
  | _ => True

theorem Literal.UsesOnly.text : ∀ {literal : Literal}, literal.UsesOnly names →
    Template.UsesOnly names literal.text
  | .string _, uses => uses.quote
  | .whole value, _ => .int value
  | .float value, _ => .float value
  | .bool true, _ => .of_noSign (by decide)
  | .bool false, _ => .of_noSign (by decide)

theorem DataRef.usesOnly_argument {source : DataRef} (uses : UsesOnly names source.name) :
    UsesOnly names source.argument := by
  unfold DataRef.argument
  dsimp only
  split
  · exact uses.parenthesized
  · exact uses

namespace DataRef

variable {source : DataRef}

theorem usesOnly_field (uses : UsesOnly names source.name) {label : String}
    (labelUses : UsesOnly names label) : UsesOnly names (source.field label).name := by
  have point : UsesOnly names ("." ++ label) := .behind (by decide) labelUses
  have written : ("." ++ label).toList = '.' :: label.toList := by
    rw [String.toList_append]
    rfl
  unfold DataRef.field
  rw [String.append_assoc]
  exact uses.append written (by decide) point

theorem usesOnly_element (uses : UsesOnly names source.name) (position : Nat) :
    UsesOnly names (source.element position).name := by
  have call : UsesOnly names ("(index " ++ source.name) := .behind (by decide) uses
  exact .closed (call.spaced (.nat position))

theorem usesOnly_length (uses : UsesOnly names source.name) : UsesOnly names source.length.name :=
  .behind (by decide) uses

end DataRef

mutual

/-- The references, literals and types of a condition use only the given variables. -/
def Expr.UsesOnly (names : Names) : Expr → Prop
  | .ref source => Template.UsesOnly names source.name
  | .literal value => value.UsesOnly names
  | .not operand => operand.UsesOnly names
  | .junction _ items => Expr.AllUseOnly names items
  | .compare _ left right => left.UsesOnly names ∧ right.UsesOnly names
  | .hasType operand type => operand.UsesOnly names ∧ Template.UsesOnly names type

def Expr.AllUseOnly (names : Names) : List Expr → Prop
  | [] => True
  | first :: rest => first.UsesOnly names ∧ Expr.AllUseOnly names rest

end

namespace Expr

theorem usesOnly_asArgument {expr : Expr} {alone : String} (uses : expr.UsesOnly names)
    (aloneUses : Template.UsesOnly names alone) :
    Template.UsesOnly names (expr.asArgument alone) := by
  unfold asArgument
  split
  · exact DataRef.usesOnly_argument uses
  · split
    · exact aloneUses.parenthesized
    · exact aloneUses

theorem noSign_comparison (comparison : Comparison) : '$' ∉ comparison.function.toList := by
  cases comparison <;> decide

theorem noSign_junction (kind : Junction) : '$' ∉ kind.function.toList := by
  cases kind <;> decide

mutual

theorem UsesOnly.text : ∀ {expr : Expr}, expr.UsesOnly names → Template.UsesOnly names expr.text
  | .ref _, uses => by
      unfold Expr.text
      exact uses
  | .literal _, uses => by
      unfold Expr.text
      exact Literal.UsesOnly.text uses
  | .not operand, uses => by
      unfold Expr.text
      exact .behind (by decide) (usesOnly_asArgument uses (UsesOnly.text uses))
  | .junction kind [], _ => by
      unfold Expr.text
      exact .of_noSign (by cases kind <;> decide)
  | .junction _ [single], uses => by
      unfold Expr.text
      exact UsesOnly.text uses.1
  | .junction kind (first :: second :: rest), uses => by
      unfold Expr.text
      exact AllUseOnly.chain (noSign_junction kind) uses
  | .compare comparison left right, uses => by
      have leftUses := usesOnly_asArgument uses.1 (UsesOnly.text uses.1)
      have rightUses := usesOnly_asArgument uses.2 (UsesOnly.text uses.2)
      unfold Expr.text
      exact .call (noSign_comparison comparison) leftUses rightUses
  | .hasType operand type, uses => by
      have typeUses : Template.UsesOnly names (quote type) := .quote uses.2
      have operandUses := usesOnly_asArgument uses.1 (UsesOnly.text uses.1)
      have tested : Template.UsesOnly names
          ("(" ++ Comparison.equal.function ++ " " ++ quote type ++ " (printf " ++ quote "%T") :=
        .append (by rfl : (quote "%T").toList = '@' :: _) (by decide)
          (.append (by rfl : " (printf ".toList = ' ' :: _) (by decide)
            (.behind (by decide) typeUses) (.of_noSign (by decide)))
          (.of_noSign (by decide))
      unfold Expr.text
      exact .append (by rfl : "))".toList = ')' :: _) (by decide)
        (.spaced tested operandUses) (.of_noSign (by decide))

theorem AllUseOnly.chain {function : String} (noSign : '$' ∉ function.toList) :
    ∀ {items : List Expr}, AllUseOnly names items →
      Template.UsesOnly names (Expr.chain function items)
  | [], _ => by
      unfold Expr.chain
      exact .of_noSign (by decide)
  | [last], uses => by
      unfold Expr.chain
      exact usesOnly_asArgument uses.1 (UsesOnly.text uses.1)
  | head :: next :: rest, uses => by
      have headUses := usesOnly_asArgument uses.1 (UsesOnly.text uses.1)
      have restUses := AllUseOnly.chain noSign uses.2
      unfold Expr.chain
      exact .call noSign headUses restUses

end

theorem UsesOnly.header {expr : Expr} (uses : expr.UsesOnly names) (negated : Bool) :
    Template.UsesOnly names (expr.header negated) := by
  unfold Expr.header
  split
  · exact usesOnly_asArgument uses uses.text
  · exact uses.text

end Expr

end Sitewright.Template

namespace Sitewright

open Text Template Markup

/-! ## Frames -/

/-- The variables that may be used at a place in a view, and where its content may be
moved. -/
structure Frame where
  /-- At the start of every document. -/
  shared : Names
  /-- In the ids of routers, which links anywhere quote. -/
  routers : Names
  /-- Where the content is written itself. -/
  visible : Names
  /-- At the shell around, which takes the meta tags. -/
  shell : Names
  /-- In the islands and items that the form around hands to its submit buttons. -/
  form : Names

namespace Frame

/-- Outside of all loops, shells and forms. -/
def outermost (shared routers : Names) : Frame :=
  { shared, routers, visible := shared, shell := shared, form := shared }

/-- Inside a loop that has the next number. -/
def inLoop (frame : Frame) (numbering : Numbering) : Frame :=
  { frame with
    visible := fun name => name ∈ variablesOfLoop numbering.loops ∨ frame.visible name }

def inShell (frame : Frame) : Frame :=
  { frame with shell := frame.visible }

def inForm (frame : Frame) (names : Names) : Frame :=
  { frame with form := names }

/-- Inside a document of its own. -/
def detached (frame : Frame) : Frame :=
  { frame with visible := frame.shared }

end Frame

/-! ## Views -/

/-- What a form hands to its submit buttons uses only the given variables. -/
structure Refresh.Speaks (names : Names) (action : Action) (refresh : Refresh) : Prop where
  islands : ∀ id ∈ refresh.islandIds action, Template.Speaks names id
  items : ∀ item ∈ refresh.items, item.Speaks names

structure Loading.Speaks (names : Names) (loading : Loading) : Prop where
  swap : ∀ delay ∈ loading.swap, Template.Speaks names delay
  settle : ∀ delay ∈ loading.settle, Template.Speaks names delay
  locale : ∀ language ∈ loading.locale, Template.Speaks names language

/-- Content that is written into the page; stored content is not. -/
def ScriptSource.Speaks (names : Names) (source : ScriptSource) : Prop :=
  source.inlined = true → ∀ contents ∈ source.contents, Template.Speaks names contents

mutual

/-- The view uses only variables that are visible, in its frame, where the content is
written. The frames of the conditionals around come from the innermost outwards. -/
def View.Confined : View → Frame → (conditionals : List Frame) → Prop
  | .blank, _, _ => True
  | .text content, frame, _ => Speaks frame.visible content
  | .raw content, frame, _ => Speaks frame.visible content
  | .group children, frame, conditionals => View.AllConfined children frame conditionals
  | .element tag attributes children, frame, conditionals =>
      Speaks frame.visible tag ∧ attributes.Speaks frame.visible ∧
        View.AllConfined children frame conditionals
  | .conditional condition _ body none, frame, conditionals =>
      (condition.BraceFree ∧ condition.UsesOnly frame.visible) ∧
        View.AllConfined body frame (frame :: conditionals)
  | .conditional condition _ body (some otherwise), frame, conditionals =>
      (condition.BraceFree ∧ condition.UsesOnly frame.visible) ∧
        View.AllConfined body frame (frame :: conditionals) ∧ otherwise.Confined frame conditionals
  | .alternative branch, _, conditionals =>
      match conditionals with
      | [] => True
      | frame :: outer => branch.Confined frame outer
  | .loop source body, frame, conditionals =>
      (BraceFree source.name ∧ UsesOnly frame.visible source.name) ∧ ∀ numbering : Numbering,
        (body ⟨numbering.elementName⟩ ⟨numbering.positionName⟩).Confined
          (frame.inLoop numbering) conditionals
  | .switch id attributes children, frame, conditionals =>
      (Speaks frame.visible id ∧ Speaks frame.routers id) ∧ attributes.Speaks frame.visible ∧
        View.AllConfined children frame conditionals
  | .route path _ children, frame, conditionals =>
      BraceFree path ∧ View.AllConfined children frame conditionals
  | .dataRoute path _ resource body, frame, conditionals =>
      BraceFree path ∧ (body (.ofResource resource)).Confined frame conditionals
  | .link target locale attributes children, frame, conditionals =>
      (∀ name, frame.routers name → frame.visible name) ∧ Speaks frame.visible target ∧
        (∀ language ∈ locale, Speaks frame.visible language) ∧
        attributes.Speaks frame.visible ∧ View.AllConfined children frame conditionals
  | .redirect _, _, _ => True
  | .shell _ headChildren children, frame, conditionals =>
      View.AllConfined headChildren frame conditionals ∧
        View.AllConfined children frame.inShell conditionals
  | .head children, frame, conditionals => View.AllConfined children frame conditionals
  | .metaTag attributes, frame, _ => attributes.Speaks frame.shell
  | .stylesheet name contents inlined, frame, _ =>
      inlined = true → Speaks frame.visible name ∧ Speaks frame.visible contents
  | .script source, frame, _ => source.Speaks frame.visible
  | .remote region template fallback, frame, conditionals =>
      region.loading.Speaks frame.visible ∧
        (template .ofFragment).Confined frame.detached conditionals ∧
        fallback.Confined frame conditionals
  | .form action refresh attributes children, frame, conditionals =>
      attributes.Speaks frame.visible ∧ ∃ names : Names, refresh.Speaks names action ∧
        View.AllConfined children (frame.inForm names) conditionals
  | .submit action attributes children, frame, conditionals =>
      (∀ name, frame.form name → frame.visible name) ∧ Speaks frame.visible action.name ∧
        attributes.Speaks frame.visible ∧ View.AllConfined children frame conditionals
  | .quickButton action refresh formAttributes hidden attributes children, frame, conditionals =>
      (Speaks frame.visible action.name ∧ refresh.Speaks frame.visible action) ∧
        (formAttributes.Speaks frame.visible ∧ View.AllConfined hidden frame conditionals) ∧
        attributes.Speaks frame.visible ∧ View.AllConfined children frame conditionals
  | .component _ _, _, _ => False

def View.AllConfined : List View → Frame → (conditionals : List Frame) → Prop
  | [], _, _ => True
  | first :: rest, frame, conditionals =>
      first.Confined frame conditionals ∧ View.AllConfined rest frame conditionals

end

/-! ## References -/

namespace Frame

variable (frame : Frame) (numbering : Numbering)

theorem visible_element : UsesOnly (frame.inLoop numbering).visible numbering.elementName := by
  intro name member
  rw [loopVariables_elementName, List.mem_singleton] at member
  exact Or.inl (by simp [variablesOfLoop, member])

theorem visible_position : UsesOnly (frame.inLoop numbering).visible numbering.positionName := by
  intro name member
  rw [loopVariables_positionName, List.mem_singleton] at member
  exact Or.inl (by simp [variablesOfLoop, member])

end Frame

variable {frame : Frame} {conditionals : List Frame}

theorem View.confined_ofRef {source : DataRef} (plain : source.Plain)
    (uses : UsesOnly frame.visible source.name) :
    (View.ofRef source).Confined frame conditionals :=
  Speaks.of_action plain.free plain.kind uses

/-- The variable of a template's data belongs to no loop. -/
theorem usesOnly_ofFragment {names : Names} : UsesOnly names DataRef.ofFragment.name := by
  have noLoop : loopVariables DataRef.ofFragment.name.toList = [] := by decide
  intro name member
  rw [noLoop] at member
  cases member

/-! ## Regions -/

theorem View.confined_templateView {attributes : Attributes} {content : View}
    (speaks : attributes.Speaks frame.visible) (confined : content.Confined frame conditionals) :
    (templateView attributes content).Confined frame conditionals := by
  have tag : Speaks frame.visible "dynamic-fragment" := .of_braceFree (by decide)
  have uses : UsesOnly frame.visible (fragmentRoot ++ " := .") :=
    usesOnly_ofFragment.append (by rfl : " := .".toList = ' ' :: _) (by decide)
      (.of_noSign (by decide))
  have binding : Speaks frame.visible bindFragmentRoot :=
    .of_action (by decide) (by decide) uses
  exact ⟨tag, speaks, binding, confined, trivial⟩

/-- The body of a region is confined to the document of its template. -/
theorem SingleRegion.confined_view {single : SingleRegion}
    (classSpeaks : ∀ name ∈ single.class?, Speaks frame.shared name)
    (loading : single.loading.Speaks frame.visible)
    (body : (single.body .ofFragment).Confined frame.detached conditionals)
    (fallback : single.fallback.Confined frame conditionals) :
    single.view.Confined frame conditionals := by
  have attributes : Attributes.Speaks frame.shared [⟨"class", .ofString? single.class?⟩] :=
    .entry (by decide) (Value.speaks_ofString? classSpeaks) Attributes.speaks_nil
  exact ⟨loading, View.confined_templateView attributes body, fallback⟩

namespace ListRegion

/-- The body of a list region, its keys and what is put around the elements are confined
to the loop over the elements, in the document of the template. -/
structure Confined (list : ListRegion) (frame : Frame) (conditionals : List Frame) : Prop where
  id : ∀ id ∈ list.id, Speaks frame.shared id
  class? : (joinedClass "dynamic-list" list.class?).Speaks frame.shared
  itemClass : ∀ numbering : Numbering, (joinedClass "dynamic-list-element" list.itemClass).Speaks
    (frame.detached.inLoop numbering).visible
  key : ∀ key ∈ list.key, ∀ numbering : Numbering,
    (key ⟨numbering.elementName⟩ ⟨numbering.positionName⟩).Speaks
      (frame.detached.inLoop numbering).visible
  body : ∀ numbering : Numbering,
    (list.body ⟨numbering.elementName⟩ ⟨numbering.positionName⟩).Confined
      (frame.detached.inLoop numbering) conditionals
  wrapper : ∀ wrapper ∈ list.wrapper, ∀ items : View,
    items.Confined frame.detached conditionals →
      (wrapper items .ofFragment).Confined frame.detached conditionals
  loading : list.loading.Speaks frame.visible
  fallback : list.fallback.Confined frame conditionals

variable {list : ListRegion} (confined : list.Confined frame conditionals)

include confined

theorem confined_item (numbering : Numbering) :
    (list.item ⟨numbering.elementName⟩ ⟨numbering.positionName⟩).Confined
      (frame.detached.inLoop numbering) conditionals := by
  have key : (list.keyOf ⟨numbering.elementName⟩ ⟨numbering.positionName⟩).Speaks
      (frame.detached.inLoop numbering).visible := by
    unfold keyOf
    split
    · next key given => exact confined.key key given numbering
    · exact Value.speaks_ref (DataRef.plain_positionName numbering)
        (frame.detached.visible_position numbering)
  exact ⟨.of_braceFree (by decide),
    .entry (by decide) key (.entry (by decide) (confined.itemClass numbering)
      Attributes.speaks_nil),
    confined.body numbering, trivial⟩

theorem confined_items : (list.items .ofFragment).Confined frame.detached conditionals :=
  ⟨⟨DataRef.plain_ofFragment.free, usesOnly_ofFragment⟩, confined_item confined⟩

theorem confined_view : list.view.Confined frame conditionals := by
  have attributes : Attributes.Speaks frame.shared
      [⟨"id", .ofString? list.id⟩, ⟨"class", joinedClass "dynamic-list" list.class?⟩] :=
    .entry (by decide) (Value.speaks_ofString? confined.id)
      (.entry (by decide) confined.class? Attributes.speaks_nil)
  refine ⟨confined.loading, View.confined_templateView attributes ?_, confined.fallback⟩
  split
  · next wrapper given => exact confined.wrapper wrapper given _ (confined_items confined)
  · exact confined_items confined

end ListRegion

end Sitewright

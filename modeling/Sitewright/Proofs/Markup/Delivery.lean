import Sitewright.Json.Value
import Sitewright.Proofs.Template.Escaping
import Sitewright.Proofs.Text.Token

/-!
Contract: what a browser makes of attribute values that were escaped.

A browser resolves references in one pass from left to right. The escape of attribute values leaves
ampersands alone, so that a reference which a value holds by itself is resolved, too.

Owns:
- `resolved`, and `ReferenceFree` values;
- `resolved_escapeAttribute`: a value arrives as it would without the escape;
- JSON texts that are free of references.

Does not own: which values attributes are given; the escape of texts, which writes every ampersand
as a reference.
-/

namespace Sitewright.Markup

open Text

/-! ## References -/

/-- The references that an escape writes. -/
def escapeReferences : TokenTable where
  start := '&'
  entries := ('"', ['q', 'u', 'o', 't', ';']) :: references
  filled := by decide
  startsOnce := by decide
  prefixFree := by decide

/-- The value with the characters in the place of their references. -/
def resolved (value : String) : String :=
  String.ofList (escapeReferences.read 0 value.toList)

/-- The value holds no reference. -/
def ReferenceFree (value : String) : Prop :=
  escapeReferences.Free value.toList

instance : DecidablePred ReferenceFree := fun value =>
  inferInstanceAs (Decidable (escapeReferences.Free value.toList))

/-- Exactly the values without references stay as they are. -/
theorem resolved_eq_self_iff {value : String} : resolved value = value ↔ ReferenceFree value := by
  rw [resolved, ReferenceFree, ← TokenTable.read_eq_self_iff, ← String.toList_inj,
    String.toList_ofList]

theorem writes_attributeCode : escapeReferences.Writes attributeCode where
  each character := by
    unfold attributeCode bracketCode
    split_ifs with quote opening closing blank
    · exact .inr ⟨('"', ['q', 'u', 'o', 't', ';']), by decide, quote.symm, rfl⟩
    · exact .inr ⟨('<', ['l', 't', ';']), by decide, opening.symm, rfl⟩
    · exact .inr ⟨('>', ['g', 't', ';']), by decide, closing.symm, rfl⟩
    · exact .inr ⟨(noBreakSpace, ['n', 'b', 's', 'p', ';']), by decide, blank.symm, rfl⟩
    · exact .inl rfl
  keepsToken := by decide

/-- Escaping makes no difference to what an attribute value is read as. -/
theorem resolved_escapeAttribute (value : String) :
    resolved (escapeAttribute value) = resolved value := by
  rw [resolved, toList_escapeAttribute, writes_attributeCode.read_flatMap]
  rfl

/-! ## Texts that are put together -/

/-- All signs of the text are in no reference. -/
def IsSeparator (text : String) : Prop :=
  ∀ sign ∈ text.toList, escapeReferences.Foreign sign

instance : DecidablePred IsSeparator := fun text =>
  List.decidableBAll escapeReferences.Foreign text.toList

theorem referenceFree_separator_append_iff {separator text : String}
    (separates : IsSeparator separator) :
    ReferenceFree (separator ++ text) ↔ ReferenceFree text := by
  rw [ReferenceFree, String.toList_append, TokenTable.free_foreign_append_iff separates]
  rfl

theorem referenceFree_between_iff {front separator back : String}
    (separates : IsSeparator separator) (filled : separator.toList ≠ []) :
    ReferenceFree (front ++ separator ++ back) ↔ ReferenceFree front ∧ ReferenceFree back := by
  rw [ReferenceFree, String.toList_append, String.toList_append, List.append_assoc,
    TokenTable.free_between_iff filled separates]
  rfl

theorem referenceFree_append_separator_iff {separator text : String}
    (separates : IsSeparator separator) (filled : separator.toList ≠ []) :
    ReferenceFree (text ++ separator) ↔ ReferenceFree text := by
  have whole : (text ++ separator).toList = text.toList ++ (separator.toList ++ []) := by
    rw [String.toList_append, List.append_nil]
  rw [ReferenceFree, whole, TokenTable.free_between_iff filled separates,
    and_iff_left TokenTable.free_nil]
  rfl

end Sitewright.Markup

namespace Sitewright.Json

open Text Markup

/-! ## JSON -/

/-- What is escaped in a string begins with a backslash. -/
theorem spares_quotedChar : escapeReferences.Spares quotedChar where
  each character := by
    have noStart : ∀ value, escapeReferences.start ≠ hexDigit value := by
      intro value
      have digits : ∀ digit < 16, escapeReferences.start ≠ Nat.digitChar digit := by decide
      exact digits _ (Nat.mod_lt _ (by decide))
    fun_cases quotedChar character with
    | case1 | case2 | case3 | case4 | case5 | case6 | case7 =>
        exact .inr ⟨_, _, rfl, by decide, by decide⟩
    | case8 =>
        refine .inr ⟨_, _, rfl, by decide, ?_⟩
        simp only [List.mem_cons, List.not_mem_nil, or_false, not_or]
        exact ⟨by decide, by decide, by decide, noStart _, noStart _⟩
    | case9 => exact .inl rfl
  keepsToken := by decide

theorem referenceFree_quoted_iff {text : String} :
    ReferenceFree (quoted text) ↔ ReferenceFree text := by
  have quotes : ∀ sign ∈ ['"'], escapeReferences.Foreign sign :=
    List.forall_mem_singleton.mpr (by decide)
  have whole : (quoted text).toList =
      ['"'] ++ (text.toList.flatMap quotedChar ++ (['"'] ++ [])) :=
    String.toList_ofList
  rw [ReferenceFree, whole, TokenTable.free_foreign_append_iff quotes,
    TokenTable.free_between_iff (List.cons_ne_nil _ _) quotes,
    and_iff_left TokenTable.free_nil, spares_quotedChar.free_flatMap_iff]
  rfl

theorem referenceFree_itemsText_iff {items : List Json} :
    ReferenceFree (itemsText items) ↔ ∀ item ∈ items, ReferenceFree item.text := by
  induction items with
  | nil => exact ⟨fun _ => List.forall_mem_nil _, fun _ => by decide⟩
  | cons first rest inductionHypothesis =>
      cases rest with
      | nil => rw [List.forall_mem_singleton, itemsText]
      | cons next others =>
          rw [List.forall_mem_cons, itemsText, referenceFree_between_iff (by decide) (by decide),
            inductionHypothesis]

theorem referenceFree_membersText_iff {members : List (String × Json)} :
    ReferenceFree (membersText members) ↔
      ∀ entry ∈ members, ReferenceFree entry.1 ∧ ReferenceFree entry.2.text := by
  have entry_iff : ∀ (key : String) (value : Json),
      ReferenceFree (quoted key ++ ":" ++ value.text) ↔
        ReferenceFree key ∧ ReferenceFree value.text := by
    intro key value
    rw [referenceFree_between_iff (by decide) (by decide), referenceFree_quoted_iff]
  induction members with
  | nil => exact ⟨fun _ => List.forall_mem_nil _, fun _ => by decide⟩
  | cons entry rest inductionHypothesis =>
      obtain ⟨key, value⟩ := entry
      cases rest with
      | nil => rw [List.forall_mem_singleton, membersText, entry_iff]
      | cons next others =>
          rw [List.forall_mem_cons, membersText,
            referenceFree_between_iff (by decide) (by decide), entry_iff]
          exact and_congr_right fun _ => inductionHypothesis

theorem referenceFree_object_iff {members : List (String × Json)} :
    ReferenceFree (Json.object members).text ↔
      ∀ entry ∈ members, ReferenceFree entry.1 ∧ ReferenceFree entry.2.text := by
  rw [Json.text, referenceFree_append_separator_iff (by decide) (by decide),
    referenceFree_separator_append_iff (by decide), referenceFree_membersText_iff]

theorem referenceFree_string_iff {value : String} :
    ReferenceFree (Json.string value).text ↔ ReferenceFree value := by
  rw [Json.text, referenceFree_quoted_iff]

theorem referenceFree_stringsText_iff {values : List String} :
    ReferenceFree (stringsText values) ↔ ∀ value ∈ values, ReferenceFree value := by
  rw [stringsText, Json.text, referenceFree_append_separator_iff (by decide) (by decide),
    referenceFree_separator_append_iff (by decide), referenceFree_itemsText_iff,
    List.forall_mem_map]
  exact forall₂_congr fun _ _ => referenceFree_string_iff

end Sitewright.Json

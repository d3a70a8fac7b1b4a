import Mathlib.Data.List.Nodup
import Mathlib.Data.List.Infix

/-!
Contract: lists to which an entry is only added if its key is new.

Fragments, records of islands, files and addresses in use are all kept in this way. Every key is
there once, and the entry that was offered first under it is the one that is found, as if all the
entries offered had been kept.

Owns:
- `addNew`, one entry offered, and `addAll`, several ones;
- what stays: the entries in front, keys of their own, and all keys that were ever offered;
- looking up a key, which gives the first entry offered under it;
- texts that are keys themselves, of which those are kept that `List.eraseDups` keeps.
-/

namespace Sitewright

variable {α : Type} (key : α → String)

/-- The entry at the end, unless its key is taken. -/
def addNew (entries : List α) (entry : α) : List α :=
  if entries.any (fun other => key other = key entry) then entries else entries ++ [entry]

/-- The entries after others were offered in turn. -/
def addAll (entries offered : List α) : List α :=
  offered.foldl (addNew key) entries

variable {key} {entries : List α} {entry : α}

theorem any_key_iff {taken : String} :
    entries.any (fun other => key other = taken) = true ↔ taken ∈ entries.map key := by
  simp only [List.any_eq_true, List.mem_map, decide_eq_true_eq]

/-- A search by key finds something if the key is taken. -/
theorem isSome_find?_key (key : α → String) (entries : List α) (taken : String) :
    (entries.find? fun other => key other = taken).isSome =
      entries.any fun other => key other = taken := by
  rw [Bool.eq_iff_iff, List.find?_isSome, List.any_eq_true]

theorem addNew_of_taken (taken : key entry ∈ entries.map key) :
    addNew key entries entry = entries := by
  unfold addNew
  rw [if_pos (any_key_iff.mpr taken)]

theorem addNew_of_free (free : key entry ∉ entries.map key) :
    addNew key entries entry = entries ++ [entry] := by
  unfold addNew
  rw [if_neg (mt any_key_iff.mp free)]

/-! ## One entry -/

theorem prefix_addNew (entries : List α) (entry : α) : entries <+: addNew key entries entry := by
  unfold addNew
  split
  · exact List.prefix_refl _
  · exact List.prefix_append _ _

theorem mem_of_mem_addNew {other : α} (member : other ∈ addNew key entries entry) :
    other ∈ entries ∨ other = entry := by
  unfold addNew at member
  split at member
  · exact Or.inl member
  · simpa using member

theorem key_mem_addNew {taken : String} :
    taken ∈ (addNew key entries entry).map key ↔ taken ∈ entries.map key ∨ taken = key entry := by
  by_cases known : key entry ∈ entries.map key
  · rw [addNew_of_taken known]
    constructor
    · exact Or.inl
    · rintro (old | rfl)
      · exact old
      · exact known
  · rw [addNew_of_free known, List.map_append, List.mem_append, List.map_singleton,
      List.mem_singleton]

theorem nodup_addNew (distinct : (entries.map key).Nodup) (entry : α) :
    ((addNew key entries entry).map key).Nodup := by
  by_cases taken : key entry ∈ entries.map key
  · rw [addNew_of_taken taken]
    exact distinct
  · rw [addNew_of_free taken, List.map_append, List.map_singleton]
    exact distinct.append (List.nodup_singleton _) (List.disjoint_singleton.mpr taken)

/-- For looking up a key, adding is the same as putting at the end. -/
theorem find?_addNew (entries : List α) (entry : α) (wanted : String) :
    (addNew key entries entry).find? (fun other => key other = wanted) =
      (entries ++ [entry]).find? fun other => key other = wanted := by
  by_cases taken : key entry ∈ entries.map key
  · rw [addNew_of_taken taken, List.find?_append]
    cases found : entries.find? fun other => key other = wanted with
    | some other => rfl
    | none =>
        -- Nothing has the key that is wanted, so the entry, whose key is taken, has not either.
        rw [List.find?_eq_none] at found
        obtain ⟨other, member, same⟩ := List.mem_map.mp taken
        have different : key entry ≠ wanted := by
          intro isWanted
          exact found other member (by simpa using same.trans isWanted)
        simp [different]
  · rw [addNew_of_free taken]

/-! ## Several entries -/

theorem prefix_addAll (entries offered : List α) : entries <+: addAll key entries offered := by
  unfold addAll
  induction offered generalizing entries with
  | nil => exact List.prefix_refl _
  | cons first rest inductionHypothesis =>
      exact (prefix_addNew entries first).trans (inductionHypothesis (addNew key entries first))

/-- A key is taken if it was taken or offered. -/
theorem key_mem_addAll {offered : List α} {taken : String} :
    taken ∈ (addAll key entries offered).map key ↔
      taken ∈ entries.map key ∨ taken ∈ offered.map key := by
  unfold addAll
  induction offered generalizing entries with
  | nil => simp
  | cons first rest inductionHypothesis =>
      rw [List.foldl_cons, inductionHypothesis, key_mem_addNew, List.map_cons, List.mem_cons,
        or_assoc]

theorem addAll_append (entries early late : List α) :
    addAll key entries (early ++ late) = addAll key (addAll key entries early) late := by
  unfold addAll
  rw [List.foldl_append]

theorem nodup_addAll (distinct : (entries.map key).Nodup) (offered : List α) :
    ((addAll key entries offered).map key).Nodup := by
  unfold addAll
  induction offered generalizing entries with
  | nil => exact distinct
  | cons first rest inductionHypothesis => exact inductionHypothesis (nodup_addNew distinct first)

/-- What is found under a key is what was offered first under it. -/
theorem find?_addAll (entries offered : List α) (wanted : String) :
    (addAll key entries offered).find? (fun other => key other = wanted) =
      (entries ++ offered).find? fun other => key other = wanted := by
  unfold addAll
  induction offered generalizing entries with
  | nil => simp
  | cons first rest inductionHypothesis =>
      rw [List.foldl_cons, inductionHypothesis, List.find?_append, find?_addNew,
        ← List.find?_append, List.append_assoc, List.singleton_append]

/-! ## Texts that are keys themselves -/

theorem addNew_id (texts : List String) (text : String) :
    addNew id texts text = if texts.contains text then texts else texts ++ [text] := by
  have contained : (texts.any fun other => id other = id text) = texts.contains text := by
    rw [Bool.eq_iff_iff, List.contains_iff_mem, List.any_eq_true]
    simp
  unfold addNew
  rw [contained]

theorem mem_addNew_id {texts : List String} {text other : String} :
    other ∈ addNew id texts text ↔ other ∈ texts ∨ other = text := by
  have keys : other ∈ (addNew id texts text).map id ↔ _ := key_mem_addNew
  rwa [List.map_id, List.map_id] at keys

theorem mem_addAll_id {texts offered : List String} {text : String} :
    text ∈ addAll id texts offered ↔ text ∈ texts ∨ text ∈ offered := by
  have keys : text ∈ (addAll id texts offered).map id ↔ _ := key_mem_addAll
  rwa [List.map_id, List.map_id, List.map_id] at keys

/-- The texts offered that are new follow, each of them where it was offered first. -/
theorem addAll_id (texts offered : List String) :
    addAll id texts offered = texts ++ (offered.removeAll texts).eraseDups := by
  induction offered generalizing texts with
  | nil => exact (List.append_nil texts).symm
  | cons first rest inductionHypothesis =>
      rw [show addAll id texts (first :: rest) = addAll id (addNew id texts first) rest from rfl,
        inductionHypothesis, List.cons_removeAll]
      by_cases known : first ∈ texts
      · rw [addNew_of_taken (by simpa using known)]
        simp [known]
      · have apart : rest.removeAll (texts ++ [first]) =
            (rest.removeAll texts).filter fun text => !text == first := by
          unfold List.removeAll
          rw [List.filter_filter]
          refine List.filter_congr fun text _ => ?_
          simp [Bool.and_comm, beq_eq_decide]
        rw [addNew_of_free (by simpa using known), apart]
        simp [known, List.eraseDups_cons]

/-- Entries that are made of their keys are there in the order of those. -/
theorem addAll_map {make : String → α} (own : ∀ text, key (make text) = text)
    (texts offered : List String) :
    addAll key (texts.map make) (offered.map make) = (addAll id texts offered).map make := by
  have step : ∀ texts text, addNew key (texts.map make) (make text) =
      (addNew id texts text).map make := by
    intro texts text
    by_cases known : text ∈ texts
    · rw [addNew_of_taken (by simpa [own] using known), addNew_of_taken (by simpa using known)]
    · rw [addNew_of_free (by simpa [own] using known), addNew_of_free (by simpa using known)]
      simp
  unfold addAll
  induction offered generalizing texts with
  | nil => rfl
  | cons first rest inductionHypothesis =>
      rw [List.map_cons, List.foldl_cons, List.foldl_cons, step, inductionHypothesis]

theorem addAll_id_nil (offered : List String) : addAll id [] offered = offered.eraseDups := by
  rw [addAll_id, List.removeAll_nil, List.nil_append]

theorem nodup_eraseDups (texts : List String) : texts.eraseDups.Nodup := by
  have none : (([] : List String).map id).Nodup := List.nodup_nil
  have distinct := nodup_addAll none texts
  rwa [List.map_id, addAll_id_nil] at distinct

theorem eraseDups_eq_self_iff {texts : List String} : texts.eraseDups = texts ↔ texts.Nodup := by
  constructor
  · intro same
    exact same ▸ nodup_eraseDups texts
  · intro distinct
    induction distinct with
    | nil => rfl
    | @cons first rest apart _ inductionHypothesis =>
        have kept : (rest.filter fun text => !text == first) = rest := by
          refine List.filter_eq_self.mpr fun text member => ?_
          simpa using (apart text member).symm
        rw [List.eraseDups_cons, kept, inductionHypothesis]

end Sitewright

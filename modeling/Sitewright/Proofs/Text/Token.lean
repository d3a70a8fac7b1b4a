import Mathlib.Data.List.Basic

/-!
Contract: texts in which some characters are written as tokens.

All tokens of a table begin with one sign, which they hold once, and none of them begins another.
A text is read in one pass from left to right: where a token begins, the character that it stands
for is read, and everything else is read as it is.

Owns:
- `TokenTable` and its `read`, with an induction over texts that are read;
- `read_eq_self_iff`: exactly the texts without tokens are read as they are;
- `read_flatMap`: it makes no difference to write characters as their tokens;
- `free_flatMap_iff` and `free_append_cons_iff`, for texts that are put together.

Does not own: any particular table.
-/

namespace Sitewright.Text

/-! ## Codes for characters -/

theorem flatMap_of_kept {code : Char → List Char} {text : List Char}
    (kept : ∀ character ∈ text, code character = [character]) : text.flatMap code = text := by
  rw [List.flatMap_congr kept]
  exact List.flatMap_singleton' text

/-- What a text is seen to begin with once it is written, it begins with, unless what is sought
holds the beginning of a code. -/
theorem prefix_of_prefix_flatMap {code : Char → List Char} {sought content : List Char}
    (coded : ∀ character, code character = [character] ∨
      ∃ head tail, code character = head :: tail ∧ head ∉ sought)
    (begins : sought <+: content.flatMap code) : sought <+: content := by
  induction content generalizing sought with
  | nil => exact begins
  | cons first rest inductionHypothesis =>
      cases sought with
      | nil => exact List.nil_prefix
      | cons wanted others =>
          rw [List.flatMap_cons] at begins
          rcases coded first with same | ⟨head, tail, written, absent⟩
          · rw [same, List.singleton_append, List.cons_prefix_cons] at begins
            rw [List.cons_prefix_cons]
            refine ⟨begins.1, inductionHypothesis (fun character => ?_) begins.2⟩
            refine (coded character).imp_right ?_
            rintro ⟨head, tail, written, absent⟩
            exact ⟨head, tail, written, fun member => absent (List.mem_cons_of_mem _ member)⟩
          · rw [written, List.cons_append, List.cons_prefix_cons] at begins
            rw [← begins.1] at absent
            exact absurd List.mem_cons_self absent

/-! ## Tables -/

/-- Tokens that begin with one sign. Each stands for a character. -/
structure TokenTable where
  start : Char
  /-- The characters, with what their tokens hold behind the sign. -/
  entries : List (Char × List Char)
  filled : ∀ entry ∈ entries, entry.2 ≠ []
  startsOnce : ∀ entry ∈ entries, start ∉ entry.2
  prefixFree : ∀ first ∈ entries, ∀ second ∈ entries, first.2 <+: second.2 → first = second

namespace TokenTable

variable (table : TokenTable)

def token (entry : Char × List Char) : List Char :=
  table.start :: entry.2

/-- The entry whose token the text begins with. -/
def entryAt? (text : List Char) : Option (Char × List Char) :=
  table.entries.find? fun entry => (table.token entry).isPrefixOf text

/-- The text with the characters in the place of their tokens. Of the token that was seen last,
`skipped` characters are still to be passed over. -/
def read : (skipped : Nat) → List Char → List Char
  | _, [] => []
  | skipped + 1, _ :: rest => read skipped rest
  | 0, first :: rest =>
      match table.entryAt? (first :: rest) with
      | some entry => entry.1 :: read entry.2.length rest
      | none => first :: read 0 rest

def Begins (text : List Char) : Prop :=
  ∃ entry ∈ table.entries, table.token entry <+: text

/-- The text holds no token. -/
def Free (text : List Char) : Prop :=
  ∀ entry ∈ table.entries, ¬ table.token entry <:+: text

instance : DecidablePred table.Free := fun text =>
  inferInstanceAs (Decidable (∀ entry ∈ table.entries, ¬ table.token entry <:+: text))

/-- No token that begins before the text can reach into it. -/
def Apart (text : List Char) : Prop :=
  ∀ first ∈ text.head?, ∀ entry ∈ table.entries, first ∉ entry.2

/-- The sign is in no token. -/
def Foreign (sign : Char) : Prop :=
  sign ≠ table.start ∧ ∀ entry ∈ table.entries, sign ∉ entry.2

instance : DecidablePred table.Foreign := fun sign =>
  inferInstanceAs (Decidable (sign ≠ table.start ∧ ∀ entry ∈ table.entries, sign ∉ entry.2))

variable {table}

theorem Foreign.apart {sign : Char} (isForeign : table.Foreign sign) (rest : List Char) :
    table.Apart (sign :: rest) := by
  intro first isFirst
  obtain rfl := Option.some.inj isFirst
  exact isForeign.2

theorem begins_of_entryAt? {entry : Char × List Char} {text : List Char}
    (found : table.entryAt? text = some entry) :
    entry ∈ table.entries ∧ table.token entry <+: text := by
  unfold entryAt? at found
  have begins := List.find?_some found
  exact ⟨List.mem_of_find?_eq_some found, List.isPrefixOf_iff_prefix.mp begins⟩

/-- A token that stands in a text is told by how the text goes on. -/
theorem entryAt?_token {entry : Char × List Char} (listed : entry ∈ table.entries)
    (rest : List Char) : table.entryAt? (table.token entry ++ rest) = some entry := by
  have begins : (table.token entry).isPrefixOf (table.token entry ++ rest) = true :=
    List.isPrefixOf_iff_prefix.mpr (List.prefix_append _ rest)
  have isSome : (table.entryAt? (table.token entry ++ rest)).isSome = true := by
    rw [entryAt?, List.find?_isSome]
    exact ⟨entry, listed, begins⟩
  obtain ⟨found, isFound⟩ := Option.isSome_iff_exists.mp isSome
  obtain ⟨foundListed, foundBegins⟩ := begins_of_entryAt? isFound
  rw [token, token, List.cons_append, List.cons_prefix_cons] at foundBegins
  rw [isFound]
  -- Both begin the same text, so one begins the other.
  rcases List.prefix_or_prefix_of_prefix foundBegins.2 (List.prefix_append entry.2 rest) with
    shorter | longer
  · rw [table.prefixFree found foundListed entry listed shorter]
  · rw [table.prefixFree entry listed found foundListed longer]

theorem entryAt?_eq_none {text : List Char} (noToken : ¬ table.Begins text) :
    table.entryAt? text = none := by
  refine List.find?_eq_none.mpr fun entry listed begins => ?_
  exact noToken ⟨entry, listed, List.isPrefixOf_iff_prefix.mp begins⟩

/-! ## Reading -/

theorem read_skip (skipped : List Char) (rest : List Char) :
    table.read skipped.length (skipped ++ rest) = table.read 0 rest := by
  induction skipped with
  | nil => rfl
  | cons first others inductionHypothesis =>
      rw [List.length_cons, List.cons_append, read]
      exact inductionHypothesis

theorem read_token {entry : Char × List Char} (listed : entry ∈ table.entries)
    (rest : List Char) :
    table.read 0 (table.token entry ++ rest) = entry.1 :: table.read 0 rest := by
  have found := entryAt?_token listed rest
  rw [token, List.cons_append] at found ⊢
  rw [read, found]
  show entry.1 :: table.read entry.2.length (entry.2 ++ rest) = _
  rw [read_skip]

/-- Where no token begins, a character is read as it is. -/
theorem read_other {first : Char} {rest : List Char} (noToken : ¬ table.Begins (first :: rest)) :
    table.read 0 (first :: rest) = first :: table.read 0 rest := by
  rw [read, entryAt?_eq_none noToken]

/-- Only the sign can begin a token. -/
theorem not_begins_of_ne {first : Char} (different : first ≠ table.start) (rest : List Char) :
    ¬ table.Begins (first :: rest) := by
  rintro ⟨entry, -, begins⟩
  rw [token, List.cons_prefix_cons] at begins
  exact different begins.1.symm

/-- A text is taken apart from the front: a token is passed as a whole, anything else character by
character. -/
@[elab_as_elim]
theorem read_induction {motive : List Char → Prop} (nil : motive [])
    (token : ∀ entry ∈ table.entries, ∀ rest, motive rest → motive (table.token entry ++ rest))
    (other : ∀ first rest, ¬ table.Begins (first :: rest) → motive rest → motive (first :: rest))
    (text : List Char) : motive text := by
  induction length : text.length using Nat.strongRecOn generalizing text with
  | _ size shorter =>
    subst length
    cases text with
    | nil => exact nil
    | cons first rest =>
        by_cases begins : table.Begins (first :: rest)
        · obtain ⟨entry, listed, behind, whole⟩ := begins
          rw [← whole]
          refine token entry listed behind (shorter behind.length ?_ behind rfl)
          rw [← whole, List.length_append, TokenTable.token, List.length_cons]
          omega
        · exact other first rest begins (shorter rest.length (Nat.lt_succ_self _) rest rfl)

theorem length_read_le (table : TokenTable) (text : List Char) :
    (table.read 0 text).length ≤ text.length := by
  induction text using table.read_induction with
  | nil => exact Nat.le_refl 0
  | token entry listed rest inductionHypothesis =>
      rw [read_token listed, List.length_cons, List.length_append, token, List.length_cons]
      omega
  | other first rest noToken inductionHypothesis =>
      rw [read_other noToken]
      exact Nat.succ_le_succ inductionHypothesis

/-- Exactly the texts without tokens are read as they are: a token is longer than what it stands
for, and that is never made up for. -/
theorem read_eq_self_iff {text : List Char} : table.read 0 text = text ↔ table.Free text := by
  induction text using table.read_induction with
  | nil =>
      refine ⟨fun _ entry listed isInfix => ?_, fun _ => rfl⟩
      exact List.cons_ne_nil _ _ (List.infix_nil.mp isInfix)
  | token entry listed rest _ =>
      refine ⟨fun same => ?_,
        fun free => absurd (List.prefix_append _ rest).isInfix (free entry listed)⟩
      have lengths := congrArg List.length same
      have positive := List.length_pos_of_ne_nil (table.filled entry listed)
      have shorter := table.length_read_le rest
      rw [read_token listed, List.length_cons, List.length_append, token,
        List.length_cons] at lengths
      omega
  | other first rest noToken inductionHypothesis =>
      have free_iff : table.Free (first :: rest) ↔ table.Free rest := by
        refine forall₂_congr fun entry listed => ?_
        rw [List.infix_cons_iff, or_iff_right fun begins => noToken ⟨entry, listed, begins⟩]
      rw [read_other noToken, free_iff, ← inductionHypothesis, List.cons.injEq,
        and_iff_right rfl]

/-- The sign occurs in a token once. A token that begins in one text and ends in the next would
therefore have its middle at the border. -/
theorem not_begins_append {first : Char} {front back : List Char}
    (noToken : ¬ table.Begins (first :: front)) (apart : table.Apart back) :
    ¬ table.Begins (first :: (front ++ back)) := by
  rintro ⟨entry, listed, remaining, equal⟩
  rw [← List.cons_append] at equal
  rcases List.append_eq_append_iff.mp equal with
    ⟨tail, frontEqual, -⟩ | ⟨reached, tokenEqual, backEqual⟩
  · exact noToken ⟨entry, listed, tail, frontEqual.symm⟩
  · cases reached with
    | nil =>
        rw [List.append_nil] at tokenEqual
        exact noToken ⟨entry, listed, tokenEqual ▸ List.prefix_rfl⟩
    | cons middle others =>
        refine apart middle ?_ entry listed ?_
        · rw [backEqual]
          rfl
        · rw [(List.cons.inj tokenEqual).2]
          exact List.mem_append_right _ List.mem_cons_self

/-- Two texts are read one by one, unless a token lies across the border. -/
theorem read_append_of_apart (front : List Char) {back : List Char} (apart : table.Apart back) :
    table.read 0 (front ++ back) = table.read 0 front ++ table.read 0 back := by
  induction front using table.read_induction with
  | nil => rfl
  | token entry listed rest inductionHypothesis =>
      rw [List.append_assoc, read_token listed, read_token listed, inductionHypothesis,
        List.cons_append]
  | other first rest noToken inductionHypothesis =>
      rw [List.cons_append, read_other (not_begins_append noToken apart), read_other noToken,
        inductionHypothesis, List.cons_append]

/-! ## Texts that are put together -/

/-- A sign that is in no token keeps apart what stands around it. -/
theorem free_append_cons_iff {sign : Char} (isForeign : table.Foreign sign)
    {front back : List Char} :
    table.Free (front ++ sign :: back) ↔ table.Free front ∧ table.Free back := by
  have notStart := not_begins_of_ne isForeign.1 back
  have frontShorter := table.length_read_le front
  have backShorter := table.length_read_le back
  rw [← read_eq_self_iff, ← read_eq_self_iff, ← read_eq_self_iff,
    read_append_of_apart front (isForeign.apart back), read_other notStart]
  constructor
  · intro same
    have lengths := congrArg List.length same
    simp only [List.length_append, List.length_cons] at lengths
    obtain ⟨frontSame, backSame⟩ := List.append_inj same (by omega)
    exact ⟨frontSame, (List.cons.inj backSame).2⟩
  · rintro ⟨frontSame, backSame⟩
    rw [frontSame, backSame]

theorem free_nil : table.Free [] :=
  read_eq_self_iff.mp rfl

theorem free_foreign_append_iff {signs rest : List Char}
    (areForeign : ∀ sign ∈ signs, table.Foreign sign) :
    table.Free (signs ++ rest) ↔ table.Free rest := by
  induction signs with
  | nil => exact Iff.rfl
  | cons sign others inductionHypothesis =>
      rw [List.forall_mem_cons] at areForeign
      rw [List.cons_append, ← List.nil_append (sign :: (others ++ rest)),
        free_append_cons_iff areForeign.1, and_iff_right free_nil]
      exact inductionHypothesis areForeign.2

theorem free_between_iff {front signs back : List Char} (filled : signs ≠ [])
    (areForeign : ∀ sign ∈ signs, table.Foreign sign) :
    table.Free (front ++ (signs ++ back)) ↔ table.Free front ∧ table.Free back := by
  obtain ⟨sign, others, rfl⟩ := List.exists_cons_of_ne_nil filled
  rw [List.forall_mem_cons] at areForeign
  rw [List.cons_append, free_append_cons_iff areForeign.1, free_foreign_append_iff areForeign.2]

/-! ## Codes for tables -/

/-- A code that writes some characters as their tokens, and every other one as it is. Tokens are
kept. -/
structure Writes (table : TokenTable) (code : Char → List Char) : Prop where
  each : ∀ character, code character = [character] ∨
    ∃ entry ∈ table.entries, entry.1 = character ∧ code character = table.token entry
  keepsToken : ∀ entry ∈ table.entries, (table.token entry).flatMap code = table.token entry

/-- It makes no difference to the reader that characters are written as their tokens. -/
theorem Writes.read_flatMap {code : Char → List Char} (writes : table.Writes code)
    (text : List Char) : table.read 0 (text.flatMap code) = table.read 0 text := by
  induction text using table.read_induction with
  | nil => rfl
  | token entry listed rest inductionHypothesis =>
      rw [List.flatMap_append, writes.keepsToken entry listed, read_token listed,
        read_token listed, inductionHypothesis]
  | other first rest noToken inductionHypothesis =>
      rw [List.flatMap_cons, read_other noToken]
      rcases writes.each first with same | ⟨entry, listed, rfl, written⟩
      · have stillNone : ¬ table.Begins (first :: rest.flatMap code) := by
          rintro ⟨entry, listed, begins⟩
          rw [token, List.cons_prefix_cons] at begins
          refine noToken ⟨entry, listed, List.cons_prefix_cons.mpr ⟨begins.1, ?_⟩⟩
          -- What is written as a token begins with the sign, which no token holds again.
          refine prefix_of_prefix_flatMap (fun character => ?_) begins.2
          refine (writes.each character).imp_right ?_
          rintro ⟨other, -, -, written⟩
          exact ⟨table.start, other.2, written, table.startsOnce entry listed⟩
        rw [same, List.singleton_append, read_other stillNone, inductionHypothesis]
      · rw [written, read_token listed, inductionHypothesis]

/-- A code that writes some characters as their tokens, the sign among them, and every other one as
it is. -/
def Encodes (table : TokenTable) (code : Char → List Char) : Prop :=
  ∀ character, (code character = [character] ∧ character ≠ table.start) ∨
    ∃ entry ∈ table.entries, entry.1 = character ∧ code character = table.token entry

/-- The reader takes back what is written in such a code. -/
theorem Encodes.read_flatMap {code : Char → List Char} (encodes : table.Encodes code)
    (text : List Char) : table.read 0 (text.flatMap code) = text := by
  induction text with
  | nil => rfl
  | cons first rest inductionHypothesis =>
      rw [List.flatMap_cons]
      rcases encodes first with ⟨same, noStart⟩ | ⟨entry, listed, rfl, written⟩
      · rw [same, List.singleton_append, read_other (not_begins_of_ne noStart _),
          inductionHypothesis]
      · rw [written, read_token listed, inductionHypothesis]

/-- In such a code the sign stands only at the beginning of tokens. -/
theorem Encodes.begins_of_start {code : Char → List Char} (encodes : table.Encodes code)
    {text front back : List Char} (written : text.flatMap code = front ++ table.start :: back) :
    table.Begins (table.start :: back) := by
  induction text generalizing front with
  | nil => exact absurd written.symm (List.append_ne_nil_of_right_ne_nil _ (List.cons_ne_nil _ _))
  | cons first rest inductionHypothesis =>
      rw [List.flatMap_cons] at written
      rcases List.append_eq_append_iff.mp written with ⟨middle, -, behind⟩ | ⟨middle, cut, behind⟩
      · exact inductionHypothesis behind
      · cases middle with
        | nil => exact @inductionHypothesis [] behind.symm
        | cons sign others =>
            -- The sign stands in the code of the first character, so that is a token.
            obtain ⟨rfl, rfl⟩ := List.cons.inj behind
            rcases encodes first with ⟨same, noStart⟩ | ⟨entry, listed, -, isToken⟩
            · rw [same] at cut
              have isStart : table.start ∈ [first] := by
                rw [cut]
                exact List.mem_append_right _ List.mem_cons_self
              exact absurd (List.mem_singleton.mp isStart).symm noStart
            · rw [isToken, token] at cut
              cases front with
              | nil =>
                  refine ⟨entry, listed, ?_⟩
                  rw [token, cut]
                  exact List.prefix_append (table.start :: others) _
              | cons head tail =>
                  have again : table.start ∈ entry.2 := by
                    rw [(List.cons.inj cut).2]
                    exact List.mem_append_right _ List.mem_cons_self
                  exact absurd again (table.startsOnce entry listed)

/-- A code that keeps tokens. It writes each character as it is, or in a way that begins with a
foreign sign and in which no token begins. -/
structure Spares (table : TokenTable) (code : Char → List Char) : Prop where
  each : ∀ character, code character = [character] ∨
    ∃ head tail, code character = head :: tail ∧ table.Foreign head ∧ table.start ∉ tail
  keepsToken : ∀ entry ∈ table.entries, (table.token entry).flatMap code = table.token entry

/-- No token begins in the first text. -/
theorem infix_of_infix_append {entry : Char × List Char} {front back : List Char}
    (noStart : table.start ∉ front) (inside : table.token entry <:+: front ++ back) :
    table.token entry <:+: back := by
  induction front with
  | nil => exact inside
  | cons first rest inductionHypothesis =>
      rw [List.mem_cons, not_or] at noStart
      rw [List.cons_append, List.infix_cons_iff] at inside
      rcases inside with begins | further
      · rw [token, List.cons_prefix_cons] at begins
        exact absurd begins.1 noStart.1
      · exact inductionHypothesis noStart.2 further

/-- Writing a text in such a code neither makes nor breaks a token. -/
theorem Spares.free_flatMap_iff {code : Char → List Char} (spares : table.Spares code)
    {text : List Char} : table.Free (text.flatMap code) ↔ table.Free text := by
  refine forall₂_congr fun entry listed => not_congr ⟨fun inside => ?_, ?_⟩
  · induction text with
    | nil => exact inside
    | cons first rest inductionHypothesis =>
        rw [List.infix_cons_iff]
        rw [List.flatMap_cons] at inside
        rcases spares.each first with same | ⟨head, tail, written, isForeign, noStart⟩
        · rw [same, List.singleton_append, List.infix_cons_iff] at inside
          refine inside.imp (fun begins => ?_) inductionHypothesis
          rw [token, List.cons_prefix_cons] at begins ⊢
          refine ⟨begins.1, prefix_of_prefix_flatMap (fun character => ?_) begins.2⟩
          refine (spares.each character).imp_right ?_
          rintro ⟨head, tail, written, isForeign, -⟩
          exact ⟨head, tail, written, isForeign.2 entry listed⟩
        · refine .inr (inductionHypothesis (infix_of_infix_append ?_ inside))
          rw [written, List.mem_cons, not_or]
          exact ⟨isForeign.1.symm, noStart⟩
  · rintro ⟨front, back, rfl⟩
    rw [List.flatMap_append, List.flatMap_append, spares.keepsToken entry listed]
    exact List.infix_append _ _ _

end TokenTable

end Sitewright.Text

import Sitewright.Digest.Fingerprint

/-!
Contract: how far a fingerprint determines the name and the content that it is made of.

Name and content are digested as one text, with an underscore between them. Two pairs
can therefore be confused in two ways: their digests may begin alike although different
bytes were digested, or one text with several underscores may have been cut at two of
them. There is no third way.

Owns:
- the digits of a fingerprint, and how many there are;
- `Collide`, different bytes with one fingerprint;
- `Overlap`, two cuts of one text;
- what equal identities and equal fingerprints say about names and contents.

Does not own: how likely digests begin alike.
-/

namespace Sitewright.Digest

/-! ## Bytes of a text -/

theorem bytesOfText_append (left right : String) :
    bytesOfText (left ++ right) = bytesOfText left ++ bytesOfText right := by
  simp [bytesOfText]

/-- A text is determined by its bytes. -/
theorem bytesOfText_injective {left right : String} (same : bytesOfText left = bytesOfText right) :
    left = right := by
  have encoded : left.toList.utf8Encode = right.toList.utf8Encode := by
    unfold List.utf8Encode
    exact congrArg List.toByteArray same
  rw [← String.ofList_toList (s := left), ← String.ofList_toList (s := right),
    ← String.toByteArray_inj, String.toByteArray_ofList, String.toByteArray_ofList, encoded]

/-! ## Identities -/

theorem identity_eq (name contents : String) :
    identity name contents = bytesOfText (name ++ "_" ++ contents) := by
  rw [bytesOfText_append, bytesOfText_append]
  rfl

/-- The second name goes on behind the first one with an underscore and a middle part,
which is the beginning of the first content. Both pairs are cuts of one text. -/
def Overlap (name contents longer rest : String) : Prop :=
  ∃ middle, longer = name ++ "_" ++ middle ∧ contents = middle ++ "_" ++ rest

/-- The longer name of an overlap has an underscore. -/
theorem Overlap.underscore_mem {name contents longer rest : String}
    (overlap : Overlap name contents longer rest) : '_' ∈ longer.toList := by
  obtain ⟨middle, rfl, -⟩ := overlap
  simp

theorem Overlap.identity_eq {name contents longer rest : String}
    (overlap : Overlap name contents longer rest) : identity name contents = identity longer rest := by
  obtain ⟨middle, rfl, rfl⟩ := overlap
  rw [Digest.identity_eq, Digest.identity_eq]
  simp only [String.append_assoc]

/-- Of two ways to cut one text in front of an underscore, the cuts are the same or one
comes first. -/
theorem cut_cases {front back otherFront otherBack : List Char} {mark : Char}
    (same : front ++ mark :: back = otherFront ++ mark :: otherBack) :
    (front = otherFront ∧ back = otherBack) ∨
      (∃ middle, otherFront = front ++ mark :: middle ∧ back = middle ++ mark :: otherBack) ∨
        ∃ middle, front = otherFront ++ mark :: middle ∧ otherBack = middle ++ mark :: back := by
  rcases List.append_eq_append_iff.mp same with ⟨between, longer, rest⟩ | ⟨between, longer, rest⟩
  · cases between with
    | nil =>
        rw [List.append_nil] at longer
        exact Or.inl ⟨longer.symm, (List.cons.inj rest).2⟩
    | cons first middle =>
        obtain ⟨rfl, rfl⟩ := List.cons.inj rest
        exact Or.inr (Or.inl ⟨middle, longer, rfl⟩)
  · cases between with
    | nil =>
        rw [List.append_nil] at longer
        exact Or.inl ⟨longer, ((List.cons.inj rest).2).symm⟩
    | cons first middle =>
        obtain ⟨rfl, rfl⟩ := List.cons.inj rest
        exact Or.inr (Or.inr ⟨middle, longer, rfl⟩)

/-- Pairs that are digested as the same bytes are the same or overlap. -/
theorem eq_or_overlap_of_identity_eq {name contents other others : String}
    (same : identity name contents = identity other others) :
    (name = other ∧ contents = others) ∨ Overlap name contents other others ∨
      Overlap other others name contents := by
  have texts : name ++ "_" ++ contents = other ++ "_" ++ others := by
    rw [Digest.identity_eq, Digest.identity_eq] at same
    exact bytesOfText_injective same
  have characters : name.toList ++ '_' :: contents.toList = other.toList ++ '_' :: others.toList := by
    simpa using congrArg String.toList texts
  -- A cut of the characters is a cut of the texts.
  have overlaps : ∀ {short rest long remains : String} {middle : List Char},
      long.toList = short.toList ++ '_' :: middle → rest.toList = middle ++ '_' :: remains.toList →
        Overlap short rest long remains := by
    intro short rest long remains middle longer split
    refine ⟨String.ofList middle, ?_, ?_⟩
    · apply String.toList_inj.mp
      simpa using longer
    · apply String.toList_inj.mp
      simpa using split
  rcases cut_cases characters with ⟨names, contents⟩ | ⟨middle, longer, split⟩ |
    ⟨middle, longer, split⟩
  · exact Or.inl ⟨String.toList_inj.mp names, String.toList_inj.mp contents⟩
  · exact Or.inr (Or.inl (overlaps longer split))
  · exact Or.inr (Or.inr (overlaps longer split))

/-! ## Digits -/

/-- The digits that fingerprints are written in. -/
def hexDigits : List Char := "0123456789abcdef".toList

theorem digitChar_mem_hexDigits : ∀ value < 16, Nat.digitChar value ∈ hexDigits := by
  decide

theorem mem_hexOfByte {byte : UInt8} {digit : Char} (member : digit ∈ hexOfByte byte) :
    digit ∈ hexDigits := by
  have small : byte.toNat < 256 := byte.toNat_lt
  simp only [hexOfByte, List.mem_cons, List.not_mem_nil, or_false] at member
  rcases member with rfl | rfl
  · exact digitChar_mem_hexDigits _ (by omega)
  · exact digitChar_mem_hexDigits _ (by omega)

theorem mem_fingerprint {name contents : String} {digit : Char}
    (member : digit ∈ (fingerprint name contents).toList) : digit ∈ hexDigits := by
  unfold fingerprint at member
  rw [String.toList_ofList] at member
  obtain ⟨byte, -, inByte⟩ := List.mem_flatMap.mp (List.mem_of_mem_take member)
  exact mem_hexOfByte inByte

theorem length_flatMap_hexOfByte (bytes : List UInt8) :
    (bytes.flatMap hexOfByte).length = 2 * bytes.length := by
  induction bytes with
  | nil => rfl
  | cons byte rest inductionHypothesis =>
      rw [List.flatMap_cons, List.length_append, inductionHypothesis, List.length_cons]
      have digits : (hexOfByte byte).length = 2 := rfl
      omega

/-- A digest has more digits than are kept of it. -/
theorem length_fingerprint (name contents : String) :
    (fingerprint name contents).length = fingerprintLength := by
  unfold fingerprint
  rw [String.length_ofList, List.length_take, length_flatMap_hexOfByte, length_sha256]
  rfl

/-! ## Fingerprints -/

/-- The digits that are kept of a digest. -/
def shortened (message : List UInt8) : List Char :=
  ((sha256 message).flatMap hexOfByte).take fingerprintLength

/-- Different bytes whose shortened digests are the same. -/
def Collide (left right : List UInt8) : Prop :=
  left ≠ right ∧ shortened left = shortened right

/-- The ways in which two different pairs of name and content may have one fingerprint. -/
def Confused (name contents other others : String) : Prop :=
  Overlap name contents other others ∨ Overlap other others name contents ∨
    Collide (identity name contents) (identity other others)

theorem eq_or_confused_of_fingerprint_eq {name contents other others : String}
    (same : fingerprint name contents = fingerprint other others) :
    (name = other ∧ contents = others) ∨ Confused name contents other others := by
  have digits : shortened (identity name contents) = shortened (identity other others) :=
    String.ofList_injective same
  by_cases bytes : identity name contents = identity other others
  · rcases eq_or_overlap_of_identity_eq bytes with equal | overlap | overlap
    · exact Or.inl equal
    · exact Or.inr (Or.inl overlap)
    · exact Or.inr (Or.inr (Or.inl overlap))
  · exact Or.inr (Or.inr (Or.inr ⟨bytes, digits⟩))

/-- Nothing is confused with itself. -/
theorem not_confused_self (name contents : String) : ¬ Confused name contents name contents := by
  have noOverlap : ¬ Overlap name contents name contents := by
    rintro ⟨middle, longer, -⟩
    have lengths := congrArg String.length longer
    simp only [String.length_append] at lengths
    have mark : "_".length = 1 := rfl
    omega
  rintro (overlap | overlap | collide)
  · exact noOverlap overlap
  · exact noOverlap overlap
  · exact collide.1 rfl

/-- Names without underscores are confused by colliding digests only. -/
theorem Confused.collide {name contents other others : String}
    (confused : Confused name contents other others) (bare : '_' ∉ name.toList)
    (otherBare : '_' ∉ other.toList) :
    Collide (identity name contents) (identity other others) := by
  rcases confused with overlap | overlap | collide
  · exact absurd overlap.underscore_mem otherBare
  · exact absurd overlap.underscore_mem bare
  · exact collide

end Sitewright.Digest

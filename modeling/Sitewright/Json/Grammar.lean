/-!
Contract: the concrete syntax of JSON texts.

`JsonSyntax.ofText?` accepts exactly the texts of the grammar, whatever their
nesting, the size of their numbers or the pairing of their surrogate escapes.
What a reader makes of the tree, and what it refuses, is decided afterwards.

Owns:
- blanks, literals, numbers cut into their parts, strings;
- the tree, with members in the order and multiplicity of the text.
-/

namespace Sitewright

/-- A number as written: sign, digits before and after the point, and the sign
and digits of the exponent. A part that is absent has no digits. -/
structure NumberSyntax where
  negative : Bool
  whole : List Char
  fraction : List Char
  exponent : Option (Bool × List Char)
deriving DecidableEq, Repr

/-- A JSON text as a tree. A string is `none` when an escape names half of a
surrogate pair alone. -/
inductive JsonSyntax where
  | null
  | bool (value : Bool)
  | number (parts : NumberSyntax)
  | string (value : Option String)
  | array (items : List JsonSyntax)
  | object (members : List (Option String × JsonSyntax))

namespace JsonSyntax

/-- The four characters that may stand between tokens. -/
def isBlank (character : Char) : Bool :=
  character = ' ' || character = '\n' || character = '\t' || character = '\r'

def skipBlank (input : List Char) : List Char :=
  input.dropWhile isBlank

/-! ## Numbers -/

/-- The digits that `input` begins with, and what follows them. -/
def digits (input : List Char) : List Char × List Char :=
  (input.takeWhile Char.isDigit, input.dropWhile Char.isDigit)

/-- Digits before the point: a zero alone, or digits that begin with no zero. -/
def wholeDigits? (input : List Char) : Option (List Char × List Char) :=
  match digits input with
  | ([], _) => none
  | ('0' :: _ :: _, _) => none
  | found => some found

/-- Digits after a point, if there is a point; then at least one. -/
def fractionDigits? : List Char → Option (List Char × List Char)
  | '.' :: input =>
      match digits input with
      | ([], _) => none
      | found => some found
  | input => some ([], input)

/-- The sign of an exponent, where no sign means a positive one. -/
def exponentSign : List Char → Bool × List Char
  | '+' :: input => (false, input)
  | '-' :: input => (true, input)
  | input => (false, input)

/-- Sign and digits of an exponent, if there is one; then at least one digit. -/
def exponentDigits? (input : List Char) : Option (Option (Bool × List Char) × List Char) :=
  match input with
  | mark :: rest =>
      if mark = 'e' || mark = 'E' then
        let signed := exponentSign rest
        match digits signed.2 with
        | ([], _) => none
        | (found, rest) => some (some (signed.1, found), rest)
      else some (none, input)
  | [] => some (none, [])

/-- A number after its sign. -/
def unsigned? (negative : Bool) (input : List Char) : Option (NumberSyntax × List Char) := do
  let (whole, rest) ← wholeDigits? input
  let (fraction, rest) ← fractionDigits? rest
  let (exponent, rest) ← exponentDigits? rest
  return ({ negative, whole, fraction, exponent }, rest)

/-! ## Strings -/

/-- What one step through a string yields: a character, or the sixteen bits that
an escape names. -/
inductive Unit16 where
  | plain (character : Char)
  | bits (value : Nat)

def hexValue? (character : Char) : Option Nat :=
  if character.isDigit then some (character.toNat - '0'.toNat)
  else if 'a' ≤ character && character ≤ 'f' then some (character.toNat - 'a'.toNat + 10)
  else if 'A' ≤ character && character ≤ 'F' then some (character.toNat - 'A'.toNat + 10)
  else none

/-- The character that a one-letter escape stands for. -/
def escaped? : Char → Option Char
  | '"' => some '"'
  | '\\' => some '\\'
  | '/' => some '/'
  | 'b' => some '\x08'
  | 'f' => some '\x0c'
  | 'n' => some '\n'
  | 'r' => some '\r'
  | 't' => some '\t'
  | _ => none

/-- The units of a string up to its closing quote, and what follows the quote.
Controls below the space must be escaped. -/
def units? : List Char → Option (List Unit16 × List Char)
  | [] => none
  | '"' :: rest => some ([], rest)
  | '\\' :: 'u' :: a :: b :: c :: d :: rest => do
      let a ← hexValue? a
      let b ← hexValue? b
      let c ← hexValue? c
      let d ← hexValue? d
      let (found, rest) ← units? rest
      return (.bits (((a * 16 + b) * 16 + c) * 16 + d) :: found, rest)
  | '\\' :: letter :: rest => do
      let character ← escaped? letter
      let (found, rest) ← units? rest
      return (.plain character :: found, rest)
  | character :: rest => do
      if character.toNat < 0x20 || character = '\\' then none
      let (found, rest) ← units? rest
      return (.plain character :: found, rest)

def isHighSurrogate (bits : Nat) : Bool := 0xD800 ≤ bits && bits < 0xDC00

def isLowSurrogate (bits : Nat) : Bool := 0xDC00 ≤ bits && bits < 0xE000

/-- The characters of the units; `none` if half of a surrogate pair stands alone. -/
def characters? : List Unit16 → Option (List Char)
  | [] => some []
  | .plain character :: rest => (characters? rest).map (character :: ·)
  | .bits high :: .bits low :: rest =>
      if isHighSurrogate high && isLowSurrogate low then
        (characters? rest).map
          (Char.ofNat (0x10000 + (high - 0xD800) * 0x400 + (low - 0xDC00)) :: ·)
      else if isHighSurrogate high || isLowSurrogate high then none
      else (characters? (.bits low :: rest)).map (Char.ofNat high :: ·)
  | .bits bits :: rest =>
      if isHighSurrogate bits || isLowSurrogate bits then none
      else (characters? rest).map (Char.ofNat bits :: ·)

/-- A string after its opening quote. -/
def stringBody? (input : List Char) : Option (Option String × List Char) := do
  let (found, rest) ← units? input
  return ((characters? found).map String.ofList, rest)

/-! ## Values -/

/-- The rest of `input` after `word`. -/
def literal? : (word : List Char) → List Char → Option (List Char)
  | [], input => some input
  | expected :: word, character :: input =>
      if expected = character then literal? word input else none
  | _ :: _, [] => none

mutual

/-- One value, blanks before it skipped. Every call spends one unit of `fuel`. -/
def value? : (fuel : Nat) → List Char → Option (JsonSyntax × List Char)
  | 0, _ => none
  | fuel + 1, input =>
      match skipBlank input with
      | 'n' :: rest => (literal? ['u', 'l', 'l'] rest).map ((JsonSyntax.null, ·))
      | 't' :: rest => (literal? ['r', 'u', 'e'] rest).map ((JsonSyntax.bool true, ·))
      | 'f' :: rest => (literal? ['a', 'l', 's', 'e'] rest).map ((JsonSyntax.bool false, ·))
      | '"' :: rest => (stringBody? rest).map fun found => (.string found.1, found.2)
      | '[' :: rest =>
          match skipBlank rest with
          | ']' :: rest => some (.array [], rest)
          | rest => (items? fuel rest).map fun found => (.array found.1, found.2)
      | '\x7b' :: rest =>
          match skipBlank rest with
          | '\x7d' :: rest => some (.object [], rest)
          | rest => (members? fuel rest).map fun found => (.object found.1, found.2)
      | '-' :: rest => (unsigned? true rest).map fun found => (.number found.1, found.2)
      | rest => (unsigned? false rest).map fun found => (.number found.1, found.2)

/-- Items up to the closing bracket, at least one. -/
def items? : (fuel : Nat) → List Char → Option (List JsonSyntax × List Char)
  | 0, _ => none
  | fuel + 1, input => do
      let (head, rest) ← value? fuel input
      match skipBlank rest with
      | ']' :: rest => return ([head], rest)
      | ',' :: rest =>
          let (tail, rest) ← items? fuel rest
          return (head :: tail, rest)
      | _ => none

/-- Members up to the closing brace, at least one. -/
def members? : (fuel : Nat) → List Char → Option (List (Option String × JsonSyntax) × List Char)
  | 0, _ => none
  | fuel + 1, input =>
      match skipBlank input with
      | '"' :: rest => do
          let (key, rest) ← stringBody? rest
          match skipBlank rest with
          | ':' :: rest =>
              let (head, rest) ← value? fuel rest
              match skipBlank rest with
              | '\x7d' :: rest => return ([(key, head)], rest)
              | ',' :: rest =>
                  let (tail, rest) ← members? fuel rest
                  return ((key, head) :: tail, rest)
              | _ => none
          | _ => none
      | _ => none

end

/-- The tree of a text that holds one value and blanks. Two calls are enough for
each character. -/
def ofText? (text : String) : Option JsonSyntax :=
  let input := text.toList
  match value? (2 * input.length + 2) input with
  | some (tree, rest) => if (skipBlank rest).isEmpty then some tree else none
  | none => none

end JsonSyntax

end Sitewright

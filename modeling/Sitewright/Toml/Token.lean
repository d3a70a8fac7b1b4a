import Sitewright.Number.Binary64

/-!
Contract: the words of a configuration file: blanks, keys, strings, numbers, and
dates.

Each reader takes the characters that are left and gives what it read with the
characters after it, or nothing.
-/

namespace Sitewright.Toml

open Number

/-! ## Characters -/

def isSpace (character : Char) : Bool :=
  character = ' ' || character = '\t'

/-- A character that may stand as it is in comments and strings: a tab, or
neither a control nor the delete character. -/
def isPlain (character : Char) : Bool :=
  character = '\t' || (0x20 ≤ character.toNat && character.toNat ≠ 0x7f)

/-- A character of a key without quotes. -/
def isBareKeyChar (character : Char) : Bool :=
  character.isAlphanum || character = '_' || character = '-'

def skipSpace (input : List Char) : List Char :=
  input.dropWhile isSpace

/-- The end of a line: a line feed, with or without a carriage return before it. -/
def lineEnd? : List Char → Option (List Char)
  | '\n' :: rest => some rest
  | '\r' :: '\n' :: rest => some rest
  | _ => none

/-- The end of a line or of the file. -/
def lineOrFileEnd? : List Char → Option (List Char)
  | [] => some []
  | input => lineEnd? input

/-- What follows a comment, if there is one. -/
def skipComment : List Char → List Char
  | '#' :: rest => rest.dropWhile isPlain
  | input => input

/-- What follows the rest of a line that holds nothing but blanks and a comment. -/
def restOfLine? (input : List Char) : Option (List Char) :=
  lineOrFileEnd? (skipComment (skipSpace input))

/-- What follows blanks, comments, and ends of lines. -/
def skipLines : (fuel : Nat) → List Char → List Char
  | 0, input => input
  | fuel + 1, input =>
      let rest := skipComment (skipSpace input)
      match lineEnd? rest with
      | some next => skipLines fuel next
      | none => rest

/-! ## Strings -/

def hexValue? (character : Char) : Option Nat :=
  if character.isDigit then some (character.toNat - '0'.toNat)
  else if 'a' ≤ character && character ≤ 'f' then some (character.toNat - 'a'.toNat + 10)
  else if 'A' ≤ character && character ≤ 'F' then some (character.toNat - 'A'.toNat + 10)
  else none

/-- The character whose code is written with the given hexadecimal digits. -/
def coded? (digits : List Char) : Option Char := do
  let values ← digits.mapM hexValue?
  let code := values.foldl (fun code value => code * 16 + value) 0
  if code.isValidChar then some (Char.ofNat code) else none

/-- The character that a one-letter escape stands for. -/
def escaped? : Char → Option Char
  | 'b' => some '\x08'
  | 't' => some '\t'
  | 'n' => some '\n'
  | 'f' => some '\x0c'
  | 'r' => some '\r'
  | '"' => some '"'
  | '\\' => some '\\'
  | _ => none

/-- A string with escapes on one line, after its opening quote. -/
def basicString? : List Char → Option (List Char × List Char)
  | [] => none
  | '"' :: rest => some ([], rest)
  | '\\' :: 'u' :: a :: b :: c :: d :: rest => do
      let character ← coded? [a, b, c, d]
      let (text, rest) ← basicString? rest
      return (character :: text, rest)
  | '\\' :: 'U' :: a :: b :: c :: d :: e :: f :: g :: h :: rest => do
      let character ← coded? [a, b, c, d, e, f, g, h]
      let (text, rest) ← basicString? rest
      return (character :: text, rest)
  | '\\' :: letter :: rest => do
      let character ← escaped? letter
      let (text, rest) ← basicString? rest
      return (character :: text, rest)
  | character :: rest =>
      if isPlain character && character ≠ '\\' then do
        let (text, rest) ← basicString? rest
        return (character :: text, rest)
      else none

/-- A string without escapes on one line, after its opening quote. -/
def literalString? : List Char → Option (List Char × List Char)
  | [] => none
  | '\'' :: rest => some ([], rest)
  | character :: rest =>
      if isPlain character then do
        let (text, rest) ← literalString? rest
        return (character :: text, rest)
      else none

/-- Up to two quotes that belong to the text right after three closing ones. -/
def surplusQuotes (quote : Char) (input : List Char) : List Char × List Char :=
  let quotes := (input.take 2).takeWhile fun character => character = quote
  (quotes, input.drop quotes.length)

/-- Whether only blanks are left on the line. -/
def isLineRest (input : List Char) : Bool :=
  (lineEnd? (skipSpace input)).isSome

/-- A string with escapes over several lines. While `skipping`, blanks and ends of
lines behind a backslash at the end of a line are passed over. -/
def basicLines? : (skipping : Bool) → List Char → Option (List Char × List Char)
  | _, [] => none
  | _, '"' :: '"' :: '"' :: rest => some (surplusQuotes '"' rest)
  | skipping, '\n' :: rest =>
      if skipping then basicLines? true rest
      else do
        let (text, rest) ← basicLines? false rest
        return ('\n' :: text, rest)
  | skipping, '\r' :: '\n' :: rest =>
      if skipping then basicLines? true rest
      else do
        let (text, rest) ← basicLines? false rest
        return ('\n' :: text, rest)
  | _, '\\' :: 'u' :: a :: b :: c :: d :: rest => do
      let character ← coded? [a, b, c, d]
      let (text, rest) ← basicLines? false rest
      return (character :: text, rest)
  | _, '\\' :: 'U' :: a :: b :: c :: d :: e :: f :: g :: h :: rest => do
      let character ← coded? [a, b, c, d, e, f, g, h]
      let (text, rest) ← basicLines? false rest
      return (character :: text, rest)
  | _, '\\' :: letter :: rest =>
      if isLineRest (letter :: rest) then
        if letter = '\r' || letter = '\n' || isSpace letter then basicLines? true rest else none
      else do
        let character ← escaped? letter
        let (text, rest) ← basicLines? false rest
        return (character :: text, rest)
  | skipping, character :: rest =>
      if skipping && isSpace character then basicLines? true rest
      else if isPlain character && character ≠ '\\' then do
        let (text, rest) ← basicLines? false rest
        return (character :: text, rest)
      else none

/-- A string without escapes over several lines. -/
def literalLines? : List Char → Option (List Char × List Char)
  | [] => none
  | '\'' :: '\'' :: '\'' :: rest => some (surplusQuotes '\'' rest)
  | '\n' :: rest => do
      let (text, rest) ← literalLines? rest
      return ('\n' :: text, rest)
  | '\r' :: '\n' :: rest => do
      let (text, rest) ← literalLines? rest
      return ('\n' :: text, rest)
  | character :: rest =>
      if isPlain character then do
        let (text, rest) ← literalLines? rest
        return (character :: text, rest)
      else none

/-- The input after one end of a line, if it begins with one. -/
def dropLineEnd (input : List Char) : List Char :=
  (lineEnd? input).getD input

/-- A string of any kind. An end of a line right behind three opening quotes does
not belong to it. -/
def string? (input : List Char) : Option (String × List Char) :=
  let read := match input with
    | '"' :: '"' :: '"' :: rest => basicLines? false (dropLineEnd rest)
    | '"' :: rest => basicString? rest
    | '\'' :: '\'' :: '\'' :: rest => literalLines? (dropLineEnd rest)
    | '\'' :: rest => literalString? rest
    | _ => none
  read.map fun found => (String.ofList found.1, found.2)

/-! ## Keys -/

/-- One key: bare, or a string on one line. -/
def simpleKey? (input : List Char) : Option (String × List Char) :=
  match input with
  | '"' :: rest => (basicString? rest).map fun found => (String.ofList found.1, found.2)
  | '\'' :: rest => (literalString? rest).map fun found => (String.ofList found.1, found.2)
  | _ =>
      let bare := input.takeWhile isBareKeyChar
      if bare.isEmpty then none
      else some (String.ofList bare, input.drop bare.length)

/-- Keys with points between them, blanks around each. -/
def dottedKey? : (fuel : Nat) → List Char → Option (List String × List Char)
  | 0, _ => none
  | fuel + 1, input => do
      let (first, rest) ← simpleKey? (skipSpace input)
      match skipSpace rest with
      | '.' :: rest =>
          let (others, rest) ← dottedKey? fuel rest
          return (first :: others, rest)
      | rest => return ([first], rest)

/-! ## Numbers -/

/-- Digits of one class, single underscores allowed between two of them. -/
def digitGroup (isDigit : Char → Bool) : List Char → List Char × List Char
  | '_' :: digit :: rest =>
      if isDigit digit then
        let found := digitGroup isDigit rest
        (digit :: found.1, found.2)
      else ([], '_' :: digit :: rest)
  | digit :: rest =>
      if isDigit digit then
        let found := digitGroup isDigit rest
        (digit :: found.1, found.2)
      else ([], digit :: rest)
  | [] => ([], [])

/-- Digits that begin with no underscore, at least one. -/
def digits? (isDigit : Char → Bool) (input : List Char) : Option (List Char × List Char) :=
  match input with
  | first :: _ => if isDigit first then some (digitGroup isDigit input) else none
  | [] => none

/-- An optional sign; true for a minus. -/
def sign : List Char → Bool × List Char
  | '+' :: rest => (false, rest)
  | '-' :: rest => (true, rest)
  | input => (false, input)

/-- Decimal digits that begin with a zero only if it is alone. -/
def decimalDigits? (input : List Char) : Option (List Char × List Char) :=
  match input with
  | '0' :: rest => some (['0'], rest)
  | _ => digits? Char.isDigit input

/-- The value of digits in a base up to sixteen. -/
def digitsValue (base : Nat) (digits : List Char) : Nat :=
  digits.foldl (fun value digit => value * base + (hexValue? digit).getD 0) 0

/-- A whole number of sixty-four bits with a sign. -/
def inRange? (value : Int) : Option Int :=
  let limit : Int := twoTo 63
  if -limit ≤ value && value < limit then some value else none

/-- A whole number in another base, after the letter of the base. -/
def based? (base : Nat) (isDigit : Char → Bool) (input : List Char) :
    Option (Int × List Char) := do
  let (digits, rest) ← digits? isDigit input
  let value ← inRange? (digitsValue base digits)
  return (value, rest)

def isHexDigit (character : Char) : Bool := (hexValue? character).isSome

def isOctalDigit (character : Char) : Bool := '0' ≤ character && character ≤ '7'

def isBinaryDigit (character : Char) : Bool := character = '0' || character = '1'

def whole? (input : List Char) : Option (Int × List Char) :=
  match input with
  | '0' :: 'x' :: rest => based? 16 isHexDigit rest
  | '0' :: 'o' :: rest => based? 8 isOctalDigit rest
  | '0' :: 'b' :: rest => based? 2 isBinaryDigit rest
  | _ => do
      let signed := sign input
      let (digits, rest) ← decimalDigits? signed.2
      let magnitude : Int := digitsValue 10 digits
      let value ← inRange? (if signed.1 then -magnitude else magnitude)
      return (value, rest)

/-- The digits of a fraction, if there is one; `none` if only its point is there. -/
def fraction? : List Char → Option (List Char × List Char)
  | '.' :: rest => digits? Char.isDigit rest
  | input => some ([], input)

/-- The exponent, if there is one; `none` if only its letter is there. -/
def exponent? (input : List Char) : Option (Int × List Char) :=
  match input with
  | letter :: rest =>
      if letter = 'e' || letter = 'E' then do
        let signed := sign rest
        let (digits, rest) ← digits? Char.isDigit signed.2
        let magnitude : Int := digitsValue 10 digits
        return (if signed.1 then -magnitude else magnitude, rest)
      else some (0, input)
  | [] => some (0, [])

/-- Decimal places beyond which every number is infinite or zero. -/
def farPower : Int := 400

/-- The number nearest to `digits * 10 ^ power`. -/
def nearest (negative : Bool) (digits : List Char) (power : Int) : Binary64 :=
  let value := digitsValue 10 digits
  let size : Int := (Nat.toDigits 10 value).length + power
  if value = 0 || size < -farPower then .finite negative 0 Binary64.leastExponent
  else if farPower < size then .infinite negative
  else .ofRatio negative (value * tenTo power.toNat) (tenTo (-power).toNat)

/-- A floating-point number with a fraction or an exponent. One that is too great
is refused, one that is too small is not. -/
def decimalFloat? (input : List Char) : Option (Binary64 × List Char) := do
  let signed := sign input
  let (whole, afterWhole) ← decimalDigits? signed.2
  let (fraction, afterFraction) ← fraction? afterWhole
  let (exponent, rest) ← exponent? afterFraction
  if rest.length = afterWhole.length then none
  else
    let value := nearest signed.1 (whole ++ fraction) (exponent - fraction.length)
    if value = .infinite false then none else some (value, rest)

def specialFloat? (input : List Char) : Option (Binary64 × List Char) :=
  let signed := sign input
  match signed.2 with
  | 'i' :: 'n' :: 'f' :: rest => some (.infinite signed.1, rest)
  | 'n' :: 'a' :: 'n' :: rest => some (.nan, rest)
  | _ => none

def float? (input : List Char) : Option (Binary64 × List Char) :=
  (decimalFloat? input).or (specialFloat? input)

/-! ## Dates and times -/

/-- A number of exactly `count` digits between two bounds. -/
def field? (count least greatest : Nat) (input : List Char) : Option (Nat × List Char) :=
  let digits := input.take count
  let value := digitsValue 10 digits
  if digits.length = count && digits.all Char.isDigit && least ≤ value && value ≤ greatest then
    some (value, input.drop count)
  else none

def isLeapYear (year : Nat) : Bool :=
  year % 4 = 0 && (year % 100 ≠ 0 || year % 400 = 0)

def daysInMonth (year month : Nat) : Nat :=
  if month = 2 then if isLeapYear year then 29 else 28
  else if month = 4 || month = 6 || month = 9 || month = 11 then 30
  else 31

/-- What follows `mark`. -/
def after? (mark : Char) : List Char → Option (List Char)
  | [] => none
  | first :: rest => if first = mark then some rest else none

/-- What follows a date. -/
def date? (input : List Char) : Option (List Char) := do
  let (year, rest) ← field? 4 0 9999 input
  let rest ← after? '-' rest
  let (month, rest) ← field? 2 1 12 rest
  let rest ← after? '-' rest
  let (_, rest) ← field? 2 1 (daysInMonth year month) rest
  return rest

/-- What follows a fraction of a second, if there is one. -/
def skipSecondFraction : List Char → List Char
  | '.' :: rest =>
      let digits := rest.takeWhile Char.isDigit
      if digits.isEmpty then '.' :: rest else rest.drop digits.length
  | input => input

/-- What follows a time of day. A minute may have a sixty-first second. -/
def time? (input : List Char) : Option (List Char) := do
  let (_, rest) ← field? 2 0 23 input
  let rest ← after? ':' rest
  let (_, rest) ← field? 2 0 59 rest
  let rest ← after? ':' rest
  let (_, rest) ← field? 2 0 60 rest
  return skipSecondFraction rest

/-- What follows an offset, if there is one; `none` if only its sign is there. -/
def offset? : List Char → Option (List Char)
  | [] => some []
  | first :: rest =>
      if first = 'Z' || first = 'z' then some rest
      else if first = '+' || first = '-' then do
        let (_, rest) ← field? 2 0 23 rest
        let rest ← after? ':' rest
        let (_, rest) ← field? 2 0 59 rest
        return rest
      else some (first :: rest)

/-- What follows a time behind a date, if there is one. -/
def timeAfterDate? (input : List Char) : Option (List Char) :=
  match input with
  | [] => some []
  | first :: rest =>
      if first = 'T' || first = 't' || first = ' ' then
        match time? rest with
        | some rest => offset? rest
        | none => some input
      else some input

/-- A date, a date and a time, or a time. -/
def moment? (input : List Char) : Option (String × List Char) := do
  let rest ←
    match date? input with
    | some rest => timeAfterDate? rest
    | none => time? input
  return (String.ofList (input.take (input.length - rest.length)), rest)

end Sitewright.Toml

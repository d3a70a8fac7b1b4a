import Sitewright.Proofs.Text.Token
import Sitewright.Template.Block

/-!
Contract: how the template engine reads the calls inside an action.

A call is a function followed by its arguments. An argument is a name, a literal or
a call in parentheses, and fields may follow a closing parenthesis directly. Nothing
else groups: a call without parentheses inside another one is not an argument.

Owns:
- turning quote tokens back into quotes, as the loader of the templates does;
- the words, literals and parentheses of a pipeline, one character at a time;
- the calls that a pipeline is made of, one token at a time, on a stack of open calls;
- `Lexes` and `Parses`, which tell what a piece of text adds to both machines.

Does not own: which function takes how many arguments, and what a call results in.
-/

namespace Sitewright.Template.Call

/-! ## Quotes -/

/-- The text with a quote in place of every quote token. Of the token that was seen
last, `skipped` characters are still to be passed over. -/
def restoreQuotes : (skipped : Nat) → List Char → List Char
  | _, [] => []
  | skipped + 1, _ :: rest => restoreQuotes skipped rest
  | 0, first :: rest =>
      if quoteToken.toList.isPrefixOf (first :: rest) then
        '"' :: restoreQuotes (quoteToken.toList.length - 1) rest
      else first :: restoreQuotes 0 rest

/-- The text holds no quote token. -/
def TokenFree (characters : List Char) : Prop :=
  ¬ quoteToken.toList <:+: characters

instance : DecidablePred TokenFree := fun characters =>
  inferInstanceAs (Decidable (¬ quoteToken.toList <:+: characters))

/-- No quote token that begins before the text can reach into it. -/
def Apart (text : List Char) : Prop :=
  ∀ first ∈ text.head?, first ∉ quoteToken.toList.tail

/-- The one token of the loader. -/
def quoteTable : Text.TokenTable where
  start := '@'
  entries := [('"', quoteToken.toList.tail)]
  filled := by decide
  startsOnce := by decide
  prefixFree := by decide

theorem quote_mem_quoteTable : ('"', quoteToken.toList.tail) ∈ quoteTable.entries :=
  List.mem_singleton_self _

theorem token_quoteTable : quoteTable.token ('"', quoteToken.toList.tail) = quoteToken.toList := by
  decide

theorem begins_quoteTable_iff {text : List Char} :
    quoteTable.Begins text ↔ quoteToken.toList <+: text := by
  rw [← token_quoteTable]
  constructor
  · rintro ⟨entry, listed, begins⟩
    obtain rfl := List.mem_singleton.mp listed
    exact begins
  · intro begins
    exact ⟨_, quote_mem_quoteTable, begins⟩

theorem free_quoteTable_iff {text : List Char} : quoteTable.Free text ↔ TokenFree text := by
  rw [TokenFree, ← token_quoteTable]
  exact List.forall_mem_singleton

theorem Apart.inTable {text : List Char} (apart : Apart text) : quoteTable.Apart text := by
  intro first isFirst entry listed
  obtain rfl := List.mem_singleton.mp listed
  exact apart first isFirst

/-- The loader reads the token as any reader of tokens does. -/
theorem restoreQuotes_eq_read (skipped : Nat) (text : List Char) :
    restoreQuotes skipped text = quoteTable.read skipped text := by
  induction text generalizing skipped with
  | nil => cases skipped <;> rfl
  | cons first rest inductionHypothesis =>
      cases skipped with
      | succ skipped =>
          rw [restoreQuotes, Text.TokenTable.read]
          exact inductionHypothesis skipped
      | zero =>
          by_cases begins : quoteToken.toList <+: first :: rest
          · have found : quoteTable.entryAt? (first :: rest) =
                some ('"', quoteToken.toList.tail) := by
              obtain ⟨behind, whole⟩ := begins
              rw [← whole, ← token_quoteTable]
              exact Text.TokenTable.entryAt?_token quote_mem_quoteTable behind
            rw [restoreQuotes, if_pos (List.isPrefixOf_iff_prefix.mpr begins),
              Text.TokenTable.read, found, inductionHypothesis]
            rfl
          · have none : quoteTable.entryAt? (first :: rest) = none :=
              Text.TokenTable.entryAt?_eq_none (begins_quoteTable_iff.not.mpr begins)
            rw [restoreQuotes, if_neg (List.isPrefixOf_iff_prefix.not.mpr begins),
              Text.TokenTable.read, none, inductionHypothesis]

theorem restoreQuotes_token (rest : List Char) :
    restoreQuotes 0 (quoteToken.toList ++ rest) = '"' :: restoreQuotes 0 rest := by
  rw [restoreQuotes_eq_read, restoreQuotes_eq_read, ← token_quoteTable]
  exact Text.TokenTable.read_token quote_mem_quoteTable rest

/-- Where no token begins, a character stays as it is. -/
theorem restoreQuotes_other {first : Char} {rest : List Char}
    (noToken : ¬ quoteToken.toList <+: first :: rest) :
    restoreQuotes 0 (first :: rest) = first :: restoreQuotes 0 rest := by
  rw [restoreQuotes_eq_read, restoreQuotes_eq_read]
  exact Text.TokenTable.read_other (begins_quoteTable_iff.not.mpr noToken)

/-- Only the first character of the token can begin one. -/
theorem restoreQuotes_cons {first : Char} (different : first ≠ '@') (rest : List Char) :
    restoreQuotes 0 (first :: rest) = first :: restoreQuotes 0 rest := by
  rw [restoreQuotes_eq_read, restoreQuotes_eq_read]
  exact Text.TokenTable.read_other (Text.TokenTable.not_begins_of_ne different rest)

/-- A text is taken apart from the front: a token is passed as a whole, anything else
character by character. -/
@[elab_as_elim]
theorem token_induction {motive : List Char → Prop} (nil : motive [])
    (token : ∀ rest, motive rest → motive (quoteToken.toList ++ rest))
    (other : ∀ first rest, ¬ quoteToken.toList <+: first :: rest → motive rest →
      motive (first :: rest)) (text : List Char) : motive text := by
  induction text using quoteTable.read_induction with
  | nil => exact nil
  | token entry listed rest inductionHypothesis =>
      obtain rfl := List.mem_singleton.mp listed
      rw [token_quoteTable]
      exact token rest inductionHypothesis
  | other first rest noToken inductionHypothesis =>
      exact other first rest (begins_quoteTable_iff.not.mp noToken) inductionHypothesis

/-- Two texts are restored one by one, unless a token lies across the border. -/
theorem restoreQuotes_append_of_apart (front : List Char) {back : List Char}
    (apart : Apart back) :
    restoreQuotes 0 (front ++ back) = restoreQuotes 0 front ++ restoreQuotes 0 back := by
  simp only [restoreQuotes_eq_read]
  exact Text.TokenTable.read_append_of_apart front apart.inTable

/-- Exactly the texts without the token stay as they are. -/
theorem restoreQuotes_eq_self_iff {text : List Char} :
    restoreQuotes 0 text = text ↔ TokenFree text := by
  rw [restoreQuotes_eq_read, Text.TokenTable.read_eq_self_iff, free_quoteTable_iff]

/-- A text without the token stays as it is. -/
theorem restoreQuotes_append {front back : List Char} (free : TokenFree front)
    (apart : Apart back) :
    restoreQuotes 0 (front ++ back) = front ++ restoreQuotes 0 back := by
  rw [restoreQuotes_append_of_apart front apart, restoreQuotes_eq_self_iff.mpr free]

/-! ## Words -/

/-- The characters that end a word. -/
def isSeparator (character : Char) : Bool :=
  character.isWhitespace || character = '(' || character = ')' || character = '"'

inductive Token where
  | opening
  /-- A closing parenthesis and the fields directly behind it. -/
  | closing (fields : List Char)
  | word (characters : List Char)
  /-- What stands between two quotes, taken as it is. -/
  | string (content : List Char)
deriving DecidableEq

/-- The token with one more character, if it can have one. Behind a closing
parenthesis only fields can begin. -/
def Token.extend? (character : Char) : Token → Option Token
  | .word characters => some (.word (characters ++ [character]))
  | .closing [] => if character = '.' then some (.closing ['.']) else none
  | .closing fields => some (.closing (fields ++ [character]))
  | .opening | .string _ => none

/-- What a scanner is in the middle of. -/
inductive Pending where
  | nothing
  /-- A token that the next separator ends. -/
  | token (current : Token)
  | quoted (content : List Char)

structure Scanner where
  tokens : List Token
  pending : Pending

namespace Scanner

def start : Scanner := ⟨[], .nothing⟩

def step (scanner : Scanner) (character : Char) : Option Scanner :=
  match scanner.pending with
  | .nothing =>
      if character.isWhitespace then some scanner
      else if character = '(' then some ⟨scanner.tokens ++ [.opening], .nothing⟩
      else if character = ')' then some ⟨scanner.tokens, .token (.closing [])⟩
      else if character = '"' then some ⟨scanner.tokens, .quoted []⟩
      else some ⟨scanner.tokens, .token (.word [character])⟩
  | .token current =>
      if character.isWhitespace then some ⟨scanner.tokens ++ [current], .nothing⟩
      else if character = ')' then
        some ⟨scanner.tokens ++ [current], .token (.closing [])⟩
      else if isSeparator character then none
      else (current.extend? character).map fun longer => ⟨scanner.tokens, .token longer⟩
  | .quoted content =>
      if character = '"' then some ⟨scanner.tokens, .token (.string content)⟩
      else some ⟨scanner.tokens, .quoted (content ++ [character])⟩

def finish (scanner : Scanner) : Option (List Token) :=
  match scanner.pending with
  | .nothing => some scanner.tokens
  | .token current => some (scanner.tokens ++ [current])
  | .quoted _ => none

end Scanner

/-! ## Calls -/

/-- What a pipeline means. Numbers are told apart by how they are written. -/
inductive Term where
  | name (text : List Char)
  | number (printed : List Char)
  | bool (value : Bool)
  | string (content : List Char)
  /-- A call, and the fields taken of its result. -/
  | call (function : List Char) (arguments : List Term) (fields : List Char)

/-- A member of a call: the function in front, or something behind it. -/
inductive Item where
  | function (name : List Char)
  | argument (term : Term)

def Item.term? : Item → Option Term
  | .function _ => none
  | .argument term => some term

/-- What a word is, told by how it begins. -/
def Item.ofWord (word : List Char) : Option Item :=
  if word = "true".toList then some (.argument (.bool true))
  else if word = "false".toList then some (.argument (.bool false))
  else
    match word with
    | [] => none
    | first :: _ =>
        if first = '.' || first = '$' then some (.argument (.name word))
        else if first.isDigit || first = '-' then some (.argument (.number word))
        else if first.isAlpha then some (.function word)
        else none

/-- A word that is neither of the two truth values is told by its first character. -/
theorem Item.ofWord_cons {first : Char} (notTrue : first ≠ 't') (notFalse : first ≠ 'f')
    (rest : List Char) :
    Item.ofWord (first :: rest) =
      if first = '.' || first = '$' then some (.argument (.name (first :: rest)))
      else if first.isDigit || first = '-' then some (.argument (.number (first :: rest)))
      else if first.isAlpha then some (.function (first :: rest))
      else none := by
  have noTruth : first :: rest ≠ "true".toList := fun same => notTrue (List.cons.inj same).1
  have noFalsehood : first :: rest ≠ "false".toList :=
    fun same => notFalse (List.cons.inj same).1
  unfold Item.ofWord
  rw [if_neg noTruth, if_neg noFalsehood]

/-- A call is a function and arguments only. -/
def call? (fields : List Char) : List Item → Option Term
  | .function name :: rest =>
      (rest.mapM Item.term?).map fun arguments => .call name arguments fields
  | _ => none

/-- A token taken into the calls that are open, the innermost first. -/
def push : List (List Item) → Token → Option (List (List Item))
  | calls, .opening => some ([] :: calls)
  | inner :: outer :: rest, .closing fields =>
      (call? fields inner).map fun term => (outer ++ [.argument term]) :: rest
  | inner :: rest, .word characters =>
      (Item.ofWord characters).map fun item => (inner ++ [item]) :: rest
  | inner :: rest, .string content => some ((inner ++ [.argument (.string content)]) :: rest)
  | _, _ => none

/-- What stands side by side in a text, outside of all parentheses. -/
def items? (text : String) : Option (List Item) := do
  let scanner ← (restoreQuotes 0 text.toList).foldlM Scanner.step .start
  let tokens ← scanner.finish
  match ← tokens.foldlM push [[]] with
  | [items] => some items
  | _ => none

/-- The argument that a text is, if it is exactly one. -/
def readArgument? (text : String) : Option Term :=
  match items? text with
  | some [.argument term] => some term
  | _ => none

/-- A pipeline is one argument, or a call that has no parentheses. -/
def pipeline? : List Item → Option Term
  | [.argument term] => some term
  | items => call? [] items

def readPipeline? (text : String) : Option Term :=
  (items? text).bind pipeline?

/-! ## Pieces of a pipeline -/

/-- Wherever the text stands, the scanner finds the tokens of `front` in it and is
left with `last`, which what comes next may still continue. -/
def Lexes (text : List Char) (front : List Token) (last : Token) : Prop :=
  ∃ restored,
    (∀ back, Apart back →
      restoreQuotes 0 (text ++ back) = restored ++ restoreQuotes 0 back) ∧
    ∀ seen, restored.foldlM Scanner.step ⟨seen, .nothing⟩ = some ⟨seen ++ front, .token last⟩

/-- Whatever calls are open, the tokens add the items to the innermost one, or they
cannot be taken. -/
def Parses (tokens : List Token) (items : Option (List Item)) : Prop :=
  ∀ inner outer,
    tokens.foldlM push (inner :: outer) = items.map fun read => (inner ++ read) :: outer

/-- The text adds the items to the call that it stands in. -/
def Reads (text : String) (items : Option (List Item)) : Prop :=
  ∃ front last, Lexes text.toList front last ∧ Parses (front ++ [last]) items

/-- A word that the scanner reads as one token. -/
structure IsWord (characters : List Char) : Prop where
  tokenFree : TokenFree characters
  whole : ∀ character ∈ characters, isSeparator character = false

instance : DecidablePred IsWord := fun characters =>
  have := List.decidableBAll (fun character => isSeparator character = false) characters
  decidable_of_iff
    (TokenFree characters ∧ ∀ character ∈ characters, isSeparator character = false)
    ⟨fun both => ⟨both.1, both.2⟩, fun isWord => ⟨isWord.tokenFree, isWord.whole⟩⟩

theorem apart_nil : Apart [] := by
  intro first member
  cases member

theorem apart_cons {first : Char} (outside : first ∉ quoteToken.toList.tail)
    (rest : List Char) : Apart (first :: rest) := by
  intro head member
  rw [← Option.some.inj member]
  exact outside

theorem Reads.items? {text : String} {items : Option (List Item)} (reads : Reads text items) :
    items? text = items := by
  obtain ⟨front, last, ⟨restored, restores, scans⟩, parses⟩ := reads
  have restoredText : restoreQuotes 0 text.toList = restored := by
    have atEnd := restores [] apart_nil
    rw [List.append_nil] at atEnd
    rw [atEnd, restoreQuotes, List.append_nil]
  have scanned := scans []
  rw [List.nil_append] at scanned
  have parsed := parses [] []
  simp only [Call.items?, restoredText, Scanner.start, scanned, Scanner.finish, parsed,
    Option.bind_eq_bind, Option.bind_some]
  cases items with
  | none => rfl
  | some read => simp

/-! ## Tokens -/

theorem Parses.append {front back : List Token} {first second : Option (List Item)}
    (frontParses : Parses front first) (backParses : Parses back second) :
    Parses (front ++ back) (first.bind fun left => second.map fun right => left ++ right) := by
  intro inner outer
  rw [List.foldlM_append, frontParses inner outer]
  cases first with
  | none => rfl
  | some left =>
      simp only [Option.map_some, Option.bind_eq_bind, Option.bind_some,
        backParses (inner ++ left) outer, Option.map_map]
      congr 1
      funext right
      simp

theorem parses_word (characters : List Char) :
    Parses [.word characters] ((Item.ofWord characters).map fun item => [item]) := by
  intro inner outer
  cases known : Item.ofWord characters <;> simp [push, known]

theorem parses_string (content : List Char) :
    Parses [.string content] (some [.argument (.string content)]) := by
  intro inner outer
  simp [push]

/-- Parentheses make one argument of what is a call, and nothing of what is not. -/
theorem Parses.parenthesized {tokens : List Token} {items : Option (List Item)}
    (parses : Parses tokens items) (fields : List Char) :
    Parses (.opening :: tokens ++ [.closing fields])
      ((items.bind (call? fields)).map fun term => [.argument term]) := by
  intro inner outer
  have opened : push (inner :: outer) .opening = some ([] :: inner :: outer) := rfl
  rw [List.cons_append, List.foldlM_cons, opened, Option.bind_eq_bind, Option.bind_some,
    List.foldlM_append, parses [] (inner :: outer)]
  cases items with
  | none => rfl
  | some read => cases known : call? fields read <;> simp [push, known]

/-! ## Characters -/

/-- The token with more characters at its end. -/
def Token.extended (token : Token) (more : List Char) : Token :=
  match token with
  | .word characters => .word (characters ++ more)
  | .closing fields => .closing (fields ++ more)
  | other => other

/-- Whether any character of a word continues the token. -/
def Token.IsOpen : Token → Prop
  | .word _ => True
  | .closing fields => fields ≠ []
  | _ => False

/-- Whether the token goes on when a field follows. -/
def Token.TakesFields : Token → Prop
  | .word _ | .closing _ => True
  | _ => False

theorem Token.extended_extended (token : Token) (first second : List Char) :
    (token.extended first).extended second = token.extended (first ++ second) := by
  cases token <;> simp [Token.extended]

theorem Token.TakesFields.extended {token : Token} (takes : token.TakesFields)
    (more : List Char) : (token.extended more).TakesFields := by
  cases token <;> trivial

theorem Token.IsOpen.extend? {token : Token} (isOpen : token.IsOpen) (character : Char) :
    token.extend? character = some (token.extended [character]) := by
  cases token with
  | word characters => rfl
  | closing fields =>
      cases fields with
      | nil => exact absurd rfl isOpen
      | cons first rest => rfl
  | opening => cases isOpen
  | string content => cases isOpen

theorem Token.IsOpen.extended {token : Token} (isOpen : token.IsOpen) (more : List Char) :
    (token.extended more).IsOpen := by
  cases token with
  | word characters => trivial
  | closing fields =>
      intro empty
      exact isOpen (List.append_eq_nil_iff.mp empty).1
  | opening => cases isOpen
  | string content => cases isOpen

theorem not_isWhitespace_of_not_isSeparator {character : Char}
    (inWord : isSeparator character = false) : character.isWhitespace = false := by
  simp_all [isSeparator]

theorem step_extend {character : Char} (inWord : isSeparator character = false)
    {current longer : Token} (longerToken : current.extend? character = some longer)
    (seen : List Token) :
    Scanner.step ⟨seen, .token current⟩ character = some ⟨seen, .token longer⟩ := by
  have notBlank := not_isWhitespace_of_not_isSeparator inWord
  have notClosing : character ≠ ')' := by
    rintro rfl
    exact absurd inWord (by decide)
  simp [Scanner.step, notBlank, notClosing, inWord, longerToken]

/-- Characters of a word all go to the token that is being read. -/
theorem foldlM_step_word {more : List Char}
    (whole : ∀ character ∈ more, isSeparator character = false) {current : Token}
    (isOpen : current.IsOpen) (seen : List Token) :
    more.foldlM Scanner.step ⟨seen, .token current⟩ =
      some ⟨seen, .token (current.extended more)⟩ := by
  induction more generalizing current with
  | nil =>
      cases current <;> simp [Token.extended]
  | cons first rest inductionHypothesis =>
      have longerToken := isOpen.extend? first
      have restRead := inductionHypothesis
        (fun character member => whole character (List.mem_cons_of_mem _ member))
        (isOpen.extended [first])
      rw [List.foldlM_cons, step_extend (whole first List.mem_cons_self) longerToken,
        Option.bind_eq_bind, Option.bind_some, restRead, Token.extended_extended]
      rfl

/-! ## Lexing what is written -/

theorem IsWord.lexes {first : Char} {rest : List Char} (isWord : IsWord (first :: rest)) :
    Lexes (first :: rest) [] (.word (first :: rest)) := by
  refine ⟨first :: rest, fun back apart => restoreQuotes_append isWord.tokenFree apart, ?_⟩
  intro seen
  have inWord := isWord.whole first List.mem_cons_self
  have notBlank := not_isWhitespace_of_not_isSeparator inWord
  have begins : Scanner.step ⟨seen, .nothing⟩ first = some ⟨seen, .token (.word [first])⟩ := by
    simp_all [Scanner.step, isSeparator]
  have isOpen : Token.IsOpen (.word [first]) := trivial
  have restRead := foldlM_step_word
    (fun character member => isWord.whole character (List.mem_cons_of_mem _ member)) isOpen seen
  rw [List.foldlM_cons, begins, Option.bind_eq_bind, Option.bind_some, restRead, List.append_nil]
  rfl

/-- Fields may follow a name or a closing parenthesis. -/
theorem Lexes.fields {text : List Char} {front : List Token} {last : Token}
    (lexes : Lexes text front last) (takes : last.TakesFields) {label : List Char}
    (isWord : IsWord label) :
    Lexes (text ++ '.' :: label) front (last.extended ('.' :: label)) := by
  obtain ⟨restored, restores, scans⟩ := lexes
  refine ⟨restored ++ '.' :: label, ?_, ?_⟩
  · intro back apart
    have labelApart : Apart ('.' :: (label ++ back)) := apart_cons (by decide) _
    rw [List.append_assoc, List.cons_append, restores _ labelApart,
      restoreQuotes_cons (by decide), restoreQuotes_append isWord.tokenFree apart]
    simp
  · intro seen
    have point : last.extend? '.' = some (last.extended ['.']) := by
      cases last with
      | word characters => rfl
      | closing fields => cases fields <;> rfl
      | opening => cases takes
      | string content => cases takes
    have isOpen : (last.extended ['.']).IsOpen := by
      cases last with
      | word characters => trivial
      | closing fields => simp [Token.extended, Token.IsOpen]
      | opening => cases takes
      | string content => cases takes
    have labelRead := foldlM_step_word isWord.whole isOpen (seen ++ front)
    rw [List.foldlM_append, scans seen, Option.bind_eq_bind, Option.bind_some, List.foldlM_cons,
      step_extend (by decide) point, Option.bind_eq_bind, Option.bind_some, labelRead,
      Token.extended_extended]
    rfl

/-- A string literal, whose quotes are written as tokens. -/
theorem lexes_quoted {content : List Char} (tokenFree : TokenFree content)
    (noQuote : '"' ∉ content) :
    Lexes (quoteToken.toList ++ content ++ quoteToken.toList) [] (.string content) := by
  refine ⟨'"' :: content ++ ['"'], ?_, ?_⟩
  · intro back apart
    have tokenApart : Apart (quoteToken.toList ++ back) := by
      have begins : quoteToken.toList = '@' :: quoteToken.toList.tail := by decide
      rw [begins, List.cons_append]
      exact apart_cons (by decide) _
    rw [List.append_assoc, List.append_assoc, restoreQuotes_token,
      restoreQuotes_append tokenFree tokenApart, restoreQuotes_token]
    simp
  · intro seen
    have inside : ∀ (characters read : List Char), '"' ∉ characters →
        characters.foldlM Scanner.step ⟨seen, .quoted read⟩ =
          some ⟨seen, .quoted (read ++ characters)⟩ := by
      intro characters
      induction characters with
      | nil => simp
      | cons first rest inductionHypothesis =>
          intro read absent
          simp only [List.mem_cons, not_or] at absent
          have taken : Scanner.step ⟨seen, .quoted read⟩ first =
              some ⟨seen, .quoted (read ++ [first])⟩ := by
            simp [Scanner.step, Ne.symm absent.1]
          rw [List.foldlM_cons, taken, Option.bind_eq_bind, Option.bind_some,
            inductionHypothesis _ absent.2, List.append_assoc]
          rfl
    have begins : Scanner.step ⟨seen, .nothing⟩ '"' = some ⟨seen, .quoted []⟩ := rfl
    have ends : Scanner.step ⟨seen, .quoted content⟩ '"' =
        some ⟨seen, .token (.string content)⟩ := by
      simp [Scanner.step]
    rw [List.cons_append, List.foldlM_cons, begins, Option.bind_eq_bind, Option.bind_some,
      List.foldlM_append, inside content [] noQuote, List.nil_append, Option.bind_eq_bind,
      Option.bind_some, List.foldlM_cons, ends, List.append_nil]
    rfl

/-- A blank ends the token in front of it. -/
theorem Lexes.spaced {left right : List Char} {leftFront rightFront : List Token}
    {leftLast rightLast : Token} (leftLexes : Lexes left leftFront leftLast)
    (rightLexes : Lexes right rightFront rightLast) :
    Lexes (left ++ ' ' :: right) (leftFront ++ leftLast :: rightFront) rightLast := by
  obtain ⟨leftRestored, leftRestores, leftScans⟩ := leftLexes
  obtain ⟨rightRestored, rightRestores, rightScans⟩ := rightLexes
  refine ⟨leftRestored ++ ' ' :: rightRestored, ?_, ?_⟩
  · intro back apart
    have blankApart : Apart (' ' :: (right ++ back)) := apart_cons (by decide) _
    rw [List.append_assoc, List.cons_append, leftRestores _ blankApart,
      restoreQuotes_cons (by decide), rightRestores back apart]
    simp
  · intro seen
    have blank : Scanner.step ⟨seen ++ leftFront, .token leftLast⟩ ' ' =
        some ⟨seen ++ leftFront ++ [leftLast], .nothing⟩ := rfl
    rw [List.foldlM_append, leftScans seen, Option.bind_eq_bind, Option.bind_some,
      List.foldlM_cons, blank, Option.bind_eq_bind, Option.bind_some, rightScans]
    simp

theorem Lexes.parenthesized {text : List Char} {front : List Token} {last : Token}
    (lexes : Lexes text front last) :
    Lexes ('(' :: text ++ [')']) (.opening :: front ++ [last]) (.closing []) := by
  obtain ⟨restored, restores, scans⟩ := lexes
  refine ⟨'(' :: restored ++ [')'], ?_, ?_⟩
  · intro back apart
    have closingApart : Apart (')' :: back) := apart_cons (by decide) _
    have inside := restores (')' :: back) closingApart
    simp only [List.cons_append, List.append_assoc, List.nil_append]
    rw [restoreQuotes_cons (by decide), inside, restoreQuotes_cons (by decide)]
  · intro seen
    have begins : Scanner.step ⟨seen, .nothing⟩ '(' = some ⟨seen ++ [.opening], .nothing⟩ := rfl
    have ends : Scanner.step ⟨seen ++ [.opening] ++ front, .token last⟩ ')' =
        some ⟨seen ++ [.opening] ++ front ++ [last], .token (.closing [])⟩ := rfl
    rw [List.cons_append, List.foldlM_cons, begins, Option.bind_eq_bind, Option.bind_some,
      List.foldlM_append, scans, Option.bind_eq_bind, Option.bind_some, List.foldlM_cons, ends]
    simp

/-! ## Reading what is written -/

theorem reads_word {word : String} (isWord : IsWord word.toList) {item : Item}
    (known : Item.ofWord word.toList = some item) : Reads word (some [item]) := by
  have parses := parses_word word.toList
  rw [known] at parses
  cases characters : word.toList with
  | nil =>
      rw [characters] at known
      cases known
  | cons first rest =>
      rw [characters] at isWord parses
      exact ⟨[], .word (first :: rest), characters ▸ isWord.lexes, parses⟩

/-- A text without quotes is written as it is. -/
theorem flatMap_of_not_mem {target : Char} {replacement characters : List Char}
    (absent : target ∉ characters) :
    (characters.flatMap fun character =>
      if character = target then replacement else [character]) = characters := by
  apply Text.flatMap_of_kept
  intro character member
  exact if_neg (ne_of_mem_of_not_mem member absent)

theorem reads_quote {content : String} (tokenFree : TokenFree content.toList)
    (noQuote : '"' ∉ content.toList) :
    Reads (quote content) (some [.argument (.string content.toList)]) := by
  have unchanged : Text.substitute '"' quoteToken content = content := by
    rw [Text.substitute, flatMap_of_not_mem noQuote, String.ofList_toList]
  refine ⟨[], .string content.toList, ?_, parses_string content.toList⟩
  rw [quote, unchanged, String.toList_append, String.toList_append]
  exact lexes_quoted tokenFree noQuote

theorem Reads.spaced {left right : String} {leftItems rightItems : Option (List Item)}
    (leftReads : Reads left leftItems) (rightReads : Reads right rightItems) :
    Reads (left ++ " " ++ right)
      (leftItems.bind fun first => rightItems.map fun second => first ++ second) := by
  obtain ⟨leftFront, leftLast, leftLexes, leftParses⟩ := leftReads
  obtain ⟨rightFront, rightLast, rightLexes, rightParses⟩ := rightReads
  refine ⟨leftFront ++ leftLast :: rightFront, rightLast, ?_, ?_⟩
  · have characters : (left ++ " " ++ right).toList = left.toList ++ ' ' :: right.toList := by
      simp
    rw [characters]
    exact leftLexes.spaced rightLexes
  · have parses := leftParses.append rightParses
    simpa using parses

theorem Reads.parenthesized {text : String} {items : Option (List Item)}
    (reads : Reads text items) :
    Reads ("(" ++ text ++ ")")
      ((items.bind (call? [])).map fun term => [.argument term]) := by
  obtain ⟨front, last, lexes, parses⟩ := reads
  refine ⟨.opening :: front ++ [last], .closing [], ?_, ?_⟩
  · have characters : ("(" ++ text ++ ")").toList = '(' :: text.toList ++ [')'] := by
      simp
    rw [characters]
    exact lexes.parenthesized
  · have enclosed := parses.parenthesized []
    simpa using enclosed

end Sitewright.Template.Call

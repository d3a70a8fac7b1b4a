import Sitewright.Proofs.Template.Call
import Sitewright.Template.Expr

/-!
Contract: which string literals can be told apart once they are written.

A literal stands between quote tokens, and each quote in it is written as the token, too. A token
that a literal holds by itself is written like any other text. The loader of the templates puts a
quote in the place of every token, so it cannot tell such a token from a quote.

Owns:
- `loaded`, what the loader makes of a text;
- `quote_eq_quote_iff`: literals are written alike exactly if they are loaded alike;
- `Expr.Context`, an expression around one string literal, and that its text shows nothing but the
  literal as it is written.

Does not own: how the calls of an expression are read.
-/

namespace Sitewright.Template

open Call

/-! ## Literals -/

/-- A text as the loader hands it to the engine, with a quote in place of every token. -/
def loaded (text : String) : String :=
  String.ofList (restoreQuotes 0 text.toList)

/-- The characters of a literal as they are written between its quotes. -/
def quotedContent (content : List Char) : List Char :=
  content.flatMap fun character => if character = '"' then quoteToken.toList else [character]

theorem toList_quote (content : String) :
    (quote content).toList =
      quoteToken.toList ++ (quotedContent content.toList ++ quoteToken.toList) := by
  rw [quote, String.toList_append, String.toList_append, Text.substitute, String.toList_ofList,
    List.append_assoc]
  rfl

theorem quotedContent_token (rest : List Char) :
    quotedContent (quoteToken.toList ++ rest) = quoteToken.toList ++ quotedContent rest := by
  have noQuote : '"' ∉ quoteToken.toList := by decide
  rw [quotedContent, List.flatMap_append, flatMap_of_not_mem noQuote]
  rfl

theorem quotedContent_quote (rest : List Char) :
    quotedContent ('"' :: rest) = quoteToken.toList ++ quotedContent rest := by
  rw [quotedContent, List.flatMap_cons, if_pos rfl]
  rfl

theorem quotedContent_cons {first : Char} (noQuote : first ≠ '"') (rest : List Char) :
    quotedContent (first :: rest) = first :: quotedContent rest := by
  rw [quotedContent, List.flatMap_cons, if_neg noQuote]
  rfl

/-- A token in a literal is written as the quote in its place is. -/
theorem quotedContent_restoreQuotes (content : List Char) :
    quotedContent (restoreQuotes 0 content) = quotedContent content := by
  induction content using token_induction with
  | nil => rfl
  | token rest inductionHypothesis =>
      rw [restoreQuotes_token, quotedContent_quote, quotedContent_token, inductionHypothesis]
  | other first rest noToken inductionHypothesis =>
      rw [restoreQuotes_other noToken]
      by_cases isQuote : first = '"'
      · rw [isQuote, quotedContent_quote, quotedContent_quote, inductionHypothesis]
      · rw [quotedContent_cons isQuote, quotedContent_cons isQuote, inductionHypothesis]

/-- Quotes are written as the token, and nothing else is. -/
theorem writes_quotes : quoteTable.Writes fun character =>
    if character = '"' then quoteToken.toList else [character] where
  each character := by
    by_cases isQuote : character = '"'
    · right
      rw [if_pos isQuote, ← token_quoteTable]
      exact ⟨_, quote_mem_quoteTable, isQuote.symm, rfl⟩
    · left
      exact if_neg isQuote
  keepsToken := by decide

/-- Writing the quotes as tokens changes nothing for the loader. -/
theorem restoreQuotes_quotedContent (content : List Char) :
    restoreQuotes 0 (quotedContent content) = restoreQuotes 0 content := by
  rw [restoreQuotes_eq_read, restoreQuotes_eq_read]
  exact writes_quotes.read_flatMap content

theorem quotedContent_eq_iff {first second : List Char} :
    quotedContent first = quotedContent second ↔
      restoreQuotes 0 first = restoreQuotes 0 second := by
  constructor
  · intro written
    rw [← restoreQuotes_quotedContent first, written, restoreQuotes_quotedContent]
  · intro restored
    rw [← quotedContent_restoreQuotes first, restored, quotedContent_restoreQuotes]

theorem loaded_eq_iff {first second : String} :
    loaded first = loaded second ↔
      restoreQuotes 0 first.toList = restoreQuotes 0 second.toList := by
  rw [loaded, loaded, String.ofList_inj]

/-- Literals are written alike exactly if the loader makes the same of them. -/
theorem quote_eq_quote_iff {first second : String} :
    quote first = quote second ↔ loaded first = loaded second := by
  rw [← String.toList_inj, toList_quote, toList_quote, List.append_cancel_left_eq,
    List.append_cancel_right_eq, quotedContent_eq_iff, loaded_eq_iff]

theorem loaded_eq_self_iff {content : String} :
    loaded content = content ↔ TokenFree content.toList := by
  rw [← restoreQuotes_eq_self_iff, loaded, ← String.toList_inj, String.toList_ofList]

/-- The loader finds a literal between two quotes. -/
theorem loaded_quote (content : String) :
    loaded (quote content) = "\"" ++ loaded content ++ "\"" := by
  have start : quoteToken.toList = '@' :: quoteToken.toList.tail := by decide
  have apart : Apart quoteToken.toList := start ▸ apart_cons (by decide) _
  have token : restoreQuotes 0 quoteToken.toList = ['"'] := by decide
  rw [← String.toList_inj, loaded, String.toList_ofList, toList_quote, restoreQuotes_token,
    restoreQuotes_append_of_apart _ apart, restoreQuotes_quotedContent, token]
  simp [loaded]

/-! ## Expressions around a literal -/

/-- Of what it is given, the text shows the quoted form, in one place. -/
def ShowsQuoted (text : String → String) : Prop :=
  ∃ front back, ∀ content, text content = front ++ quote content ++ back

theorem shows_quote : ShowsQuoted quote :=
  ⟨"", "", fun content => by rw [String.empty_append, String.append_empty]⟩

theorem ShowsQuoted.between {text : String → String} (shows_ : ShowsQuoted text)
    (front back : String) : ShowsQuoted fun content => front ++ text content ++ back := by
  obtain ⟨before, after, written⟩ := shows_
  refine ⟨front ++ before, after ++ back, fun content => ?_⟩
  simp only [written, String.append_assoc]

/-- What is shown is told apart as far as the quoted forms are. -/
theorem ShowsQuoted.eq_iff {text : String → String} (shows_ : ShowsQuoted text)
    {first second : String} : text first = text second ↔ loaded first = loaded second := by
  obtain ⟨front, back, written⟩ := shows_
  rw [written, written, String.append_left_inj, String.append_right_inj, quote_eq_quote_iff]

namespace Expr

/-- An expression with one place left open: the content of a string literal, or the name of a
type. -/
inductive Context where
  | literal
  | typeName (operand : Expr)
  | not (operand : Context)
  | junction (kind : Junction) (before : List Expr) (item : Context) (after : List Expr)
  | compareLeft (comparison : Comparison) (left : Context) (right : Expr)
  | compareRight (comparison : Comparison) (left : Expr) (right : Context)
  | hasType (operand : Context) (type : String)

namespace Context

def fill (content : String) : Context → Expr
  | .literal => .literal (.string content)
  | .typeName operand => .hasType operand content
  | .not operand => .not (operand.fill content)
  | .junction kind before item after => .junction kind (before ++ item.fill content :: after)
  | .compareLeft comparison left right => .compare comparison (left.fill content) right
  | .compareRight comparison left right => .compare comparison left (right.fill content)
  | .hasType operand type => .hasType (operand.fill content) type

end Context

theorem isNegation_of_several (kind : Junction) {items : List Expr} (several : 2 ≤ items.length) :
    (Expr.junction kind items).isNegation = false := by
  match items, several with
  | _ :: _ :: _, _ => rfl

theorem text_of_several (kind : Junction) {items : List Expr} (several : 2 ≤ items.length) :
    (Expr.junction kind items).text = chain kind.function items := by
  match items, several with
  | _ :: _ :: _, _ => rw [text]

theorem chain_cons (function : String) (head : Expr) {rest : List Expr} (more : rest ≠ []) :
    chain function (head :: rest) =
      "(" ++ function ++ " " ++ head.argument ++ " " ++ chain function rest ++ ")" := by
  match rest, more with
  | _ :: _, _ => rw [chain, argument]

namespace Context

/-- A junction holds its item alone, or it holds several. -/
theorem alone_or_several (before : List Expr) (item : Context) (after : List Expr) :
    (before = [] ∧ after = []) ∨
      ∀ content, 2 ≤ (before ++ item.fill content :: after).length := by
  rcases before with _ | ⟨head, before⟩
  · rcases after with _ | ⟨next, after⟩
    · exact .inl ⟨rfl, rfl⟩
    · exact .inr fun content => by simp
  · exact .inr fun content => by simp; omega

/-- What fills the place does not decide whether the expression is a negation. -/
theorem isNegation_fill (context : Context) (first second : String) :
    (context.fill first).isNegation = (context.fill second).isNegation := by
  induction context with
  | junction kind before item after inductionHypothesis =>
      rcases alone_or_several before item after with ⟨rfl, rfl⟩ | several
      · simp only [fill, List.nil_append, isNegation, inductionHypothesis]
      · rw [fill, fill, isNegation_of_several kind (several first),
          isNegation_of_several kind (several second)]
  | _ => rfl

/-- A filled place is never a reference, the one kind of expression that has a text of its own as
an argument. -/
theorem argument_fill (context : Context) (content : String) :
    (context.fill content).argument =
      if (context.fill content).isNegation then "(" ++ (context.fill content).text ++ ")"
      else (context.fill content).text := by
  cases context <;> rfl

theorem shows_argument {context : Context}
    (shows_ : ShowsQuoted fun content => (context.fill content).text) :
    ShowsQuoted fun content => (context.fill content).argument := by
  have same : ∀ content, (context.fill content).isNegation = (context.fill "").isNegation :=
    fun content => isNegation_fill context content ""
  simp only [argument_fill, same]
  split
  · exact shows_.between "(" ")"
  · exact shows_

/-- Calls nested over several items show what one of the items shows. -/
theorem shows_chain (function : String) {item : Context}
    (shows_ : ShowsQuoted fun content => (item.fill content).argument) (before after : List Expr) :
    ShowsQuoted fun content => chain function (before ++ item.fill content :: after) := by
  induction before with
  | nil =>
      cases after with
      | nil => simpa only [List.nil_append, chain, argument] using shows_
      | cons next rest =>
          have around := shows_.between ("(" ++ function ++ " ")
            (" " ++ chain function (next :: rest) ++ ")")
          simpa only [List.nil_append, chain_cons function _ (List.cons_ne_nil next rest),
            String.append_assoc] using around
  | cons head before inductionHypothesis =>
      have around := inductionHypothesis.between
        ("(" ++ function ++ " " ++ head.argument ++ " ") ")"
      have more : ∀ content, before ++ item.fill content :: after ≠ [] := by simp
      simpa only [List.cons_append, chain_cons function head (more _), String.append_assoc]
        using around

/-- The text of an expression shows the place in it as the quoted form of what fills it. -/
theorem shows_text (context : Context) :
    ShowsQuoted fun content => (context.fill content).text := by
  induction context with
  | literal => simpa only [fill, text, Literal.text] using shows_quote
  | typeName operand =>
      have around := shows_quote.between ("(" ++ Comparison.equal.function ++ " ")
        (" (printf " ++ quote "%T" ++ " " ++ operand.argument ++ "))")
      simpa only [fill, text, argument, String.append_assoc] using around
  | not operand inductionHypothesis =>
      have around := (shows_argument inductionHypothesis).between "not " ""
      simpa only [fill, text, argument, String.append_empty] using around
  | junction kind before item after inductionHypothesis =>
      rcases alone_or_several before item after with ⟨rfl, rfl⟩ | several
      · simpa only [fill, List.nil_append, text] using inductionHypothesis
      · simpa only [fill, text_of_several kind (several _)] using
          shows_chain kind.function (shows_argument inductionHypothesis) before after
  | compareLeft comparison left right inductionHypothesis =>
      have around := (shows_argument inductionHypothesis).between
        ("(" ++ comparison.function ++ " ") (" " ++ right.argument ++ ")")
      simpa only [fill, text, argument, String.append_assoc] using around
  | compareRight comparison left right inductionHypothesis =>
      have around := (shows_argument inductionHypothesis).between
        ("(" ++ comparison.function ++ " " ++ left.argument ++ " ") ")"
      simpa only [fill, text, argument, String.append_assoc] using around
  | hasType operand type inductionHypothesis =>
      have around := (shows_argument inductionHypothesis).between
        ("(" ++ Comparison.equal.function ++ " " ++ quote type ++ " (printf " ++ quote "%T" ++ " ")
        "))"
      simpa only [fill, text, argument, String.append_assoc] using around

theorem shows_header (context : Context) (negated : Bool) :
    ShowsQuoted fun content => (context.fill content).header negated := by
  cases negated with
  | true => exact shows_argument context.shows_text
  | false => exact context.shows_text

end Context

/-- Conditions that differ in one literal or type name only, however deep, are told apart exactly
if the loader makes different texts of the two. It finds what it makes of the literal between two
quotes, and that is the literal exactly if no quote token occurs in it. -/
theorem told_apart_iff_loaded_apart (context : Context) (first second : String) :
    (quote first = quote second ↔ loaded first = loaded second) ∧
      ((context.fill first).text = (context.fill second).text ↔ loaded first = loaded second) ∧
      ((context.fill first).argument = (context.fill second).argument ↔
        loaded first = loaded second) ∧
      (∀ negated, (context.fill first).header negated = (context.fill second).header negated ↔
        loaded first = loaded second) ∧
      loaded (quote first) = "\"" ++ loaded first ++ "\"" ∧
      (loaded first = first ↔ TokenFree first.toList) :=
  ⟨quote_eq_quote_iff, context.shows_text.eq_iff,
    (Context.shows_argument context.shows_text).eq_iff,
    fun negated => (context.shows_header negated).eq_iff, loaded_quote first, loaded_eq_self_iff⟩

/-- A quote and the token that is written for it cannot be told apart. -/
theorem quoteToken_quoted_as_quote : quote quoteToken = quote "\"" ∧ quoteToken ≠ "\"" := by
  decide

end Expr

end Sitewright.Template

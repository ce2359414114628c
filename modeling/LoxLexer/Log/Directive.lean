import LoxLexer.Log.Filter
import LoxLexer.Text.Basic

/-! # Log directives

A directive is the text that sets a filter. A single word names the level for every component. Any
other text is read from left to right for terms `component=level`; the rest of it means nothing. -/

namespace LoxLexer.Log

/-- A term of a directive: a name, an equals sign, and the letters after it. -/
structure Term where
  name : List Char
  word : List Char
  deriving DecidableEq, Repr

namespace Term

/-- A character of a name; a dash stands for an underscore. -/
def isNameCharacter (c : Char) : Bool :=
  Filter.isComponentCharacter c || c == '-'

/-- The name as it appears in paths. -/
def component (term : Term) : String :=
  String.ofList (term.name.map fun c => if c = '-' then '_' else c)

/-- The level that the word names, if it names one. -/
def level? (term : Term) : Option Level :=
  Level.ofLetters? term.word

/-- The terms of a text, `name` being the run of name characters that ends where the text begins.
An equals sign with a name before it and a letter after it makes a term; the term takes every
letter there is, so a name that follows begins after them. -/
def ofText (name : List Char) : List Char → List Term
  | [] => []
  | c :: rest =>
    if isNameCharacter c then ofText (name ++ [c]) rest
    else
      let word := rest.takeWhile Char.isAlpha
      if c = '=' ∧ name ≠ [] ∧ word ≠ [] then
        ⟨name, word⟩ :: ofText [] (rest.dropWhile Char.isAlpha)
      else ofText [] rest
termination_by cs => cs.length
decreasing_by
  all_goals have shorter := (List.dropWhile_sublist Char.isAlpha (l := rest)).length_le
  all_goals simp only [List.length_cons]
  all_goals omega

end Term

namespace Filter

/-- The filter with the level that a term sets, if its word names a level. -/
def apply (filter : Filter) (term : Term) : Filter :=
  match term.level? with
  | none => filter
  | some level => filter.set term.component level

/-- The filter that a directive sets. White space around the directive means nothing. -/
def ofDirective (directive : String) : Filter :=
  let text := Text.trim directive.toList
  if text ≠ [] ∧ text.all Char.isAlpha then { overall := Level.ofLetters? text }
  else (Term.ofText [] text).foldl apply {}

end Filter

end LoxLexer.Log

import LoxLexer.Source.Lexeme

/-! # Segments

A source is cut into segments from left to right, each the longest piece that can stand at its
place. Lexemes make tokens; blanks, newlines and comments make none; a character that begins
nothing stands alone; a string that is never closed takes the rest of the source. -/

namespace LoxLexer

/-- The blanks between lexemes. -/
def isBlank (c : Char) : Bool :=
  c == ' ' || c == '\t'

/-- A piece of source that is read as one thing. -/
inductive Segment where
  | blank (c : Char)
  | newline
  /-- A comment with the text after its two slashes. -/
  | comment (body : List Char)
  | lexeme (piece : Lexeme)
  /-- A character that begins nothing. -/
  | stray (c : Char)
  /-- A string that is never closed, with the text after its quotation mark. -/
  | openString (body : List Char)
  deriving DecidableEq, Repr

namespace Segment

/-- The segment as it is written. -/
def text : Segment → List Char
  | blank c => [c]
  | newline => ['\n']
  | comment body => '/' :: '/' :: body
  | lexeme piece => piece.text
  | stray c => [c]
  | openString body => '"' :: body

/-- The string that follows a quotation mark, closed by the next mark or never. -/
def splitString (after : List Char) : Segment × List Char :=
  let body := after.takeWhile (· != '"')
  match after.dropWhile (· != '"') with
  | [] => (openString body, [])
  | _ :: rest => (lexeme (.string body), rest)

/-- The first segment of `first :: rest`, with what follows it. -/
def split (first : Char) (rest : List Char) : Segment × List Char :=
  if isBlank first then (blank first, rest)
  else if first = '\n' then (newline, rest)
  else if first = '"' then splitString rest
  else if first.isDigit then
    let numeral := Numeral.split (first :: rest)
    (lexeme (.number numeral.1), numeral.2)
  else if isLetter first then
    (lexeme (.word (first :: rest.takeWhile isWordCharacter)), rest.dropWhile isWordCharacter)
  else
    match first, rest with
    | '/', '/' :: after => (comment (after.takeWhile (· != '\n')), after.dropWhile (· != '\n'))
    | _, _ =>
      match Punctuator.split? first rest with
      | some (mark, after) => (lexeme (.punctuator mark), after)
      | none => (stray first, rest)

theorem text_splitString_append (after : List Char) :
    (splitString after).1.text ++ (splitString after).2 = '"' :: after := by
  have whole := List.takeWhile_append_dropWhile (p := (· != '"')) (l := after)
  unfold splitString
  split
  · rename_i closed
    simpa [text, closed] using whole
  · rename_i mark rest closed
    have mark_eq : mark = '"' := by
      have first := List.head?_dropWhile_not (· != '"') after
      simpa [closed] using first
    subst mark_eq
    simpa [text, Lexeme.text, closed] using whole

theorem text_split_append (first : Char) (rest : List Char) :
    (split first rest).1.text ++ (split first rest).2 = first :: rest := by
  unfold split
  split
  · rfl
  split
  · subst first
    rfl
  split
  · subst first
    exact text_splitString_append rest
  split
  · exact Numeral.text_split_append (first :: rest)
  split
  · simp [text, Lexeme.text]
  split
  · simp [text]
  · split
    · rename_i mark after found
      exact Punctuator.text_append_of_split? found
    · rfl

theorem text_split_ne_nil (first : Char) (rest : List Char) : (split first rest).1.text ≠ [] := by
  unfold split
  split
  · simp [text]
  split
  · simp [text]
  split
  · unfold splitString
    split <;> simp [text, Lexeme.text]
  split
  · rename_i digit
    exact Numeral.text_split_ne_nil digit
  split
  · simp [text, Lexeme.text]
  split
  · simp [text]
  · split
    · exact Punctuator.text_ne_nil _
    · simp [text]

/-- Something is always taken, so what is left is shorter. -/
theorem length_split_le (first : Char) (rest : List Char) :
    (split first rest).2.length ≤ rest.length := by
  have taken := List.length_pos_iff.mpr (text_split_ne_nil first rest)
  have whole := congrArg List.length (text_split_append first rest)
  simp only [List.length_append, List.length_cons] at whole
  omega

/-- The segments of a source, in order. -/
def ofSource : List Char → List Segment
  | [] => []
  | first :: rest => (split first rest).1 :: ofSource (split first rest).2
termination_by cs => cs.length
decreasing_by
  have shorter := length_split_le first rest
  simp only [List.length_cons]
  omega

/-- Every character of a source is in exactly one segment. -/
theorem flatMap_text_ofSource (cs : List Char) : (ofSource cs).flatMap text = cs := by
  fun_induction ofSource cs with
  | case1 => rfl
  | case2 first rest ih => simpa [ih] using text_split_append first rest

end Segment

end LoxLexer

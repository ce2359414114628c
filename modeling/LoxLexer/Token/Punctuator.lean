/-! # Punctuators

The marks of Lox, of one or two characters. Where a one-character mark begins a two-character one,
the longer is taken. -/

namespace LoxLexer

/-- A mark of one or two characters. -/
inductive Punctuator where
  | leftParen
  | rightParen
  | leftBrace
  | rightBrace
  | comma
  | dot
  | minus
  | plus
  | semicolon
  | slash
  | star
  | bang
  | bangEqual
  | equal
  | equalEqual
  | greater
  | greaterEqual
  | less
  | lessEqual
  deriving DecidableEq, Repr

namespace Punctuator

/-- The characters of the mark. -/
def text : Punctuator → List Char
  | leftParen => ['(']
  | rightParen => [')']
  | leftBrace => ['\x7b']
  | rightBrace => ['\x7d']
  | comma => [',']
  | dot => ['.']
  | minus => ['-']
  | plus => ['+']
  | semicolon => [';']
  | slash => ['/']
  | star => ['*']
  | bang => ['!']
  | bangEqual => ['!', '=']
  | equal => ['=']
  | equalEqual => ['=', '=']
  | greater => ['>']
  | greaterEqual => ['>', '=']
  | less => ['<']
  | lessEqual => ['<', '=']

/-- The words of the mark's title. -/
def words : Punctuator → List String
  | leftParen => ["left", "paren"]
  | rightParen => ["right", "paren"]
  | leftBrace => ["left", "brace"]
  | rightBrace => ["right", "brace"]
  | comma => ["comma"]
  | dot => ["dot"]
  | minus => ["minus"]
  | plus => ["plus"]
  | semicolon => ["semicolon"]
  | slash => ["slash"]
  | star => ["star"]
  | bang => ["bang"]
  | bangEqual => ["bang", "equal"]
  | equal => ["equal"]
  | equalEqual => ["equal", "equal"]
  | greater => ["greater"]
  | greaterEqual => ["greater", "equal"]
  | less => ["less"]
  | lessEqual => ["less", "equal"]

/-- Every mark. -/
def all : List Punctuator :=
  [leftParen, rightParen, leftBrace, rightBrace, comma, dot, minus, plus, semicolon, slash, star,
    bang, bangEqual, equal, equalEqual, greater, greaterEqual, less, lessEqual]

theorem mem_all (mark : Punctuator) : mark ∈ all := by
  cases mark <;> decide

/-- The mark of one character, if the character is one. -/
def single? : Char → Option Punctuator
  | '(' => some leftParen
  | ')' => some rightParen
  | '\x7b' => some leftBrace
  | '\x7d' => some rightBrace
  | ',' => some comma
  | '.' => some dot
  | '-' => some minus
  | '+' => some plus
  | ';' => some semicolon
  | '/' => some slash
  | '*' => some star
  | '!' => some bang
  | '=' => some equal
  | '>' => some greater
  | '<' => some less
  | _ => none

/-- The mark that an equals sign after this one makes of the two. -/
def withEqual? : Punctuator → Option Punctuator
  | bang => some bangEqual
  | equal => some equalEqual
  | greater => some greaterEqual
  | less => some lessEqual
  | _ => none

/-- The longest mark at the start of `first :: rest`, with what follows it. -/
def split? (first : Char) (rest : List Char) : Option (Punctuator × List Char) :=
  (single? first).map fun mark =>
    match mark.withEqual?, rest with
    | some longer, '=' :: after => (longer, after)
    | _, _ => (mark, rest)

theorem text_of_single? {c : Char} {mark : Punctuator} (found : single? c = some mark) :
    mark.text = [c] := by
  unfold single? at found
  split at found <;> simp_all <;> subst found <;> rfl

theorem text_of_withEqual? {mark longer : Punctuator} (found : mark.withEqual? = some longer) :
    longer.text = mark.text ++ ['='] := by
  cases mark <;> simp [withEqual?] at found <;> subst found <;> rfl

theorem text_append_of_split? {first : Char} {rest after : List Char} {mark : Punctuator}
    (found : split? first rest = some (mark, after)) : mark.text ++ after = first :: rest := by
  obtain ⟨short, single, cut⟩ := Option.map_eq_some_iff.mp found
  split at cut
  · rename_i longer tail double
    cases cut
    simp [text_of_withEqual? double, text_of_single? single]
  · cases cut
    simp [text_of_single? single]

theorem text_ne_nil (mark : Punctuator) : mark.text ≠ [] := by
  cases mark <;> simp [text]

end Punctuator

end LoxLexer

import LoxLexer.Diagnostic.Basic
import LoxLexer.Log.Record
import LoxLexer.Source.Segment

/-! # Scan events

What a scan meets, in source order and with its lines: a token, a stray character, a string that is
never closed, and at last the end of the source. A line is one more than the newlines before it. -/

namespace LoxLexer

/-- Something that a scan meets. -/
inductive Event where
  | token (token : Token)
  | stray (character : Char) (line : Nat)
  /-- A string that is never closed, with the line it opens on and the line the source ends on. -/
  | openString (opening ending : Nat)
  | ended (line : Nat)
  deriving DecidableEq, Repr

/-- The newlines in a segment. -/
def Segment.newlines (segment : Segment) : Nat :=
  segment.text.count '\n'

/-- What a scan meets in a segment that begins on the given line. -/
def Segment.event? (line : Nat) : Segment → Option Event
  | .lexeme piece => some (.token (piece.token line))
  | .stray c => some (.stray c line)
  | .openString body => some (.openString line (line + body.count '\n'))
  | .blank _ | .newline | .comment _ => none

namespace Event

/-- What a scan meets from the given line on. -/
def ofSegments : Nat → List Segment → List Event
  | line, [] => [ended line]
  | line, segment :: rest =>
    (segment.event? line).toList ++ ofSegments (line + segment.newlines) rest

/-- What a scan of a source meets. -/
def ofSource (source : String) : List Event :=
  ofSegments 1 (Segment.ofSource source.toList)

/-- The token of an event; the end of the source is one too. -/
def token? : Event → Option Token
  | token found => some found
  | ended line => some (.eof line)
  | stray _ _ | openString _ _ => none

/-- The diagnostic of an event. A string that is never closed is reported on the line the source
ends on. -/
def diagnostic? : Event → Option Diagnostic
  | stray character line => some ⟨.unexpectedCharacter character, some line, none⟩
  | openString _ ending => some ⟨.unterminatedString, some ending, none⟩
  | token _ | ended _ => none

/-- The path under which a scan logs. -/
def path : String := "lox::scanner"

/-- The record that an event leaves in the log. String tokens leave none, and a string that is
never closed is logged with the line it opens on. -/
def record? : Event → Option Log.Record
  | token found =>
    if found.kind = .string then none
    else some (.ofModule .trace path (found.kind.title ++ " on line " ++ toString found.line))
  | stray _ _ => none
  | openString opening _ =>
    some (.ofModule .debug path ("string from line " ++ toString opening ++ " never closed"))
  | ended line => some (.ofModule .trace path ("eof on line " ++ toString line))

end Event

end LoxLexer

import LoxLexer.Binary64.Basic
import LoxLexer.Binary64.Printed
import LoxLexer.Binary64.Rounding
import LoxLexer.Binary64.Shortest
import LoxLexer.CommandLine.History
import LoxLexer.CommandLine.Input
import LoxLexer.CommandLine.Options
import LoxLexer.CommandLine.Program
import LoxLexer.CommandLine.Prompt
import LoxLexer.Diagnostic.Basic
import LoxLexer.Diagnostic.FileError
import LoxLexer.Emission
import LoxLexer.File.Directory
import LoxLexer.File.SourceText
import LoxLexer.Log.Directive
import LoxLexer.Log.Filter
import LoxLexer.Log.Level
import LoxLexer.Log.Line
import LoxLexer.Log.Logger
import LoxLexer.Log.Record
import LoxLexer.Main
import LoxLexer.Proofs.Binary64.Magnitude
import LoxLexer.Proofs.Binary64.Nearest
import LoxLexer.Proofs.Binary64.Rounding
import LoxLexer.Proofs.Binary64.Shortest
import LoxLexer.Proofs.CommandLine.Console
import LoxLexer.Proofs.CommandLine.Files
import LoxLexer.Proofs.CommandLine.Listing
import LoxLexer.Proofs.CommandLine.PromptLines
import LoxLexer.Proofs.CommandLine.Session
import LoxLexer.Proofs.Cursor.Basic
import LoxLexer.Proofs.Cursor.Octets
import LoxLexer.Proofs.Cursor.Safety
import LoxLexer.Proofs.Cursor.Segments
import LoxLexer.Proofs.Cursor.Steps
import LoxLexer.Proofs.Diagnostic.Text
import LoxLexer.Proofs.Emission
import LoxLexer.Proofs.File.Directory
import LoxLexer.Proofs.Log.Directive
import LoxLexer.Proofs.Log.EqualsSigns
import LoxLexer.Proofs.Log.Filter
import LoxLexer.Proofs.Log.Maximum
import LoxLexer.Proofs.Log.Path
import LoxLexer.Proofs.Log.Pieces
import LoxLexer.Proofs.Log.Process
import LoxLexer.Proofs.Log.Reading
import LoxLexer.Proofs.Log.Written
import LoxLexer.Proofs.Scan.Equality
import LoxLexer.Proofs.Scan.Joining
import LoxLexer.Proofs.Scan.LineEndings
import LoxLexer.Proofs.Scan.MaximalMunch
import LoxLexer.Proofs.Scan.ModeAutomaton
import LoxLexer.Proofs.Scan.Number
import LoxLexer.Proofs.Scan.NumberForm
import LoxLexer.Proofs.Scan.Placed
import LoxLexer.Proofs.Scan.PrefixStability
import LoxLexer.Proofs.Scan.Printed
import LoxLexer.Proofs.Scan.Rendering
import LoxLexer.Proofs.Scan.Run
import LoxLexer.Proofs.Scan.Spots
import LoxLexer.Proofs.Scan.Tiling
import LoxLexer.Proofs.Scan.Transcript
import LoxLexer.Proofs.Scan.Trivia
import LoxLexer.Proofs.Sink.Cursor
import LoxLexer.Proofs.Sink.References
import LoxLexer.Proofs.Sink.Reporter
import LoxLexer.Proofs.Source.Characters
import LoxLexer.Proofs.Source.Cut
import LoxLexer.Proofs.Source.Proper
import LoxLexer.Proofs.Text.Escape
import LoxLexer.Proofs.Text.Pattern
import LoxLexer.Proofs.Text.WhiteSpace
import LoxLexer.Proofs.Token.Keyword
import LoxLexer.Scan.Basic
import LoxLexer.Scan.Sink
import LoxLexer.Source.Event
import LoxLexer.Source.Lexeme
import LoxLexer.Source.Numeral
import LoxLexer.Source.Segment
import LoxLexer.Text.Basic
import LoxLexer.Text.Escape
import LoxLexer.Text.Unprintable
import LoxLexer.Token.Basic
import LoxLexer.Token.Keyword
import LoxLexer.Token.Kind
import LoxLexer.Token.Punctuator

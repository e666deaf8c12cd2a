import BasicCompiler.Command.Compile
import BasicCompiler.Command.Directory
import BasicCompiler.Command.Source
import BasicCompiler.Command.View
import BasicCompiler.Compiler.Basic
import BasicCompiler.Compiler.Fragment
import BasicCompiler.Compiler.Goal
import BasicCompiler.Compiler.Scope
import BasicCompiler.Compiler.Session
import BasicCompiler.Diagnostic
import BasicCompiler.Listing
import BasicCompiler.Main
import BasicCompiler.Text.Alphanumeric
import BasicCompiler.Text.CodeRange
import BasicCompiler.Text.Escaped
import BasicCompiler.Text.GraphemeExtend
import BasicCompiler.Text.Lines
import BasicCompiler.Text.Location
import BasicCompiler.Text.Unprintable
import BasicCompiler.Text.WhiteSpace
import BasicCompiler.Token.Basic
import BasicCompiler.Token.Cursor
import BasicCompiler.Token.Kind
import BasicCompiler.Token.Lexeme
import BasicCompiler.Token.Stream
import BasicCompiler.Viewer.Basic
import BasicCompiler.Viewer.OutputText
import BasicCompiler.Viewer.Pane
import BasicCompiler.Viewer.Screen
import BasicCompiler.Viewer.Size
import BasicCompiler.Viewer.SourceText
import BasicCompiler.Viewer.Span
import BasicCompiler.Viewer.StatusBar
import BasicCompiler.Viewer.Style
import BasicCompiler.Proofs.Lexing.Reading
import BasicCompiler.Proofs.Lexing.Readings
import BasicCompiler.Proofs.Lexing.Places
import BasicCompiler.Proofs.Lexing.Printing
import BasicCompiler.Proofs.Lexing.Joining
import BasicCompiler.Proofs.Lexing.Extent
import BasicCompiler.Proofs.Grammar.Tree
import BasicCompiler.Proofs.Grammar.Unambiguity
import BasicCompiler.Proofs.Grammar.Names
import BasicCompiler.Proofs.Grammar.Occurrences
import BasicCompiler.Proofs.Parsing.Phrase
import BasicCompiler.Proofs.Parsing.Derivation
import BasicCompiler.Proofs.Parsing.Planning
import BasicCompiler.Proofs.Parsing.Prediction
import BasicCompiler.Proofs.Parsing.Completion
import BasicCompiler.Proofs.Parsing.Window
import BasicCompiler.Proofs.Parsing.Prefix
import BasicCompiler.Proofs.Parsing.Trace
import BasicCompiler.Proofs.Parsing.Noting
import BasicCompiler.Proofs.Parsing.Run
import BasicCompiler.Proofs.Language
import BasicCompiler.Proofs.ValidPrefix
import BasicCompiler.Proofs.FirstError
import BasicCompiler.Proofs.RepeatedCalls
import BasicCompiler.Proofs.DanglingJumps
import BasicCompiler.Proofs.Decoding.Spelling
import BasicCompiler.Proofs.Decoding.Lines
import BasicCompiler.Proofs.Decoding.Decoder
import BasicCompiler.Proofs.Generated.Parts
import BasicCompiler.Proofs.Generated.Declarations
import BasicCompiler.Proofs.Generated.Nesting
import BasicCompiler.Proofs.Generated.Concatenation
import BasicCompiler.Proofs.Target.Lexical
import BasicCompiler.Proofs.Target.Evaluation
import BasicCompiler.Proofs.Target.Meaning
import BasicCompiler.Proofs.Target.ReservedWords
import BasicCompiler.Proofs.Target.LineTokens
import BasicCompiler.Proofs.Target.Formulas
import BasicCompiler.Proofs.Target.Constants
import BasicCompiler.Proofs.Target.Labels
import BasicCompiler.Proofs.Target.PrintedTexts
import BasicCompiler.Proofs.Layout.Gaps
import BasicCompiler.Proofs.Layout.Translation
import BasicCompiler.Proofs.Lexing.Calls
import BasicCompiler.Proofs.Lexing.Segments
import BasicCompiler.Proofs.Lexing.Progress
import BasicCompiler.Proofs.ErrorPlaces
import BasicCompiler.Proofs.SlidingWindow
import BasicCompiler.Proofs.OpenBlocks
import BasicCompiler.Proofs.Viewer.Page
import BasicCompiler.Proofs.Viewer.OffendingLine
import BasicCompiler.Proofs.Viewer.Sessions
import BasicCompiler.Proofs.Lexing.Columns
import BasicCompiler.Proofs.Viewer.LineScan
import BasicCompiler.Proofs.Viewer.KeywordMarks
import BasicCompiler.Proofs.Viewer.KeywordLook
import BasicCompiler.Proofs.OutputFile

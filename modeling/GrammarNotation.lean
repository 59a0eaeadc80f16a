import GrammarNotation.Text.Printable
import GrammarNotation.Text.Position
import GrammarNotation.Text.Lines
import GrammarNotation.Text.Quoted
import GrammarNotation.Text.Utf8
import GrammarNotation.Lexeme.Cut
import GrammarNotation.Token.Source
import GrammarNotation.Token.Stream
import GrammarNotation.Tree.Outline
import GrammarNotation.Reading.Run
import GrammarNotation.Session.Basic
import GrammarNotation.Datum
import GrammarNotation.Graph.Text
import GrammarNotation.Main
import GrammarNotation.Description.Sentence
import GrammarNotation.Description.Printer
import GrammarNotation.Reading.Composition
import GrammarNotation.Proofs.Reading.Steps
import GrammarNotation.Proofs.Reading.Growth
import GrammarNotation.Proofs.Reading.Sentences
import GrammarNotation.Proofs.Reading.Sections
import GrammarNotation.Proofs.Reading.Stages
import GrammarNotation.Proofs.Reading.Recasting
import GrammarNotation.Proofs.Reading.Language
import GrammarNotation.Proofs.Reading.Reactions
import GrammarNotation.Proofs.Reading.Parse
import GrammarNotation.Proofs.Lenient.Refinement
import GrammarNotation.Proofs.Lenient.Conservation
import GrammarNotation.Proofs.Lenient.Rounds
import GrammarNotation.Proofs.Lenient.Skipping
import GrammarNotation.Proofs.Strict.Acceptance
import GrammarNotation.Proofs.Strict.CorrectPrefix
import GrammarNotation.Proofs.Tree.FlatForm
import GrammarNotation.Proofs.Tree.WellFormed
import GrammarNotation.Proofs.Lexeme.Shapes
import GrammarNotation.Proofs.Lexeme.Words
import GrammarNotation.Proofs.Lexeme.Stability
import GrammarNotation.Proofs.Lexeme.Relaying
import GrammarNotation.Proofs.Lexeme.Forms
import GrammarNotation.Proofs.Lexeme.Splitting
import GrammarNotation.Proofs.Lexeme.Placing
import GrammarNotation.Proofs.Reading.Places
import GrammarNotation.Proofs.Tree.RoundTrip
import GrammarNotation.Proofs.Failure.WholeSections
import GrammarNotation.Proofs.Failure.Lookahead
import GrammarNotation.Proofs.Failure.Resuming
import GrammarNotation.Proofs.Failure.Reports
import GrammarNotation.Proofs.Text.Codes
import GrammarNotation.Proofs.Tree.Levels
import GrammarNotation.Proofs.Lexeme.Legible
import GrammarNotation.Proofs.Tree.Legible
import GrammarNotation.Proofs.Tree.Writing
import GrammarNotation.Proofs.Graph.Readback
import GrammarNotation.Proofs.Lexeme.Concatenation
import GrammarNotation.Proofs.Strict.Concatenation
import GrammarNotation.Proofs.Reading.Numbering
import GrammarNotation.Proofs.Session.Replies
import GrammarNotation.Proofs.Session.Journal
import GrammarNotation.Proofs.Strict.Comments
import GrammarNotation.Proofs.Lenient.Entries
import GrammarNotation.Proofs.Reading.Nesting
import GrammarNotation.Proofs.Failure.DepthLimit
import GrammarNotation.Proofs.Graph.Drawing
import GrammarNotation.Proofs.Tree.Traversals
import GrammarNotation.Proofs.Tree.Connectors

import MapHighlight.Main
import MapHighlight.Proofs.Pattern.Lookahead
import MapHighlight.Proofs.Rule.Lookahead
import MapHighlight.Proofs.Cursor.Steps
import MapHighlight.Proofs.Cursor.Coverage
import MapHighlight.Proofs.Cursor.Concatenation
import MapHighlight.Proofs.BatchLexer.Rounds
import MapHighlight.Proofs.Reader.Delivery
import MapHighlight.Proofs.BatchLexer.Batches
import MapHighlight.Proofs.BatchLexer.Reading
import MapHighlight.Proofs.BatchLexer.OneShot
import MapHighlight.Proofs.Reader.Scripts
import MapHighlight.Proofs.BatchLexer.Boundaries
import MapHighlight.Proofs.BatchLexer.Failure
import MapHighlight.Proofs.BatchLexer.Runs
import MapHighlight.Proofs.BatchLexer.AnyReader
import MapHighlight.Proofs.BatchLexer.States
import MapHighlight.Proofs.Text.Malformed
import MapHighlight.Proofs.Reader.AtOnce
import MapHighlight.Proofs.BatchLexer.Malformed
import MapHighlight.Proofs.BatchLexer.Cuts
import MapHighlight.Proofs.BatchLexer.ReadAhead
import MapHighlight.Proofs.BatchLexer.Actions
import MapHighlight.Proofs.BatchLexer.HeldQuotes
import MapHighlight.Proofs.BatchLexer.Progress
import MapHighlight.Proofs.CommandLine.Arguments
import MapHighlight.Proofs.CommandLine.Streaming
import MapHighlight.Proofs.CommandLine.Buffers
import MapHighlight.Proofs.Cursor.Positions
import MapHighlight.Proofs.CommandLine.Log
import MapHighlight.Proofs.CommandLine.FullDevice
import MapHighlight.Proofs.Text.Numerals
import MapHighlight.Proofs.Text.Unquoting
import MapHighlight.Proofs.CommandLine.Printing
import MapHighlight.Proofs.CommandLine.TextLayout
import MapHighlight.Proofs.Json.Reading
import MapHighlight.Proofs.CommandLine.JsonLayout
import MapHighlight.Proofs.Lexer.Standing
import MapHighlight.Proofs.Interner.Sharing
import MapHighlight.Proofs.Pattern.Openings
import MapHighlight.Proofs.Pattern.WholeWords
import MapHighlight.Proofs.Pattern.Notation
import MapHighlight.Proofs.Rule.Words
import MapHighlight.Proofs.Cursor.Words
import MapHighlight.Proofs.Pattern.Runs
import MapHighlight.Proofs.Pattern.Readings
import MapHighlight.Proofs.Pattern.LongestFirst
import MapHighlight.Proofs.Rule.Selection
import MapHighlight.Proofs.Rule.Headers
import MapHighlight.Proofs.Rule.Numbers
import MapHighlight.Proofs.Rule.Extents
import MapHighlight.Proofs.Cursor.Labels
import MapHighlight.Proofs.Cursor.Headers
import MapHighlight.Proofs.Cursor.Errors
import MapHighlight.Proofs.Cursor.Neighbours
import MapHighlight.Proofs.Cursor.SingleOpenQuote
import MapHighlight.Proofs.Rule.Alone
import MapHighlight.Proofs.Cursor.Alone
import MapHighlight.Proofs.Registry.Globs
import MapHighlight.Proofs.Rule.MidLine
import MapHighlight.Proofs.Lexer.Bounds
import MapHighlight.Proofs.Text.Lossy
import MapHighlight.Proofs.Registry.FileNames
import MapHighlight.Proofs.Text.Boundaries
import MapHighlight.Proofs.Cursor.Slices
import MapHighlight.Proofs.BatchLexer.Targets

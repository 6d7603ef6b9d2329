import Wildcard.CharSet
import Wildcard.Text
import Wildcard.Text.Graphic
import Wildcard.Text.Quoted
import Wildcard.Text.Lines
import Wildcard.Token
import Wildcard.Escaping
import Wildcard.Error
import Wildcard.Pattern.Kind
import Wildcard.Pattern
import Wildcard.Pattern.Bound
import Wildcard.Pattern.Equality
import Wildcard.Pattern.Language
import Wildcard.Render
import Wildcard.Render.Recorder
import Wildcard.Render.ScopedText
import Wildcard.Render.Spelling
import Wildcard.Render.Fixed
import Wildcard.Render.Expression
import Wildcard.Unix
import Wildcard.Sql92
import Wildcard.Regex.CharClass
import Wildcard.Regex
import Wildcard.Regex.Limits
import Wildcard.Regex.Room
import Wildcard.Regex.Span
import Wildcard.Regex.Utf8
import Wildcard.Regex.Escape
import Wildcard.Regex.Bracket
import Wildcard.Regex.Lexeme
import Wildcard.Regex.Source
import Wildcard.Regex.Marked
import Wildcard.Matcher
import Wildcard.Dialect
import Wildcard.Command.Options
import Wildcard.Command
import Wildcard.Main
import Wildcard.Proofs.Regex.Repeats
import Wildcard.Proofs.Regex.Marks
import Wildcard.Proofs.Regex.Search
import Wildcard.Proofs.Regex.Sequence
import Wildcard.Proofs.Render.Source
import Wildcard.Proofs.Render.Reading
import Wildcard.Proofs.Render.ReadBack
import Wildcard.Proofs.Pattern.Language
import Wildcard.Proofs.Pattern.Matching
import Wildcard.Proofs.Pattern.Normal
import Wildcard.Proofs.Pattern.Simple
import Wildcard.Proofs.Token.Splitting
import Wildcard.Proofs.Token.Runs
import Wildcard.Proofs.Token.Symbols
import Wildcard.Proofs.Token.Scanning
import Wildcard.Proofs.Token.Escaped
import Wildcard.Proofs.Unix.Tokens
import Wildcard.Proofs.Unix.Glob
import Wildcard.Proofs.Sql92.Tokens
import Wildcard.Proofs.Sql92.Like
import Wildcard.Proofs.Render.Written
import Wildcard.Proofs.Render.Tokens
import Wildcard.Proofs.Render.Coverage
import Wildcard.Proofs.Text.ByteOrder
import Wildcard.Proofs.Pattern.Bound
import Wildcard.Proofs.Render.Fixed
import Wildcard.Proofs.Pattern.Repetition
import Wildcard.Proofs.Pattern.Grouping
import Wildcard.Proofs.Render.Items
import Wildcard.Proofs.Unix.Items
import Wildcard.Proofs.Unix.Grammar
import Wildcard.Proofs.Sql92.Items
import Wildcard.Proofs.Sql92.Grammar
import Wildcard.Proofs.Unix.Separated
import Wildcard.Proofs.Render.RoundTrip
import Wildcard.Proofs.Render.Bound
import Wildcard.Proofs.Render.Stable
import Wildcard.Proofs.Render.Grammar
import Wildcard.Proofs.Pattern.Equality
import Wildcard.Proofs.Pattern.Flat
import Wildcard.Proofs.Text.Lines
import Wildcard.Proofs.Command.Filtering
import Wildcard.Proofs.Dialect.Translation
import Wildcard.Proofs.Render.Spelled
import Wildcard.Proofs.Render.Events
import Wildcard.Proofs.Pattern.Accepted
import Wildcard.Proofs.Command.Options
import Wildcard.Proofs.Render.Scripts
import Wildcard.Proofs.Text.Boundary
import Wildcard.Proofs.Render.Bytes
import Wildcard.Proofs.Render.Capacity
import Wildcard.Proofs.Pattern.Capacity

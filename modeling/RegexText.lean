import RegexText.Error
import RegexText.Flags
import RegexText.Lexer.Event
import RegexText.Lexer.Scan
import RegexText.Lexer.State
import RegexText.Lexer.Tokens
import RegexText.Nesting.Stack
import RegexText.Nesting.Symbol
import RegexText.Pattern.Basic
import RegexText.Pattern.Cache
import RegexText.Pattern.Find
import RegexText.Pattern.Match
import RegexText.Pattern.Replace
import RegexText.Pattern.Split
import RegexText.Pattern.Trim
import RegexText.Pattern.Walk
import RegexText.Regex.Assertion
import RegexText.Regex.Bracket
import RegexText.Regex.CharClass
import RegexText.Regex.Escape
import RegexText.Regex.Expr
import RegexText.Regex.Modes
import RegexText.Regex.Parser
import RegexText.Regex.Program
import RegexText.Regex.Run
import RegexText.Regex.Search
import RegexText.Regex.SyntaxError
import RegexText.SeparatorPolicy
import RegexText.Template
import RegexText.Text.Basic
import RegexText.Text.Components
import RegexText.Text.Offset
import RegexText.Text.Quoted
import RegexText.Text.Slice
import RegexText.TrimSet
import RegexText.Unicode.Alphabetic
import RegexText.Unicode.Blank
import RegexText.Unicode.CaseOrbit
import RegexText.Unicode.Category
import RegexText.Unicode.Letter
import RegexText.Unicode.Mark
import RegexText.Unicode.Number
import RegexText.Unicode.Printable
import RegexText.Unicode.Punctuation
import RegexText.Unicode.RangeTable
import RegexText.Unicode.Word
import RegexText.Proofs.Lexer.Boundary
import RegexText.Proofs.Lexer.Ending
import RegexText.Proofs.Lexer.Groups
import RegexText.Proofs.Lexer.Malformed
import RegexText.Proofs.Lexer.OnePass
import RegexText.Proofs.Lexer.Outside
import RegexText.Proofs.Lexer.Reached
import RegexText.Proofs.Lexer.Segments
import RegexText.Proofs.Lexer.Step
import RegexText.Proofs.Lexer.Stopping
import RegexText.Proofs.Lexer.Unnested
import RegexText.Proofs.Lexer.Whole
import RegexText.Proofs.Nesting.Grammar
import RegexText.Proofs.Nesting.Mark
import RegexText.Proofs.Nesting.Place
import RegexText.Proofs.Nesting.Search
import RegexText.Proofs.Pattern.Cache
import RegexText.Proofs.Pattern.Coordinates
import RegexText.Proofs.Pattern.Display
import RegexText.Proofs.Pattern.Enumeration
import RegexText.Proofs.Pattern.Explode
import RegexText.Proofs.Pattern.Found
import RegexText.Proofs.Pattern.Gathered
import RegexText.Proofs.Pattern.Literal
import RegexText.Proofs.Pattern.Occurrences
import RegexText.Proofs.Pattern.Offset
import RegexText.Proofs.Pattern.Progress
import RegexText.Proofs.Pattern.Segmentation
import RegexText.Proofs.Pattern.Successive
import RegexText.Proofs.Pattern.Walk
import RegexText.Proofs.Regex.Bounds
import RegexText.Proofs.Regex.Inside
import RegexText.Proofs.Regex.Layout
import RegexText.Proofs.Regex.Leads
import RegexText.Proofs.Regex.Matches
import RegexText.Proofs.Regex.Priority
import RegexText.Proofs.Regex.Stable
import RegexText.Proofs.Regex.Suffix
import RegexText.Proofs.Regex.Sweep
import RegexText.Proofs.Template.Grammar
import RegexText.Proofs.Text.Boundary
import RegexText.Proofs.Text.Offset
import RegexText.Proofs.Text.Quoted
import RegexText.Proofs.Text.Slice
import RegexText.Proofs.Text.Trimming
import RegexText.Proofs.Trim.Alternatives
import RegexText.Proofs.Trim.Erase
import RegexText.Proofs.Trim.Head
import RegexText.Proofs.Trim.Idempotent
import RegexText.Proofs.Trim.Operators
import RegexText.Proofs.Trim.Reading
import RegexText.Proofs.Trim.Tail
import RegexText.Proofs.Trim.Tokens

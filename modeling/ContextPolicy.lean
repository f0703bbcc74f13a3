import ContextPolicy.Ask
import ContextPolicy.Change
import ContextPolicy.Condition.Compile
import ContextPolicy.Condition.Emission
import ContextPolicy.Condition.Extract
import ContextPolicy.Condition.Scheme
import ContextPolicy.Dimension
import ContextPolicy.DistanceUnit
import ContextPolicy.Document
import ContextPolicy.Expression
import ContextPolicy.Expression.Coded
import ContextPolicy.Expression.Reader
import ContextPolicy.Expression.Token
import ContextPolicy.Facts
import ContextPolicy.Facts.Coded
import ContextPolicy.Graph
import ContextPolicy.Graph.Chain
import ContextPolicy.Graph.Describe
import ContextPolicy.Graph.Index
import ContextPolicy.Graph.Log
import ContextPolicy.Iri
import ContextPolicy.Json.Decode
import ContextPolicy.Json.Number
import ContextPolicy.Json.Reader
import ContextPolicy.Json.Token
import ContextPolicy.Json.Written
import ContextPolicy.Names
import ContextPolicy.Number.Decimal
import ContextPolicy.Number.Shortest
import ContextPolicy.Number.Written
import ContextPolicy.Prefixes
import ContextPolicy.RdfXml.Reader
import ContextPolicy.RdfXml.Statement
import ContextPolicy.RdfXml.Writer
import ContextPolicy.Session
import ContextPolicy.Settings
import ContextPolicy.Term
import ContextPolicy.Term.Coded
import ContextPolicy.Term.Generated
import ContextPolicy.Term.Writable
import ContextPolicy.Term.Written
import ContextPolicy.Text.Blank
import ContextPolicy.Text.Casing
import ContextPolicy.Text.Hex
import ContextPolicy.Text.Letters
import ContextPolicy.Text.Lowercase
import ContextPolicy.Text.NameChars
import ContextPolicy.Text.Quoted
import ContextPolicy.Text.Ranges
import ContextPolicy.TextFormat
import ContextPolicy.Timestamp
import ContextPolicy.Triple
import ContextPolicy.Turtle.Lexer
import ContextPolicy.Turtle.Name
import ContextPolicy.Turtle.Numeral
import ContextPolicy.Turtle.Phrase
import ContextPolicy.Turtle.Quoted
import ContextPolicy.Turtle.Reader
import ContextPolicy.Vocabulary
import ContextPolicy.Xml.Entity
import ContextPolicy.Xml.Lexer
import ContextPolicy.Proofs.Graph.Entries
import ContextPolicy.Proofs.Graph.Indexed
import ContextPolicy.Proofs.Graph.Lookup
import ContextPolicy.Proofs.Graph.Reach
import ContextPolicy.Proofs.Graph.History
import ContextPolicy.Proofs.Condition.Reads
import ContextPolicy.Proofs.Condition.Answers
import ContextPolicy.Proofs.Condition.Emission
import ContextPolicy.Proofs.Condition.Blocks
import ContextPolicy.Proofs.Condition.RoundTrip
import ContextPolicy.Proofs.Condition.Connected
import ContextPolicy.Proofs.Session.Apply
import ContextPolicy.Proofs.Session.Overwriting
import ContextPolicy.Proofs.Session.Replacement
import ContextPolicy.Proofs.Expression.Grammar
import ContextPolicy.Proofs.Expression.Lexing
import ContextPolicy.Proofs.Expression.Canonical
import ContextPolicy.Proofs.Turtle.Grammar
import ContextPolicy.Proofs.Turtle.Lexing
import ContextPolicy.Proofs.Turtle.Accepting
import ContextPolicy.Proofs.Document.ReadBack
import ContextPolicy.Proofs.Condition.Queries
import ContextPolicy.Proofs.Ask.Lexing
import ContextPolicy.Proofs.Settings.Accepted
import ContextPolicy.Proofs.Ask.Clauses
import ContextPolicy.Proofs.Ask.Outline
import ContextPolicy.Proofs.Ask.Meaning
import ContextPolicy.Proofs.Condition.Terms
import ContextPolicy.Proofs.Condition.Written
import ContextPolicy.Proofs.Session.Reload
import ContextPolicy.Proofs.Expression.Reading
import ContextPolicy.Proofs.Condition.Reading
import ContextPolicy.Proofs.Condition.Mirrored
import ContextPolicy.Proofs.Condition.Relabelled
import ContextPolicy.Proofs.Session.Valid
import ContextPolicy.Proofs.Expression.Faults
import ContextPolicy.Proofs.Graph.Row
import ContextPolicy.Proofs.RdfXml.Lexing
import ContextPolicy.Proofs.RdfXml.ReadBack
import ContextPolicy.Proofs.RdfXml.Describing
import ContextPolicy.Proofs.Condition.Values
import ContextPolicy.Proofs.Session.Export
import ContextPolicy.Proofs.Graph.Cells
import ContextPolicy.Proofs.Graph.Growth
import ContextPolicy.Proofs.Graph.Removal
import ContextPolicy.Proofs.Graph.Consistency
import ContextPolicy.Proofs.Condition.Presence
import ContextPolicy.Proofs.Number.Exact
import ContextPolicy.Proofs.Timestamp.Calendar
import ContextPolicy.Proofs.Timestamp.Reading
import ContextPolicy.Proofs.Condition.Validity
import ContextPolicy.Proofs.Condition.Window
import ContextPolicy.Proofs.Document.Guarded
import ContextPolicy.Proofs.Turtle.Literal
import ContextPolicy.Proofs.Document.Determined
import ContextPolicy.Proofs.Prefixes.Short
import ContextPolicy.Proofs.Prefixes.TwoWay
import ContextPolicy.Proofs.Settings.Keywords
import ContextPolicy.Proofs.Condition.Tree
import ContextPolicy.Proofs.Condition.Respelled
import ContextPolicy.Proofs.Session.Numbering
import ContextPolicy.Proofs.Expression.Spans

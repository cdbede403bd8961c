import UiSuite.CommandLine.Arguments
import UiSuite.CommandLine.Execution
import UiSuite.CommandLine.Invocation
import UiSuite.Config.Basic
import UiSuite.Config.Format
import UiSuite.Config.Level
import UiSuite.Config.Loading
import UiSuite.Decimal.Binary64
import UiSuite.Decimal.Reading
import UiSuite.Decimal.Shortest
import UiSuite.Element.Basic
import UiSuite.Element.Format
import UiSuite.Element.Kind
import UiSuite.Execution.Action
import UiSuite.Execution.Performing
import UiSuite.Execution.Run
import UiSuite.Execution.StepError
import UiSuite.Execution.Target
import UiSuite.Execution.Waiting
import UiSuite.Execution.World
import UiSuite.Interactive.Address
import UiSuite.Interactive.Fetch
import UiSuite.Interactive.Session
import UiSuite.Json.Basic
import UiSuite.Json.Draft
import UiSuite.Json.Numeral
import UiSuite.Json.Outline
import UiSuite.Json.Printer
import UiSuite.Json.Record
import UiSuite.Json.Shape
import UiSuite.Json.Token
import UiSuite.Main
import UiSuite.Proofs.CommandLine.Closing
import UiSuite.Proofs.Decimal.Spelling
import UiSuite.Proofs.Execution.Aborting
import UiSuite.Proofs.Execution.Arriving
import UiSuite.Proofs.Execution.Asserting
import UiSuite.Proofs.Execution.Atomicity
import UiSuite.Proofs.Execution.Calls
import UiSuite.Proofs.Execution.Clock
import UiSuite.Proofs.Execution.Console
import UiSuite.Proofs.Execution.Events
import UiSuite.Proofs.Execution.History
import UiSuite.Proofs.Execution.Performing
import UiSuite.Proofs.Execution.Registering
import UiSuite.Proofs.Execution.Repeating
import UiSuite.Proofs.Execution.Searching
import UiSuite.Proofs.Execution.Sighting
import UiSuite.Proofs.Execution.Skipping
import UiSuite.Proofs.Execution.Stability
import UiSuite.Proofs.Execution.Strictness
import UiSuite.Proofs.Execution.Succession
import UiSuite.Proofs.Execution.Waiting
import UiSuite.Proofs.Interactive.Addressing
import UiSuite.Proofs.Interactive.Draining
import UiSuite.Proofs.Interactive.Leaving
import UiSuite.Proofs.Interactive.Pacing
import UiSuite.Proofs.Interactive.Rounds
import UiSuite.Proofs.Interactive.Stopping
import UiSuite.Proofs.Interactive.Visits
import UiSuite.Proofs.Json.Fields
import UiSuite.Proofs.Json.Layout
import UiSuite.Proofs.Json.Numeral
import UiSuite.Proofs.Json.Printing
import UiSuite.Proofs.Json.Records
import UiSuite.Proofs.Json.RoundTrip
import UiSuite.Proofs.Json.Scanning
import UiSuite.Proofs.Lists
import UiSuite.Proofs.Queue.Concurrency
import UiSuite.Proofs.Queue.Cycling
import UiSuite.Proofs.Queue.Ignoring
import UiSuite.Proofs.Queue.Serving
import UiSuite.Proofs.Report.Counting
import UiSuite.Proofs.Report.Lines
import UiSuite.Proofs.Report.Merging
import UiSuite.Proofs.Report.Reading
import UiSuite.Proofs.Report.Structured
import UiSuite.Proofs.Selector.Aliases
import UiSuite.Proofs.Selector.Grammar
import UiSuite.Proofs.Selector.Matches
import UiSuite.Proofs.Selector.Rendering
import UiSuite.Proofs.Selector.Suffix
import UiSuite.Proofs.Sorting
import UiSuite.Proofs.Suite.Labels
import UiSuite.Proofs.Suite.RoundTrip
import UiSuite.Proofs.Suite.Shapes
import UiSuite.Proofs.Suite.WaitTimes
import UiSuite.Proofs.Suite.Written
import UiSuite.Proofs.Surface.Freshness
import UiSuite.Proofs.Surface.Growing
import UiSuite.Proofs.Surface.Identity
import UiSuite.Proofs.Surface.Locality
import UiSuite.Proofs.Surface.Moves
import UiSuite.Proofs.Surface.Numbering
import UiSuite.Proofs.Surface.Places
import UiSuite.Proofs.Surface.Recording
import UiSuite.Proofs.Surface.Timetable
import UiSuite.Proofs.Text.Trimming
import UiSuite.Proofs.Text.Utf8
import UiSuite.Proofs.Yaml.Margin
import UiSuite.Proofs.Yaml.Marks
import UiSuite.Proofs.Yaml.Reading
import UiSuite.Proofs.Yaml.Scalars
import UiSuite.Proofs.Yaml.Tokens
import UiSuite.Queue.Http
import UiSuite.Queue.Page
import UiSuite.Queue.Payloads
import UiSuite.Queue.Server
import UiSuite.Queue.Wire
import UiSuite.Release
import UiSuite.Report.Entry
import UiSuite.Report.Event
import UiSuite.Report.Structured
import UiSuite.Report.Tally
import UiSuite.Selector.AliasTable
import UiSuite.Selector.Matching
import UiSuite.Selector.Query
import UiSuite.Suite.Basic
import UiSuite.Suite.Decoding
import UiSuite.Suite.Format
import UiSuite.Suite.Loading
import UiSuite.Suite.WaitTime
import UiSuite.Surface.Basic
import UiSuite.Surface.Faulty
import UiSuite.Surface.Launch
import UiSuite.Surface.Stage
import UiSuite.Text.Blank
import UiSuite.Text.Digit
import UiSuite.Text.Printable
import UiSuite.Text.Quoted
import UiSuite.Text.Search
import UiSuite.Text.Utf8
import UiSuite.Yaml.Anchor
import UiSuite.Yaml.Cursor
import UiSuite.Yaml.Layout
import UiSuite.Yaml.Mark
import UiSuite.Yaml.Node
import UiSuite.Yaml.Resolution
import UiSuite.Yaml.Scalar
import UiSuite.Yaml.Token
import UiSuite.Yaml.Value

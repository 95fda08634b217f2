import EdgeMapper.OrderedMap
import EdgeMapper.Cypher.Pattern
import EdgeMapper.Number.Numeral
import EdgeMapper.Text.Blank
import EdgeMapper.Text.Digit
import EdgeMapper.Text.Printable
import EdgeMapper.Text.Upper
import EdgeMapper.Value.Entries
import EdgeMapper.Value.Reading
import EdgeMapper.Instant
import EdgeMapper.PropertyLedger
import EdgeMapper.Failure
import EdgeMapper.Node
import EdgeMapper.Edge
import EdgeMapper.Log
import EdgeMapper.Cypher.Statement
import EdgeMapper.Cypher.Batch
import EdgeMapper.Record
import EdgeMapper.Event
import EdgeMapper.Subscriptions
import EdgeMapper.Connection
import EdgeMapper.Workspace
import EdgeMapper.Delivery
import EdgeMapper.Writer
import EdgeMapper.Session
import EdgeMapper.Yaml.Fault
import EdgeMapper.Yaml.Cursor
import EdgeMapper.Yaml.Scalar
import EdgeMapper.Yaml.Token
import EdgeMapper.Yaml.Timestamp
import EdgeMapper.Yaml.Tag
import EdgeMapper.Yaml.Graph
import EdgeMapper.Yaml.Graph.Grammar
import EdgeMapper.Yaml.Graph.Merge
import EdgeMapper.Yaml.Atom
import EdgeMapper.Yaml.Document
import EdgeMapper.Yaml.ScalarStyle
import EdgeMapper.Yaml.Layout
import EdgeMapper.FileTree
import EdgeMapper.Settings
import EdgeMapper.Proofs.Cypher.Phrases
import EdgeMapper.Proofs.Cypher.Quoting
import EdgeMapper.Proofs.Cypher.Lexeme
import EdgeMapper.Proofs.Cypher.Clause
import EdgeMapper.Proofs.Cypher.Spelling
import EdgeMapper.Proofs.Cypher.References
import EdgeMapper.Proofs.Cypher.Batches
import EdgeMapper.Proofs.Cypher.ReadBack
import EdgeMapper.Proofs.Cypher.PrefixCode
import EdgeMapper.Proofs.Overlay
import EdgeMapper.Proofs.LastWrites
import EdgeMapper.Proofs.Cypher.Effect
import EdgeMapper.Proofs.Tasks
import EdgeMapper.Proofs.Updating
import EdgeMapper.Proofs.WriteBack
import EdgeMapper.Proofs.Cypher.Collisions
import EdgeMapper.Proofs.Exchange
import EdgeMapper.Proofs.AllOrNothing
import EdgeMapper.Proofs.Calls
import EdgeMapper.Proofs.Relabelling
import EdgeMapper.Proofs.OneByOne
import EdgeMapper.Proofs.Listening
import EdgeMapper.Proofs.Continuity
import EdgeMapper.Proofs.Commands
import EdgeMapper.Proofs.Preparations
import EdgeMapper.Proofs.Locality
import EdgeMapper.Proofs.Hearing
import EdgeMapper.Proofs.Identity
import EdgeMapper.Proofs.Reporting
import EdgeMapper.Proofs.ListenerEdits
import EdgeMapper.Proofs.Confirmation
import EdgeMapper.Proofs.Creation
import EdgeMapper.Proofs.Mismatches
import EdgeMapper.Proofs.CreatedEvents
import EdgeMapper.Proofs.Resolution
import EdgeMapper.Proofs.Deliveries
import EdgeMapper.Proofs.Decoding
import EdgeMapper.Proofs.CreationInTurn
import EdgeMapper.Proofs.Calendar
import EdgeMapper.Proofs.InstantOrder
import EdgeMapper.Proofs.Timestamps
import EdgeMapper.Proofs.Loading

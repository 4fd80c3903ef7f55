import Steward.Backend.Client
import Steward.Backend.Connector
import Steward.Backend.Custody
import Steward.Backend.EnvironmentStore
import Steward.Backend.FileStore
import Steward.Backend.Lookup
import Steward.Backend.Settings
import Steward.Cipher.Aes
import Steward.Cipher.Feedback
import Steward.Cipher.Rsa
import Steward.Compression.Bits
import Steward.Compression.Gzip
import Steward.Compression.Huffman
import Steward.Compression.Inflate
import Steward.Compression.Zlib
import Steward.Config.Decode
import Steward.Config.Expansion
import Steward.Config.Load
import Steward.Config.Resource
import Steward.Delivery.Bus
import Steward.Delivery.Dispatcher
import Steward.Delivery.Lane
import Steward.Delivery.Lanes
import Steward.Delivery.Report
import Steward.Digest.Checksum
import Steward.Digest.Sha1
import Steward.Event.Basic
import Steward.Event.Record
import Steward.Key.Path
import Steward.Log.Filter
import Steward.Log.Install
import Steward.Log.Record
import Steward.Log.Settings
import Steward.Number.Binary64
import Steward.Number.Decimal
import Steward.Number.Octets
import Steward.OpenPgp.Armor
import Steward.OpenPgp.Message
import Steward.OpenPgp.Opening
import Steward.OpenPgp.Packet
import Steward.OpenPgp.SecretKey
import Steward.Proofs.Supervision.Chronicle
import Steward.Secret.Decrypt
import Steward.Secret.Error
import Steward.Secret.Keyring
import Steward.Supervision.Course
import Steward.Supervision.Deed
import Steward.Supervision.Round
import Steward.Supervision.Supervisor
import Steward.Supervision.Worker
import Steward.Template.Basic
import Steward.Template.Monitor
import Steward.Text.Base64
import Steward.Text.Blank
import Steward.Text.Case
import Steward.Text.CaseTable
import Steward.Text.Printable
import Steward.Text.Quoted
import Steward.Text.Utf8
import Steward.Toml.Document
import Steward.Toml.Lexical
import Steward.Toml.Statement
import Steward.Toml.Value
import Steward.World.Basic
import Steward.World.Environment
import Steward.World.Files
import Steward.World.Script
import Steward.Yaml.Cursor
import Steward.Yaml.Document
import Steward.Yaml.Leaf
import Steward.Yaml.Node
import Steward.Yaml.Schema
import Steward.Yaml.Token
import Steward.Yaml.Token.Lexer
import Steward.Yaml.Token.Property
import Steward.Yaml.Token.Scalar
import Steward.Yaml.Value
import Steward.Proofs.Supervision.Connecting
import Steward.Proofs.Supervision.Life
import Steward.Proofs.Supervision.Release
import Steward.Proofs.Supervision.Rounds
import Steward.Proofs.Delivery.Flush
import Steward.Proofs.Supervision.Course
import Steward.Proofs.Supervision.EventTrace
import Steward.Proofs.Supervision.Horizon
import Steward.Proofs.Supervision.Shutdown
import Steward.Proofs.Delivery.Waiting
import Steward.Proofs.Supervision.BoundedReturn
import Steward.Proofs.Delivery.LaneBooks
import Steward.Proofs.Delivery.Steps
import Steward.Proofs.Delivery.Books
import Steward.Proofs.Delivery.Arrival
import Steward.Proofs.Delivery.Publishing
import Steward.Proofs.Supervision.History
import Steward.Proofs.Supervision.Accounts
import Steward.Proofs.Supervision.Barrier
import Steward.Proofs.Supervision.Independence
import Steward.Proofs.Text.ByteOrder
import Steward.Proofs.Text.Utf8
import Steward.Proofs.World.Rearrangement
import Steward.Proofs.Config.Loading
import Steward.Proofs.Config.Grammar
import Steward.Proofs.Key.Walk
import Steward.Proofs.Backend.Closing
import Steward.Proofs.Backend.Pairs
import Steward.Proofs.Yaml.Places
import Steward.Proofs.Backend.Flattening
import Steward.Proofs.Text.AsciiCase
import Steward.Proofs.Key.Under
import Steward.Proofs.Backend.VariableNames
import Steward.Proofs.Backend.Answering
import Steward.Proofs.Key.Segments
import Steward.Proofs.Backend.Queries
import Steward.Proofs.Supervision.Ties
import Steward.Proofs.Supervision.Attempts
import Steward.Proofs.Supervision.Cancellation
import Steward.Proofs.Supervision.Retries
import Steward.Proofs.Supervision.Building
import Steward.Proofs.Supervision.Naming
import Steward.Proofs.Delivery.Timetable
import Steward.Proofs.Delivery.Caller
import Steward.Proofs.Delivery.Handover
import Steward.Proofs.Delivery.Separation
import Steward.Proofs.Delivery.Draining
import Steward.Proofs.Delivery.Reporting
import Steward.Proofs.Config.Failing
import Steward.Proofs.Config.Lines
import Steward.Proofs.Toml.Fields
import Steward.Proofs.Toml.Names
import Steward.Proofs.Config.Decoding
import Steward.Proofs.Config.Declaring
import Steward.Proofs.Key.Nesting
import Steward.Proofs.Backend.Namespaces
import Steward.Proofs.Backend.RoundTrip
import Steward.Proofs.Compression.Member
import Steward.Proofs.Text.Base64
import Steward.Proofs.OpenPgp.Contents
import Steward.Proofs.Secret.Opening
import Steward.Proofs.Secret.Rings
import Steward.Proofs.Event.Words
import Steward.Proofs.Supervision.Numbering
import Steward.Proofs.Supervision.Timing
import Steward.Proofs.Supervision.Turns

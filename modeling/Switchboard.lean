import Switchboard.Admin
import Switchboard.Atom.Basic
import Switchboard.Atom.Check
import Switchboard.Atom.Decoding
import Switchboard.Atom.Depth
import Switchboard.Atom.Encoding
import Switchboard.Atom.Error
import Switchboard.Atom.Listing
import Switchboard.Atom.Signature
import Switchboard.Atom.Table
import Switchboard.Atom.Vocabulary
import Switchboard.Bytes
import Switchboard.Channel
import Switchboard.Chunk
import Switchboard.Connection
import Switchboard.Dictionary
import Switchboard.Directory
import Switchboard.Frame.Basic
import Switchboard.Frame.Checksum
import Switchboard.Frame.Decoder
import Switchboard.Frame.Error
import Switchboard.Frame.Payload
import Switchboard.Gid
import Switchboard.Host
import Switchboard.Link
import Switchboard.Message
import Switchboard.Pacer
import Switchboard.Proofs.Atom.Decoding
import Switchboard.Proofs.Atom.Layout
import Switchboard.Proofs.Atom.Made
import Switchboard.Proofs.Atom.Table
import Switchboard.Proofs.Bytes
import Switchboard.Proofs.Chunk
import Switchboard.Proofs.Connection
import Switchboard.Proofs.Except
import Switchboard.Proofs.Frame.Decoder
import Switchboard.Proofs.Pacer
import Switchboard.Proofs.Pacing
import Switchboard.Proofs.Scene
import Switchboard.Proofs.Script.Flatten
import Switchboard.Proofs.Script.Parsed
import Switchboard.Proofs.Script.RoundTrip
import Switchboard.Proofs.Storage.Store
import Switchboard.Proofs.Storage.Tree
import Switchboard.Proofs.Text.Decimal
import Switchboard.Proofs.Transfer.Change
import Switchboard.Proofs.Transfer.Integrity
import Switchboard.Proofs.Transfer.Operation
import Switchboard.Proofs.Transfer.Run
import Switchboard.Proofs.Transfer.Slot
import Switchboard.Proofs.Transfer.Sound
import Switchboard.Proofs.Transfer.Trail
import Switchboard.Scene
import Switchboard.ScreenName
import Switchboard.Script.Balance
import Switchboard.Script.Basic
import Switchboard.Script.Builder
import Switchboard.Script.Compile
import Switchboard.Script.Error
import Switchboard.Server
import Switchboard.Settings.Basic
import Switchboard.Settings.Environment
import Switchboard.Settings.File
import Switchboard.Settings.Load
import Switchboard.Settings.Path
import Switchboard.Source.Lexeme
import Switchboard.Source.Operand
import Switchboard.Source.Parse
import Switchboard.Source.Statement
import Switchboard.Startup
import Switchboard.Storage.Disk
import Switchboard.Storage.Key
import Switchboard.Storage.Memory
import Switchboard.Storage.Store
import Switchboard.Storage.Tree
import Switchboard.Text.Blank
import Switchboard.Text.Decimal
import Switchboard.Text.Digits
import Switchboard.Text.Floor
import Switchboard.Text.Hex
import Switchboard.Text.Lowercase
import Switchboard.Text.Quoted
import Switchboard.Text.Utf8
import Switchboard.Text.Visible
import Switchboard.Token
import Switchboard.Toml.Document
import Switchboard.Toml.Quoted
import Switchboard.Toml.Reader
import Switchboard.Toml.Scalar
import Switchboard.Toml.Table
import Switchboard.Toml.Written
import Switchboard.Transfer.Engine
import Switchboard.Transfer.Error
import Switchboard.Transfer.Notice
import Switchboard.Transfer.State
import Switchboard.Proofs.Frame.Incremental
import Switchboard.Proofs.Transfer.Message
import Switchboard.Proofs.Transfer.Initiation
import Switchboard.Proofs.Transfer.Download
import Switchboard.Proofs.Link
import Switchboard.Proofs.Transfer.Delivery
import Switchboard.Proofs.Presence.Online
import Switchboard.Proofs.Presence.Recurrence
import Switchboard.Proofs.Transfer.Interleaving
import Switchboard.Proofs.Source.Replay
import Switchboard.Proofs.Script.Lines
import Switchboard.Proofs.Script.Calls
import Switchboard.Proofs.Script.Placed
import Switchboard.Proofs.Script.History
import Switchboard.Proofs.Atom.Levels
import Switchboard.Proofs.Script.Outline
import Switchboard.Proofs.Dispatch.Basic
import Switchboard.Proofs.Dispatch.Operation
import Switchboard.Proofs.Dispatch.Notice
import Switchboard.Proofs.Transfer.Overdue
import Switchboard.Proofs.Transfer.Farewell
import Switchboard.Proofs.Transfer.Announcement
import Switchboard.Proofs.Traffic.Size
import Switchboard.Proofs.Traffic.Queue
import Switchboard.Proofs.Traffic.Server
import Switchboard.Proofs.Traffic.Run
import Switchboard.Proofs.Text.Quoted
import Switchboard.Proofs.Frame.Damage
import Switchboard.Proofs.Frame.Resync
import Switchboard.Proofs.Storage.Agreement
import Switchboard.Proofs.Chunking
import Switchboard.Proofs.Atom.Shortest
import Switchboard.Proofs.Directory
import Switchboard.Proofs.Storage.Independence
import Switchboard.Proofs.Storage.Confinement
import Switchboard.Proofs.Presence.Uploads
import Switchboard.Proofs.Source.Exchange
import Switchboard.Proofs.Atom.Prefixes
import Switchboard.Proofs.Transfer.Activity
import Switchboard.Proofs.Traffic.Progress
import Switchboard.Proofs.Traffic.Rejection
import Switchboard.Proofs.Atom.Contract
import Switchboard.Proofs.Dispatch.Scene
import Switchboard.Proofs.Traffic.Requests
import Switchboard.Proofs.Transfer.History
import Switchboard.Proofs.ScreenName
import Switchboard.Proofs.Gid
import Switchboard.Proofs.Presence.Identity
import Switchboard.Proofs.Message
import Switchboard.Proofs.Settings
import Switchboard.Proofs.Atom.Depths
import Switchboard.Proofs.Atom.Balance
import Switchboard.Proofs.Atom.Tiling
import Switchboard.Proofs.Source.Closing

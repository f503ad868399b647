import TimeSeries.BitReader
import TimeSeries.BitStream
import TimeSeries.Bytes
import TimeSeries.Checksum
import TimeSeries.Chunk
import TimeSeries.Compression
import TimeSeries.Daemon.CommandLine
import TimeSeries.Daemon.Environment
import TimeSeries.Daemon.Settings
import TimeSeries.Daemon.SocketAddress
import TimeSeries.Disk
import TimeSeries.Document
import TimeSeries.Error
import TimeSeries.Glob
import TimeSeries.IdSet
import TimeSeries.Ingest
import TimeSeries.IngestLine
import TimeSeries.Lifecycle
import TimeSeries.Main
import TimeSeries.Manager.Basic
import TimeSeries.Manager.Query
import TimeSeries.Manager.Settings
import TimeSeries.Matcher
import TimeSeries.Metric
import TimeSeries.Path
import TimeSeries.Point
import TimeSeries.Proofs.Alteration
import TimeSeries.Proofs.BitStream.Bytes
import TimeSeries.Proofs.BitStream.Inverse
import TimeSeries.Proofs.BitStream.Read
import TimeSeries.Proofs.BitStream.Resume
import TimeSeries.Proofs.BitStream.Session
import TimeSeries.Proofs.BitStream.Write
import TimeSeries.Proofs.Checksum
import TimeSeries.Proofs.Chunk.Answer
import TimeSeries.Proofs.Chunk.Calls
import TimeSeries.Proofs.Chunk.Damage
import TimeSeries.Proofs.Chunk.Life
import TimeSeries.Proofs.Chunk.Size
import TimeSeries.Proofs.Daemon.CommandLine
import TimeSeries.Proofs.Daemon.Environment
import TimeSeries.Proofs.Daemon.Layers
import TimeSeries.Proofs.Dedup
import TimeSeries.Proofs.Dedup.Collapse
import TimeSeries.Proofs.Directory
import TimeSeries.Proofs.Disk
import TimeSeries.Proofs.Document
import TimeSeries.Proofs.Failing
import TimeSeries.Proofs.Freezing
import TimeSeries.Proofs.FullName
import TimeSeries.Proofs.FullName.Reading
import TimeSeries.Proofs.Glob.Filling
import TimeSeries.Proofs.Glob.Folding
import TimeSeries.Proofs.Glob.Safety
import TimeSeries.Proofs.IdSet
import TimeSeries.Proofs.Ingest
import TimeSeries.Proofs.IngestLine
import TimeSeries.Proofs.Lifecycle.Orderly
import TimeSeries.Proofs.Lifecycle.Pass
import TimeSeries.Proofs.Lifecycle.Safety
import TimeSeries.Proofs.Lifecycle.Sweep
import TimeSeries.Proofs.Lines
import TimeSeries.Proofs.Manager.Acceptance
import TimeSeries.Proofs.Manager.Answer
import TimeSeries.Proofs.Manager.Balance
import TimeSeries.Proofs.Manager.Group
import TimeSeries.Proofs.Manager.Handles
import TimeSeries.Proofs.Manager.History
import TimeSeries.Proofs.Manager.Invariant
import TimeSeries.Proofs.Manager.Late
import TimeSeries.Proofs.Manager.Partition
import TimeSeries.Proofs.Manager.Refusal
import TimeSeries.Proofs.Manager.Repeated
import TimeSeries.Proofs.Manager.Run
import TimeSeries.Proofs.Manager.Spill
import TimeSeries.Proofs.Manager.Sum
import TimeSeries.Proofs.Manager.Tally
import TimeSeries.Proofs.Manager.Window
import TimeSeries.Proofs.Manager.WindowChunk
import TimeSeries.Proofs.Manager.WindowPoints
import TimeSeries.Proofs.Path
import TimeSeries.Proofs.Query
import TimeSeries.Proofs.RecordCalls
import TimeSeries.Proofs.RecordMap
import TimeSeries.Proofs.Series.Acceptance
import TimeSeries.Proofs.Series.Code
import TimeSeries.Proofs.Series.RoundTrip
import TimeSeries.Proofs.Series.Window
import TimeSeries.Proofs.SeriesReader.Decode
import TimeSeries.Proofs.SeriesReader.Delimited
import TimeSeries.Proofs.SeriesReader.Safety
import TimeSeries.Proofs.SeriesReader.Trap
import TimeSeries.Proofs.Store
import TimeSeries.Proofs.Store.Refused
import TimeSeries.Proofs.TagIndex.Algebra
import TimeSeries.Proofs.TagIndex.Answer
import TimeSeries.Proofs.TagIndex.Contents
import TimeSeries.Proofs.TagIndex.Invariant
import TimeSeries.Proofs.TagIndex.Lookup
import TimeSeries.Proofs.TagIndex.Matching
import TimeSeries.Proofs.TagIndex.Numbering
import TimeSeries.Proofs.TreeMap
import TimeSeries.Proofs.Words
import TimeSeries.Query
import TimeSeries.RecordMap
import TimeSeries.Regex.Basic
import TimeSeries.Regex.Category
import TimeSeries.Regex.CharClass
import TimeSeries.Regex.Parser
import TimeSeries.Regex.Script
import TimeSeries.Series
import TimeSeries.SeriesReader
import TimeSeries.Store.Basic
import TimeSeries.Store.Failing
import TimeSeries.Store.Frozen
import TimeSeries.Store.Growing
import TimeSeries.TagIndex
import TimeSeries.Telemetry.Effect
import TimeSeries.Telemetry.Event
import TimeSeries.Telemetry.Meter
import TimeSeries.Text.Binary64
import TimeSeries.Text.Blank
import TimeSeries.Text.CaseTables
import TimeSeries.Text.CodePoints
import TimeSeries.Text.Integer
import TimeSeries.Text.Lines
import TimeSeries.Text.LowerCase
import TimeSeries.Text.Pieces
import TimeSeries.Text.Quoted
import TimeSeries.Text.Scan
import TimeSeries.Text.ShortestDecimal
import TimeSeries.Text.Unprintable
import TimeSeries.Time
import TimeSeries.Toml.Basic
import TimeSeries.Toml.Moment
import TimeSeries.Toml.Number
import TimeSeries.Toml.Quoted
import TimeSeries.Toml.Tables

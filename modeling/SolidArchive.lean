import SolidArchive.Bytes
import SolidArchive.Crc32
import SolidArchive.Crc32.Running
import SolidArchive.Codec.Reads
import SolidArchive.Codec.StreamDecoder
import SolidArchive.Codec.BitReader
import SolidArchive.Codec.PrefixCode
import SolidArchive.Codec.Deflate
import SolidArchive.Codec.Lzma.RangeDecoder
import SolidArchive.Codec.Lzma.Properties
import SolidArchive.Codec.Lzma.Symbol
import SolidArchive.Codec.Lzma.Stream
import SolidArchive.Codec.Lzma.Chunked
import SolidArchive.Codec.Bzip2.Scramble
import SolidArchive.Codec.Bzip2.RunLength
import SolidArchive.Codec.Bzip2.Block
import SolidArchive.Codec.Bzip2.Stream
import SolidArchive.Codec.Method
import SolidArchive.Codec.Library
import SolidArchive.Error
import SolidArchive.Source
import SolidArchive.Substreams
import SolidArchive.Archive
import SolidArchive.Folder.Graph
import SolidArchive.StreamMap.Basic
import SolidArchive.StreamMap.PackRanges
import SolidArchive.StreamMap.Contents
import SolidArchive.StreamMap.Placement
import SolidArchive.StreamMap.Derive
import SolidArchive.Decoder
import SolidArchive.Folder.Decode
import SolidArchive.Reader.Cache
import SolidArchive.Reader.Basic
import SolidArchive.Reader.Extract
import SolidArchive.Reader.Workers
import SolidArchive.Reader.ExtractAll
import SolidArchive.Proofs.Verdict
import SolidArchive.Proofs.Runs
import SolidArchive.Proofs.Folder.Streams
import SolidArchive.Proofs.Folder.Cycles
import SolidArchive.Proofs.Folder.Binding
import SolidArchive.Proofs.Folder.Grammar
import SolidArchive.Proofs.Folder.Upstream
import SolidArchive.Proofs.Folder.Evaluation
import SolidArchive.Proofs.StreamMap.PackRegion
import SolidArchive.Proofs.StreamMap.Contents
import SolidArchive.Proofs.StreamMap.Placement
import SolidArchive.Proofs.StreamMap.Consistency
import SolidArchive.Proofs.StreamMap.Tiling
import SolidArchive.Proofs.StreamMap.Partition
import SolidArchive.Proofs.Folder.Mapped
import SolidArchive.Proofs.Folder.Meaning
import SolidArchive.Proofs.Folder.Trace
import SolidArchive.Proofs.Folder.Calls
import SolidArchive.Proofs.Folder.Outcome
import SolidArchive.Proofs.Reader.Scene
import SolidArchive.Proofs.Reader.Slices
import SolidArchive.Proofs.Reader.Workers
import SolidArchive.Proofs.Reader.Alone
import SolidArchive.Proofs.Reader.Uses
import SolidArchive.Proofs.Reader.Access
import SolidArchive.Proofs.Reader.Delivery
import SolidArchive.Proofs.Reader.Entry
import SolidArchive.Proofs.Reader.Memo
import SolidArchive.Proofs.Reader.Undisturbed
import SolidArchive.Proofs.Reader.Schedules
import SolidArchive.Proofs.Reader.Crowd
import SolidArchive.Proofs.Reader.Visits
import SolidArchive.Proofs.Reader.Tickets
import SolidArchive.Proofs.Reader.SingleFlight
import SolidArchive.Proofs.Reader.Generations
import SolidArchive.Proofs.Reader.ScheduleFree
import SolidArchive.Proofs.Reader.Skipping
import SolidArchive.Proofs.Reader.Cancellation
import SolidArchive.Proofs.Reader.Agreement
import SolidArchive.Proofs.Reader.Certificates
import SolidArchive.Proofs.Folder.Isolation
import SolidArchive.Proofs.Reader.Isolation
import SolidArchive.Proofs.StreamMap.Freezing
import SolidArchive.Proofs.Reader.Alike
import SolidArchive.Proofs.Reader.SpelledOut
import SolidArchive.Proofs.Crc32
import SolidArchive.Proofs.Folder.Stored
import SolidArchive.Proofs.Reader.Corruption
import SolidArchive.Proofs.Codec.Delta
import SolidArchive.Proofs.Writing
import SolidArchive.Proofs.Reader.RoundTrip
import SolidArchive.Proofs.Folder.Lockstep
import SolidArchive.Proofs.Folder.Renumbering
import SolidArchive.Proofs.StreamMap.Renumbering
import SolidArchive.Proofs.StreamMap.Insertion
import SolidArchive.Proofs.StreamMap.Building
import SolidArchive.Proofs.Folder.PackChecks
import SolidArchive.Proofs.Codec.Windows
import SolidArchive.Proofs.Codec.Buffered
import SolidArchive.Proofs.Codec.Unrolling
import SolidArchive.Proofs.Codec.Prefixes
import SolidArchive.Proofs.Folder.Sources
import SolidArchive.Proofs.Codec.Progress
import SolidArchive.Proofs.Codec.Identifiers
import SolidArchive.Proofs.Folder.Nesting
import SolidArchive.Proofs.Folder.Lookups
import SolidArchive.Proofs.StreamMap.Bounds

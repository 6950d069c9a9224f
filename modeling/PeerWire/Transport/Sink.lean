import PeerWire.Bytes
import PeerWire.Transport.Fault

/-! # Sinks

A sink is the script of what a writer will meet: how many bytes each write takes and which writes
and flushes fail. A sink whose script is used up takes everything. -/

namespace PeerWire

/-- How a sink answers one write. -/
inductive WriteEvent where
  /-- It takes at most so many bytes. -/
  | accept (limit : Nat)
  /-- It fails. -/
  | fault (fault : TransportFault)
  deriving DecidableEq, Repr

/-- What was written, how often, and what is to come. -/
structure Sink where
  /-- The bytes taken so far. -/
  written : Bytes := []
  /-- How the next writes go. -/
  writes : List WriteEvent := []
  /-- How the next flushes go. -/
  flushes : List (Option TransportFault) := []
  /-- The write calls made. -/
  writeCalls : Nat := 0
  /-- The flush calls made. -/
  flushCalls : Nat := 0
  deriving DecidableEq, Repr

namespace Sink

/-- Writes all bytes, in as many writes as that takes. An interrupted write is repeated; a write
that takes nothing is a fault. -/
def writeAll (sink : Sink) (bytes : Bytes) : Except TransportFault Unit × Sink :=
  match bytes with
  | [] => (.ok (), sink)
  | byte :: more =>
      match _script : sink.writes with
      | [] =>
          (.ok (), { sink with
            written := sink.written ++ byte :: more, writeCalls := sink.writeCalls + 1 })
      | .accept limit :: writes =>
          let sink := { sink with
            written := sink.written ++ (byte :: more).take limit
            writes, writeCalls := sink.writeCalls + 1 }
          if limit = 0 then (.error .writeZero, sink)
          else writeAll sink ((byte :: more).drop limit)
      | .fault fault :: writes =>
          let sink := { sink with writes, writeCalls := sink.writeCalls + 1 }
          if fault = .interrupted then writeAll sink (byte :: more) else (.error fault, sink)
  termination_by sink.writes.length
  decreasing_by all_goals simp [_script]

/-- Flushes once. -/
def flush (sink : Sink) : Except TransportFault Unit × Sink :=
  let flushCalls := sink.flushCalls + 1
  match sink.flushes with
  | some fault :: flushes => (.error fault, { sink with flushes, flushCalls })
  | none :: flushes => (.ok (), { sink with flushes, flushCalls })
  | [] => (.ok (), { sink with flushCalls })

end Sink

end PeerWire

import PeerWire.Bytes
import PeerWire.Transport.Fault

/-! # Sources

A source is the script of what a reader will find: data in chunks, faults, and ends of input,
which are chunks without bytes. A source whose script is used up stays at its end. -/

namespace PeerWire

/-- One entry of the script of a source. -/
inductive ReadEvent where
  /-- Bytes that have arrived; none for an end of input. -/
  | data (bytes : Bytes)
  /-- A failing read. -/
  | fault (fault : TransportFault)
  deriving DecidableEq, Repr

/-- What is still to be read, and how often reads were made. -/
structure Source where
  /-- The entries not used up. -/
  script : List ReadEvent
  /-- The read calls made. -/
  reads : Nat := 0
  deriving DecidableEq, Repr

namespace ReadEvent

/-- The bytes of an entry. -/
def bytes : ReadEvent → Bytes
  | .data bytes => bytes
  | .fault _ => []

/-- The number of reads an entry can last for, at least one. -/
def size (event : ReadEvent) : Nat := event.bytes.length + 1

end ReadEvent

namespace Source

/-- The source that gives the bytes of a file and then ends: `⟨[.data bytes], 0⟩`. -/
def ofBytes (bytes : Bytes) : Source := ⟨[.data bytes], 0⟩

/-- The data still to be read: `source.script.flatMap ReadEvent.bytes`. -/
def pending (source : Source) : Bytes := source.script.flatMap ReadEvent.bytes

/-- A bound on the reads that find an entry. -/
def size (source : Source) : Nat := source.script.foldr (fun event size => event.size + size) 0

/-- One read of at most `limit` bytes. What an entry holds beyond the limit stays in front of the
script; an end of input is read as no bytes. -/
def read (limit : Nat) (source : Source) : ReadEvent × Source :=
  let reads := source.reads + 1
  match source.script with
  | [] => (.data [], ⟨[], reads⟩)
  | .fault fault :: script => (.fault fault, ⟨script, reads⟩)
  | .data bytes :: script =>
      let left := bytes.drop limit
      if left.isEmpty then (.data bytes, ⟨script, reads⟩)
      else (.data (bytes.take limit), ⟨.data left :: script, reads⟩)

/-- What a read gives and what is still to be read are what was to be read: `event.bytes ++
next.pending = source.pending`. -/
theorem pending_read {limit : Nat} {source next : Source} {event : ReadEvent}
    (h : source.read limit = (event, next)) : event.bytes ++ next.pending = source.pending := by
  unfold read at h
  obtain ⟨script, reads⟩ := source
  match script with
  | [] =>
      cases h
      rfl
  | .fault fault :: script =>
      cases h
      simp [pending, ReadEvent.bytes]
  | .data bytes :: script =>
      simp only at h
      split at h
      · cases h
        simp [pending, ReadEvent.bytes]
      · cases h
        simp [pending, ReadEvent.bytes, ← List.append_assoc]

/-- A read that finds bytes or a fault uses up some of the script: `next.size < source.size`. -/
theorem size_read {limit : Nat} {source next : Source} {event : ReadEvent} (positive : 0 < limit)
    (found : event ≠ .data []) (h : source.read limit = (event, next)) :
    next.size < source.size := by
  unfold read at h
  obtain ⟨script, reads⟩ := source
  match script with
  | [] =>
      simp at h
      exact absurd h.1.symm found
  | .fault fault :: script =>
      simp only [Prod.mk.injEq] at h
      rw [← h.2]
      simp [size, ReadEvent.size]
  | .data bytes :: script =>
      simp only at h
      split at h
      · simp only [Prod.mk.injEq] at h
        rw [← h.2]
        simp [size, ReadEvent.size]
      · rename_i more
        simp only [Prod.mk.injEq] at h
        rw [← h.2]
        have : bytes ≠ [] := by
          intro empty
          simp [empty] at more
        have := List.length_pos_iff.2 this
        simp only [size, ReadEvent.size, ReadEvent.bytes, List.foldr_cons,
          List.length_drop]
        omega

end Source

end PeerWire

import PeerWire.CommandLine.Run
import PeerWire.Proofs.Draining
import PeerWire.Proofs.EntryLines
import Mathlib.Data.List.Nodup

/-! # Reports about files

Messages and failures are gathered apart and brought together by their numbers; what comes of it are
the items of the input, numbered in their order: `(gather 0 items).entries = Entry.number 0 items`
(`Harvest.entries_gather`). So a report about a file has an entry for each frame that is read off
it, and one more for what is left, if anything is, and prints lines that tell of them. It ends well
exactly if the file is *intact*, which is when its messages can be read
(`CommandLine.runIn_decode_reports`). -/

namespace PeerWire

/-! ## Items without failures -/

namespace CommandLine

/-! ## What is to be found -/

/-- What is found in a frame: the message that `Message.decode` gives, or with its tag why the body
cannot be read. -/
def Finding.ofFrame (frame : Frame) : Finding :=
  match Message.decode frame.tag frame.body with
  | .ok message => .decoded message
  | .error cause => .malformed frame.tag cause

/-- What is found in some bytes: something in each of the frames that are read off them, one after
the other, and then one thing without a tag, unless nothing is left. -/
inductive Finds (limit : Nat) (content : Bytes) : List Finding → Prop where
  /-- The bytes end between frames. -/
  | whole {frames : List Frame} :
      Frame.readAll limit content = (frames, []) → Finds limit content (frames.map .ofFrame)
  /-- What is left ends within a frame, or has a length that is refused. -/
  | broken {frames : List Frame} {left : Bytes} {cause : FrameError} :
      Frame.readAll limit content = (frames, left) → left ≠ [] →
      Frame.read left limit = .error cause →
      Finds limit content (frames.map .ofFrame ++ [.unreadable (.frame cause)])

/-- What is found in some bytes has texts on one line. -/
theorem Finds.plain {limit : Nat} {content : Bytes} {findings : List Finding}
    (finds : Finds limit content findings) : ∀ finding ∈ findings, finding.Plain := by
  have framed (frames : List Frame) :
      ∀ finding ∈ frames.map Finding.ofFrame, finding.Plain := by
    refine List.forall_mem_map.2 fun frame _ => ?_
    rw [Finding.ofFrame]
    split
    · exact (by decide : OneLine "ok")
    · rename_i cause undecoded
      exact Message.oneLine_of_decode_error undecoded
  cases finds with
  | whole => exact framed _
  | @broken frames left cause =>
      have last : Finding.Plain (.unreadable (.frame cause)) :=
        oneLine_append.2 ⟨by decide, cause.oneLine_message⟩
      exact List.forall_mem_append.2 ⟨framed frames, List.forall_mem_singleton.2 last⟩

/-- The finding that an item of a stream stands for. -/
def Finding.ofItem : Except LinkError Message → Finding
  | .ok message => .decoded message
  | .error cause => .ofError cause

/-- What is made of a frame is what is found in it: `ofItem frame.outcome = ofFrame frame`. -/
theorem Finding.ofItem_outcome (frame : Frame) : ofItem frame.outcome = ofFrame frame := by
  rw [Frame.outcome, ofFrame]
  cases Message.decode frame.tag frame.body with
  | ok message => rfl
  | error cause => rfl

variable {limit : Nat} {content left : Bytes} {frames : List Frame}
  {ending : Option FrameError} {items : List (Except LinkError Message)}

/-- Items as entries, with their numbers. -/
def Entry.number (place : Nat) (items : List (Except LinkError Message)) : List Entry :=
  (items.zipIdx place).map fun (item, index) => ⟨index, .ofItem item⟩

/-- The numbers run from the first place on: `List.range' place items.length`. -/
theorem Entry.map_index_number (place : Nat) :
    (number place items).map Entry.index = List.range' place items.length := by
  rw [number, List.map_map]
  exact List.zipIdx_map_snd place items

namespace Harvest

/-- Telling messages and failures apart loses no item and adds none: `unsorted` is a permutation of
the numbered items. -/
theorem perm_unsorted_gather (place : Nat) :
    (gather place items).unsorted.Perm (Entry.number place items) := by
  induction items generalizing place with
  | nil => exact .nil
  | cons item items ih =>
      rw [Entry.number, List.zipIdx_cons, List.map_cons, ← Entry.number]
      cases item with
      | ok message => exact (ih (place + 1)).cons _
      | error cause =>
          -- A failure stands behind all messages, wherever it was found.
          exact List.perm_middle.trans ((ih (place + 1)).cons _)

/-- **Sorting by number restores the order of the input**: `(gather place items).entries =
Entry.number place items`. -/
theorem entries_gather (place : Nat) :
    (gather place items).entries = Entry.number place items := by
  have perm : (gather place items).entries.Perm (Entry.number place items) :=
    (List.mergeSort_perm _ _).trans (perm_unsorted_gather place)
  have distinct : ((Entry.number place items).map Entry.index).Nodup := by
    rw [Entry.map_index_number]
    exact List.nodup_range'
  have sorted : (gather place items).entries.Pairwise fun a b => a.index ≤ b.index := by
    refine (List.pairwise_mergeSort ?_ ?_ _).imp fun {a b} le => of_decide_eq_true le
    · intro a b c first second
      simp only [decide_eq_true_eq] at *
      exact Nat.le_trans first second
    · intro a b
      simpa using Nat.le_total a.index b.index
  have numbered : (Entry.number place items).Pairwise fun a b => a.index ≤ b.index := by
    rw [← List.pairwise_map (f := Entry.index) (R := (· ≤ ·)), Entry.map_index_number]
    exact List.pairwise_le_range'
  -- Two entries of one number are the same entry, so that there is one way to be sorted.
  refine List.Perm.eq_of_pairwise (fun a b first second le ge => ?_) sorted numbered perm
  exact List.inj_on_of_nodup_map distinct (perm.subset first) second (Nat.le_antisymm le ge)

/-- There are no failures when all items are messages, `items = messages.map .ok`. -/
theorem failures_gather_eq_nil_iff (place : Nat) :
    (gather place items).failures = [] ↔ ∃ messages : List Message, items = messages.map .ok := by
  induction items generalizing place with
  | nil => exact ⟨fun _ => ⟨[], rfl⟩, fun _ => rfl⟩
  | cons item items ih =>
      cases item with
      | ok message =>
          show (gather (place + 1) items).failures = [] ↔ _
          rw [ih]
          constructor
          · rintro ⟨messages, rfl⟩
            exact ⟨message :: messages, rfl⟩
          · rintro ⟨messages, same⟩
            cases messages with
            | nil => cases same
            | cons other messages => exact ⟨messages, (List.cons.inj same).2⟩
      | error cause =>
          constructor
          · intro none
            cases none
          · rintro ⟨messages, same⟩
            cases messages <;> cases same

end Harvest

/-! ## Reports -/

/-- A report shows the items of its source, numbered, and ends well when they are all messages. -/
theorem runDecode_of_items {source : Source} (format : OutputFormat)
    (given : ((MessageInlet.ofSource source limit none).drain []).1 = items) :
    (runDecode source limit format).output = Entry.render (Entry.number 0 items) format ∧
      (runDecode source limit format).error = none ∧
      ((∃ messages : List Message, items = messages.map .ok) ∧
          (runDecode source limit format).code = .success ∨
        (¬∃ messages : List Message, items = messages.map .ok) ∧
          (runDecode source limit format).code = .invalidData) := by
  have harvest : Harvest.ofSource source limit = .gather 0 items :=
    congrArg (Harvest.gather 0) given
  refine ⟨?_, rfl, ?_⟩
  · rw [runDecode, harvest, ← Harvest.entries_gather]
  · rw [← Harvest.failures_gather_eq_nil_iff 0, runDecode, harvest]
    by_cases none : (Harvest.gather 0 items).failures = []
    · exact .inl ⟨none, if_pos (List.isEmpty_iff.2 none)⟩
    · exact .inr ⟨none, if_neg (fun empty => none (List.isEmpty_iff.1 empty))⟩

end CommandLine

end PeerWire

import PeerWire.Proofs.Packing
import PeerWire.Proofs.Sampling

/-! # The locations of sampled ids

An id is packed from a location that is drawn for it, and the samples leave open how. So what is
drawn can be told apart from what packing makes of it: the same generator draws the same locations
`places`, whichever `pack` makes ids of them, and the ids in the samples are `places.map pack` up to
their order (`Sample.packs_drawMessages`). The locations drawn have room in ids, so that the parts
of `Location.pack place` are those of `place` (`Sample.Location.Recent.ofId_pack`). -/

namespace PeerWire

/-! ## The ids of a message -/

/-- The ids in a field. -/
def FieldType.ids : (type : FieldType) → type.Value → List ShortChannelId
  | .shortChannelId, id => [id]
  | .idList, list => list.ids
  | _, _ => []

/-- The ids in `fields`, in their order. -/
def Values.ids : (fields : List Field) → Values fields → List ShortChannelId
  | [], () => []
  | field :: fields, (value, values) => field.type.ids value ++ ids fields values

/-- The ids in the declared fields of a message. -/
def Message.ids : Message → List ShortChannelId
  | .known kind contents _ => Values.ids kind.fields contents
  | .unknown _ _ => []

namespace Sample

open Randomness (Draw Generator)
open Randomness.Draw

/-- Draws that differ only in how ids are made of locations: they leave the same generator behind,
and the ids of their values are made of the locations in `done` and of those that are drawn, which
are the same for all of them. -/
def Packs {α : Type} (ids : α → List ShortChannelId) (done : List Location)
    (draw : (Location → ShortChannelId) → Draw α) : Prop :=
  ∀ generator, ∃ places next, (∀ place ∈ places, place.Recent) ∧
    ∀ pack, ∃ value, draw pack generator = (value, next) ∧
      (ids value).Perm ((done ++ places).map pack)

section Packs

variable {α β : Type} {ids : β → List ShortChannelId} {done : List Location} {draw : Draw α}

/-- A value that is made of the locations drawn before: its ids are `done.map pack` up to their
order. -/
theorem Packs.pure {value : (Location → ShortChannelId) → β}
    (made : ∀ pack, (ids (value pack)).Perm (done.map pack)) :
    Packs ids done fun pack => pure (value pack) := by
  refine fun generator => ⟨[], generator, by simp, fun pack => ⟨value pack, rfl, ?_⟩⟩
  rw [List.append_nil]
  exact made pack

/-- What is drawn after a value, by `draw >>= next pack`, that packs nothing. -/
theorem Packs.after {next : (Location → ShortChannelId) → α → Draw β}
    (later : ∀ value, Packs ids done fun pack => next pack value) :
    Packs ids done fun pack => draw >>= next pack :=
  fun generator => later (draw generator).1 (draw generator).2

/-- What is drawn after a location: `done ++ [place]` are drawn then. -/
theorem Packs.location {next : (Location → ShortChannelId) → Location → Draw β}
    (later : ∀ place, Packs ids (done ++ [place]) fun pack => next pack place) :
    Packs ids done fun pack => location >>= next pack := by
  intro generator
  have recent := gives_location generator
  rw [value] at recent
  generalize drawn : Sample.location generator = result at recent
  obtain ⟨place, middle⟩ := result
  obtain ⟨places, last, all, each⟩ := later place middle
  refine ⟨place :: places, last, List.forall_mem_cons.2 ⟨recent, all⟩, fun pack => ?_⟩
  obtain ⟨value, run, made⟩ := each pack
  refine ⟨value, ?_, ?_⟩
  · refine (bind_apply _ _ _).trans ?_
    rw [drawn]
    exact run
  · rw [List.append_assoc, List.singleton_append] at made
    exact made

/-- What is drawn after some ids; `before` are the locations of those that are there already. -/
theorem Packs.shortChannelIds_append {next : (Location → ShortChannelId) → List ShortChannelId →
    Draw β} (count : Nat) (before : List Location)
    (later : ∀ places, places.length = count →
      Packs ids (done ++ places) fun pack => next pack ((before.reverse ++ places).map pack)) :
    Packs ids done fun pack => shortChannelIds pack count (before.map pack) >>= next pack := by
  induction count generalizing before done with
  | zero =>
      have last := later [] rfl
      simp only [List.append_nil, List.map_reverse] at last
      exact last
  | succ count ih =>
      simp only [Sample.shortChannelIds, bind_assoc]
      refine Packs.location fun place => ih (place :: before) fun places number => ?_
      have step := later (place :: places) (by rw [List.length_cons, number])
      simp only [List.reverse_cons, List.append_assoc, List.singleton_append]
      exact step

/-- What is drawn after some ids, those of `places`. -/
theorem Packs.shortChannelIds {next : (Location → ShortChannelId) → List ShortChannelId → Draw β}
    (count : Nat) (later : ∀ places, places.length = count →
      Packs ids (done ++ places) fun pack => next pack (places.map pack)) :
    Packs ids done fun pack => Sample.shortChannelIds pack count [] >>= next pack :=
  Packs.shortChannelIds_append count [] later

end Packs

/-! ## The ids of each sample -/

variable {compress : Bytes → Except CodecError Bytes} {most : Nat}

end Sample

end PeerWire

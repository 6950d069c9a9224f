import PeerWire.Deflate.Huffman

/-! # Word lengths from counts

The word lengths that make a text short, given how often each symbol occurs in it: the two rarest
symbols are joined into one again and again, and each joining makes their words one bit longer.
Words over a limit are then cut back at the cost of making shorter ones longer. -/

namespace PeerWire.Deflate

/-- Symbols joined so far. -/
structure Pile where
  /-- How often they occur. -/
  weight : Nat
  /-- The word length of each, below the joining. -/
  depths : List Nat
  deriving DecidableEq, Repr

namespace Pile

/-- Joins two piles: each word grows by one bit. -/
def join (first second : Pile) : Pile :=
  ⟨first.weight + second.weight, (first.depths ++ second.depths).map (· + 1)⟩

/-- Takes the lightest of the single symbols and the joined piles, each listed from the lightest
on; of equal ones the single symbol. The result has it, and what is left of either list. -/
def takeLightest : (singles joined : List Pile) → Option (Pile × List Pile × List Pile)
  | [], [] => none
  | single :: singles, [] => some (single, singles, [])
  | [], pile :: joined => some (pile, [], joined)
  | single :: singles, pile :: joined =>
      if pile.weight < single.weight then some (pile, single :: singles, joined)
      else some (single, singles, pile :: joined)

/-- Taking the lightest leaves one pile fewer. -/
theorem length_of_takeLightest {singles joined singlesLeft joinedLeft : List Pile} {pile : Pile}
    (h : takeLightest singles joined = some (pile, singlesLeft, joinedLeft)) :
    singlesLeft.length + joinedLeft.length + 1 = singles.length + joined.length := by
  unfold takeLightest at h
  split at h
  · simp at h
  · obtain ⟨rfl, rfl, rfl⟩ := by simpa using h
    simp
  · obtain ⟨rfl, rfl, rfl⟩ := by simpa using h
    simp
  · split at h
    · obtain ⟨rfl, rfl, rfl⟩ := by simpa using h
      simp
      omega
    · obtain ⟨rfl, rfl, rfl⟩ := by simpa using h
      simp
      omega

/-- The word lengths when all piles have been joined into one. -/
def depthsOfAll (singles joined : List Pile) : List Nat :=
  match _first : takeLightest singles joined with
  | none => []
  | some (first, singlesLeft, joinedLeft) =>
      match _second : takeLightest singlesLeft joinedLeft with
      | none => first.depths
      | some (second, singlesLeft, joinedLeft) =>
          depthsOfAll singlesLeft (joinedLeft ++ [first.join second])
  termination_by singles.length + joined.length
  decreasing_by
    have := length_of_takeLightest _first
    have := length_of_takeLightest _second
    simp
    omega

end Pile

/-- The number of words of each length from `limit` down to one; longer ones count as having the
limit. -/
def tally (limit : Nat) (depths : List Nat) : List Nat :=
  (List.range limit).map fun shorter => depths.countP fun depth => min depth limit = limit - shorter

/-- The share of all bit strings that tallied words take up, in units of the longest word: `count +
2 * tallyWeight shorter`. -/
def tallyWeight : List Nat → Nat
  | [] => 0
  | count :: shorter => count + 2 * tallyWeight shorter

/-- Makes the longest of the words that can still grow one bit longer, which turns it into two. -/
def splitWord : List Nat → List Nat
  | count :: shorter :: rest =>
      if shorter = 0 then count :: splitWord (shorter :: rest)
      else (count + 2) :: (shorter - 1) :: rest
  | tally => tally

/-- Gives up one of the longest words, and the symbol that had it shares a shorter one with
another symbol. -/
def cutBack : List Nat → List Nat
  | longest :: shorter => splitWord ((longest - 1) :: shorter)
  | [] => []

/-- The tally with no more words than there are bit strings: `cutBack` as often as it takes. -/
def fitTally (limit : Nat) (tally : List Nat) : List Nat :=
  Nat.repeat cutBack (tallyWeight tally - 1 <<< limit) tally

/-- The lengths of tallied words, longest first. -/
def untally : (limit : Nat) → List Nat → List Nat
  | limit, count :: shorter => List.replicate count limit ++ untally (limit - 1) shorter
  | _, [] => []

/-- The word length of each symbol, given how often it occurs: none for a symbol that does not
occur, and the shortest for the most frequent ones. A single symbol has a word of one bit. -/
def wordLengths (limit : Nat) (counts : List Nat) : List Nat :=
  -- from the rarest symbol to the most frequent one
  let occurring := (counts.zipIdx.filter (·.1 ≠ 0)).mergeSort fun a b => a.1 ≤ b.1
  let depths := Pile.depthsOfAll (occurring.map fun entry => ⟨entry.1, [0]⟩) []
  let lengths := untally limit (fitTally limit (tally limit (depths.map (max 1))))
  let words := (occurring.map (·.2)).zip lengths
  (List.range counts.length).map fun symbol => (words.lookup symbol).getD 0

end PeerWire.Deflate

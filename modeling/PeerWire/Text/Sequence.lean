import PeerWire.Text.Emoji
import PeerWire.Text.ZeroWidth

/-! # Sequences shown as one

Some characters are shown together: letters as ligatures, pictures with selectors, skin tones and
joiners. A text is read from its end, and `Ahead` says what the characters read so far leave open
for the one before them. -/

namespace PeerWire.Text

/-! ## Selectors -/

/-- A character that says how the one before it is shown. -/
inductive Selector where
  /-- As text. -/
  | text
  /-- As a picture. -/
  | picture
  /-- As wide punctuation. -/
  | wide
  deriving DecidableEq, Repr

/-- The selector that a character is. -/
def Selector.ofChar? : Char → Option Selector
  | '\uFE0E' => some .text
  | '\uFE0F' => some .picture
  | '\uFE01' => some .wide
  | _ => none

/-- The quotation marks that may be wide. -/
def isQuotationMark (c : Char) : Bool :=
  c = '\u2018' || c = '\u2019' || c = '\u201C' || c = '\u201D'

/-- The selectors read between a ligature and the character before it. -/
structure SelectorSet where
  /-- As text. -/
  text : Bool := false
  /-- As a picture. -/
  picture : Bool := false
  /-- As wide punctuation. -/
  wide : Bool := false
  deriving DecidableEq, Repr

/-- The set with one more selector. -/
def SelectorSet.insert (set : SelectorSet) : Selector → SelectorSet
  | .text => { set with text := true }
  | .picture => { set with picture := true }
  | .wide => { set with wide := true }

/-- The set without a selector. -/
def SelectorSet.erase (set : SelectorSet) : Selector → SelectorSet
  | .text => { set with text := false }
  | .picture => { set with picture := false }
  | .wide => { set with wide := false }

/-- A selector is in the set. -/
def SelectorSet.contains (set : SelectorSet) : Selector → Bool
  | .text => set.text
  | .picture => set.picture
  | .wide => set.wide

/-! ## Ligatures -/

/-- The last part of a ligature. -/
inductive LigatureEnd where
  /-- Arabic alef, which joins a lam. -/
  | alef
  /-- Hebrew lamed, which a joiner joins to an alef. -/
  | lamed
  /-- Khmer letters that can stand below another letter. -/
  | khmer
  /-- Buginese ya, which a joiner joins to a vowel sign and a letter. -/
  | ya
  /-- The vowel sign and the ya that a joiner joins to it. -/
  | vowelAndYa
  /-- A Tifinagh consonant. -/
  | consonant
  /-- A Tifinagh consonant and the visible joiner before it. -/
  | joinedConsonant
  /-- The second part of a Lisu tone. -/
  | tone
  /-- An Old Turkic letter that a joiner joins to another one. -/
  | turkic
  deriving DecidableEq, Repr

/-- The second part of a vowel sign of Kirat Rai, written with more than one character. -/
inductive VowelEnd where
  /-- The sign e. -/
  | e
  /-- The sign ai. -/
  | ai
  deriving DecidableEq, Repr

/-- The forms of alef that join a lam. -/
def alefForms : CodePoints := .mk #[
  (0x622, 0x623), (0x625, 0x625), (0x627, 0x627), (0x671, 0x673), (0x675, 0x675),
  (0x773, 0x774), (0x870, 0x882)]

/-- The forms of lam that join an alef. -/
def lamForms : CodePoints := .mk #[
  (0x644, 0x644), (0x6B5, 0x6B8), (0x76A, 0x76A), (0x8A6, 0x8A6), (0x8C7, 0x8C7)]

/-- The Khmer letters that can stand below another letter. -/
def khmerLetters : CodePoints := .mk #[
  (0x1780, 0x1782), (0x1784, 0x1787), (0x1789, 0x178C), (0x178E, 0x1793), (0x1795, 0x1798),
  (0x179B, 0x179D), (0x17A0, 0x17A0), (0x17A2, 0x17A2), (0x17A7, 0x17A7), (0x17AB, 0x17AC),
  (0x17AF, 0x17AF)]

/-- The consonants of Tifinagh. -/
def tifinaghConsonants : CodePoints := .mk #[(0x2D31, 0x2D65), (0x2D6F, 0x2D6F)]

/-- The first parts of Lisu tones. -/
def lisuTones : CodePoints := .mk #[(0xA4F8, 0xA4FB)]

/-- The second parts of Lisu tones. -/
def lisuToneEnds : CodePoints := .mk #[(0xA4FC, 0xA4FD)]

/-- The end of a ligature that a character may be. -/
def LigatureEnd.ofChar? (c : Char) : Option LigatureEnd :=
  if alefForms.contains c then some .alef
  else if c = '\u05DC' then some .lamed
  else if khmerLetters.contains c then some .khmer
  else if c = '\u1A10' then some .ya
  else if tifinaghConsonants.contains c then some .consonant
  else if lisuToneEnds.contains c then some .tone
  else if c.toNat = 0x10C03 then some .turkic
  else none

/-- The characters that may stand inside a ligature: selectors of every kind, and those that
neither join nor show. -/
def ligatureFillers : CodePoints := .mk #[
  (0x34F, 0x34F), (0x17B4, 0x17B5), (0x180B, 0x180D), (0x180F, 0x180F), (0xFE00, 0xFE0F),
  (0xE0100, 0xE01EF)]

/-! ## Pictures -/

/-- The last part of a picture made of several characters. -/
inductive PictureEnd where
  /-- A picture. -/
  | picture
  /-- A skin tone. -/
  | skinTone
  /-- A letter of a flag. -/
  | flagLetter
  /-- More letters of flags. -/
  | flagLetters
  /-- A joiner and the picture after it, maybe with a selector before them. -/
  | joined (selected : Bool)
  /-- The frame of a key before a joiner, maybe with a selector before it. -/
  | keycap (selected : Bool)
  /-- A letter of a flag before a joiner. -/
  | joinedFlagLetter
  /-- An even number of letters of flags before a joiner. -/
  | joinedFlags
  /-- An odd number of letters of flags before a joiner, three at least. -/
  | joinedFlagLetters
  /-- The end of tags before a joiner, and the number of letters before it. -/
  | tagLetters (count : Nat)
  /-- The end of tags before a joiner, up to three letters, and the number of digits before
  them. -/
  | tagDigits (count : Nat)
  deriving DecidableEq, Repr

/-! ## What lies ahead -/

/-- What the characters after some point leave open for the one before them. -/
inductive Ahead where
  /-- Nothing. -/
  | nothing
  /-- A line feed, to which a carriage return belongs. -/
  | lineFeed
  /-- A selector. -/
  | selector (selector : Selector)
  /-- A ligature, with a joiner read or not, and the selectors read. -/
  | ligature (last : LigatureEnd) (joined : Bool) (selectors : SelectorSet)
  /-- A vowel sign. -/
  | vowel (last : VowelEnd)
  /-- A picture. -/
  | picture (last : PictureEnd)
  deriving DecidableEq, Repr

namespace Ahead

/-- A selector before what is ahead: a ligature keeps it in mind, a picture behind a joiner takes
one for a picture, and all else is forgotten. -/
def select (ahead : Ahead) (selector : Selector) : Ahead :=
  match ahead, selector with
  | .ligature last joined selectors, _ => .ligature last joined (selectors.insert selector)
  | .picture (.joined false), .picture => .picture (.joined true)
  | .picture (.keycap false), .picture => .picture (.keycap true)
  | _, _ => .selector selector

/-- A selector is next to what is ahead. -/
def hasSelector (ahead : Ahead) (selector : Selector) : Bool :=
  match ahead, selector with
  | .ligature _ _ selectors, _ => selectors.contains selector
  | .picture (.joined selected), .picture => selected
  | .picture (.keycap selected), .picture => selected
  | .selector other, _ => other = selector
  | _, _ => false

/-- What is left when a selector has no effect. -/
def unselect (ahead : Ahead) (selector : Selector) : Ahead :=
  match ahead with
  | .ligature last joined selectors => .ligature last joined (selectors.erase selector)
  | _ => .nothing

/-- What is left when a selector, if it is there, has no effect. -/
def ignore (ahead : Ahead) (selector : Selector) : Ahead :=
  if ahead.hasSelector selector then ahead.unselect selector else ahead

/-- A picture before a selector for pictures belongs to the picture behind a joiner. -/
def isJoined : Ahead → Bool
  | .picture (.joined _) | .picture (.keycap _) => true
  | _ => false

end Ahead

end PeerWire.Text

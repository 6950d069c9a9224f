import PeerWire.Text.Sequence
import PeerWire.Text.Wide

/-! # Display width

How many columns a text takes in a terminal. A character alone takes one column, two if it is
wide, none if it combines; a sequence shown as one takes the columns of what is shown. The text is
read from its end, so that a character knows the sequence that it begins. -/

namespace PeerWire.Text

/-- The columns a character adds to those after it, and what it leaves open for the one before. A
sequence may take fewer columns than its end alone. -/
abbrev Effect := Int × Ahead

/-- The effect of a character that continues no sequence. -/
def loneEffect (c : Char) : Effect :=
  match LigatureEnd.ofChar? c with
  | some last => (1, .ligature last false {})
  | none =>
      if c.toNat = 0x16D67 then (1, .vowel .e)
      else if c.toNat = 0x16D68 then (1, .vowel .ai)
      else if c = '\u17D8' then (3, .nothing)
      else if isFlagLetter c then (1, .picture .flagLetter)
      -- skin tones are pictures too, but lengthen other sequences
      else if isSkinTone c then (2, .picture .skinTone)
      else if pictures.contains c then (2, .picture .picture)
      else if isZeroWidth c then (0, .nothing)
      else if isWide c then (2, .nothing)
      else (1, .nothing)

/-- The effect of a character that completes or lengthens a ligature. -/
def ligatureEffect? (c : Char) (last : LigatureEnd) (joined : Bool) : Option Effect :=
  match last with
  | .alef =>
      if lamForms.contains c then some (0, .nothing)
      else if isTransparent c then some (0, .ligature .alef joined {})
      else none
  | .lamed => if joined && c = '\u05D0' then some (0, .nothing) else none
  | .khmer => if c = '\u17D2' then some (-1, .nothing) else none
  | .ya => if joined && c = '\u1A17' then some (0, .ligature .vowelAndYa false {}) else none
  | .vowelAndYa => if c = '\u1A15' then some (0, .nothing) else none
  | .consonant =>
      if c = '\u2D7F' then some (1, .ligature .joinedConsonant false {})
      else if joined && tifinaghConsonants.contains c then some (0, .nothing)
      else none
  | .joinedConsonant => if tifinaghConsonants.contains c then some (-1, .nothing) else none
  | .tone => if lisuTones.contains c then some (0, .nothing) else none
  | .turkic => if joined && c.toNat = 0x10C32 then some (0, .nothing) else none

/-- The effect of a character that completes a vowel sign. -/
def vowelEffect? (c : Char) (last : VowelEnd) : Option Effect :=
  match last, c.toNat with
  | .e, 0x16D63 | .e, 0x16D69 | .ai, 0x16D63 => some (0, .nothing)
  | .e, 0x16D67 => some (0, .vowel .ai)
  | .e, 0x16D68 => some (1, .vowel .e)
  | _, _ => none

/-- The effect of a joiner before a picture. -/
def joinEffect : Effect := (0, .picture (.joined false))

/-- The effect of a character that completes or lengthens a picture. -/
def pictureEffect? (c : Char) : PictureEnd → Option Effect
  | .picture => if c = joiner then some joinEffect else none
  | .skinTone =>
      if tonedPictures.contains c then some (0, .picture .picture)
      else if c = joiner then some joinEffect
      else none
  | .flagLetter => if isFlagLetter c then some (1, .picture .flagLetters) else none
  | .flagLetters =>
      if isFlagLetter c then some (1, .picture .flagLetters)
      else if c = joiner then some joinEffect
      else none
  | .joined false =>
      if c = keycap then some (0, .picture (.keycap false))
      else if isFlagLetter c then some (1, .picture .joinedFlagLetter)
      else if isSkinTone c then some (0, .picture .skinTone)
      else if c = tagEnd then some (0, .picture (.tagLetters 0))
      else if pictures.contains c then some (0, .picture .picture)
      else none
  | .joinedFlagLetter => if isFlagLetter c then some (-1, .picture .joinedFlags) else none
  | .joinedFlags =>
      if isFlagLetter c then some (3, .picture .joinedFlagLetters)
      else if c = joiner then some joinEffect
      else none
  | .joinedFlagLetters =>
      if isFlagLetter c then some (-1, .picture .joinedFlags)
      else if c = joiner then some joinEffect
      else none
  | .tagLetters count =>
      if isTagLetter c && count < 6 then some (0, .picture (.tagLetters (count + 1)))
      else if isTagDigit c && count ≤ 3 then some (0, .picture (.tagDigits 1))
      else if c = blackFlag && 3 ≤ count then some (0, .picture .picture)
      else none
  | .tagDigits count =>
      if isTagDigit c && count < 3 then some (0, .picture (.tagDigits (count + 1)))
      else if c = blackFlag && count = 3 then some (0, .picture .picture)
      else none
  | _ => none

/-- The effect of a character that continues the sequence ahead, whose selectors, if there are any,
have no effect. -/
def continuedEffect? (c : Char) : Ahead → Option Effect
  | .ligature last joined _ =>
      if c = joiner && last ≠ .alef then some (0, .ligature last true {})
      else if ligatureFillers.contains c && last ≠ .alef then some (0, .ligature last joined {})
      else ligatureEffect? c last joined
  | .vowel last => vowelEffect? c last
  | .picture last => pictureEffect? c last
  | _ => none

/-- The effect of a character that is no selector. A selector ahead, for text or for wide
punctuation, decides on it alone or has no effect. -/
def plainEffect (c : Char) (ahead : Ahead) : Effect :=
  if ahead.hasSelector .text && isNarrowAsText c then (1, .nothing)
  else if ahead.hasSelector .wide && isQuotationMark c then (2, .nothing)
  else (continuedEffect? c ((ahead.ignore .text).ignore .wide)).getD (loneEffect c)

/-- The effect of a character before which no selector for pictures waits. Control characters and
those of ASCII take one column, but a line break only one in all. -/
def selectedEffect (c : Char) (ahead : Ahead) : Effect :=
  if c.toNat ≤ 0xA0 then
    if c = '\n' then (1, .lineFeed)
    else if c = '\r' && ahead = .lineFeed then (0, .nothing)
    else (1, .nothing)
  else
    match Selector.ofChar? c with
    | some selector => (0, ahead.select selector)
    | none => plainEffect c ahead

/-- The effect of a character on what is ahead. -/
def effect (c : Char) (ahead : Ahead) : Effect :=
  if ahead.hasSelector .picture then
    if selectablePictures.contains c then
      (if ahead.isJoined then 0 else 2, .picture .picture)
    else selectedEffect c (ahead.unselect .picture)
  else selectedEffect c ahead

/-- The columns a text takes. -/
def displayWidth (text : String) : Nat :=
  let (width, _) := text.toList.foldr
    (fun c (found : Effect) =>
      let (more, ahead) := effect c found.2
      (found.1 + more, ahead))
    (0, .nothing)
  width.toNat

end PeerWire.Text

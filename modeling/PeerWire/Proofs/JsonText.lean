import PeerWire.Proofs.Numerals
import PeerWire.Text.Json

/-! # What JSON text says

The words of JSON, apart from how they are printed: `Json.Spells value word` says that `word` is a
text of `value`, with blanks wherever the format allows them. A text is one of at most one value
(`Json.Spells.unique`), so what is spelled can be read off. Both layouts spell the value that they
are made of (`Json.spells_compact`, `Json.spells_pretty`), and the compact one is a single line
(`Json.lineFeed_not_mem_compact`). -/

namespace PeerWire.Json

/-! ## The words of the format -/

/-- Whether a character is blank. -/
def isBlank (c : Char) : Bool := c = ' ' || c = '\n' || c = '\r' || c = '\t'

/-- Blanks, which may stand around values, names and marks. -/
def Blank (gap : List Char) : Prop := ∀ c ∈ gap, isBlank c = true

/-- The letters that have a meaning behind a `\`, and the characters that they stand for. -/
def escapes : List (Char × Char) :=
  [('"', '"'), ('\\', '\\'), ('/', '/'), ('b', '\x08'), ('f', '\x0c'), ('n', '\n'), ('r', '\r'),
    ('t', '\t')]

/-- Characters as they are written between quotes, with the closing quote. -/
inductive Quoted : (text word : List Char) → Prop where
  /-- The closing quote. -/
  | close : Quoted [] ['"']
  /-- A character that stands for itself. -/
  | plain {c : Char} {text word : List Char} :
      0x20 ≤ c.toNat → c ≠ '"' → c ≠ '\\' → Quoted text word → Quoted (c :: text) (c :: word)
  /-- A letter behind a backslash. -/
  | escape {letter c : Char} {text word : List Char} :
      (letter, c) ∈ escapes → Quoted text word → Quoted (c :: text) ('\\' :: letter :: word)
  /-- The number of a character in four hexadecimal digits. -/
  | code {c : Char} {text word : List Char} (first second third fourth : Fin 16) :
      c.toNat = ((first * 16 + second) * 16 + third) * 16 + fourth → Quoted text word →
      Quoted (c :: text) ('\\' :: 'u' :: Nat.digitChar first :: Nat.digitChar second ::
        Nat.digitChar third :: Nat.digitChar fourth :: word)

/-- Items with commas between them, and the mark that closes the list. -/
inductive Listed {α : Type} (spells : α → List Char → Prop) (closing : Char) :
    List α → List Char → Prop where
  /-- No item. -/
  | none {gap : List Char} : Blank gap → Listed spells closing [] (gap ++ [closing])
  /-- The last item. -/
  | last {item : α} {before word after : List Char} :
      Blank before → spells item word → Blank after →
      Listed spells closing [item] (before ++ (word ++ (after ++ [closing])))
  /-- An item with others after it. -/
  | more {item next : α} {items : List α} {before word after later : List Char} :
      Blank before → spells item word → Blank after → Listed spells closing (next :: items) later →
      Listed spells closing (item :: next :: items) (before ++ (word ++ (after ++ ',' :: later)))

mutual

/-- The words of a value. -/
inductive Spells : Json → List Char → Prop where
  /-- True. -/
  | yes : Spells (.flag true) ['t', 'r', 'u', 'e']
  /-- False. -/
  | no : Spells (.flag false) ['f', 'a', 'l', 's', 'e']
  /-- A number in decimal. -/
  | number (value : Nat) : Spells (.number value) (Nat.toDigits 10 value)
  /-- A text between quotes. -/
  | text {value : String} {word : List Char} :
      Quoted value.toList word → Spells (.text value) ('"' :: word)
  /-- Values between brackets. -/
  | array {items : List Json} {word : List Char} :
      Listed Spells ']' items word → Spells (.array items) ('[' :: word)
  /-- Named values between braces. -/
  | object {fields : List (String × Json)} {word : List Char} :
      Listed SpellsField '\x7d' fields word → Spells (.object fields) ('\x7b' :: word)

/-- A name and its value, with a colon between them. -/
inductive SpellsField : String × Json → List Char → Prop where
  /-- The name stands between quotes. -/
  | field {name : String} {value : Json} {nameWord gap gap' word : List Char} :
      Quoted name.toList nameWord → Blank gap → Blank gap' → Spells value word →
      SpellsField (name, value) ('"' :: (nameWord ++ (gap ++ ':' :: (gap' ++ word))))

end

/-! ## One value for each word -/

variable {json other : Json} {items : List Json} {fields : List (String × Json)}
  {text text' word word' rest rest' gap gap' : List Char} {p : Char → Bool}

/-- What is behind a run of characters of one kind, if it starts with one of another. -/
theorem append_cancel_of_all (run : ∀ c ∈ gap, p c = true) (run' : ∀ c ∈ gap', p c = true)
    (stop : ∀ c ∈ rest.head?, p c = false) (stop' : ∀ c ∈ rest'.head?, p c = false)
    (same : gap ++ rest = gap' ++ rest') : gap = gap' ∧ rest = rest' := by
  have front (run : List Char) (rest : List Char) (all : ∀ c ∈ run, p c = true)
      (stop : ∀ c ∈ rest.head?, p c = false) : (run ++ rest).takeWhile p = run := by
    rw [List.takeWhile_append_of_pos all]
    cases rest with
    | nil => exact List.append_nil _
    | cons c rest => rw [List.takeWhile_cons_of_neg (by simp [stop c rfl]), List.append_nil]
  have equal : gap = gap' := by rw [← front gap rest run stop, same, front gap' rest' run' stop']
  subst equal
  exact ⟨rfl, List.append_cancel_left same⟩

/-- Blanks do not hide what is behind them: `gap ++ rest` has one `rest`. -/
theorem Blank.cancel (blank : Blank gap) (blank' : Blank gap')
    (stop : ∀ c ∈ rest.head?, isBlank c = false) (stop' : ∀ c ∈ rest'.head?, isBlank c = false)
    (same : gap ++ rest = gap' ++ rest') : rest = rest' :=
  (append_cancel_of_all blank blank' stop stop' same).2

/-- Digits end where something else starts, so they write one number: `Nat.toDigits 10 number ++
rest` has one `number`. -/
theorem toDigits_cancel {number number' : Nat} (stop : ∀ c ∈ rest.head?, c.isDigit = false)
    (stop' : ∀ c ∈ rest'.head?, c.isDigit = false)
    (same : Nat.toDigits 10 number ++ rest = Nat.toDigits 10 number' ++ rest') :
    number = number' ∧ rest = rest' := by
  have digits (number : Nat) : ∀ c ∈ Nat.toDigits 10 number, c.isDigit = true :=
    fun _ => Nat.isDigit_of_mem_toDigits (by decide) (by decide)
  obtain ⟨printed, later⟩ := append_cancel_of_all (digits number) (digits number') stop stop' same
  refine ⟨Text.Numeral.unique (Text.numeral_toDigits number) ?_, later⟩
  rw [printed]
  exact Text.numeral_toDigits number'

/-- A letter stands for one character. -/
theorem escapes_unique : ∀ first ∈ escapes, ∀ second ∈ escapes,
    first.1 = second.1 → first.2 = second.2 := by decide

/-- The letter of numbers, `u`, stands for no character. -/
theorem ne_u_of_mem_escapes : ∀ pair ∈ escapes, pair.1 ≠ 'u' := by decide

/-- A hexadecimal digit has one value. -/
theorem digitChar_injective : ∀ first second : Fin 16,
    Nat.digitChar first = Nat.digitChar second → first = second := by decide

/-- **A quoted text ends at its quote**, and is one text: `word ++ rest` has one `text` and one
`rest`. -/
theorem Quoted.cancel (quoted : Quoted text word) (quoted' : Quoted text' word')
    (same : word ++ rest = word' ++ rest') : text = text' ∧ rest = rest' := by
  -- A quote, a backslash and what is neither start different words, and so do the letters behind
  -- a backslash; the words that start alike are compared behind their first character.
  induction quoted generalizing text' word' with
  | close =>
      cases quoted' with
      | close => exact ⟨rfl, (List.cons.inj same).2⟩
      | plain _ quote => exact absurd (List.cons.inj same).1.symm quote
      | escape => cases (List.cons.inj same).1
      | code => cases (List.cons.inj same).1
  | plain printable quote backslash later ih =>
      cases quoted' with
      | close => exact absurd (List.cons.inj same).1 quote
      | plain _ _ _ later' =>
          obtain ⟨rfl, tail⟩ := List.cons.inj same
          obtain ⟨rfl, left⟩ := ih later' tail
          exact ⟨rfl, left⟩
      | escape => exact absurd (List.cons.inj same).1 backslash
      | code => exact absurd (List.cons.inj same).1 backslash
  | escape letter later ih =>
      cases quoted' with
      | close => cases (List.cons.inj same).1
      | plain _ _ backslash => exact absurd (List.cons.inj same).1.symm backslash
      | escape letter' later' =>
          obtain ⟨equal, same⟩ := List.cons.inj (List.cons.inj same).2
          obtain ⟨rfl, left⟩ := ih later' same
          obtain rfl := escapes_unique _ letter _ letter' equal
          exact ⟨rfl, left⟩
      | code =>
          obtain rfl := (List.cons.inj (List.cons.inj same).2).1
          exact absurd rfl (ne_u_of_mem_escapes _ letter)
  | code first second third fourth number later ih =>
      cases quoted' with
      | close => cases (List.cons.inj same).1
      | plain _ _ backslash => exact absurd (List.cons.inj same).1.symm backslash
      | escape letter' =>
          obtain rfl := (List.cons.inj (List.cons.inj same).2).1
          exact absurd rfl (ne_u_of_mem_escapes _ letter')
      | code first' second' third' fourth' number' later' =>
          simp only [List.cons_append, List.cons.injEq, true_and] at same
          obtain ⟨one, two, three, four, same⟩ := same
          obtain rfl := digitChar_injective _ _ one
          obtain rfl := digitChar_injective _ _ two
          obtain rfl := digitChar_injective _ _ three
          obtain rfl := digitChar_injective _ _ four
          obtain ⟨rfl, left⟩ := ih later' same
          obtain rfl := Char.toNat_inj.1 (number.trans number'.symm)
          exact ⟨rfl, left⟩

/-- The character that the words of a value start with, where `0` stands for every digit. -/
def opening : Json → Char
  | .flag true => 't'
  | .flag false => 'f'
  | .number _ => '0'
  | .text _ => '"'
  | .array _ => '['
  | .object _ => '\x7b'

/-- A word of a value starts as its kind does. -/
theorem Spells.opens (spelled : Spells json word) :
    ∃ c later, word = c :: later ∧ (if c.isDigit then '0' else c) = json.opening := by
  cases spelled with
  | number value =>
      obtain ⟨c, later, digits⟩ :=
        List.exists_cons_of_ne_nil (Nat.toDigits_ne_nil (b := 10) (n := value))
      have digit : c.isDigit = true :=
        Nat.isDigit_of_mem_toDigits (by decide) (by decide) (digits ▸ List.mem_cons_self)
      exact ⟨c, later, digits, if_pos digit⟩
  | _ => exact ⟨_, _, rfl, rfl⟩

/-- Words that start alike are of values of one kind. -/
theorem Spells.opening_eq (spelled : Spells json word) (spelled' : Spells other word')
    (same : word ++ rest = word' ++ rest') : json.opening = other.opening := by
  obtain ⟨c, later, rfl, opens⟩ := spelled.opens
  obtain ⟨c', later', rfl, opens'⟩ := spelled'.opens
  obtain rfl : c = c' := (List.cons.inj same).1
  exact opens.symm.trans opens'

/-- A blank is no digit: `c.isDigit = false`. -/
theorem isDigit_of_isBlank {c : Char} (blank : isBlank c = true) : c.isDigit = false := by
  simp only [isBlank, Bool.or_eq_true, decide_eq_true_eq] at blank
  rcases blank with ((rfl | rfl) | rfl) | rfl <;> rfl

/-- No word of a value starts with a blank or with `]`. -/
theorem Spells.inked {c : Char} {later : List Char} (spelled : Spells json (c :: later)) :
    isBlank c = false ∧ c ≠ ']' := by
  obtain ⟨c', later', same, opens⟩ := spelled.opens
  obtain ⟨rfl, rfl⟩ := List.cons.inj same
  have marks : isBlank json.opening = false ∧ json.opening ≠ ']' := by
    match json with
    | .flag true | .flag false | .number _ | .text _ | .array _ | .object _ =>
        exact ⟨rfl, by simp [opening]⟩
  split at opens
  · rename_i digit
    constructor
    · refine eq_false_of_ne_true fun blank => ?_
      rw [isDigit_of_isBlank blank] at digit
      cases digit
    · rintro rfl
      cases digit
  · rw [opens]
    exact marks

/-- Digits in front of blanks or a mark end there. -/
theorem Blank.not_digit (blank : Blank gap) {mark : Char} (other : mark.isDigit = false)
    (rest : List Char) : ∀ c ∈ (gap ++ mark :: rest).head?, c.isDigit = false := by
  cases gap with
  | nil =>
      rintro _ ⟨⟩
      exact other
  | cons c gap =>
      rintro _ ⟨⟩
      exact isDigit_of_isBlank (blank c List.mem_cons_self)

/-- A word of an item, in front of something else than a digit, is a word of no other item: `word ++
rest` has one `item`. -/
def Determined {α : Type} (spells : α → List Char → Prop) (item : α) : Prop :=
  ∀ (other : α) (word word' rest rest' : List Char), spells item word → spells other word' →
    (∀ c ∈ rest.head?, c.isDigit = false) → (∀ c ∈ rest'.head?, c.isDigit = false) →
    word ++ rest = word' ++ rest' → item = other ∧ rest = rest'

section Listed

variable {α : Type} {spells : α → List Char → Prop} {closing : Char} {item other : α}
  {items items' : List α} {before before' after after' : List Char}

/-- Words start with something else than a blank and the mark that closes a list. -/
def Starts (spells : α → List Char → Prop) (closing : Char) : Prop :=
  ∀ (item : α) (word : List Char), spells item word →
    ∃ c later, word = c :: later ∧ isBlank c = false ∧ c ≠ closing

/-- In front of a word no blank is left out: the first of `word ++ rest` is none. -/
theorem Starts.not_blank (starts : Starts spells closing) (spelled : spells item word)
    (rest : List Char) : ∀ c ∈ (word ++ rest).head?, isBlank c = false := by
  obtain ⟨c, later, rfl, inked, -⟩ := starts _ _ spelled
  rintro _ ⟨⟩
  exact inked

/-- A mark between items is no blank and no digit. -/
structure IsMark (c : Char) : Prop where
  /-- It is no blank. -/
  not_blank : isBlank c = false
  /-- It is no digit. -/
  not_digit : c.isDigit = false

/-- An item between blanks and in front of a mark is one item, and the mark is one mark. -/
theorem Determined.cancel {mark mark' : Char} (starts : Starts spells closing)
    (determined : Determined spells item) (blank : Blank before) (spelled : spells item word)
    (blankAfter : Blank after) (isMark : IsMark mark) (blank' : Blank before')
    (spelled' : spells other word') (blankAfter' : Blank after') (isMark' : IsMark mark')
    (same : before ++ (word ++ (after ++ mark :: rest)) =
      before' ++ (word' ++ (after' ++ mark' :: rest'))) :
    item = other ∧ mark = mark' ∧ rest = rest' := by
  have words := blank.cancel blank' (starts.not_blank spelled _) (starts.not_blank spelled' _) same
  obtain ⟨value, behind⟩ := determined _ _ _ _ _ spelled spelled'
    (blankAfter.not_digit isMark.not_digit rest) (blankAfter'.not_digit isMark'.not_digit rest')
    words
  have marks : mark :: rest = mark' :: rest' := blankAfter.cancel blankAfter'
    (by simpa using isMark.not_blank) (by simpa using isMark'.not_blank) behind
  exact ⟨value, List.cons.inj marks⟩

/-- Where a list is closed no item starts. -/
theorem not_closed (starts : Starts spells closing) (isMark : IsMark closing)
    (spelled : spells item word) (blank : Blank gap) (blank' : Blank before)
    (same : gap ++ closing :: rest = before ++ (word ++ after)) : False := by
  have opened : closing :: rest = word ++ after :=
    blank.cancel blank' (by simpa using isMark.not_blank) (starts.not_blank spelled _) same
  obtain ⟨c, later, rfl, -, open'⟩ := starts _ _ spelled
  exact open' (List.cons.inj opened).1.symm

/-- **A list is read item by item.** -/
theorem Listed.cancel (starts : Starts spells closing) (isMark : IsMark closing)
    (distinct : closing ≠ ',') (each : ∀ item ∈ items, Determined spells item)
    (listed : Listed spells closing items word) (listed' : Listed spells closing items' word')
    (same : word ++ rest = word' ++ rest') : items = items' ∧ rest = rest' := by
  have comma : IsMark ',' := ⟨by decide, by decide⟩
  -- One list is as long as the other: behind each item the marks agree, and a comma closes none.
  induction items generalizing items' word word' with
  | nil =>
      obtain ⟨blank⟩ := listed
      simp only [List.append_assoc, List.singleton_append] at same
      cases listed' with
      | none blank' =>
          simp only [List.append_assoc, List.singleton_append] at same
          have marks := blank.cancel blank' (by simpa using isMark.not_blank)
            (by simpa using isMark.not_blank) same
          exact ⟨rfl, (List.cons.inj marks).2⟩
      | last blank' item' _ | more blank' item' _ _ =>
          simp only [List.append_assoc] at same
          exact (not_closed starts isMark item' blank blank' same).elim
  | cons item items ih =>
      obtain ⟨first, others⟩ := List.forall_mem_cons.1 each
      cases listed with
      | last blank word after =>
          simp only [List.append_assoc, List.singleton_append] at same
          cases listed' with
          | none blank' =>
              simp only [List.append_assoc, List.singleton_append] at same
              exact (not_closed starts isMark word blank' blank same.symm).elim
          | last blank' word' after' =>
              simp only [List.append_assoc, List.singleton_append] at same
              obtain ⟨rfl, -, left⟩ := first.cancel starts blank word after isMark blank' word'
                after' isMark same
              exact ⟨rfl, left⟩
          | more blank' word' after' _ =>
              simp only [List.append_assoc, List.cons_append] at same
              obtain ⟨-, marks, -⟩ := first.cancel starts blank word after isMark blank' word'
                after' comma same
              exact absurd marks distinct
      | more blank word after later =>
          simp only [List.append_assoc, List.cons_append] at same
          cases listed' with
          | none blank' =>
              simp only [List.append_assoc, List.singleton_append] at same
              exact (not_closed starts isMark word blank' blank same.symm).elim
          | last blank' word' after' =>
              simp only [List.append_assoc, List.singleton_append] at same
              obtain ⟨-, marks, -⟩ := first.cancel starts blank word after comma blank' word'
                after' isMark same
              exact absurd marks.symm distinct
          | more blank' word' after' later' =>
              simp only [List.append_assoc, List.cons_append] at same
              obtain ⟨rfl, -, tail⟩ := first.cancel starts blank word after comma blank' word'
                after' comma same
              obtain ⟨rest, left⟩ := ih others later later' tail
              exact ⟨congrArg (item :: ·) rest, left⟩

end Listed

/-- A word of a value starts neither with a blank nor with `]`. -/
theorem starts_spells : Starts Spells ']' := by
  intro json word spelled
  obtain ⟨c, later, rfl, -⟩ := spelled.opens
  exact ⟨c, later, rfl, spelled.inked⟩

/-- A word of a field starts with a quote. -/
theorem starts_spellsField : Starts SpellsField '\x7d' := by
  rintro _ _ ⟨⟩
  exact ⟨'"', _, rfl, by decide, by decide⟩

/-- A field is read as its name and its value. -/
theorem determined_field {field : String × Json} (value : Determined Spells field.2) :
    Determined SpellsField field := by
  intro other word word' rest rest' spelled spelled' stop stop' same
  obtain ⟨quoted, gap, gap', spelled⟩ := spelled
  obtain ⟨quoted', gap₁, gap₁', spelled'⟩ := spelled'
  have colon : ∀ rest : List Char, ∀ c ∈ (':' :: rest).head?, isBlank c = false := by
    rintro rest _ ⟨⟩
    rfl
  simp only [List.cons_append, List.append_assoc, List.cons.injEq, true_and] at same
  obtain ⟨names, behind⟩ := quoted.cancel quoted' same
  have behindColon := (List.cons.inj (gap.cancel gap₁ (colon _) (colon _) behind)).2
  have values := gap'.cancel gap₁' (starts_spells.not_blank spelled rest)
    (starts_spells.not_blank spelled' rest') behindColon
  obtain ⟨rfl, left⟩ := value _ _ _ _ _ spelled spelled' stop stop' values
  obtain rfl := String.toList_inj.1 names
  exact ⟨rfl, left⟩

/-- **A word is one of at most one value**, also if more follows: every `json` is `Determined`. -/
theorem determined (json : Json) : Determined Spells json := by
  -- Values that start alike are of one kind, and then they are compared part by part.
  induction json using compact.induct with
  | case1 =>
      intro other word word' rest rest' spelled spelled' stop stop' same
      have kind := spelled.opening_eq spelled' same
      cases spelled
      cases spelled' with
      | yes => exact ⟨rfl, List.append_cancel_left same⟩
      | _ => simp [opening] at kind
  | case2 value isFalse =>
      obtain rfl : value = false := by simpa using isFalse
      intro other word word' rest rest' spelled spelled' stop stop' same
      have kind := spelled.opening_eq spelled' same
      cases spelled
      cases spelled' with
      | no => exact ⟨rfl, List.append_cancel_left same⟩
      | _ => simp [opening] at kind
  | case3 value =>
      intro other word word' rest rest' spelled spelled' stop stop' same
      have kind := spelled.opening_eq spelled' same
      cases spelled
      cases spelled' with
      | number value' =>
          obtain ⟨rfl, left⟩ := toDigits_cancel stop stop' same
          exact ⟨rfl, left⟩
      | _ => simp [opening] at kind
  | case4 value =>
      intro other word word' rest rest' spelled spelled' stop stop' same
      have kind := spelled.opening_eq spelled' same
      obtain _ | _ | _ | quoted := spelled
      cases spelled' with
      | text quoted' =>
          obtain ⟨texts, left⟩ := quoted.cancel quoted' (List.cons.inj same).2
          exact ⟨congrArg Json.text (String.toList_inj.1 texts), left⟩
      | _ => simp [opening] at kind
  | case5 items ih =>
      intro other word word' rest rest' spelled spelled' stop stop' same
      have kind := spelled.opening_eq spelled' same
      obtain _ | _ | _ | _ | listed := spelled
      cases spelled' with
      | array listed' =>
          obtain ⟨rfl, left⟩ := listed.cancel starts_spells ⟨by decide, by decide⟩ (by decide) ih
            listed' (List.cons.inj same).2
          exact ⟨rfl, left⟩
      | _ => simp [opening] at kind
  | case6 fields ih =>
      intro other word word' rest rest' spelled spelled' stop stop' same
      have kind := spelled.opening_eq spelled' same
      obtain _ | _ | _ | _ | _ | listed := spelled
      cases spelled' with
      | object listed' =>
          have each (field : String × Json) (member : field ∈ fields) :
              Determined SpellsField field := determined_field (ih field.1 field.2 member)
          obtain ⟨rfl, left⟩ := listed.cancel starts_spellsField ⟨by decide, by decide⟩
            (by decide) each listed' (List.cons.inj same).2
          exact ⟨rfl, left⟩
      | _ => simp [opening] at kind

/-- **A text is one of at most one value**: `json = other`. -/
theorem Spells.unique (spelled : Spells json word) (spelled' : Spells other word) :
    json = other :=
  (determined json _ _ _ [] [] spelled spelled' (by simp) (by simp) rfl).1

end PeerWire.Json

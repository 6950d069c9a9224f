import PeerWire.Proofs.JsonText

/-! # What is printed as JSON

Both layouts of a value are words of it: `Spells json json.compact.toList` (`Json.spells_compact`)
and `Spells json json.pretty.toList` (`Json.spells_pretty`). They differ in their blanks only, and
the compact one has no line feed, so it is one line (`Json.lineFeed_not_mem_compact`). -/

namespace PeerWire.Json

variable {json : Json} {gap : List Char}

/-! ## Texts -/

/-- A character that is escaped stands for itself: `(escapeChar c).toList ++ word` reads as `c ::
text`. -/
theorem Quoted.escapeChar (c : Char) {text word : List Char} (later : Quoted text word) :
    Quoted (c :: text) ((escapeChar c).toList ++ word) := by
  have letter (letter : Char) (known : (letter, c) ∈ escapes) :
      Quoted (c :: text) (['\\', letter] ++ word) := .escape known later
  unfold Json.escapeChar
  split
  · rename_i quote
    subst quote
    exact letter '"' (by decide)
  split
  · rename_i backslash
    subst backslash
    exact letter '\\' (by decide)
  split
  · rename_i lineFeed
    subst lineFeed
    exact letter 'n' (by decide)
  split
  · rename_i carriageReturn
    subst carriageReturn
    exact letter 'r' (by decide)
  split
  · rename_i tab
    subst tab
    exact letter 't' (by decide)
  split
  · rename_i backspace
    subst backspace
    exact letter 'b' (by decide)
  split
  · rename_i formFeed
    subst formFeed
    exact letter 'f' (by decide)
  split
  · rename_i control
    have value : c.toNat = ((c.toNat / 4096 * 16 + c.toNat / 256 % 16) * 16 +
        c.toNat / 16 % 16) * 16 + c.toNat % 16 := by omega
    rw [String.toList_append, Text.toList_hexWord (by omega)]
    exact .code ⟨c.toNat / 4096, by omega⟩ ⟨c.toNat / 256 % 16, by omega⟩
      ⟨c.toNat / 16 % 16, by omega⟩ ⟨c.toNat % 16, by omega⟩ value later
  · rename_i quote backslash _ _ _ _ _ printable
    rw [Char.toString_eq_singleton, String.toList_singleton]
    exact .plain (Nat.le_of_not_lt printable) quote backslash later

/-- A text between quotes is a word of it. -/
theorem quoted_quote (text : String) :
    ∃ word, (quote text).toList = '"' :: word ∧ Quoted text.toList word := by
  have inside (text : List Char) :
      Quoted text (text.flatMap (fun c => (escapeChar c).toList) ++ ['"']) := by
    induction text with
    | nil => exact .close
    | cons c text ih =>
        rw [List.flatMap_cons, List.append_assoc]
        exact ih.escapeChar c
  refine ⟨_, ?_, inside text.toList⟩
  simp [quote, String.toList_join, List.flatMap_map]

/-! ## Lists -/

/-- The empty word is blank. -/
theorem blank_nil : Blank [] := by simp [Blank]

/-- Items with the same blanks in front of each are listed. -/
theorem listed_intercalate {α : Type} {spells : α → List Char → Prop} (closing : Char)
    {items : List α} {form : α → List Char} {ending : List Char} (blank : Blank gap)
    (ends : Blank ending) (each : ∀ item ∈ items, spells item (form item)) (some : items ≠ []) :
    Listed spells closing items
      (gap ++ ((',' :: gap).intercalate (items.map form) ++ (ending ++ [closing]))) := by
  induction items with
  | nil => exact absurd rfl some
  | cons item items ih =>
      obtain ⟨first, others⟩ := List.forall_mem_cons.1 each
      cases items with
      | nil =>
          rw [List.map_singleton, List.intercalate_singleton]
          exact .last blank first ends
      | cons next items =>
          have step := Listed.more blank first blank_nil (ih others (by simp))
          simpa [List.intercalate_cons_cons] using step

/-- Words on lines of their own, with the same front: the front belongs to what is between them. -/
theorem lineFeed_cons_intercalate (front : List Char) (words : List (List Char))
    (some : words ≠ []) :
    '\n' :: [',', '\n'].intercalate (words.map (front ++ ·)) =
      '\n' :: front ++ (',' :: '\n' :: front).intercalate words := by
  induction words with
  | nil => exact absurd rfl some
  | cons word words ih =>
      cases words with
      | nil => simp
      | cons next words =>
          have step := (List.cons.inj (ih (by simp))).2
          simp only [List.map_cons, List.intercalate_cons_cons, List.cons_append,
            List.append_assoc, List.cons.injEq, true_and] at step ⊢
          rw [step]
          simp

/-- The items of a block stand on lines of their own. -/
theorem toList_block {opening closing indent : String} {items : List String}
    (some : items ≠ []) :
    (block opening closing indent items).toList = opening.toList ++
      ('\n' :: (indent ++ "  ").toList ++
        ((',' :: '\n' :: (indent ++ "  ").toList).intercalate (items.map String.toList) ++
          ('\n' :: indent.toList ++ closing.toList))) := by
  have front := lineFeed_cons_intercalate (indent ++ "  ").toList
    (items.map String.toList) (by simpa using some)
  have whole := congrArg (fun lines => opening.toList ++ (lines ++ ('\n' :: indent.toList ++
    closing.toList))) front
  rw [block, if_neg (by simpa using some)]
  simpa [String.toList_append, String.toList_intercalate, List.map_map, Function.comp_def]
    using whole

/-- A block without items is its brackets: `opening.toList ++ closing.toList`. -/
theorem toList_block_nil (opening closing indent : String) :
    (block opening closing indent []).toList = opening.toList ++ closing.toList :=
  String.toList_append

/-! ## Layouts -/

/-- Named values on one line. -/
theorem compact_object (fields : List (String × Json)) :
    compact (.object fields) = "\x7b" ++ ",".intercalate (fields.map fun field =>
      quote field.1 ++ ":" ++ compact field.2) ++ "\x7d" := by
  rw [compact, ← List.attach_map_val (l := fields)
    (f := fun field : String × Json => quote field.1 ++ ":" ++ compact field.2)]

/-- Named values, each on a line of its own. -/
theorem prettyAt_object (indent : String) (fields : List (String × Json)) :
    prettyAt indent (.object fields) = block "\x7b" "\x7d" indent (fields.map fun field =>
      quote field.1 ++ ": " ++ prettyAt (indent ++ "  ") field.2) := by
  rw [prettyAt, ← List.attach_map_val (l := fields)
    (f := fun field : String × Json => quote field.1 ++ ": " ++ prettyAt (indent ++ "  ") field.2)]

/-- A truth value in letters: `true` or `false`. -/
theorem spells_flag (value : Bool) :
    Spells (.flag value) (if value then "true" else "false").toList := by
  cases value with
  | true => exact .yes
  | false => exact .no

/-- A number in decimal: `toString value`. -/
theorem spells_number (value : Nat) : Spells (.number value) (toString value).toList := by
  rw [Nat.toString_eq_repr, Nat.toList_repr]
  exact .number value

/-- A text between quotes: `quote value`. -/
theorem spells_text (value : String) : Spells (.text value) (quote value).toList := by
  obtain ⟨word, printed, quoted⟩ := quoted_quote value
  rw [printed]
  exact .text quoted

/-- A name, a colon, blanks or none, and a word of the value. -/
theorem spellsField_quote {field : String × Json} {word : List Char} (blank : Blank gap)
    (spelled : Spells field.2 word) :
    SpellsField field ((quote field.1).toList ++ ':' :: (gap ++ word)) := by
  obtain ⟨nameWord, printed, quoted⟩ := quoted_quote field.1
  rw [printed]
  exact .field quoted blank_nil blank spelled

/-- **The compact layout is a word of its value**: `Spells json json.compact.toList`. -/
theorem spells_compact (json : Json) : Spells json json.compact.toList := by
  induction json using compact.induct with
  | case1 =>
      rw [compact]
      exact spells_flag true
  | case2 value isFalse =>
      rw [compact]
      exact spells_flag value
  | case3 value =>
      rw [compact]
      exact spells_number value
  | case4 value =>
      rw [compact]
      exact spells_text value
  | case5 items ih =>
      rw [compact]
      by_cases none : items = []
      · subst none
        exact .array (.none blank_nil)
      · have listed := listed_intercalate ']' blank_nil blank_nil ih none
        simpa [List.map_map, Function.comp_def] using Spells.array listed
  | case6 fields ih =>
      rw [compact_object]
      by_cases none : fields = []
      · subst none
        exact .object (.none blank_nil)
      · have each (field : String × Json) (member : field ∈ fields) :
            SpellsField field ((quote field.1).toList ++ ':' :: ([] ++ (compact field.2).toList)) :=
          spellsField_quote blank_nil (ih field.1 field.2 member)
        have listed := listed_intercalate '\x7d' blank_nil blank_nil each none
        simpa [List.map_map, Function.comp_def] using Spells.object listed

/-- Blanks of an indented line. -/
theorem Blank.deeper {indent : String} (blank : Blank indent.toList) :
    Blank (indent ++ "  ").toList := by
  rw [String.toList_append]
  exact List.forall_mem_append.2 ⟨blank, by simp [isBlank]⟩

/-- A line feed is a blank. -/
theorem Blank.lineFeed (blank : Blank gap) : Blank ('\n' :: gap) :=
  List.forall_mem_cons.2 ⟨rfl, blank⟩

/-- **So is the indented one**, wherever it stands. -/
theorem spells_prettyAt (indent : String) (json : Json) (blank : Blank indent.toList) :
    Spells json (prettyAt indent json).toList := by
  induction indent, json using prettyAt.induct with
  | case1 indent =>
      rw [prettyAt]
      exact spells_flag true
  | case2 indent value isFalse =>
      rw [prettyAt]
      exact spells_flag value
  | case3 indent value =>
      rw [prettyAt]
      exact spells_number value
  | case4 indent value =>
      rw [prettyAt]
      exact spells_text value
  | case5 indent items ih =>
      rw [prettyAt]
      by_cases none : items = []
      · subst none
        rw [List.map_nil, toList_block_nil]
        exact .array (.none blank_nil)
      · have listed := listed_intercalate ']' blank.deeper.lineFeed blank.lineFeed
          (fun item member => ih item member blank.deeper) none
        rw [toList_block (by simpa using none)]
        simpa [List.map_map, Function.comp_def] using Spells.array listed
  | case6 indent fields ih =>
      rw [prettyAt_object]
      by_cases none : fields = []
      · subst none
        rw [List.map_nil, toList_block_nil]
        exact .object (.none blank_nil)
      · have each (field : String × Json) (member : field ∈ fields) :
            SpellsField field ((quote field.1).toList ++
              ':' :: ([' '] ++ (prettyAt (indent ++ "  ") field.2).toList)) :=
          spellsField_quote (by simp [Blank, isBlank]) (ih field.1 field.2 member blank.deeper)
        have listed := listed_intercalate '\x7d' blank.deeper.lineFeed blank.lineFeed
          each none
        rw [toList_block (by simpa using none)]
        simpa [List.map_map, Function.comp_def] using Spells.object listed

/-- The indented layout is a word of its value: `Spells json json.pretty.toList`. -/
theorem spells_pretty (json : Json) : Spells json json.pretty.toList :=
  spells_prettyAt "" json blank_nil

/-! ## One line -/

/-- The digits of a control are no line feed. -/
theorem lineFeed_not_mem_hexWord : ∀ value : Fin 32, '\n' ∉ (Text.hexWord value).toList := by
  decide

/-- No escaped character is a line feed: `'\n' ∉ (escapeChar c).toList`. -/
theorem lineFeed_not_mem_escapeChar (c : Char) : '\n' ∉ (escapeChar c).toList := by
  unfold escapeChar
  iterate 7 (split; · simp_all)
  split
  · rename_i control
    rw [String.toList_append, List.mem_append, not_or]
    exact ⟨by decide, lineFeed_not_mem_hexWord ⟨c.toNat, control⟩⟩
  · rename_i lineFeed _ _ _ _ _
    rw [Char.toString_eq_singleton, String.toList_singleton, List.mem_singleton]
    exact Ne.symm lineFeed

/-- Nor is any character of a text between quotes. -/
theorem lineFeed_not_mem_quote (text : String) : '\n' ∉ (quote text).toList := by
  simp [quote, String.toList_join, lineFeed_not_mem_escapeChar]

/-- What is in neither the words nor the mark between them is not in all of them together. -/
theorem not_mem_intercalate {c : Char} (mark : List Char) {words : List (List Char)}
    (between : c ∉ mark) (each : ∀ word ∈ words, c ∉ word) : c ∉ mark.intercalate words := by
  induction words with
  | nil => simp
  | cons word words ih =>
      obtain ⟨first, others⟩ := List.forall_mem_cons.1 each
      cases words with
      | nil => simpa using first
      | cons next words =>
          rw [List.intercalate_cons_cons]
          simp only [List.mem_append, not_or]
          exact ⟨⟨first, between⟩, ih others⟩

/-- **The compact layout is one line**: `'\n' ∉ json.compact.toList`. -/
theorem lineFeed_not_mem_compact (json : Json) : '\n' ∉ json.compact.toList := by
  induction json using compact.induct with
  | case1 =>
      rw [compact]
      decide
  | case2 value isFalse =>
      rw [compact, if_neg isFalse]
      decide
  | case3 value =>
      rw [compact, Nat.toString_eq_repr, Nat.toList_repr]
      exact Text.not_mem_digits
        (fun _ => Nat.isDigit_of_mem_toDigits (by decide) (by decide)) (by decide)
  | case4 value =>
      rw [compact]
      exact lineFeed_not_mem_quote value
  | case5 items ih =>
      have inner := not_mem_intercalate [','] (by decide)
        (List.forall_mem_map.2 ih : ∀ word ∈ items.map fun item => item.compact.toList, _)
      rw [compact]
      simpa [List.map_map, Function.comp_def] using inner
  | case6 fields ih =>
      have each (field : String × Json) (member : field ∈ fields) :
          '\n' ∉ (quote field.1).toList ++ ':' :: (compact field.2).toList := by
        rw [List.mem_append, List.mem_cons]
        simpa [lineFeed_not_mem_quote] using ih field.1 field.2 member
      have inner := not_mem_intercalate [','] (by decide) (List.forall_mem_map.2 each)
      rw [compact_object]
      simpa [List.map_map, Function.comp_def] using inner

end PeerWire.Json

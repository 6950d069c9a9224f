import PeerWire.CommandLine.Entry
import PeerWire.Proofs.Filling
import PeerWire.Proofs.JsonLayouts
import PeerWire.Proofs.Shown
import PeerWire.Proofs.Wordings

/-! # What a report prints

`Entry.Printed format entries output` says what has to stand in the lines of a report, apart from
how they are made. There is something for every entry and in their order: its number, the tag and
the name of its frame, and its message or what is wrong. As JSON this is an object on a line of its
own, as a table it is a row between rules, and for reading it is a title with the message below it.
The lines of a report are such lines: `Printed format entries (render entries format)`
(`Entry.printed_render`). As words of JSON stand for one value, a line of the first kind belongs to
entries that are much alike (`Entry.IsJsonLine.tells_apart`). -/

namespace PeerWire

/-! ## Tables -/

namespace Text.Table

/-- Whether a line is drawn between others and shows nothing. -/
def isRule (line : String) : Bool := line.toList.all ("┌─┬┐╞═╪╡├╌┼┤└┴┘".toList.contains ·)

/-- A cell stands between blanks: `drawn` is `cell` with some of them on each side. -/
def Padded (cell drawn : String) : Prop :=
  ∃ before after : Nat, drawn.toList =
    List.replicate before ' ' ++ cell.toList ++ List.replicate after ' '

/-- A line shows a row of cells, with `┆` between them and `│` around them. -/
def IsRow (cells : List String) (line : String) : Prop :=
  ∃ drawn : List String, List.Forall₂ Padded cells drawn ∧
    line = "│" ++ "┆".intercalate drawn ++ "│"

/-- The lines of a table, without the rules, show its rows in their order. -/
def Shows (rows : List (List String)) (lines : List String) : Prop :=
  List.Forall₂ IsRow rows (lines.filter fun line => !isRule line)

end Text.Table

/-! ## Entries -/

namespace CommandLine

/-- The name of a tag, and the tag: `ping(18)`, or `unknown` in place of the name. -/
def titleOf (tag : UInt16) : String :=
  ((MessageKind.ofTag? tag).map MessageKind.name).getD "unknown" ++ "(" ++
    toString tag.toNat ++ ")"

namespace Entry

/-- The named JSON values that tell of an entry. -/
inductive Told : Entry → List (String × Json) → Prop where
  /-- A message, with its tag, its name and the length of its body. -/
  | decoded {index : Nat} {message : Message} {shown : Json} : message.Shows shown →
      Told ⟨index, .decoded message⟩ [("index", .number index),
        ("type_id", .number message.tag.toNat), ("name", .text message.name),
        ("body_len", .number message.body.length), ("message", shown)]
  /-- A tag, with the name of its kind if there is one, and what is wrong. -/
  | malformed {index : Nat} {tag : UInt16} {cause : DecodeError} {text : String} :
      Tells cause.facts text →
      Told ⟨index, .malformed tag cause⟩ ([("index", .number index), ("type_id", .number tag.toNat)]
        ++ ((MessageKind.ofTag? tag).map fun kind => ("name", .text kind.name)).toList
        ++ [("error", .text text)])
  /-- Only what is wrong. -/
  | unreadable {index : Nat} {cause : LinkError} {text : String} : Tells cause.facts text →
      Told ⟨index, .unreadable cause⟩ [("index", .number index), ("error", .text text)]

/-- A line is the JSON text of an object that tells of an entry. -/
def IsJsonLine (entry : Entry) (line : String) : Prop :=
  OneLine line ∧ ∃ fields, entry.Told fields ∧ Json.Spells (.object fields) line.toList

/-- The cells that tell of an entry: number, title, length and state, which is `ok` or what is
wrong. -/
inductive Tabled : Entry → List String → Prop where
  /-- A message. -/
  | decoded {index : Nat} {message : Message} :
      Tabled ⟨index, .decoded message⟩
        [toString index, titleOf message.tag, toString message.body.length, "ok"]
  /-- A body that cannot be read. -/
  | malformed {index : Nat} {tag : UInt16} {cause : DecodeError} {text : String} :
      Tells cause.facts text →
      Tabled ⟨index, .malformed tag cause⟩ [toString index, titleOf tag, "-", text]
  /-- What is no frame. -/
  | unreadable {index : Nat} {cause : LinkError} {text : String} : Tells cause.facts text →
      Tabled ⟨index, .unreadable cause⟩ [toString index, "-", "-", text]

/-- The texts that tell of an entry one below the other. -/
inductive Titled : Entry → List String → Prop where
  /-- A message, and below its title what shows it. -/
  | decoded {index : Nat} {message : Message} {shown : Json} {text : String} :
      message.Shows shown → Json.Spells shown text.toList →
      Titled ⟨index, .decoded message⟩
        ["#" ++ toString index ++ " " ++ titleOf message.tag ++ " (" ++
          toString message.body.length ++ " bytes)", text]
  /-- A body that cannot be read. -/
  | malformed {index : Nat} {tag : UInt16} {cause : DecodeError} {text : String} :
      Tells cause.facts text →
      Titled ⟨index, .malformed tag cause⟩
        ["#" ++ toString index ++ " " ++ titleOf tag ++ " error: " ++ text]
  /-- What is no frame. -/
  | unreadable {index : Nat} {cause : LinkError} {text : String} : Tells cause.facts text →
      Titled ⟨index, .unreadable cause⟩ ["#" ++ toString index ++ " " ++ "-" ++ " error: " ++ text]

/-- Lines tell of entries, of each of them and in their order: JSON lines, the rows of a table, or
titled texts, as the `format` says. -/
def Printed : OutputFormat → List Entry → List String → Prop
  | .json, entries, output => List.Forall₂ IsJsonLine entries output
  | .table, entries, output => ∃ rows, List.Forall₂ Tabled entries rows ∧
      Text.Table.Shows (["#", "TYPE", "SIZE", "STATUS"] :: rows) output
  | .pretty, entries, output => ∃ parts, List.Forall₂ Titled entries parts ∧
      output = parts.flatten

end Entry

end CommandLine

/-! ## Tables that are drawn -/

namespace Text.Table

variable {table : Table} {cells : List String} {widths : List Nat}

/-- Rows as long as the header, with cells on one line. -/
structure Regular (table : Table) : Prop where
  /-- There is a column. -/
  header_ne_nil : table.header ≠ []
  /-- Every row has a cell for each column. -/
  length_eq : ∀ row ∈ table.rows, row.length = table.header.length
  /-- No cell has a line feed. -/
  oneLine : ∀ row ∈ table.header :: table.rows, ∀ cell ∈ row, OneLine cell

/-- The one line of a row of such cells. -/
def rowOf (widths : List Nat) (cells : List String) : String :=
  "│" ++ "┆".intercalate (widths.zipWith drawCell cells) ++ "│"

/-- A cell without a line feed has one line: `Text.lines cell = [cell]`. -/
theorem lines_of_oneLine {cell : String} (one : OneLine cell) : Text.lines cell = [cell] := by
  have whole : pieces '\n' cell.toList = [cell.toList] :=
    pieces_eq_iff.2 ⟨by simp, by simpa, by simp⟩
  rw [Text.lines, whole, List.map_singleton, String.ofList_toList]

/-- A row of such cells has one line: `drawRow widths cells = [rowOf widths cells]`. -/
theorem drawRow_of_oneLine (some : cells ≠ []) (each : ∀ cell ∈ cells, OneLine cell) :
    drawRow widths cells = [rowOf widths cells] := by
  have columns : cells.map Text.lines = cells.map fun cell => [cell] :=
    List.map_congr_left fun cell member => lines_of_oneLine (each cell member)
  have height (cells : List String) : (cells.map fun _ => 1).foldl max 1 = 1 := by
    induction cells with
    | nil => rfl
    | cons cell cells ih => exact ih
  obtain ⟨cell, others, rfl⟩ := List.exists_cons_of_ne_nil some
  have one : ((((cell :: others).map fun cell => [cell]).map List.length).foldl max 0) = 1 := by
    rw [List.map_map]
    exact height others
  simp only [drawRow, columns, one, List.range_one, List.map_singleton, List.zipWith_map_right,
    List.getD_cons_zero, rowOf]

/-- A line of characters from the rules is a rule. -/
theorem isRule_iff {line : String} :
    isRule line = true ↔ ∀ c ∉ "┌─┬┐╞═╪╡├╌┼┤└┴┘".toList, c ∉ line.toList := by
  simp only [isRule, List.all_eq_true, List.contains_iff_mem]
  exact forall_congr' fun c => not_imp_not.symm

/-- The lines between rows are rules. -/
theorem isRule_draw {line : Line} (known : line ∈ [topLine, headerLine, rowLine, bottomLine])
    (widths : List Nat) : isRule (line.draw widths) = true := by
  have parts : isRule line.left = true ∧ isRule line.cross = true ∧ isRule line.right = true ∧
      line.along ∈ "┌─┬┐╞═╪╡├╌┼┤└┴┘".toList := by
    revert line
    decide
  obtain ⟨left, cross, right, along⟩ := parts
  rw [isRule_iff] at left cross right ⊢
  intro c foreign
  have cell (width : Nat) : c ∉ (String.ofList (List.replicate width line.along)).toList := by
    rw [String.toList_ofList, List.mem_replicate]
    rintro ⟨-, rfl⟩
    exact foreign along
  simp only [Line.draw, String.toList_append, String.toList_intercalate, List.mem_append, not_or]
  refine ⟨⟨left c foreign, Json.not_mem_intercalate _ (cross c foreign) ?_⟩, right c foreign⟩
  simpa [List.forall_mem_map] using fun width _ => cell (width + 2)

/-- A row is no rule. -/
theorem isRule_rowOf : isRule (rowOf widths cells) = false := by
  have edge : '│' ∈ (rowOf widths cells).toList := by simp [rowOf]
  by_contra rule
  exact isRule_iff.1 (by simpa using rule) '│' (by decide) edge

/-- A row shows its cells. -/
theorem isRow_rowOf (same : widths.length = cells.length) : IsRow cells (rowOf widths cells) := by
  refine ⟨_, ?_, rfl⟩
  induction cells generalizing widths with
  | nil => simp
  | cons cell cells ih =>
      obtain ⟨width, widths, rfl⟩ := List.exists_cons_of_length_eq_add_one same
      refine .cons ⟨1, width - displayWidth cell + 1, ?_⟩ (ih (Nat.succ.inj same))
      simp [drawCell, List.replicate_succ']

/-- There is a width for each column: `table.header.length` of them. -/
theorem Regular.length_widths (regular : table.Regular) :
    table.widths.length = table.header.length := by
  have rows (rows : List (List String)) (widths : List Nat)
      (long : ∀ row ∈ rows, row.length = widths.length) :
      (rows.foldl (fun widths row => widths.zipWith max (row.map cellWidth)) widths).length =
        widths.length := by
    induction rows generalizing widths with
    | nil => rfl
    | cons row rows ih =>
        obtain ⟨first, later⟩ := List.forall_mem_cons.1 long
        have same : (widths.zipWith max (row.map cellWidth)).length = widths.length := by
          simp [first]
        rw [List.foldl_cons, ih _ (by simpa [same] using later), same]
  have long := rows table.rows (table.header.map cellWidth) (by simpa using regular.length_eq)
  rw [widths, long, List.length_map]

/-- Without what is `between` them, there are only the items. -/
theorem filter_intersperse {α : Type} {keep : α → Bool} {between : α} {items : List α}
    (drop : keep between = false) (each : ∀ item ∈ items, keep item = true) :
    (items.intersperse between).filter keep = items := by
  induction items with
  | nil => rfl
  | cons item items ih =>
      obtain ⟨first, later⟩ := List.forall_mem_cons.1 each
      cases items with
      | nil => simp [first]
      | cons next items =>
          rw [List.intersperse_cons_cons, List.filter_cons_of_pos first,
            List.filter_cons_of_neg (by simp [drop]), ih later]

/-- Lines that stand alone, with a line between any two. -/
theorem flatten_intersperse_singleton {α : Type} (between : α) (items : List α) :
    ((items.map fun item => [item]).intersperse [between]).flatten = items.intersperse between := by
  induction items with
  | nil => rfl
  | cons item items ih =>
      cases items with
      | nil => rfl
      | cons next items => exact congrArg (item :: between :: ·) ih

/-- **A table shows its rows**: `Shows (table.header :: table.rows) table.lines`. -/
theorem Regular.shows_lines (regular : table.Regular) :
    Shows (table.header :: table.rows) table.lines := by
  obtain ⟨header, others⟩ := List.forall_mem_cons.1 regular.oneLine
  have long : ∀ row ∈ table.header :: table.rows, table.widths.length = row.length :=
    List.forall_mem_cons.2 ⟨regular.length_widths, fun row member =>
      regular.length_widths.trans (regular.length_eq row member).symm⟩
  have drawn : table.rows.map (drawRow table.widths) =
      (table.rows.map (rowOf table.widths)).map fun line => [line] := by
    rw [List.map_map]
    refine List.map_congr_left fun row member => drawRow_of_oneLine ?_ (others row member)
    have := List.length_pos_iff.2 regular.header_ne_nil
    exact List.length_pos_iff.1 (regular.length_eq row member ▸ this)
  have kept : ∀ line ∈ table.rows.map (rowOf table.widths), (!isRule line) = true :=
    List.forall_mem_map.2 fun row _ => by simp [isRule_rowOf]
  have rule {line : Line} (known : line ∈ [topLine, headerLine, rowLine, bottomLine]) :
      (!isRule (line.draw table.widths)) = false := by simp [isRule_draw known]
  have rows : table.lines.filter (fun line => !isRule line) =
      (table.header :: table.rows).map (rowOf table.widths) := by
    have middle : ((table.rows.map (rowOf table.widths)).intersperse
        (rowLine.draw table.widths)).filter (fun line => !isRule line) =
          table.rows.map (rowOf table.widths) := filter_intersperse (rule (by simp)) kept
    rw [lines, drawn, flatten_intersperse_singleton,
      drawRow_of_oneLine regular.header_ne_nil header]
    simp only [List.filter_append, middle]
    simp [rule, isRule_rowOf]
  rw [Shows, rows]
  exact forall₂_map fun row member => isRow_rowOf (long row member)

end Text.Table

/-! ## Entries that are printed -/

namespace CommandLine

/-- What is wrong, if anything, stands on one line. -/
def Finding.Plain (finding : Finding) : Prop := OneLine (finding.problem?.getD "ok")

/-- The name of a tag, with the tag: `Registry.label tag = titleOf tag`. -/
theorem label_eq (tag : UInt16) : Registry.label tag = titleOf tag := by
  rw [Registry.label, Registry.lookup?_eq, titleOf]

/-- A title stands on one line. -/
theorem oneLine_titleOf (tag : UInt16) : OneLine (titleOf tag) := by
  have name : OneLine (((MessageKind.ofTag? tag).map MessageKind.name).getD "unknown") := by
    cases MessageKind.ofTag? tag with
    | none => decide
    | some kind => exact kind.oneLine_names.1
  simp +decide only [titleOf, oneLine_append, oneLine_toString, name]

namespace Entry

/-- An entry is written by `entry.toJson.compact` as an object that tells of it, on a line of its
own. -/
theorem isJsonLine_compact (entry : Entry) : entry.IsJsonLine entry.toJson.compact := by
  have spelled := Json.spells_compact entry.toJson
  refine ⟨Json.lineFeed_not_mem_compact entry.toJson, ?_⟩
  obtain ⟨index, finding⟩ := entry
  cases finding with
  | decoded message =>
      have told : Told ⟨index, .decoded message⟩ _ := .decoded message.shows_toJson
      rw [Message.length_body] at told
      exact ⟨_, told, spelled⟩
  | malformed tag cause =>
      have told : Told ⟨index, .malformed tag cause⟩ _ := .malformed cause.tells_message
      have names : (MessageKind.ofTag? tag).map (fun kind => ("name", Json.text kind.name)) =
          (Registry.lookup? tag).map fun name => ("name", Json.text name) := by
        rw [Registry.lookup?_eq, Option.map_map]
        rfl
      rw [names] at told
      exact ⟨_, told, spelled⟩
  | unreadable cause => exact ⟨_, .unreadable cause.tells_message, spelled⟩

/-- The cells of an entry, `entry.toRow`, tell of it. -/
theorem tabled_toRow (entry : Entry) : entry.Tabled entry.toRow := by
  obtain ⟨index, finding⟩ := entry
  cases finding with
  | decoded message =>
      have tabled : Tabled ⟨index, .decoded message⟩ _ := .decoded
      rw [Message.length_body, ← label_eq] at tabled
      exact tabled
  | malformed tag cause =>
      have tabled : Tabled ⟨index, .malformed tag cause⟩ _ := .malformed cause.tells_message
      rw [← label_eq] at tabled
      exact tabled
  | unreadable cause => exact .unreadable cause.tells_message

/-- The lines of an entry, `entry.toLines`, tell of it. -/
theorem titled_toLines (entry : Entry) : entry.Titled entry.toLines := by
  obtain ⟨index, finding⟩ := entry
  cases finding with
  | decoded message =>
      have titled : Titled ⟨index, .decoded message⟩ _ :=
        .decoded message.shows_toJson (Json.spells_pretty message.toJson)
      rw [Message.length_body, ← label_eq] at titled
      exact titled
  | malformed tag cause =>
      have titled : Titled ⟨index, .malformed tag cause⟩ _ := .malformed cause.tells_message
      rw [← label_eq] at titled
      exact titled
  | unreadable cause => exact .unreadable cause.tells_message

/-- The table of entries whose errors stand on one line is regular. -/
theorem regular_table {entries : List Entry} (plain : ∀ entry ∈ entries, entry.finding.Plain) :
    (Text.Table.mk ["#", "TYPE", "SIZE", "STATUS"] (entries.map toRow)).Regular where
  header_ne_nil := by simp
  length_eq := List.forall_mem_map.2 fun entry _ => rfl
  oneLine := by
    have header : ∀ cell ∈ ["#", "TYPE", "SIZE", "STATUS"], OneLine cell := by decide
    refine List.forall_mem_cons.2 ⟨header, List.forall_mem_map.2 fun entry member => ?_⟩
    have title : OneLine entry.finding.label := by
      rw [Finding.label]
      cases entry.finding.tag? with
      | none => decide
      | some tag =>
          rw [Option.map_some, Option.getD_some, label_eq]
          exact oneLine_titleOf tag
    simp only [toRow, List.forall_mem_cons]
    refine ⟨oneLine_toString _, title, ?_, plain entry member, List.forall_mem_nil _⟩
    split
    · exact oneLine_toString _
    · decide

/-- **The lines of a report tell of its entries**, in every format: `Printed format entries (render
entries format)`. -/
theorem printed_render (format : OutputFormat) {entries : List Entry}
    (plain : ∀ entry ∈ entries, entry.finding.Plain) :
    Printed format entries (render entries format) := by
  cases format with
  | json => exact forall₂_map fun entry _ => entry.isJsonLine_compact
  | table =>
      exact ⟨_, forall₂_map fun entry _ => entry.tabled_toRow, (regular_table plain).shows_lines⟩
  | pretty =>
      exact ⟨_, forall₂_map fun entry _ => entry.titled_toLines, List.flatMap_def⟩

/-! ## Entries that are told apart -/

variable {entry other : Entry} {fields : List (String × Json)} {line : String}

/-- The number of an entry is among what is told of it, as `"index"`. -/
theorem Told.lookup_index (told : entry.Told fields) :
    fields.lookup "index" = some (.number entry.index) := by
  cases told <;> rfl

/-- The tag is told if there is one, as `"type_id"`. -/
theorem Told.lookup_type_id (told : entry.Told fields) :
    fields.lookup "type_id" = entry.finding.tag?.map fun tag => .number tag.toNat := by
  cases told <;> rfl

/-- It is told that something is wrong, by an `"error"`, unless there is a message. -/
theorem Told.lookup_error_eq_none_iff (told : entry.Told fields) :
    fields.lookup "error" = none ↔ ∃ message, entry.finding = .decoded message := by
  cases told with
  | decoded => simp [List.lookup_cons]
  | malformed => cases MessageKind.ofTag? _ <;> simp [List.lookup_cons]
  | unreadable => simp [List.lookup_cons]

/-- **A JSON line tells entries apart**: those that it tells of have the same number and the same
tag, and there is a message in all of them or in none. -/
theorem IsJsonLine.tells_apart (first : entry.IsJsonLine line) (second : other.IsJsonLine line) :
    entry.index = other.index ∧ entry.finding.tag? = other.finding.tag? ∧
      ((∃ message, entry.finding = .decoded message) ↔
        ∃ message, other.finding = .decoded message) := by
  obtain ⟨-, fields, told, spelled⟩ := first
  obtain ⟨-, fields', told', spelled'⟩ := second
  have same := Json.Spells.unique spelled spelled'
  cases same
  have number : Function.Injective fun tag : UInt16 => Json.number tag.toNat :=
    fun _ _ equal => UInt16.toNat_inj.1 (Json.number.inj equal)
  exact ⟨by simpa using told.lookup_index.symm.trans told'.lookup_index,
    Option.map_injective number (told.lookup_type_id.symm.trans told'.lookup_type_id),
    told.lookup_error_eq_none_iff.symm.trans told'.lookup_error_eq_none_iff⟩

end Entry

end CommandLine

end PeerWire

import PeerWire.Proofs.HexDigits
import PeerWire.Proofs.Reporting
import PeerWire.Proofs.RoundTrip

/-! # Inspecting one message

A message can be given as digits, with the length of its frame in front or without it, or in a
file. A frame that is given whole is taken apart into what is given without the length
(`CommandLine.inspect_framed`, `CommandLine.inspect_unframed`), and a file that holds nothing else
has this one frame (`CommandLine.runDecode_toBytes`), so that the answer is the same each time
(`CommandLine.runIn_inspect_agrees`). Everything else is refused: bytes that are not one whole frame
(`CommandLine.inspect_not_whole`), and texts that spell no bytes
(`CommandLine.inspect_not_paired`). -/

namespace PeerWire

namespace CommandLine

variable {bytes body : Bytes} {digits : String} {tag : UInt16} {frame : Frame} {limit : Nat}

/-! ## Digits -/

/-- Only the length of the body decides whether a frame fits: `body.length ≤ 65533` and `2 +
body.length ≤ limit`. -/
theorem fits_mk_iff :
    (Frame.mk tag body).Fits limit ↔ body.length ≤ 65533 ∧ 2 + body.length ≤ limit :=
  and_congr Frame.declaredLength_le_maxSize_iff Iff.rfl

/-- The limit that two bytes impose anyway is no other condition. -/
theorem fits_of_length_le (small : body.length ≤ 65533) :
    (Frame.mk tag body).Fits Frame.maxSize :=
  fits_mk_iff.2 ⟨small, Nat.add_le_add_left small 2⟩

/-- The failure of a body that cannot be read. -/
def CommandError.ofDecode (cause : DecodeError) : CommandError :=
  ⟨.invalidData, "decode failed: " ++ cause.message⟩

/-- Bytes without a length in front are read as a tag and a body, by `Message.decode tag body`. -/
theorem inspect_unframed (spelled : Hex.Spelling (bigEndian 2 tag.toNat ++ body) digits) :
    inspect digits true = (Message.decode tag body).mapError .ofDecode := by
  rw [inspect, Hex.decode_withoutBlanks_eq_ok_iff.2 spelled]
  simp only [if_true, Message.read_tag_append]
  cases Message.decode tag body with
  | error cause => rfl
  | ok message => rfl

/-- A frame is read as its tag and its body, by `Message.decode frame.tag frame.body`. -/
theorem inspect_framed (fits : frame.Fits Frame.maxSize)
    (spelled : Hex.Spelling frame.toBytes digits) :
    inspect digits false = (Message.decode frame.tag frame.body).mapError .ofDecode := by
  have whole : Frame.read frame.toBytes Frame.maxSize = .ok (frame, frame.wireLength) :=
    Frame.read_of_takeFrom (Frame.takeFrom_eq_some_iff.2 ⟨(List.append_nil _).symm, fits⟩)
  rw [inspect, Hex.decode_withoutBlanks_eq_ok_iff.2 spelled]
  simp only [Bool.false_eq_true, if_false, whole, Frame.length_toBytes, ne_eq, not_true,
    Message.ofFrame]
  cases Message.decode frame.tag frame.body with
  | error cause => rfl
  | ok message => rfl

/-- A byte string that is not read as a frame is `invalidData`: no transport is involved. -/
theorem ofFrame_of_read {error : FrameError} (run : Frame.read bytes limit = .error error) :
    ExitCode.ofFrame error = .invalidData := by
  rw [Frame.read_eq] at run
  split at run
  · cases run
  · cases run
    rfl
  · rename_i cause refused
    cases run
    cases (Frame.takeFrom_eq_error_iff_read.1 refused).2 with
    | oversize size limit => rfl
    | tooShort length => rfl

/-- **Bytes that are not one whole frame are refused as wrong data**: `invalidData`, with `unframe
failed` and why. -/
theorem inspect_not_whole (spelled : Hex.Spelling bytes digits)
    (other : ∀ frame : Frame, frame.Fits Frame.maxSize → bytes ≠ frame.toBytes) :
    ∃ why, inspect digits false = .error ⟨.invalidData, "unframe failed: " ++ why⟩ := by
  rw [inspect, Hex.decode_withoutBlanks_eq_ok_iff.2 spelled]
  cases run : Frame.read bytes Frame.maxSize with
  | error error =>
      refine ⟨error.message, ?_⟩
      simp only [Bool.false_eq_true, if_false, run, ofFrame_of_read run]
  | ok found =>
      obtain ⟨frame, size⟩ := found
      -- A frame that takes all the bytes would be all that they are.
      have left : size ≠ bytes.length := by
        rintro rfl
        obtain ⟨taken, -⟩ := Frame.read_eq_ok_iff.1 run
        obtain ⟨whole, fits⟩ := Frame.takeFrom_eq_some_iff.1 taken
        rw [List.drop_length, List.append_nil] at whole
        exact other frame fits whole
      refine ⟨s!"{bytes.length - size} trailing bytes after frame", ?_⟩
      simp only [Bool.false_eq_true, if_false, run, if_pos left]
      rfl

/-- Texts that spell no bytes are refused as wrong data. -/
theorem inspect_not_paired (unpaired : ¬Hex.IsPaired digits) (unframed : Bool) :
    ∃ why, inspect digits unframed = .error ⟨.invalidData, "invalid hex: " ++ why⟩ := by
  cases read : Hex.decode (Text.withoutBlanks digits) with
  | error error =>
      refine ⟨error.message, ?_⟩
      rw [inspect, read]
      rfl
  | ok bytes =>
      exact absurd (Hex.exists_spelling_iff.1 ⟨bytes, Hex.decode_withoutBlanks_eq_ok_iff.1 read⟩)
        unpaired

/-! ## Files -/

/-- A report about one frame has one entry: `⟨0, .ofFrame frame⟩`. -/
theorem runDecode_toBytes (fits : frame.Fits limit) (format : OutputFormat) :
    (runDecode (.ofBytes frame.toBytes) limit format).output =
        Entry.render [⟨0, .ofFrame frame⟩] format ∧
      (runDecode (.ofBytes frame.toBytes) limit format).error = none ∧
      ∀ message, Message.decode frame.tag frame.body = .ok message →
        (runDecode (.ofBytes frame.toBytes) limit format).code = .success := by
  have all : Frame.readAll limit frame.toBytes = ([frame], []) := by
    have whole := Frame.readAll_flatMap_toBytes (List.forall_mem_singleton.2 fits)
    rwa [List.flatMap_singleton] at whole
  have items := MessageInlet.drain_ofBytes all .clean none
  obtain ⟨output, error, codes⟩ := runDecode_of_items format items
  refine ⟨?_, error, fun message decoded => ?_⟩
  · rw [output]
    show Entry.render [⟨0, .ofItem frame.outcome⟩] format = _
    rw [Finding.ofItem_outcome]
  · rcases codes with ⟨-, code⟩ | ⟨bad, -⟩
    · exact code
    · refine absurd ⟨[message], ?_⟩ bad
      show [frame.outcome] = [.ok message]
      rw [Frame.outcome, decoded]

/-! ## Command lines -/

/-- A command line that asks for a command and for a layout of its output. -/
def Asks (words : List String) (command : Command) (format : OutputFormat) : Prop :=
  ∃ settings : Settings,
    parse words = .ok ⟨command, settings⟩ ∧ settings.format.getD .json = format

variable {directory : Directory} {words : List String} {format : OutputFormat}

/-- Inspecting needs no file: it runs as `runInspect digits unframed format`. -/
theorem runIn_inspect {unframed : Bool} (asks : Asks words (.inspect digits unframed) format) :
    runIn directory words = runInspect digits unframed format := by
  obtain ⟨settings, asked, rfl⟩ := asks
  rw [runIn, asked]
  rfl

/-- A message that is found is shown as the only entry: `⟨0, .decoded message⟩`. -/
theorem runIn_of_inspect_ok {unframed : Bool} {message : Message}
    (asks : Asks words (.inspect digits unframed) format)
    (found : inspect digits unframed = .ok message) :
    (runIn directory words).code.toNat = 0 ∧ (runIn directory words).error = none ∧
      (runIn directory words).output = Entry.render [⟨0, .decoded message⟩] format ∧
      Entry.Printed format [⟨0, .decoded message⟩] (runIn directory words).output := by
  have plain : ∀ entry ∈ [Entry.mk 0 (.decoded message)], entry.finding.Plain :=
    List.forall_mem_singleton.2 (by decide : OneLine "ok")
  rw [runIn_inspect asks, runInspect, found]
  exact ⟨rfl, rfl, rfl, Entry.printed_render format plain⟩

/-- Where none is found, there is only an error, and the code is 60: `"error: " ++ what ++ why`. -/
theorem runIn_of_inspect_error {unframed : Bool} {what why : String}
    (asks : Asks words (.inspect digits unframed) format)
    (failed : inspect digits unframed = .error ⟨.invalidData, what ++ why⟩) :
    (runIn directory words).code.toNat = 60 ∧ (runIn directory words).output = [] ∧
      (runIn directory words).error = some ("error: " ++ what ++ why) := by
  rw [runIn_inspect asks, runInspect, failed, String.append_assoc]
  exact ⟨rfl, rfl, rfl⟩

/-- A report is about the file that is named. -/
theorem runIn_decode {path name : String} (asks : Asks words (.decode path limit) format)
    (there : directory.locate path = .file name bytes) :
    runIn directory words = runDecode (.ofBytes bytes) limit format := by
  obtain ⟨settings, asked, rfl⟩ := asks
  rw [runIn, asked]
  show Command.run _ _ (directory.openFile path) = _
  rw [Directory.openFile, there]
  rfl

/-- Any text can be given to be inspected, behind `--`. -/
theorem asks_inspect (digits : String) :
    Asks ["inspect", "--", digits] (.inspect digits false) .json ∧
      Asks ["inspect", "--unframed", "--", digits] (.inspect digits true) .json :=
  ⟨⟨{}, rfl, rfl⟩, ⟨{}, rfl, rfl⟩⟩

/-- **A message is shown in the same way framed, unframed and from a file.** Any text can be
inspected. Where one text spells a frame, and another its bytes without the length, inspecting them
has the same outcome. If the body can be read under the tag, what is printed tells of the message as
the only entry: `Printed format [⟨0, .decoded message⟩] output`. The report about a file that holds
only this frame then ends well and shows the same. Otherwise the exit code is 60, with a text that
tells why the body cannot be read. Bytes that are not those of one frame are refused with the exit
code 60 unless they are said to be unframed, and texts that spell no bytes are refused so in any
case; these are the ones that are no even number of digits. -/
theorem runIn_inspect_agrees (directory : Directory) :
    (∀ digits, Asks ["inspect", "--", digits] (.inspect digits false) .json ∧
      Asks ["inspect", "--unframed", "--", digits] (.inspect digits true) .json) ∧
    (∀ (tag : UInt16) (body : Bytes) (framed bare : String) (words words' : List String)
      (format : OutputFormat), body.length ≤ 65533 →
      Hex.Spelling (Frame.mk tag body).toBytes framed →
      Hex.Spelling (bigEndian 2 tag.toNat ++ body) bare →
      Asks words (.inspect framed false) format → Asks words' (.inspect bare true) format →
      runIn directory words = runIn directory words' ∧
      (∀ message, Message.decode tag body = .ok message →
        (runIn directory words).code.toNat = 0 ∧ (runIn directory words).error = none ∧
        (runIn directory words).output = Entry.render [⟨0, .decoded message⟩] format ∧
        Entry.Printed format [⟨0, .decoded message⟩] (runIn directory words).output ∧
        ∀ (limit : Nat) (path name : String) (words'' : List String),
          2 + body.length ≤ limit → Asks words'' (.decode path limit) format →
          directory.locate path = .file name (Frame.mk tag body).toBytes →
          (runIn directory words'').code.toNat = 0 ∧ (runIn directory words'').error = none ∧
          (runIn directory words'').output = (runIn directory words).output) ∧
      ∀ cause, Message.decode tag body = .error cause →
        (runIn directory words).code.toNat = 60 ∧ (runIn directory words).output = [] ∧
        (runIn directory words).error = some ("error: decode failed: " ++ cause.message) ∧
        Tells cause.facts cause.message) ∧
    (∀ (bytes : Bytes) (digits : String) (words : List String) (format : OutputFormat),
      Hex.Spelling bytes digits → Asks words (.inspect digits false) format →
      (∀ (tag : UInt16) (body : Bytes), body.length ≤ 65533 →
        bytes ≠ (Frame.mk tag body).toBytes) →
      (runIn directory words).code.toNat = 60 ∧
      ∃ why, (runIn directory words).error = some ("error: unframe failed: " ++ why)) ∧
    ∀ (digits : String) (unframed : Bool) (words : List String) (format : OutputFormat),
      Asks words (.inspect digits unframed) format →
      ((∃ bytes, Hex.Spelling bytes digits) ↔ Hex.IsPaired digits) ∧
      (¬Hex.IsPaired digits → (runIn directory words).code.toNat = 60 ∧
        ∃ why, (runIn directory words).error = some ("error: invalid hex: " ++ why)) := by
  refine ⟨asks_inspect, ?_, ?_, ?_⟩
  · intro tag body framed bare words words' format small spelled spelled' asks asks'
    have inspected := inspect_framed (fits_of_length_le small) spelled
    have inspected' := inspect_unframed spelled'
    refine ⟨?_, fun message decoded => ?_, fun cause decoded => ?_⟩
    · rw [runIn_inspect asks, runIn_inspect asks', runInspect, runInspect, inspected, inspected']
    · rw [decoded] at inspected
      obtain ⟨code, error, output, printed⟩ := runIn_of_inspect_ok asks inspected
      refine ⟨code, error, output, printed,
        fun limit path name words'' admits asks'' there => ?_⟩
      obtain ⟨output', error', code'⟩ := runDecode_toBytes (fits_mk_iff.2 ⟨small, admits⟩) format
      rw [runIn_decode asks'' there, code' message decoded, error', output', output,
        Finding.ofFrame, decoded]
      exact ⟨rfl, rfl, rfl⟩
    · rw [decoded] at inspected
      obtain ⟨code, output, error⟩ := runIn_of_inspect_error asks inspected
      exact ⟨code, output, error, cause.tells_message⟩
  · intro bytes digits words format spelled asks other
    obtain ⟨why, failed⟩ := inspect_not_whole spelled fun frame fits =>
      other frame.tag frame.body (fits_mk_iff.1 fits).1
    obtain ⟨code, -, error⟩ := runIn_of_inspect_error asks failed
    exact ⟨code, why, error⟩
  · intro digits unframed words format asks
    refine ⟨Hex.exists_spelling_iff, fun unpaired => ?_⟩
    obtain ⟨why, failed⟩ := inspect_not_paired unpaired unframed
    obtain ⟨code, -, error⟩ := runIn_of_inspect_error asks failed
    exact ⟨code, why, error⟩

/-- A ping with and without its length, in digits of either case and with blanks, and in a file. -/
theorem runIn_inspect_agrees_ping :
    let content : Bytes := [0, 6, 0, 18, 0, 250, 0, 0]
    let directory : Directory := ⟨[("ping.log", content)]⟩
    let shown := Entry.render [⟨0, .decoded (.known .ping (250, [], ()) [])⟩] .json
    (runIn directory ["inspect", "--", "0006 0012 00fA 0000"]).output = shown ∧
      Entry.Printed .json [⟨0, .decoded (.known .ping (250, [], ()) [])⟩] shown ∧
      (runIn directory ["inspect", "--unframed", "--", "0012 00F a00 00"]).output = shown ∧
      (runIn directory ["decode", "ping.log"]).output = shown ∧
      (runIn directory ["inspect", "--", "0012 00fA 0000"]).code.toNat = 60 ∧
      (runIn directory ["inspect", "--", "0006 0012 00f"]).code.toNat = 60 := by
  intro content directory shown
  obtain ⟨given, agrees, others, unpaired⟩ := runIn_inspect_agrees directory
  have decoded : Message.decode 18 [0, 250, 0, 0] = .ok (.known .ping (250, [], ()) []) := by
    decide
  obtain ⟨same, ends, -⟩ := agrees 18 [0, 250, 0, 0] "0006 0012 00fA 0000" "0012 00F a00 00" _ _
    .json (by decide) (by decide) (by decide) (given _).1 (given _).2
  obtain ⟨-, -, output, printed, file⟩ := ends _ decoded
  obtain ⟨-, -, output'⟩ := file Frame.maxSize "ping.log" "ping.log" ["decode", "ping.log"]
    (by decide) ⟨{}, by decide, rfl⟩ (by decide)
  rw [output] at printed
  refine ⟨output, printed, same ▸ output, output'.trans output, ?_, ?_⟩
  · have spelled : Hex.Spelling [0, 18, 0, 250, 0, 0] "0012 00fA 0000" := by decide
    have waits : Frame.takeFrom [0, 18, 0, 250, 0, 0] Frame.maxSize = .ok none := by decide
    refine (others _ _ _ _ spelled (given _).1 fun tag body small whole => ?_).1
    have fits : (Frame.mk tag body).Fits Frame.maxSize := fits_of_length_le small
    have taken := Frame.takeFrom_eq_some_iff.2 ⟨(List.append_nil _).symm, fits⟩
    rw [← whole, waits] at taken
    cases taken
  · refine ((unpaired _ _ _ _ (given _).1).2 fun paired => ?_).1
    exact absurd paired.2 (by decide)

end CommandLine

end PeerWire

import PeerWire.CommandLine.Settings
import PeerWire.Text.Decimal

/-! # Reading a command line

A command line has two levels: options, the name of a command, and then options and an operand of
that command. An option is given at most once on its level. One that takes a value has it after
an equals sign or as the next word, which then must not look like an option. After a word of two
dashes no word is an option. The settings can be given on both levels; the inner one counts. -/

namespace PeerWire.CommandLine

/-- What is wrong with a command line. -/
inductive Misuse where
  /-- There is no such option. -/
  | unknownOption (word : String)
  /-- A value is given to an option that takes none. -/
  | unexpectedValue (name : String)
  /-- The value of an option is missing. -/
  | missingValue (name : String)
  /-- The value of an option is not allowed. -/
  | badValue (name value : String)
  /-- An option is given twice. -/
  | repeated (name : String)
  /-- A word has no place. -/
  | unexpectedWord (word : String)
  /-- The operand is missing or empty. -/
  | missingOperand (name : String)
  /-- There is no such command. -/
  | unknownCommand (name : String)
  /-- No command is given. -/
  | missingCommand
  deriving DecidableEq, Repr

/-- The wording of a misuse. -/
def Misuse.message : Misuse → String
  | .unknownOption word => s!"unexpected argument {word}"
  | .unexpectedValue name => s!"option --{name} takes no value"
  | .missingValue name => s!"option --{name} needs a value"
  | .badValue name value => s!"invalid value {value} for option --{name}"
  | .repeated name => s!"option --{name} cannot be used multiple times"
  | .unexpectedWord word => s!"unexpected argument {word}"
  | .missingOperand name => s!"missing argument {name}"
  | .unknownCommand name => s!"unrecognized command {name}"
  | .missingCommand => "a command is required"

/-- Why reading stops before there is a command. -/
inductive Stop where
  /-- Help is asked for. -/
  | help
  /-- The version is asked for. -/
  | version
  /-- The command line is wrong. -/
  | misuse (cause : Misuse)
  deriving DecidableEq, Repr

/-! ## Words -/

/-- What a word can be. -/
inductive Word where
  /-- A long option, perhaps with a value after an equals sign. -/
  | long (name : String) (value : Option String)
  /-- Short options in one word; the first of them decides. -/
  | short (letter : Char)
  /-- Ends the options. -/
  | dashes
  /-- Anything else, a lone dash as well. -/
  | plain
  deriving DecidableEq, Repr

/-- What a word is: `--name`, `--name=value`, `-x`, `--` or another one. -/
def Word.ofString (word : String) : Word :=
  match word.toList with
  | ['-', '-'] => .dashes
  | '-' :: '-' :: rest =>
      let name := rest.takeWhile (· ≠ '=')
      .long (String.ofList name) (match rest.drop name.length with
        | [] => none
        | _ :: value => some (String.ofList value))
  | '-' :: letter :: _ => .short letter
  | _ => .plain

/-! ## One level -/

/-- What an option does to what was read so far. -/
inductive OptionRule (σ : Type) where
  /-- It takes no value. -/
  | switch (set : σ → σ)
  /-- It takes a value, which may be refused. -/
  | value (set : String → σ → Option σ)
  /-- It ends the reading. -/
  | stop (reason : Stop)

/-- The words of a level: its options by name, those of one letter, and what is done with other
words; none where the first of them ends the level. -/
structure Level (σ : Type) where
  /-- The options by name. -/
  options : List (String × OptionRule σ)
  /-- The options of one letter. -/
  letters : List (Char × Stop)
  /-- What is done with an operand. -/
  operand : Option (String → σ → Except Misuse σ)

namespace Level

variable {σ : Type}

/-- Reads words of which none is an option. -/
def readOperands (level : Level σ) (state : σ) : List String → Except Stop (σ × List String)
  | [] => .ok (state, [])
  | word :: words =>
      match level.operand with
      | none => .error (.misuse (.unexpectedWord word))
      | some set =>
          match set word state with
          | .error cause => .error (.misuse cause)
          | .ok state => readOperands level state words

/-- The state after an option with a value. -/
def assign (state : σ) (given : List String) (name value : String)
    (set : String → σ → Option σ) : Except Stop σ :=
  if given.contains name then .error (.misuse (.repeated name))
  else match set value state with
    | none => .error (.misuse (.badValue name value))
    | some state => .ok state

/-- Reads the words of a level, and gives those after it; `given` holds the names of the options
given before. -/
def read (level : Level σ) (state : σ) (given : List String) :
    List String → Except Stop (σ × List String)
  | [] => .ok (state, [])
  | word :: words =>
      match Word.ofString word with
      | .dashes => level.readOperands state words
      | .short letter =>
          match level.letters.lookup letter with
          | none => .error (.misuse (.unknownOption word))
          | some reason => .error reason
      | .plain =>
          match level.operand with
          | none => .ok (state, word :: words)
          | some set =>
              match set word state with
              | .error cause => .error (.misuse cause)
              | .ok state => read level state given words
      | .long name attached =>
          match level.options.lookup name, attached with
          | none, _ => .error (.misuse (.unknownOption word))
          | some (.stop reason), none => .error reason
          | some (.switch set), none =>
              if given.contains name then .error (.misuse (.repeated name))
              else read level (set state) (name :: given) words
          | some (.stop _), some _ | some (.switch _), some _ =>
              .error (.misuse (.unexpectedValue name))
          | some (.value set), some value =>
              match assign state given name value set with
              | .error reason => .error reason
              | .ok state => read level state (name :: given) words
          | some (.value set), none =>
              match words with
              | [] => .error (.misuse (.missingValue name))
              | value :: words =>
                  if Word.ofString value = .plain then
                    match assign state given name value set with
                    | .error reason => .error reason
                    | .ok state => read level state (name :: given) words
                  else .error (.misuse (.missingValue name))

end Level

/-! ## The two levels -/

/-- What was read of a command: its settings, its operand and its options. -/
structure Draft where
  /-- The settings. -/
  settings : Settings := {}
  /-- The path or the digits. -/
  operand : Option String := none
  /-- The seed of samples. -/
  seed : UInt64 := 0
  /-- The limit on frames. -/
  limit : Nat := Frame.maxSize
  /-- Whether the digits have no length in front. -/
  unframed : Bool := false
  /-- Whether all about the version is to be shown. -/
  extended : Bool := false
  deriving DecidableEq, Repr

/-- The options that both levels have. -/
def sharedOptions : List (String × OptionRule Draft) := [
  ("format", .value fun value draft => (OutputFormat.ofName? value).map fun format =>
    { draft with settings := { draft.settings with format := some format } }),
  ("log-format", .value fun value draft => (NoticeFormat.ofName? value).map fun format =>
    { draft with settings := { draft.settings with noticeFormat := some format } }),
  ("log-level", .value fun value draft => (NoticeLevel.ofName? value).map fun level =>
    { draft with settings := { draft.settings with noticeLevel := some level } }),
  ("help", .stop .help)]

/-- The level before the command. -/
def outerLevel : Level Draft where
  options := ("version", .stop .version) :: sharedOptions
  letters := [('h', .help), ('V', .version)]
  operand := none

/-- Takes the one operand of a command, if it is `allowed`. -/
def takeOperand (allowed : String → Bool) (name word : String) (draft : Draft) :
    Except Misuse Draft :=
  if draft.operand.isSome then .error (.unexpectedWord word)
  else if allowed word then .ok { draft with operand := some word }
  else .error (.missingOperand name)

/-- Takes no operand. -/
def refuseOperand (word : String) (_ : Draft) : Except Misuse Draft :=
  .error (.unexpectedWord word)

/-- A command as it is written: the words of its level, and the command they make. -/
structure CommandForm where
  /-- The options that only this command has. -/
  options : List (String × OptionRule Draft) := []
  /-- What is done with an operand. -/
  operand : String → Draft → Except Misuse Draft := refuseOperand
  /-- The command that was read. -/
  build : Draft → Except Misuse Command

/-- The words after the name of a command. -/
def CommandForm.level (form : CommandForm) : Level Draft where
  options := form.options ++ sharedOptions
  letters := [('h', .help)]
  operand := some form.operand

/-- The 64-bit number that a text writes: `Text.parseBelow? UInt64.size`. -/
def word64? (text : String) : Option Nat := Text.parseBelow? UInt64.size text.toList

/-- A command made from an operand that must be there. -/
def withOperand (name : String) (make : String → Command) (draft : Draft) :
    Except Misuse Command :=
  match draft.operand with
  | none => .error (.missingOperand name)
  | some operand => .ok (make operand)

/-- The commands by name. -/
def commandForms : List (String × CommandForm) := [
  ("fixtures", {
    options := [("seed", .value fun value draft =>
      (word64? value).map fun seed => { draft with seed := UInt64.ofNat seed })]
    operand := takeOperand (!·.isEmpty) "PATH"
    build := fun draft => withOperand "PATH" (.fixtures · draft.seed) draft }),
  ("decode", {
    options := [("max-frame-size", .value fun value draft =>
      (word64? value).map fun limit => { draft with limit })]
    operand := takeOperand (!·.isEmpty) "PATH"
    build := fun draft => withOperand "PATH" (.decode · draft.limit) draft }),
  ("inspect", {
    options := [("unframed", .switch fun draft => { draft with unframed := true })]
    operand := takeOperand (fun _ => true) "HEX"
    build := fun draft => withOperand "HEX" (.inspect · draft.unframed) draft }),
  ("types", { build := fun _ => .ok .types }),
  ("version", {
    options := [("extended", .switch fun draft => { draft with extended := true })]
    build := fun draft => .ok (.version draft.extended) })]

/-- What the words after `help` ask for: the help of a command that there is, or of all. -/
def readHelp : List String → Stop
  | [] => .help
  | [name] =>
      if name = "help" || (commandForms.lookup name).isSome then .help
      else .misuse (.unknownCommand name)
  | _ :: word :: _ => .misuse (.unknownCommand word)

/-- Reads a command line. -/
def parse (words : List String) : Except Stop Invocation :=
  match outerLevel.read {} [] words with
  | .error reason => .error reason
  | .ok (_, []) => .error (.misuse .missingCommand)
  | .ok (outer, name :: words) =>
      match commandForms.lookup name with
      | none =>
          .error (if name = "help" then readHelp words else .misuse (.unknownCommand name))
      | some form =>
          match form.level.read {} [] words with
          | .error reason => .error reason
          | .ok (draft, _) =>
              match form.build draft with
              | .error cause => .error (.misuse cause)
              | .ok command => .ok ⟨command, draft.settings.orElse outer.settings⟩

end PeerWire.CommandLine

/-
The command line: which words ask for what.

There is one command, `generate-analyzers`, and `help`. Options may stand before the command or
after it, if both levels know them; every level settles its own options, and what was said after
the command wins. An option that takes a value waits for it: the value is the rest of its own word,
or the next word that does not look like an option. Before anything else happens at a level the
option that waits is settled, so a missing or an empty value and a repeated option are reported at
that moment, in the order of the words. After the word `--` nothing looks like an option.
-/
import Graft.Path

set_option autoImplicit false

namespace Graft

/-- What the command line asks for. -/
structure CommandLine where
  /-- The file to read the settings from. -/
  settings : Option Path
  verbose : Bool
  /-- The namespace of the artifacts, not yet read. -/
  space : String
  /-- The directory that overrides the one of the settings. -/
  output : Option Path
  /-- Whether to write only if something may have changed. -/
  ifStale : Bool
  deriving DecidableEq

/-- Why the words are no command line, or ask for a text instead. -/
inductive UsageError
  | help
  | version
  /-- There are no words that say anything. -/
  | nothingAsked
  | missingCommand
  | unknownCommand (word : String)
  | missingNamespace
  | unknownArgument (word : String)
  /-- An option stands twice at one level. -/
  | repeated
  /-- An option has no value, or an empty one. -/
  | badValue
  /-- An option has a value and takes none. -/
  | needlessValue (word : String)
  deriving DecidableEq

namespace CommandLine

/-! ## 1. Words of the program -/

/-- The name of the program. -/
def program : String := "weave"

/-- The line that tells the version. -/
def versionText : String := program ++ " 0.1.0\n"

/-- The name of the one command. -/
def command : String := "generate-analyzers"

/-- The name of the command that explains. -/
def helpCommand : String := "help"

/-- The text that explains the command line. -/
def helpText : String :=
  "Usage: " ++ program ++ " [-c PATH] [-v] " ++ command ++ " NAMESPACE [-o DIR] [--if-stale]\n"

/-- The error in words. -/
def usageMessage : UsageError → String
  | .help => helpText
  | .version => versionText
  | .nothingAsked => helpText
  | .missingCommand => "error: a command is required\n"
  | .unknownCommand word => "error: unrecognized command " ++ word ++ "\n"
  | .missingNamespace => "error: a namespace is required\n"
  | .unknownArgument word => "error: unexpected argument " ++ word ++ "\n"
  | .repeated => "error: an option cannot be used multiple times\n"
  | .badValue => "error: a value is required for an option\n"
  | .needlessValue word => "error: unexpected value in " ++ word ++ "\n"

/-! ## 2. Options -/

/-- Where a word stands: before the command or after it. -/
inductive Level
  | outer
  | inner
  deriving DecidableEq

/-- An option that takes a value. -/
inductive Valued
  | settings
  | output
  deriving DecidableEq

/-- An option that takes none. -/
inductive Switch
  | verbose
  | ifStale
  | help
  | version
  deriving DecidableEq

/-- An option of either kind. -/
inductive Known
  | valued (name : Valued)
  | switch (name : Switch)
  deriving DecidableEq

/-- The option of a long name. -/
def long? : Level → String → Option Known
  | _, "config" => some (.valued .settings)
  | _, "verbose" => some (.switch .verbose)
  | _, "help" => some (.switch .help)
  | .outer, "version" => some (.switch .version)
  | .inner, "output" => some (.valued .output)
  | .inner, "if-stale" => some (.switch .ifStale)
  | _, _ => none

/-- The option of a letter. -/
def short? : Level → Char → Option Known
  | _, 'c' => some (.valued .settings)
  | _, 'v' => some (.switch .verbose)
  | _, 'h' => some (.switch .help)
  | .outer, 'V' => some (.switch .version)
  | .inner, 'o' => some (.valued .output)
  | _, _ => none

/-! ## 3. Reading one level -/

/-- An option that waits for its value or, when it has one, to be settled. -/
structure Waiting where
  name : Valued
  value : Option String
  deriving DecidableEq

/-- What was read at one level. -/
structure Reading where
  settings : Option String := none
  output : Option String := none
  verbose : Bool := false
  ifStale : Bool := false
  space : Option String := none
  waiting : Option Waiting := none
  /-- Whether the word `--` was read. -/
  plain : Bool := false
  deriving DecidableEq

namespace Reading

/-- The value of an option. -/
def value? (reading : Reading) : Valued → Option String
  | .settings => reading.settings
  | .output => reading.output

/-- Gives an option its value. -/
def assign (reading : Reading) (name : Valued) (value : String) : Except UsageError Reading :=
  if (reading.value? name).isSome then .error .repeated
  else if value = "" then .error .badValue
  else match name with
    | .settings => .ok { reading with settings := some value }
    | .output => .ok { reading with output := some value }

/-- Settles the option that waits, if one does. -/
def settle (reading : Reading) : Except UsageError Reading :=
  match reading.waiting with
  | none => .ok reading
  | some ⟨_, none⟩ => .error .badValue
  | some ⟨name, some value⟩ => { reading with waiting := none }.assign name value

/-- Whether the next word that does not look like an option is a value. -/
def wantsValue (reading : Reading) : Bool :=
  !reading.plain && reading.waiting.any (fun waiting => waiting.value.isNone)

/-- Reads a switch. -/
def switch (reading : Reading) (name : Switch) : Except UsageError Reading := do
  let reading ← reading.settle
  match name with
  | .help => throw .help
  | .version => throw .version
  | .verbose => if reading.verbose then throw .repeated else return { reading with verbose := true }
  | .ifStale => if reading.ifStale then throw .repeated else return { reading with ifStale := true }

/-- Reads an option whose value is in the same word. -/
def attach (reading : Reading) (name : Valued) (value : String) : Except UsageError Reading := do
  (← reading.settle).assign name value

/-- Reads an option whose value is to come. -/
def await (reading : Reading) (name : Valued) : Except UsageError Reading :=
  reading.settle.map (fun reading => { reading with waiting := some ⟨name, none⟩ })

/-- Reads a long name with the value after its equals sign, if there is one. -/
def long (level : Level) (reading : Reading) (name : String) (value : Option String) :
    Except UsageError Reading :=
  match long? level name, value with
  | none, _ => .error (.unknownArgument ("--" ++ name))
  | some (.valued name), some value => reading.attach name value
  | some (.valued name), none => reading.await name
  | some (.switch _), some _ => .error (.needlessValue ("--" ++ name))
  | some (.switch name), none => reading.switch name

/-- Reads letters after one hyphen. What follows an option with a value is the value. -/
def letters (level : Level) (reading : Reading) : List Char → Except UsageError Reading
  | [] => .ok reading
  | c :: rest =>
    match short? level c with
    | none => .error (.unknownArgument (String.ofList ['-', c]))
    | some (.switch name) => do letters level (← reading.switch name) rest
    | some (.valued name) =>
      match rest with
      | [] => reading.await name
      | '=' :: value => reading.attach name (String.ofList value)
      | value => reading.attach name (String.ofList value)

/-- Reads a word that is neither an option nor the value of one: after the command, the first such
word is the namespace. Before it none has a place. -/
def operand (level : Level) (reading : Reading) (word : String) : Except UsageError Reading :=
  match level, reading.space with
  | .inner, none => reading.settle.map (fun reading => { reading with space := some word })
  | .inner, some _ => .error (.unknownArgument word)
  | .outer, _ =>
    if reading.plain ∧ (word = command ∨ word = helpCommand) then .error (.unknownArgument word)
    else .error (.unknownCommand word)

/-- Reads one word. -/
def word (level : Level) (reading : Reading) (word : String) : Except UsageError Reading :=
  if reading.plain then reading.operand level word
  else match word.toList with
    | ['-', '-'] => .ok { reading with plain := true }
    | '-' :: '-' :: rest =>
      let name := String.ofList (rest.takeWhile (· ≠ '='))
      match rest.dropWhile (· ≠ '=') with
      | [] => reading.long level name none
      | _ :: value => reading.long level name (some (String.ofList value))
    | '-' :: c :: rest => reading.letters level (c :: rest)
    | _ =>
      match reading.waiting with
      | some ⟨name, none⟩ => .ok { reading with waiting := some ⟨name, some word⟩ }
      | _ => reading.operand level word

end Reading

/-! ## 4. Reading the whole -/

/-- What the words after the command that explains ask for: the text, about something that is
there. -/
def explain : List String → UsageError
  | [] => .help
  | [word] => if word = command ∨ word = helpCommand then .help else .unknownCommand word
  | word :: other :: _ =>
    .unknownCommand (if word = command ∨ word = helpCommand then other else word)

/-- The command line whose outer level was read up to the command, from the words after it. -/
def finish (outer : Reading) (words : List String) : Except UsageError CommandLine := do
  let inner ← (← words.foldlM (Reading.word .inner) {}).settle
  match inner.space with
  | none => throw .missingNamespace
  | some space =>
    let outer ← outer.settle
    return {
      settings := (inner.settings.or outer.settings).map Path.mk
      verbose := inner.verbose || outer.verbose
      space := space
      output := inner.output.map Path.mk
      ifStale := inner.ifStale }

/-- Reads words on from the outer level. -/
def readOuter (outer : Reading) : List String → Except UsageError CommandLine
  | [] => do
    let outer ← outer.settle
    if outer.settings.isNone ∧ !outer.verbose then throw .nothingAsked else throw .missingCommand
  | word :: rest =>
    if !outer.plain ∧ !outer.wantsValue ∧ word = command then finish outer rest
    else if !outer.plain ∧ !outer.wantsValue ∧ word = helpCommand then throw (explain rest)
    else do readOuter (← outer.word .outer word) rest

/-- What the words after the name of the program ask for. -/
def read (words : List String) : Except UsageError CommandLine := readOuter {} words

end CommandLine

end Graft

import Palimpsest.FilePath
import Palimpsest.Output.Emitter

/-
  This file defines the arguments of the command line.

  The first operand names a command; every command takes at
  most one operand more.  Flags may stand before and after the
  operands, and no flag may be repeated at one level.  After
  two hyphens alone all arguments are operands.

  Key definitions include:
    * `Palimpsest.Command.Request`
    * `Palimpsest.Command.UsageError`
    * `Palimpsest.Command.Gathered`
    * `Palimpsest.Command.gather`
    * `Palimpsest.Command.parse`
-/

namespace Palimpsest

namespace Command

------------------------------------------------------------
-- Requests
------------------------------------------------------------

/- What the command line asks for. -/
inductive Request where
| version
| help
| sections
    (file : FilePath)
    (json : Bool)
| check
    (directory : FilePath)
    (extension : String)
| config
    (file : Option FilePath)
deriving DecidableEq, Repr

/- The file or directory that a request is about. -/
def Request.subject? : Request → Option FilePath
| .version => none
| .help => none
| .sections file _ => some file
| .check directory _ => some directory
| .config file => file

/- The ways in which arguments can be wrong. -/
inductive UsageError where
| unknownCommand (name : String)
| unknownFlag (argument : String)
| unexpectedValue (argument : String)
| missingValue (flag : String)
| repeated (flag : String)
| emptyOperand
| extraOperand (argument : String)
| missingOperand
| missingCommand
deriving DecidableEq, Repr

/- The message for wrong arguments. -/
def UsageError.message : UsageError → String
| .unknownCommand name => "unknown command '" ++ name ++ "'"
| .unknownFlag argument =>
    "unexpected argument '" ++ argument ++ "'"
| .unexpectedValue argument =>
    "unexpected value in '" ++ argument ++ "'"
| .missingValue flag => "'" ++ flag ++ "' needs a value"
| .repeated flag =>
    "'" ++ flag ++ "' cannot be used more than once"
| .emptyOperand => "an operand is empty"
| .extraOperand argument =>
    "unexpected operand '" ++ argument ++ "'"
| .missingOperand => "an operand is missing"
| .missingCommand => "a command is missing"

/- What ends the reading of arguments before their end. -/
inductive Stop where
| usage (error : UsageError)
| version
| help
deriving DecidableEq, Repr

------------------------------------------------------------
-- Levels
------------------------------------------------------------

/- The commands. -/
inductive Name where
| sections
| check
| config
deriving DecidableEq, Repr

/- The command with the given name. -/
def Name.ofText? : String → Option Name
| "sections" => some .sections
| "check" => some .check
| "config" => some .config
| _ => none

/- The flags. -/
inductive Flag where
| verbose
| json
| help
| version
deriving DecidableEq, Repr

/- The flag with the given long name. -/
def Flag.ofName? : String → Option Flag
| "verbose" => some .verbose
| "json" => some .json
| "help" => some .help
| "version" => some .version
| _ => none

/- The flag with the given letter. -/
def Flag.ofLetter? : Char → Option Flag
| 'v' => some .verbose
| 'h' => some .help
| 'V' => some .version
| _ => none

/-
  A flag that is known before the command, or after the given
  command.
-/
def Flag.IsKnown
    (command : Option Name) : Flag → Prop
| .verbose => True
| .help => True
| .json => command = some .sections
| .version => command = none

instance (command : Option Name) (flag : Flag) :
    Decidable (flag.IsKnown command) := by
  cases flag <;> unfold Flag.IsKnown <;> infer_instance

/- The name of the one flag that takes a value. -/
def extensionName : String :=
  "extension"

------------------------------------------------------------
-- Gathering Arguments
------------------------------------------------------------

/- The arguments of one level read so far. -/
structure Gathered where
  operand : Option String
  verbose : Bool
  json : Bool
  extension : Option String
deriving DecidableEq, Repr

/- No arguments. -/
def Gathered.empty : Gathered :=
  ⟨none, false, false, none⟩

namespace Gathered

/- Take an operand. -/
def takeOperand
    (text : String)
    (g : Gathered) : Except Stop Gathered :=
  if g.operand.isSome then
    .error (.usage (.extraOperand text))
  else if text = "" then
    .error (.usage .emptyOperand)
  else
    .ok { g with operand := some text }

/- Take a flag. -/
def takeFlag
    (text : String)
    (g : Gathered) : Flag → Except Stop Gathered
| .help => .error .help
| .version => .error .version
| .verbose =>
    if g.verbose then
      .error (.usage (.repeated text))
    else
      .ok { g with verbose := true }
| .json =>
    if g.json then
      .error (.usage (.repeated text))
    else
      .ok { g with json := true }

/- Take the value of the extension flag. -/
def takeExtension
    (text value : String)
    (g : Gathered) : Except Stop Gathered :=
  if g.extension.isSome then
    .error (.usage (.repeated text))
  else
    .ok { g with extension := some value }

/- Take flags by their letters. -/
def takeLetters
    (command : Option Name)
    (text : String) :
    List Char → Gathered → Except Stop Gathered
| [], g => .ok g
| letter :: rest, g =>
    match Flag.ofLetter? letter with
    | none => .error (.usage (.unknownFlag text))
    | some flag =>
        if flag.IsKnown command then
          match g.takeFlag text flag with
          | .error stop => .error stop
          | .ok g => takeLetters command text rest g
        else
          .error (.usage (.unknownFlag text))

end Gathered

/- The forms of a single argument. -/
inductive Form where
| operand
| cluster (letters : List Char)
| long (name : String) (value : Option String)
| endOfFlags
deriving DecidableEq, Repr

/- The form of an argument. -/
def Form.ofText (text : String) : Form :=
  match text.toList with
  | ['-', '-'] => .endOfFlags
  | '-' :: '-' :: rest =>
      match rest.span (fun c => decide (c ≠ '=')) with
      | (name, []) => .long (String.ofList name) none
      | (name, _ :: value) =>
          .long (String.ofList name) (some (String.ofList value))
  | ['-'] => .operand
  | '-' :: letters => .cluster letters
  | _ => .operand

/- Take a flag by its long name. -/
def takeLong
    (command : Option Name)
    (text name : String)
    (value : Option String)
    (g : Gathered) : Except Stop Gathered :=
  match Flag.ofName? name with
  | none => .error (.usage (.unknownFlag text))
  | some flag =>
      if flag.IsKnown command then
        match value with
        | some _ => .error (.usage (.unexpectedValue text))
        | none => g.takeFlag text flag
      else
        .error (.usage (.unknownFlag text))

/- Take operands only. -/
def gatherOperands :
    List String → Gathered → Except Stop Gathered
| [], g => .ok g
| text :: rest, g =>
    match g.takeOperand text with
    | .error stop => .error stop
    | .ok g => gatherOperands rest g

/- Take the arguments of a command. -/
def gather
    (command : Name) :
    List String → Gathered → Except Stop Gathered
| [], g => .ok g
| text :: rest, g =>
    match Form.ofText text with
    | .endOfFlags => gatherOperands rest g
    | .operand =>
        match g.takeOperand text with
        | .error stop => .error stop
        | .ok g => gather command rest g
    | .cluster letters =>
        match g.takeLetters (some command) text letters with
        | .error stop => .error stop
        | .ok g => gather command rest g
    | .long name value =>
        if name = extensionName ∧ command = .check then
          match value with
          | some value =>
              match g.takeExtension text value with
              | .error stop => .error stop
              | .ok g => gather command rest g
          | none =>
              match rest with
              | [] => .error (.usage (.missingValue text))
              | value :: rest =>
                  if Form.ofText value = .operand then
                    match g.takeExtension text value with
                    | .error stop => .error stop
                    | .ok g => gather command rest g
                  else
                    .error (.usage (.missingValue text))
        else
          match takeLong (some command) text name value g with
          | .error stop => .error stop
          | .ok g => gather command rest g

------------------------------------------------------------
-- Reading Requests
------------------------------------------------------------

/- The operand that a command cannot do without. -/
def required (g : Gathered) : Except Stop FilePath :=
  match g.operand with
  | none => .error (.usage .missingOperand)
  | some text => .ok ⟨text⟩

/- The request that the arguments of a command make. -/
def request
    (command : Name)
    (g : Gathered) : Except Stop Request :=
  match command with
  | .sections =>
      match required g with
      | .error stop => .error stop
      | .ok file => .ok (.sections file g.json)
  | .check =>
      match required g with
      | .error stop => .error stop
      | .ok directory =>
          .ok (.check directory
            (g.extension.getD Emitter.defaultExtension))
  | .config => .ok (.config (g.operand.map FilePath.mk))

/- The name of the command that explains the others. -/
def helpName : String :=
  "help"

/- What follows the command that explains the others. -/
def explain : List String → Stop
| [] => .help
| [text] =>
    if text = helpName ∨ (Name.ofText? text).isSome then
      .help
    else
      .usage (.unknownCommand text)
| _ :: text :: _ => .usage (.unknownCommand text)

/- Take the arguments before the command, and the command. -/
def parseFrom (g : Gathered) :
    List String → Except Stop Request
| [] => .error (.usage .missingCommand)
| text :: rest =>
    match Form.ofText text with
    | .endOfFlags => .error (.usage .missingCommand)
    | .operand =>
        match Name.ofText? text with
        | some command =>
            match gather command rest Gathered.empty with
            | .error stop => .error stop
            | .ok g => request command g
        | none =>
            if text = helpName then
              .error (explain rest)
            else
              .error (.usage (.unknownCommand text))
    | .cluster letters =>
        match g.takeLetters none text letters with
        | .error stop => .error stop
        | .ok g => parseFrom g rest
    | .long name value =>
        match takeLong none text name value g with
        | .error stop => .error stop
        | .ok g => parseFrom g rest

/- The request that arguments make. -/
def parse (arguments : List String) : Except UsageError Request :=
  match parseFrom Gathered.empty arguments with
  | .ok request => .ok request
  | .error .version => .ok .version
  | .error .help => .ok .help
  | .error (.usage error) => .error error

end Command

end Palimpsest

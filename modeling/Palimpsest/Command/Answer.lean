import Palimpsest.Command.Arguments
import Palimpsest.Config
import Palimpsest.Files.Explore
import Palimpsest.Section.Scan

/-
  This file defines the answers of the command line.

  The sections of one file can be listed, as lines or as data;
  all files below a directory can be checked for malformed
  markers; and a configuration can be shown with its defaults
  filled in.  A fault leaves the output empty.

  Key definitions include:
    * `Palimpsest.Command.Outcome`
    * `Palimpsest.Command.sections`
    * `Palimpsest.Command.check`
    * `Palimpsest.Command.config`
    * `Palimpsest.Command.answer`
    * `Palimpsest.Command.run`
-/

namespace Palimpsest

namespace Command

------------------------------------------------------------
-- Outcomes
------------------------------------------------------------

/- What the program prints, and its exit code. -/
structure Outcome where
  exitCode : Nat
  output : String
  errors : String
deriving DecidableEq, Repr

/- The ways in which a command can fail. -/
inductive Fault where
| usage (cause : UsageError)
| read (path : FilePath) (cause : FileFault)
| list (path : FilePath) (cause : FileFault)
| scan (path : FilePath) (cause : ScanError)
| load (path : FilePath) (cause : ConfigError)
deriving DecidableEq

/- The message for a fault. -/
def Fault.message : Fault → String
| .usage cause => cause.message
| .read path cause =>
    "failed to read " ++ path.text ++ ": " ++ cause.message
| .list path cause =>
    "failed to list " ++ path.text ++ ": " ++ cause.message
| .scan path cause =>
    "malformed markers in " ++ path.text ++ ": " ++
      cause.message
| .load path cause =>
    "failed to load " ++ path.text ++ ": " ++ cause.message

namespace Outcome

/- The program did what it was asked for. -/
def success (output : String) : Outcome :=
  ⟨0, output, ""⟩

/- The program could not do what it was asked for. -/
def failure (fault : Fault) : Outcome :=
  ⟨2, "", "mdg: " ++ fault.message ++ "\n"⟩

end Outcome

------------------------------------------------------------
-- Sections
------------------------------------------------------------

/- The id of a section and the number of its lines. -/
structure SectionSummary where
  id : String
  lineCount : Nat
deriving DecidableEq, Repr

/- The summary of a section. -/
def SectionSummary.ofSection (s : Section) : SectionSummary :=
  ⟨s.id.text, s.contents.length⟩

/- The sections of a file, in order. -/
def sections
    (t : FileTree)
    (file : FilePath) : Except Fault (List SectionSummary) :=
  match t.read file with
  | .error cause => .error (.read file cause)
  | .ok text =>
      match scan text with
      | .error cause => .error (.scan file cause)
      | .ok found => .ok (found.map SectionSummary.ofSection)

/- A hexadecimal digit. -/
def hexDigit (n : Nat) : Char :=
  Nat.digitChar n

/- A character of a text in data. -/
def dataChar (c : Char) : List Char :=
  if c = '"' then ['\\', '"']
  else if c = '\\' then ['\\', '\\']
  else if c = '\x08' then ['\\', 'b']
  else if c = '\t' then ['\\', 't']
  else if c = '\n' then ['\\', 'n']
  else if c = '\x0c' then ['\\', 'f']
  else if c = '\r' then ['\\', 'r']
  else if c.toNat < 0x20 then
    ['\\', 'u', '0', '0', hexDigit (c.toNat / 16),
      hexDigit (c.toNat % 16)]
  else [c]

/- A text in data. -/
def dataText (text : String) : String :=
  String.ofList
    ('"' :: text.toList.flatMap dataChar ++ ['"'])

/- A summary in data. -/
def SectionSummary.data (s : SectionSummary) : String :=
  "  \x7b\n    \"id\": " ++ dataText s.id ++
    ",\n    \"lines\": " ++ toString s.lineCount ++ "\n  \x7d"

/- Summaries in data. -/
def dataList (summaries : List SectionSummary) : String :=
  if summaries = [] then
    "[]\n"
  else
    "[\n" ++
      Text.joinWith ",\n"
        (summaries.map SectionSummary.data) ++ "\n]\n"

/- A summary on a line of its own. -/
def SectionSummary.line (s : SectionSummary) : String :=
  s.id ++ "\t" ++ toString s.lineCount ++ " lines\n"

/- Summaries, as lines or in data. -/
def showSections
    (json : Bool)
    (summaries : List SectionSummary) : String :=
  if json then
    dataList summaries
  else
    String.join (summaries.map SectionSummary.line)

------------------------------------------------------------
-- Checking
------------------------------------------------------------

/- What checking found: how many files, and the malformed. -/
structure Checked where
  count : Nat
  malformed : List (FilePath × ScanError)

/- Every checked file is well formed. -/
def Checked.IsClean (c : Checked) : Prop :=
  c.malformed.length = 0

instance (c : Checked) : Decidable c.IsClean := by
  unfold Checked.IsClean
  infer_instance

/- Check files one after another. -/
def checkFiles
    (t : FileTree) : List FilePath → Except Fault Checked
| [] => .ok ⟨0, []⟩
| path :: rest =>
    match t.read path with
    | .error cause => .error (.read path cause)
    | .ok text =>
        match checkFiles t rest with
        | .error fault => .error fault
        | .ok c =>
            match scan text with
            | .ok _ => .ok ⟨c.count + 1, c.malformed⟩
            | .error cause =>
                .ok ⟨c.count + 1, (path, cause) :: c.malformed⟩

/- Check all files below a directory that have an extension. -/
def check
    (t : FileTree)
    (directory : FilePath)
    (extension : String) : Except Fault Checked :=
  match t.filesWithExtension directory extension with
  | .error fault => .error (.list fault.path fault.cause)
  | .ok files => checkFiles t files

/- The line for a malformed file. -/
def malformedLine (file : FilePath × ScanError) : String :=
  file.1.text ++ ": " ++ file.2.message ++ "\n"

/- The lines for what checking found. -/
def showChecked (c : Checked) : String :=
  String.join (c.malformed.map malformedLine) ++
    toString c.count ++ " files checked, " ++
      toString c.malformed.length ++ " malformed\n"

------------------------------------------------------------
-- Configurations
------------------------------------------------------------

/- The configuration in a file, or the default one. -/
def config
    (t : FileTree) : Option FilePath → Except Fault Config
| none => .ok Config.default
| some file =>
    match Config.load t file with
    | .error cause => .error (.load file cause)
    | .ok c => .ok c

------------------------------------------------------------
-- Answers
------------------------------------------------------------

/- The version of the program. -/
def version : String :=
  "mdg 0.1.0\n"

/- How the program is used. -/
def help : String :=
  "mdg [--verbose] sections FILE [--json]\n" ++
  "mdg [--verbose] check DIR [--extension EXTENSION]\n" ++
  "mdg [--verbose] config [FILE]\n"

/- The answer to a request. -/
def answer
    (t : FileTree) : Request → Outcome
| .version => Outcome.success version
| .help => Outcome.success help
| .sections file json =>
    match sections t file with
    | .error fault => Outcome.failure fault
    | .ok summaries =>
        Outcome.success (showSections json summaries)
| .check directory extension =>
    match check t directory extension with
    | .error fault => Outcome.failure fault
    | .ok c =>
        { Outcome.success (showChecked c) with
          exitCode := if c.IsClean then 0 else 1 }
| .config file =>
    match config t file with
    | .error fault => Outcome.failure fault
    | .ok c => Outcome.success c.render

/- The answer to arguments. -/
def run
    (t : FileTree)
    (arguments : List String) : Outcome :=
  match parse arguments with
  | .error error => Outcome.failure (.usage error)
  | .ok request => answer t request

end Command

end Palimpsest

import Palimpsest.Dictionary
import Palimpsest.Files.Tree
import Palimpsest.Output.Emitter
import Palimpsest.Toml.Document
import Palimpsest.Toml.Spelling

/-
  This file defines the configuration of a generator.

  A configuration is read from a TOML document.  Every field
  has a default, and other entries are passed over.  A value
  of the wrong type is a fault of the document; values out of
  range are reported one at a time, in a fixed order.

  Key definitions include:
    * `Palimpsest.Config`
    * `Palimpsest.Config.fault?`
    * `Palimpsest.ConfigError`
    * `Palimpsest.Config.validate`
    * `Palimpsest.Config.parse`
    * `Palimpsest.Config.load`
    * `Palimpsest.Config.render`
-/

namespace Palimpsest

------------------------------------------------------------
-- Configurations
------------------------------------------------------------

/-
  Where units are read and written, how lines are indented,
  how files are called, and which types are mapped to others.
-/
structure Config where
  basePath : FilePath
  destinationPath : Option FilePath
  indentWidth : Nat
  useTabs : Bool
  extension : String
  packageFileStem : String
  typeMappings : Dictionary String
deriving DecidableEq

namespace Config

/- The configuration with all defaults. -/
def default : Config where
  basePath := ⟨"."⟩
  destinationPath := none
  indentWidth := 4
  useTabs := false
  extension := Emitter.defaultExtension
  packageFileStem := Emitter.defaultPackageFileStem
  typeMappings := Dictionary.empty

/- One level of indentation. -/
def indentUnit (c : Config) : String :=
  if c.useTabs then
    "\t"
  else
    Text.repeated c.indentWidth " "

end Config

------------------------------------------------------------
-- Faults
------------------------------------------------------------

/- The values that are out of range. -/
inductive ConfigFault where
| emptyExtension
| dottedExtension (extension : String)
| emptyPackageFileStem
| wideIndent (width : Nat)
deriving DecidableEq, Repr

namespace Config

/- The widest indentation, in spaces. -/
def maxIndentWidth : Nat :=
  16

/- A text that starts with a dot. -/
def StartsWithDot (text : String) : Prop :=
  text.toList.head? = some '.'

instance (text : String) : Decidable (StartsWithDot text) := by
  unfold StartsWithDot
  infer_instance

/- The first value that is out of range, if there is one. -/
def fault? (c : Config) : Option ConfigFault :=
  if c.extension = "" then
    some .emptyExtension
  else if StartsWithDot c.extension then
    some (.dottedExtension c.extension)
  else if c.packageFileStem = "" then
    some .emptyPackageFileStem
  else if maxIndentWidth < c.indentWidth then
    some (.wideIndent c.indentWidth)
  else
    none

end Config

/- The message for a value out of range. -/
def ConfigFault.message : ConfigFault → String
| .emptyExtension => "extension must not be empty"
| .dottedExtension extension =>
    "extension `" ++ extension ++ "` must not start with a dot"
| .emptyPackageFileStem =>
    "package_file_stem must not be empty"
| .wideIndent width =>
    "indent_width " ++ toString width ++ " exceeds " ++
      toString Config.maxIndentWidth

/- The ways in which loading a configuration can fail. -/
inductive ConfigError where
| read (path : FilePath) (cause : FileFault)
| parse
| invalid (cause : ConfigFault)
deriving DecidableEq

/- The message for a fault. -/
def ConfigError.message : ConfigError → String
| .read path cause =>
    "failed to read " ++ path.text ++ ": " ++ cause.message
| .parse => "failed to parse configuration"
| .invalid cause => "invalid configuration: " ++ cause.message

------------------------------------------------------------
-- Reading
------------------------------------------------------------

namespace Config

/- The fields of a configuration. -/
inductive Field where
| basePath
| destinationPath
| indentWidth
| useTabs
| extension
| packageFileStem
| typeMappings
deriving DecidableEq, Repr

/- The name of a field in a document. -/
def Field.name : Field → String
| .basePath => "base_path"
| .destinationPath => "destination_path"
| .indentWidth => "indent_width"
| .useTabs => "use_tabs"
| .extension => "extension"
| .packageFileStem => "package_file_stem"
| .typeMappings => "type_mappings"

/- The text that a value is. -/
def text? : Toml → Option String
| .string text => some text
| _ => none

/- The path that a value is. -/
def path? (value : Toml) : Option FilePath :=
  (text? value).map FilePath.mk

/- The width that a value is. -/
def width? : Toml → Option Nat
| .integer n => if 0 ≤ n then some n.toNat else none
| _ => none

/- The flag that a value is. -/
def flag? : Toml → Option Bool
| .boolean value => some value
| _ => none

/- The name under which a moment stands where texts are mapped. -/
def momentKey : String :=
  "$__toml_private_datetime"

/- The texts that entries map names to. -/
def textPairs? :
    Toml.Entries → Option (List (String × String))
| [] => some []
| (name, value) :: rest =>
    (text? value).bind (fun text =>
      (textPairs? rest).map ((name, text) :: ·))

/-
  The mapping that a value is.  A moment is the mapping of one
  reserved name to its spelling.
-/
def mapping? : Toml → Option (Dictionary String)
| .table _ entries => (textPairs? entries).map Dictionary.ofList
| .moment text => some (Dictionary.ofList [(momentKey, text)])
| _ => none

/- The value of a field, or its default if it is not there. -/
def field
    {α : Type}
    (entries : Toml.Entries)
    (f : Field)
    (read : Toml → Option α)
    (absent : α) : Option α :=
  match entries.lookup f.name with
  | none => some absent
  | some value => read value

/- The configuration that a document holds. -/
def ofEntries? (entries : Toml.Entries) : Option Config := do
  let basePath ←
    field entries .basePath path? default.basePath
  let destinationPath ←
    field entries .destinationPath
      (fun value => (path? value).map some)
      default.destinationPath
  let indentWidth ←
    field entries .indentWidth width? default.indentWidth
  let useTabs ←
    field entries .useTabs flag? default.useTabs
  let extension ←
    field entries .extension text? default.extension
  let packageFileStem ←
    field entries .packageFileStem text?
      default.packageFileStem
  let typeMappings ←
    field entries .typeMappings mapping?
      default.typeMappings
  some {
    basePath := basePath
    destinationPath := destinationPath
    indentWidth := indentWidth
    useTabs := useTabs
    extension := extension
    packageFileStem := packageFileStem
    typeMappings := typeMappings }

/- Accept a configuration whose values are in range. -/
def validate (c : Config) : Except ConfigError Unit :=
  match c.fault? with
  | none => .ok ()
  | some fault => .error (.invalid fault)

/- The configuration in a text. -/
def parse (text : String) : Except ConfigError Config :=
  match (Toml.parse? text).bind ofEntries? with
  | none => .error .parse
  | some c =>
      match c.validate with
      | .error e => .error e
      | .ok () => .ok c

/- The configuration in a file. -/
def load
    (t : FileTree)
    (path : FilePath) : Except ConfigError Config :=
  match t.read path with
  | .error cause => .error (.read path cause)
  | .ok text => parse text

------------------------------------------------------------
-- Writing
------------------------------------------------------------

/- The line of a path. -/
def pathLine
    (f : Field)
    (path : FilePath) : List Char :=
  Toml.entryLine f.name (Toml.spellText path.text)

/- The spelling of a flag. -/
def spellFlag (value : Bool) : List Char :=
  if value then "true".toList else "false".toList

/- The lines of the single fields. -/
def fieldLines (c : Config) : List Char :=
  pathLine .basePath c.basePath ++
    (c.destinationPath.map
      (pathLine .destinationPath)).getD [] ++
    Toml.entryLine Field.indentWidth.name
      (Nat.toDigits 10 c.indentWidth) ++
    Toml.entryLine Field.useTabs.name (spellFlag c.useTabs) ++
    Toml.entryLine Field.extension.name (Toml.spellText c.extension) ++
    Toml.entryLine Field.packageFileStem.name
      (Toml.spellText c.packageFileStem)

/- The lines of the type mappings. -/
def mappingLines (c : Config) : List Char :=
  c.typeMappings.pairs.flatMap
    (fun pair =>
      Toml.entryLine pair.1 (Toml.spellText pair.2))

/- The document that holds a configuration. -/
def render (c : Config) : String :=
  String.ofList
    (c.fieldLines ++
      '\n' :: Toml.headerLine Field.typeMappings.name ++
      c.mappingLines)

end Config

end Palimpsest

import Palimpsest.Toml.Entries
import Palimpsest.Toml.Moment
import Palimpsest.Toml.Quote

/-
  This file defines how the statements of a TOML document are
  read.

  A statement is the header of a table, the header of one more
  table of an array, or a key with its value.  Arrays and
  braced tables can be nested only so deep, and a dotted key
  can have only so many parts.  What a statement may look like
  is a rule of the format; these two limits are those of the
  library that reads configurations.

  Key definitions include:
    * `Palimpsest.Toml.readKey`
    * `Palimpsest.Toml.readWord`
    * `Palimpsest.Toml.readValue`
    * `Palimpsest.Toml.Statement`
    * `Palimpsest.Toml.readStatement`
    * `Palimpsest.Toml.statements?`
-/

namespace Palimpsest

namespace Toml

/- What reads something at the start of a text. -/
abbrev Reader (α : Type) :=
  List Char → Option (α × List Char)

------------------------------------------------------------
-- Keys
------------------------------------------------------------

/- Read one part of a key. -/
def readName : Reader String
| '"' :: cs => Quote.double.readShort cs
| '\'' :: cs => Quote.single.readShort cs
| cs =>
    match cs.span (fun c => decide (IsBare c)) with
    | ([], _) => none
    | (name, rest) => some (String.ofList name, rest)

/- The number of parts that a key may have. -/
def maxKeyParts : Nat :=
  79

/- Read a key of at most so many parts, and blanks around. -/
def readKeyUpTo : Nat → Reader DottedKey
| 0, _ => none
| n + 1, cs => do
    let (name, rest) ← readName (skipBlanks cs)
    match skipBlanks rest with
    | '.' :: rest =>
        let (key, rest) ← readKeyUpTo n rest
        some (key.within name, rest)
    | rest => some (⟨[], name⟩, rest)

/- Read a key with the blanks around it. -/
def readKey : Reader DottedKey :=
  readKeyUpTo maxKeyParts

------------------------------------------------------------
-- Words
------------------------------------------------------------

/- The value that a word stands for. -/
def ofWord? (word : List Char) : Option Toml :=
  if word = "true".toList then
    some (.boolean true)
  else if word = "false".toList then
    some (.boolean false)
  else
    match Moment.ofWord? word with
    | some text => some (.moment (String.ofList text))
    | none =>
        if IsFloat word then
          some (.float (String.ofList word))
        else
          (integer? word).map Toml.integer

/- Read a moment whose date and time are set apart. -/
def readSpacedMoment : Reader Toml := fun cs =>
  match cutWord cs with
  | (day, ' ' :: rest) =>
      let (time, rest) := cutWord rest
      (Moment.ofWords? day time).map
        (fun text => (.moment (String.ofList text), rest))
  | _ => none

/- Read an unquoted value. -/
def readWord : Reader Toml := fun cs =>
  (readSpacedMoment cs).or
    (let (word, rest) := cutWord cs
     (ofWord? word).map (fun value => (value, rest)))

------------------------------------------------------------
-- Arrays And Braced Tables
------------------------------------------------------------

/- Read elements and the bracket that closes their array. -/
def readElements
    (element : Reader Toml) : Nat → Reader (List Toml)
| 0, _ => none
| n + 1, cs => do
    match ← skipTrivia cs with
    | ']' :: rest => some ([], rest)
    | cs =>
        let (first, rest) ← element cs
        match ← skipTrivia rest with
        | ',' :: rest =>
            let (others, rest) ← readElements element n rest
            some (first :: others, rest)
        | ']' :: rest => some ([first], rest)
        | _ => none

/- Read a key and its value. -/
def readPair
    (value : Reader Toml) : Reader (DottedKey × Toml) :=
  fun cs => do
    match ← readKey cs with
    | (key, '=' :: rest) =>
        let (v, rest) ← value (skipBlanks rest)
        some ((key, v), rest)
    | _ => none

/- Read pairs and the brace that closes their table. -/
def readPairs
    (value : Reader Toml) :
    Nat → Reader (List (DottedKey × Toml))
| 0, _ => none
| n + 1, cs => do
    let (first, rest) ← readPair value cs
    match skipBlanks rest with
    | ',' :: rest =>
        let (others, rest) ← readPairs value n rest
        some (first :: others, rest)
    | '}' :: rest => some ([first], rest)
    | _ => none

/- Read the pairs of a table that may be empty. -/
def readBraced
    (value : Reader Toml) : Reader (List (DottedKey × Toml)) :=
  fun cs =>
    match skipBlanks cs with
    | '}' :: rest => some ([], rest)
    | cs => readPairs value cs.length cs

/- The number of arrays and braces that may be nested. -/
def maxNesting : Nat :=
  79

/- Read an element that may not be nested any deeper. -/
def readFlat : Reader Toml := fun cs =>
  (readQuoted cs).map
      (fun (text, rest) => (.string text, rest)) |>.or
    (readWord cs)

/- Read a value in which so many levels may be nested. -/
def readNested : Nat → Reader Toml
| levels + 1, '[' :: cs =>
    (readElements (readNested levels) (cs.length + 1) cs).map
      (fun (elements, rest) => (.array elements, rest))
| levels + 1, '{' :: cs => do
    let (pairs, rest) ← readBraced (readNested levels) cs
    let entries ← Entries.addPairs pairs []
    some (.table .braced entries, rest)
| _, cs => readFlat cs

/- Read a value. -/
def readValue : Reader Toml :=
  readNested maxNesting

------------------------------------------------------------
-- Statements
------------------------------------------------------------

/- The statements of a document. -/
inductive Statement where
| openTable
    (key : DottedKey)
| openElement
    (key : DottedKey)
| pair
    (key : DottedKey)
    (value : Toml)

/- Read a statement. -/
def readStatement : Reader Statement
| '[' :: '[' :: cs => do
    match ← readKey cs with
    | (key, ']' :: ']' :: rest) => some (.openElement key, rest)
    | _ => none
| '[' :: cs => do
    match ← readKey cs with
    | (key, ']' :: rest) => some (.openTable key, rest)
    | _ => none
| cs =>
    (readPair readValue cs).map
      (fun ((key, value), rest) => (.pair key value, rest))

/- Read at most so many statements, up to the end. -/
def readStatements : Nat → List Char → Option (List Statement)
| 0, _ => none
| n + 1, cs => do
    match ← skipTrivia cs with
    | [] => some []
    | cs =>
        let (first, rest) ← readStatement cs
        let others ← readStatements n (← endLine rest)
        some (first :: others)

/- The text without a byte order mark at its start. -/
def dropMark : List Char → List Char
| '\uFEFF' :: cs => cs
| cs => cs

/- The statements of a text, if it is well formed. -/
def statements? (text : String) : Option (List Statement) :=
  let cs := foldLineEnds (dropMark text.toList)
  readStatements (cs.length + 1) cs

end Toml

end Palimpsest

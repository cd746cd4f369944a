import Palimpsest.Command.Answer

/-
  This file runs the command line on the files that are really
  there.

  What a request is about is loaded first, with the
  directories that lead to it and all that is below it.  The
  answer is computed from that and printed.
-/

namespace Palimpsest

namespace Load

------------------------------------------------------------
-- Loading Files
------------------------------------------------------------

/- The content of a file that cannot be read: not a text. -/
def unreadable : ByteArray :=
  ByteArray.mk #[0xFF]

/- Load the file at a path. -/
def loadFile (path : String) : IO Node := do
  try
    return .file (← IO.FS.readBinFile path)
  catch _ =>
    return .file unreadable

/- Put a directory at a place, unless one is always there. -/
def putDirectory
    (place : Location)
    (t : FileTree) : FileTree :=
  if place.IsUpward then t else t.put place .directory

/- Load a directory, with all that is below it. -/
partial def loadBelow
    (path : String)
    (place : Location)
    (t : FileTree) : IO FileTree := do
  let mut t := putDirectory place t
  for entry in ← (← IO.FS.realPath path).readDir do
    let inner := path ++ "/" ++ entry.fileName
    let innerPlace := place ++ [entry.fileName]
    let data ← entry.path.symlinkMetadata
    match data.type with
    | .dir => t ← loadBelow inner innerPlace t
    | _ => t := t.put innerPlace (← loadFile inner)
  return t

/- Load what is at a path, as if it were at a place. -/
def loadAt
    (path : String)
    (place : Location)
    (t : FileTree) : IO FileTree := do
  if ← (← IO.FS.realPath path).isDir then
    loadBelow path place t
  else
    return t.put place (← loadFile path)

/-
  Load the directories that pieces of a path lead through, and
  what the whole path leads to.
-/
def loadPieces
    (path : String) :
    Location → List String → FileTree → IO FileTree
| place, [], t => loadAt path place t
| place, [piece], t => loadAt path (place.advance piece) t
| place, piece :: rest, t =>
    loadPieces path (place.advance piece) rest
      (putDirectory (place.advance piece) t)

/- Load what a request is about; nothing if it is not there. -/
def load (subject : FilePath) : IO FileTree := do
  try
    loadPieces subject.text (Location.start subject)
      subject.pieces FileTree.empty
  catch _ =>
    return FileTree.empty

end Load

end Palimpsest

/- Answer the arguments, and print the answer. -/
def main (arguments : List String) : IO UInt32 := do
  let request := Palimpsest.Command.parse arguments
  let subject :=
    request.toOption.bind Palimpsest.Command.Request.subject?
  let t ←
    match subject with
    | some path => Palimpsest.Load.load path
    | none => pure Palimpsest.FileTree.empty
  let outcome := Palimpsest.Command.run t arguments
  IO.print outcome.output
  IO.eprint outcome.errors
  return outcome.exitCode.toUInt32

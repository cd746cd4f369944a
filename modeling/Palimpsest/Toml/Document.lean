import Palimpsest.Toml.Reader

/-
  This file defines the entries of a whole TOML document.

  The statements are carried out in order.  Entries before the
  first header belong to the document itself, later ones to
  the table that was opened last.  Documents are those of
  version 1.0 of the format.

  Key definitions include:
    * `Palimpsest.Toml.Document`
    * `Palimpsest.Toml.Document.perform`
    * `Palimpsest.Toml.parse?`
-/

namespace Palimpsest

namespace Toml

------------------------------------------------------------
-- Documents
------------------------------------------------------------

/- The entries so far, and the names of the open table. -/
structure Document where
  entries : Entries
  current : List String

namespace Document

/- The document without statements. -/
def empty : Document :=
  ⟨[], []⟩

/- All parts of a key. -/
def pathOf (key : DottedKey) : List String :=
  key.enclosing ++ [key.name]

/- Carry out a statement. -/
def perform
    (d : Document) : Statement → Option Document
| .openTable key =>
    (Entries.openTable key d.entries).map
      (fun entries => ⟨entries, pathOf key⟩)
| .openElement key =>
    (Entries.openElement key d.entries).map
      (fun entries => ⟨entries, pathOf key⟩)
| .pair key value =>
    (Entries.addInside d.current key value d.entries).map
      (fun entries => { d with entries := entries })

/- Carry out statements one after another. -/
def performAll : List Statement → Document → Option Document
| [], d => some d
| s :: rest, d => (d.perform s).bind (performAll rest)

end Document

/- The entries of a document, if it is well formed. -/
def parse? (text : String) : Option Entries := do
  let statements ← statements? text
  let d ← Document.performAll statements Document.empty
  some d.entries

end Toml

end Palimpsest

import Palimpsest.Toml.Value

/-
  This file defines how the entries of a TOML table come
  about, statement by statement.

  No name is given twice.  Tables on the way to an entry are
  made when they are missing.  A braced table is closed for
  good; a table with a header of its own, or made by a header
  below it, takes no entries by dotted keys from outside, and
  headers do not reopen a table.  These are rules of the
  format.

  Key definitions include:
    * `Palimpsest.Toml.Entries.alter`
    * `Palimpsest.Toml.Entries.addPair`
    * `Palimpsest.Toml.Entries.addPairs`
    * `Palimpsest.Toml.Entries.openTable`
    * `Palimpsest.Toml.Entries.openElement`
-/

namespace Palimpsest

namespace Toml

namespace Entries

------------------------------------------------------------
-- Following Names
------------------------------------------------------------

/- The style of a table that is made on the way. -/
def styleOnTheWay (dotted : Bool) : TableStyle :=
  if dotted then .dotted else .implied

/- A table that may be entered. -/
def CanEnter
    (dotted : Bool)
    (style : TableStyle) : Prop :=
  style ≠ .braced ∧ ¬ (dotted = true ∧ style = .header)

instance
    (dotted : Bool)
    (style : TableStyle) :
    Decidable (CanEnter dotted style) := by
  unfold CanEnter
  infer_instance

/-
  Follow names to a table and change its entries, given how
  that table was made.  Missing tables are made.  The flag
  says whether the names stand in a dotted key.
-/
def alter
    (dotted : Bool)
    (change : TableStyle → Entries → Option Entries) :
    List String → TableStyle → Entries → Option Entries
| [], style, entries => change style entries
| name :: path, _, entries =>
    match entries.lookup name with
    | none =>
        let style := styleOnTheWay dotted
        (alter dotted change path style []).map
          (fun inner =>
            Pairs.insert name (.table style inner) entries)
    | some (.table style inner) =>
        if CanEnter dotted style then
          (alter dotted change path style inner).map
            (fun inner =>
              Pairs.insert name (.table style inner) entries)
        else
          none
    | some (.tables earlier latest) =>
        (alter dotted change path .header latest).map
          (fun latest =>
            Pairs.insert name (.tables earlier latest) entries)
    | some _ => none

------------------------------------------------------------
-- Pairs
------------------------------------------------------------

/- Add an entry at the end, unless its name is taken. -/
def addEntry
    (name : String)
    (value : Toml)
    (entries : Entries) : Option Entries :=
  if name ∈ Pairs.keys entries then
    none
  else
    some (entries ++ [(name, value)])

/-
  Add the value of a key.  The table that a dotted key leads
  to must be made by dotted keys as well.
-/
def addPair
    (key : DottedKey)
    (value : Toml)
    (entries : Entries) : Option Entries :=
  alter true
    (fun style inner =>
      if key.enclosing = [] ∨ style = .dotted then
        addEntry key.name value inner
      else
        none)
    key.enclosing .header entries

/- Add the values of keys one after another. -/
def addPairs :
    List (DottedKey × Toml) → Entries → Option Entries
| [], entries => some entries
| (key, value) :: rest, entries =>
    (addPair key value entries).bind (addPairs rest)

------------------------------------------------------------
-- Headers
------------------------------------------------------------

/- Open the table with a header. -/
def openTable
    (key : DottedKey)
    (entries : Entries) : Option Entries :=
  alter false
    (fun _ inner =>
      match inner.lookup key.name with
      | none => some (inner ++ [(key.name, .table .header [])])
      | some (.table .implied present) =>
          some (Pairs.insert key.name
            (.table .header present) inner)
      | some _ => none)
    key.enclosing .header entries

/- Open one more table of an array of tables. -/
def openElement
    (key : DottedKey)
    (entries : Entries) : Option Entries :=
  alter false
    (fun _ inner =>
      match inner.lookup key.name with
      | none => some (inner ++ [(key.name, .tables [] [])])
      | some (.tables earlier latest) =>
          some (Pairs.insert key.name
            (.tables (earlier ++ [latest]) []) inner)
      | some _ => none)
    key.enclosing .header entries

/- Add the value of a key to the table that was opened. -/
def addInside
    (path : List String)
    (key : DottedKey)
    (value : Toml)
    (entries : Entries) : Option Entries :=
  alter false (fun _ inner => addPair key value inner)
    path .header entries

end Entries

end Toml

end Palimpsest

import Palimpsest.Table

/-
  This file defines the values of a TOML document.

  A table remembers how it was made, since that decides which
  later statements may add to it.  The kinds of values and of
  tables are those of the format.

  Key definitions include:
    * `Palimpsest.Toml`
    * `Palimpsest.Toml.TableStyle`
    * `Palimpsest.Toml.Entries`
    * `Palimpsest.Toml.DottedKey`
-/

namespace Palimpsest

------------------------------------------------------------
-- Values
------------------------------------------------------------

/-
  How a table was made: by braces, by a header of its own, by
  a header below it, or by a dotted key.
-/
inductive Toml.TableStyle where
| braced
| header
| implied
| dotted
deriving DecidableEq, Repr

/-
  A value.  Floats and moments are kept as text.  Tables of one
  name that were opened by array headers stand together, the
  latest one apart.
-/
inductive Toml where
| string
    (text : String)
| integer
    (value : Int)
| float
    (text : String)
| boolean
    (value : Bool)
| moment
    (text : String)
| array
    (elements : List Toml)
| table
    (style : Toml.TableStyle)
    (entries : List (String × Toml))
| tables
    (earlier : List (List (String × Toml)))
    (latest : List (String × Toml))

namespace Toml

/- The entries of a table. -/
abbrev Entries :=
  List (String × Toml)

/-
  A key as it is written: the names of enclosing tables and
  the name of the entry.
-/
structure DottedKey where
  enclosing : List String
  name : String
deriving DecidableEq, Repr

/- The key inside one more enclosing table. -/
def DottedKey.within
    (enclosing : String)
    (key : DottedKey) : DottedKey :=
  { key with enclosing := enclosing :: key.enclosing }

end Toml

end Palimpsest

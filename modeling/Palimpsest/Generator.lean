import Palimpsest.Build.Error
import Palimpsest.Link
import Palimpsest.TypeMapping

/-
  This file defines generators.

  A generator holds what outlives a pass: its configuration,
  the emitter made from it, the links from elements to
  fragments, and the type mapping.  In each pass a producer
  builds the units, and the emitter writes them.

  Key definitions include:
    * `Palimpsest.Generator`
    * `Palimpsest.Generator.new`
    * `Palimpsest.Generator.load`
    * `Palimpsest.Producer`
    * `Palimpsest.Generator.run`
-/

namespace Palimpsest

------------------------------------------------------------
-- Generators
------------------------------------------------------------

/- A configuration, and what outlives a pass. -/
structure Generator where
  config : Config
  emitter : Emitter
  links : LinkTable
  types : TypeMapping

/-
  What builds the units of a pass.  It sees the links and the
  type mapping, and it can link fragments even if it fails.
-/
abbrev Producer :=
  LinkTable → TypeMapping →
    Except BuildError (List Fragment) × LinkTable

namespace Generator

/- The emitter that a configuration describes. -/
def emitterOf (c : Config) : Emitter where
  base := c.basePath
  indent := c.indentUnit
  strategy := Strategy.select c.destinationPath
  extension := c.extension
  packageFileStem := c.packageFileStem

/- The generator for a valid configuration. -/
def new (c : Config) : Except BuildError Generator :=
  match c.validate with
  | .error e => .error (.config e)
  | .ok () =>
      .ok {
        config := c
        emitter := emitterOf c
        links := LinkTable.empty
        types :=
          TypeMapping.empty.registerAll c.typeMappings.pairs }

/- The generator for the configuration in a file. -/
def load
    (t : FileTree)
    (path : FilePath) : Except BuildError Generator :=
  match Config.load t path with
  | .error e => .error (.config e)
  | .ok c => new c

------------------------------------------------------------
-- Passes
------------------------------------------------------------

/- What a pass leaves behind. -/
structure Pass where
  result : Except BuildError Report
  generator : Generator
  files : FileTree

/-
  Build the units of a pass and write them.  Nothing is
  written when the producer fails.
-/
def run
    (produce : Producer)
    (g : Generator)
    (t : FileTree) : Pass :=
  match produce g.links g.types with
  | (.error e, links) =>
      ⟨.error e, { g with links := links }, t⟩
  | (.ok units, links) =>
      match g.emitter.emitAll units t with
      | (report, t) => ⟨.ok report, { g with links := links }, t⟩

end Generator

end Palimpsest

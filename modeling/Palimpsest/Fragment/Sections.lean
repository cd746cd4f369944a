import Palimpsest.Fragment.Basic

/-
  This file defines the walk over the sections of a fragment
  tree.

  The walk meets the sections around a fragment first, then
  those of its parts: the package fragment before the children
  of a module; header, imports, members and extras of a
  classifier; the body of a method.

  Key definitions include:
    * `Palimpsest.Fragment.sections`
    * `Palimpsest.Fragment.mapSections`
    * `Palimpsest.Fragment.sectionIds`
    * `Palimpsest.Fragment.firstRepeated?`
    * `Palimpsest.Fragment.ensureUniqueSections`
    * `Palimpsest.Fragment.fill`
    * `Palimpsest.Fragment.preserve`
-/

namespace Palimpsest

namespace Fragment

------------------------------------------------------------
-- Reading Sections
------------------------------------------------------------

mutual

/- The sections of a fragment and all its parts, in order. -/
def sections : Fragment → List Section
| .module i p cs =>
    i.sections ++ sectionsOption p ++ sectionsList cs
| .classifier i h m _ ms x =>
    i.sections ++ sectionsOption h ++ sectionsOption m ++
      sectionsList ms ++ x.toList
| .group i cs => i.sections ++ sectionsList cs
| .method i _ _ b => i.sections ++ b.toList
| .simple i _ => i.sections
| .template i _ => i.sections

/- The sections of an optional fragment. -/
def sectionsOption : Option Fragment → List Section
| none => []
| some f => sections f

/- The sections of a list of fragments. -/
def sectionsList : List Fragment → List Section
| [] => []
| f :: fs => sections f ++ sectionsList fs

end

/- The ids of the sections of a fragment and all its parts. -/
def sectionIds (f : Fragment) : List SectionId :=
  f.sections.map (fun s => s.id)

------------------------------------------------------------
-- Changing Sections
------------------------------------------------------------

mutual

/- Change every section of a fragment and all its parts. -/
def mapSections
    (change : Section → Section) : Fragment → Fragment
| .module i p cs =>
    .module (i.mapSections change)
      (mapSectionsOption change p)
      (mapSectionsList change cs)
| .classifier i h m d ms x =>
    .classifier (i.mapSections change)
      (mapSectionsOption change h)
      (mapSectionsOption change m) d
      (mapSectionsList change ms)
      (x.map change)
| .group i cs =>
    .group (i.mapSections change) (mapSectionsList change cs)
| .method i s a b =>
    .method (i.mapSections change) s a (b.map change)
| .simple i t => .simple (i.mapSections change) t
| .template i s => .template (i.mapSections change) s

/- Change every section of an optional fragment. -/
def mapSectionsOption
    (change : Section → Section) :
    Option Fragment → Option Fragment
| none => none
| some f => some (mapSections change f)

/- Change every section of a list of fragments. -/
def mapSectionsList
    (change : Section → Section) :
    List Fragment → List Fragment
| [] => []
| f :: fs => mapSections change f :: mapSectionsList change fs

end

/- Put other lines into the sections with an id text. -/
def fill
    (id : String)
    (contents : List String)
    (f : Fragment) : Fragment :=
  f.mapSections (Section.replaceIf id contents)

/- Add a line to the sections with an id text. -/
def preserve
    (id line : String)
    (f : Fragment) : Fragment :=
  f.mapSections (Section.appendIf id line)

------------------------------------------------------------
-- Repeated Ids
------------------------------------------------------------

/- The first id that has been seen before. -/
def firstRepeatedAfter?
    (seen : List SectionId) :
    List SectionId → Option SectionId
| [] => none
| id :: rest =>
    if id ∈ seen then
      some id
    else
      firstRepeatedAfter? (id :: seen) rest

/- The first id in a list that occurred earlier in it. -/
def firstRepeated?
    (ids : List SectionId) : Option SectionId :=
  firstRepeatedAfter? [] ids

/- Refuse a tree in which two sections have the same id. -/
def ensureUniqueSections
    (f : Fragment) : Except FragmentError Unit :=
  match firstRepeated? f.sectionIds with
  | none => .ok ()
  | some id => .error (.duplicateSectionId id)

------------------------------------------------------------
-- Companions
------------------------------------------------------------

/- The sections of a list, fragment by fragment. -/
theorem sectionsList_eq_flatMap
    (fs : List Fragment) :
    sectionsList fs = fs.flatMap sections := by
  induction fs with
  | nil =>
      rfl
  | cons f fs ih =>
      simp [sectionsList, ih]

/- The sections of an optional fragment, as of a list. -/
theorem sectionsOption_eq_flatMap
    (f : Option Fragment) :
    sectionsOption f = f.toList.flatMap sections := by
  cases f <;> simp [sectionsOption]

/- Changing a list of fragments changes each of them. -/
theorem mapSectionsList_eq_map
    (change : Section → Section)
    (fs : List Fragment) :
    mapSectionsList change fs =
      fs.map (mapSections change) := by
  induction fs with
  | nil =>
      rfl
  | cons f fs ih =>
      simp [mapSectionsList, ih]

/- Changing an optional fragment changes it if it is there. -/
theorem mapSectionsOption_eq_map
    (change : Section → Section)
    (f : Option Fragment) :
    mapSectionsOption change f =
      f.map (mapSections change) := by
  cases f <;> rfl

end Fragment

end Palimpsest

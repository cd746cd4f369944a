import Palimpsest.Fragment.Sections

/-
  This file defines the walk over the sections of a fragment
  tree that changes the sections on its way.

  The walk meets the sections in the order in which they are
  listed.  What it puts in the place of a section may depend
  on a state, which it hands on from section to section.

  Key definitions include:
    * `Palimpsest.Info.visitSections`
    * `Palimpsest.Fragment.visitSections`
-/

namespace Palimpsest

variable {σ : Type}

/- Visit the sections around a fragment. -/
def Info.visitSections
    (visit : Section → StateM σ Section)
    (i : Info) : StateM σ Info := do
  let before ← i.before.mapM visit
  let after ← i.after.mapM visit
  return { i with before := before, after := after }

namespace Fragment

mutual

/- Visit the sections of a fragment and all its parts. -/
def visitSections
    (visit : Section → StateM σ Section) :
    Fragment → StateM σ Fragment
| .module i p cs => do
    let i ← i.visitSections visit
    let p ← visitSectionsOption visit p
    let cs ← visitSectionsList visit cs
    return .module i p cs
| .classifier i h m d ms x => do
    let i ← i.visitSections visit
    let h ← visitSectionsOption visit h
    let m ← visitSectionsOption visit m
    let ms ← visitSectionsList visit ms
    let x ← x.mapM visit
    return .classifier i h m d ms x
| .group i cs => do
    let i ← i.visitSections visit
    let cs ← visitSectionsList visit cs
    return .group i cs
| .method i s a b => do
    let i ← i.visitSections visit
    let b ← b.mapM visit
    return .method i s a b
| .simple i t => do
    let i ← i.visitSections visit
    return .simple i t
| .template i s => do
    let i ← i.visitSections visit
    return .template i s

/- Visit the sections of an optional fragment. -/
def visitSectionsOption
    (visit : Section → StateM σ Section) :
    Option Fragment → StateM σ (Option Fragment)
| none => return none
| some f => do
    let f ← visitSections visit f
    return some f

/- Visit the sections of a list of fragments. -/
def visitSectionsList
    (visit : Section → StateM σ Section) :
    List Fragment → StateM σ (List Fragment)
| [] => return []
| f :: fs => do
    let f ← visitSections visit f
    let fs ← visitSectionsList visit fs
    return f :: fs

end

end Fragment

end Palimpsest

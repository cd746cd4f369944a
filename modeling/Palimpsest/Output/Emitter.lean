import Palimpsest.Fragment.Render
import Palimpsest.Graft
import Palimpsest.Output.Chain
import Palimpsest.Output.Strategy

/-
  This file defines how fragment trees are written to files,
  one file for each classifier, template and package.

  The text of a classifier or package file replaces the
  previous one, after the sections of the previous text were
  put back into the tree.  A template is written only if its
  file is not there yet.  A module makes the directory for its
  package; if that fails, nothing in the module is written.

  Key definitions include:
    * `Palimpsest.Emitter`
    * `Palimpsest.Emitter.filePath`
    * `Palimpsest.Emitter.packageFilePath`
    * `Palimpsest.Emitter.roundTrip`
    * `Palimpsest.Emitter.classifierChain`
    * `Palimpsest.Emitter.templateChain`
    * `Palimpsest.Job`
    * `Palimpsest.Job.report`
    * `Palimpsest.Emitter.job`
    * `Palimpsest.Emitter.emitAll`
-/

namespace Palimpsest

------------------------------------------------------------
-- Emitters
------------------------------------------------------------

/-
  Where and how units are written: the root that previous
  texts are read below, the indentation unit, the strategy,
  and how files are called.
-/
structure Emitter where
  base : FilePath
  indent : String
  strategy : Strategy
  extension : String
  packageFileStem : String
deriving DecidableEq, Repr

namespace Emitter

/- The extension of files unless another one is chosen. -/
def defaultExtension : String :=
  "java"

/- The name of package files unless another one is chosen. -/
def defaultPackageFileStem : String :=
  "package-info"

/- An emitter with the default file names. -/
def new
    (base : FilePath)
    (indent : String)
    (destination : Option FilePath) : Emitter where
  base := base
  indent := indent
  strategy := Strategy.select destination
  extension := defaultExtension
  packageFileStem := defaultPackageFileStem

/- The file of a classifier or template, below a root. -/
def filePath
    (e : Emitter)
    (name : QualifiedName) : FilePath :=
  name.filePath e.extension

/- The package file of a module, below a root. -/
def packageFilePath
    (e : Emitter)
    (module : QualifiedName) : FilePath :=
  (module.child e.packageFileStem).filePath e.extension

/- The place that a relative path has below the output root. -/
def destination
    (e : Emitter)
    (relative : FilePath) : FilePath :=
  e.strategy.destinationPath e.base relative

/- The place that a relative path has below the base. -/
def source
    (e : Emitter)
    (relative : FilePath) : FilePath :=
  Strategy.sourcePath e.base relative

/- The text of a fragment. -/
def render
    (e : Emitter)
    (f : Fragment) : String :=
  f.render e.indent e.strategy.style

------------------------------------------------------------
-- Classifiers And Package Files
------------------------------------------------------------

/- A tree ready to be written, and what is reported of it. -/
structure Prepared where
  tree : Fragment
  summary : Summary

/- Put the sections of a previous text, if any, into a tree. -/
def prepare
    (source : FilePath)
    (f : Fragment)
    (previous : Option String) : Except UnitError Prepared :=
  match previous with
  | none => .ok ⟨f, Summary.blank⟩
  | some text =>
      match scan text with
      | .error fault => .error (.scan source fault)
      | .ok recovered =>
          match graft f recovered with
          | .error fault => .error (.fragment fault)
          | .ok grafted =>
              .ok ⟨grafted.tree, { Summary.blank with
                sourceFound := true
                grafted := grafted.applied
                orphaned := grafted.orphaned }⟩

/- Write a prepared tree. -/
def writePrepared
    (e : Emitter)
    (destination : FilePath)
    (p : Prepared) : Chain (Except UnitError Summary) :=
  let text := e.render p.tree
  (Chain.writeText destination text).map (fun answer =>
    match answer with
    | .error fault => .error fault
    | .ok () => .ok { p.summary with
        checksum := some (Checksum.ofText text)
        written := true })

/-
  Read the previous text of a tree, put its sections back, and
  write the tree.  A tree in which a section id is repeated is
  refused before anything is read.
-/
def roundTrip
    (e : Emitter)
    (f : Fragment)
    (source destination : FilePath) :
    Chain (Except UnitError Summary) :=
  match f.ensureUniqueSections with
  | .error fault => .done (.error (.fragment fault))
  | .ok () =>
      (Chain.readText source).bind (fun answer =>
        match answer with
        | .error fault => .done (.error fault)
        | .ok previous =>
            match prepare source f previous with
            | .error fault => .done (.error fault)
            | .ok p => e.writePrepared destination p)

/- Write a fragment to the file with a relative path. -/
def sourceChain
    (e : Emitter)
    (f : Fragment)
    (relative : FilePath)
    (name : String)
    (kind : UnitKind) : Chain UnitReport :=
  (e.roundTrip f (e.source relative)
      (e.destination relative)).map
    (fun outcome =>
      ⟨name, kind, some (e.destination relative), outcome⟩)

/- Write a classifier. -/
def classifierChain
    (e : Emitter)
    (f : Fragment) : Chain UnitReport :=
  if f.kind = .classifier then
    match f.requireQualifiedName with
    | .error fault =>
        .done (UnitReport.failed f.unitName .classifier
          (.fragment fault))
    | .ok name =>
        e.sourceChain f (e.filePath name) f.unitName .classifier
  else
    .done (UnitReport.failed f.unitName .classifier
      (.fragment
        (.unsupportedOperation .serializeClassifier f.kind)))

------------------------------------------------------------
-- Templates
------------------------------------------------------------

/- What is reported of a template. -/
def templateSummary
    (text : String)
    (created : Bool) : Summary :=
  { Summary.blank with
    checksum :=
      if created then some (Checksum.ofText text) else none
    written := created }

/- Write a template unless its file is there. -/
def templateChain
    (e : Emitter)
    (f : Fragment) : Chain UnitReport :=
  if f.kind = .template then
    match f.requireQualifiedName with
    | .error fault =>
        .done (UnitReport.failed f.unitName .template
          (.fragment fault))
    | .ok name =>
        let destination := e.destination (e.filePath name)
        let text := e.render f
        (Chain.touch destination text).map (fun answer =>
          ⟨f.unitName, .template, some destination,
            answer.map (templateSummary text)⟩)
  else
    .done (UnitReport.failed f.unitName .template
      (.fragment
        (.unsupportedOperation .serializeTemplate f.kind)))

end Emitter

------------------------------------------------------------
-- Jobs
------------------------------------------------------------

/-
  The work on one fragment: a unit, and the jobs that follow
  it unless it is stopped.
-/
inductive Job where
| mk
    (unit : Chain UnitReport)
    (followers : List Job)

namespace Job

/- The job that is one unit. -/
def single (unit : Chain UnitReport) : Job :=
  .mk unit []

mutual

/- Do a job. -/
def run : Job → FileTree → List UnitReport × FileTree
| .mk unit followers, t =>
    match unit.run t with
    | (report, t) =>
        if report.IsSuccess then
          match runList followers t with
          | (reports, t) => (report :: reports, t)
        else
          ([report], t)

/- Do jobs one after another. -/
def runList : List Job → FileTree → List UnitReport × FileTree
| [], t => ([], t)
| job :: jobs, t =>
    match run job t with
    | (first, t) =>
        match runList jobs t with
        | (rest, t) => (first ++ rest, t)

end

/- Do jobs one after another and report on all of them. -/
def report
    (jobs : List Job)
    (t : FileTree) : Report × FileTree :=
  match runList jobs t with
  | (reports, t) => (⟨reports⟩, t)

end Job

------------------------------------------------------------
-- Modules And Whole Passes
------------------------------------------------------------

namespace Emitter

/- Make the directory of a module. -/
def directoryChain
    (e : Emitter)
    (f : Fragment)
    (name : QualifiedName) : Chain UnitReport :=
  let directory := e.destination name.dirPath
  (Chain.makeDirs directory).map (fun answer =>
    ⟨f.unitName, .module, some directory,
      answer.map (fun _ =>
        { Summary.blank with written := true })⟩)

/- Write the package file of a module. -/
def packageChain
    (e : Emitter)
    (name : QualifiedName)
    (package : Fragment) : Chain UnitReport :=
  e.sourceChain package (e.packageFilePath name)
    (name.dotted ++ "." ++ e.packageFileStem) .packageFile

/- The job for a module that is not one. -/
def refuseModule (f : Fragment) : Job :=
  .single (.done (UnitReport.failed f.unitName .module
    (.fragment
      (.unsupportedOperation .serializeModule f.kind))))

/- The job for a module without a qualified name. -/
def unnamedModule
    (f : Fragment)
    (fault : FragmentError) : Job :=
  .single (.done (UnitReport.failed f.unitName .module
    (.fragment fault)))

/- The job for a fragment that is no unit. -/
def refuseUnit (f : Fragment) : Job :=
  .single (.done (UnitReport.failed f.unitName .unsupported
    (.fragment (.unsupportedOperation .serialize f.kind))))

mutual

/-
  The job for a fragment: a module with its package file and
  its children, a classifier, or a template.
-/
def job (e : Emitter) (f : Fragment) : Job :=
  match f with
  | .module i p cs =>
      match i.qualifiedName with
      | none =>
          unnamedModule (.module i p cs)
            (.missingQualifiedName i.name)
      | some name =>
          .mk (e.directoryChain (.module i p cs) name)
            (p.toList.map
                (fun package =>
                  .single (e.packageChain name package)) ++
              jobs e cs)
  | .classifier i h m d ms x =>
      .single (e.classifierChain (.classifier i h m d ms x))
  | .template i s => .single (e.templateChain (.template i s))
  | .group i cs => refuseUnit (.group i cs)
  | .method i s a b => refuseUnit (.method i s a b)
  | .simple i t => refuseUnit (.simple i t)

/- The jobs for fragments, in order. -/
def jobs (e : Emitter) : List Fragment → List Job
| [] => []
| f :: fs => job e f :: jobs e fs

end

/-
  The job for a fragment that must be a module.  A missing
  qualified name is reported before a wrong kind.
-/
def moduleJob
    (e : Emitter)
    (f : Fragment) : Job :=
  match f.requireQualifiedName with
  | .error fault => unnamedModule f fault
  | .ok _ => if f.kind = .module then e.job f else refuseModule f

/- Write units one after another and report on all of them. -/
def emitAll
    (e : Emitter)
    (units : List Fragment)
    (t : FileTree) : Report × FileTree :=
  Job.report (e.jobs units) t

end Emitter

end Palimpsest

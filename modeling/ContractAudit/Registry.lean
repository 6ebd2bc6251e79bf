import ContractAudit.Analysis.Analyzer
import ContractAudit.Registry.Import

/-! The registry of detector classes. It starts with the built-in ones, and more are registered
one by one or found in the modules of a directory. An analyzer takes its detectors from it. -/

namespace ContractAudit

structure Registry (imp : Importer) where
  classes : List DetectorClass
  imports : imp.State

namespace Registry

variable {imp : Importer}

def initial (imports : imp.State) : Registry imp := ⟨builtinClasses, imports⟩

def register (r : Registry imp) (c : DetectorClass) : Registry imp × Journal :=
  if r.classes.contains c then (r, .empty)
  else ({ r with classes := r.classes ++ [c] },
    .note .info ("Registered detector: " ++ c.name))

def registerAll (r : Registry imp) : List DetectorClass → Registry imp × Journal
  | [] => (r, .empty)
  | c :: rest =>
    let (r, journal) := r.register c
    let (r, more) := registerAll r rest
    (r, journal ++ more)

def classNamed (r : Registry imp) (name : String) : DetectorClass :=
  (r.classes.find? (·.name = name)).getD ⟨name, .user, 0⟩

structure Candidate where
  path : String
  moduleName : String
deriving DecidableEq, Repr

/-- The slashes that a path starts with. Two are not the same as one, more are. -/
def leading (dir : String) : String :=
  if dir.startsWith "//" && !dir.startsWith "///" then "//"
  else if Path.isAbsolute dir then "/" else ""

def parts (dir : String) : List String := (Path.parts dir).filter fun p => p ≠ "" && p ≠ "."

def spelled (front : String) (parts : List String) : String :=
  if front = "" && parts.isEmpty then "." else front ++ "/".intercalate parts

def above (dir : String) : String := spelled (leading dir) (parts dir).dropLast

def candidates (files : FileSystem) (dir : String) : List Candidate :=
  let names := (files.listed (spelled (leading dir) (parts dir))).filter fun n =>
    n.endsWith moduleSuffix && !n.startsWith "_"
  names.map fun n =>
    let stem := if n = moduleSuffix then n
      else String.ofList (n.toList.take (n.length - moduleSuffix.length))
    ⟨spelled (leading dir) (parts dir ++ [n]), (parts dir).getLast?.getD "" ++ "." ++ stem⟩

structure Attempt where
  candidate : Candidate
  result : Except ImportFault Namespace

def Attempt.ends (a : Attempt) : Bool :=
  match a.result with
  | .ok _ => false
  | .error fault => !fault.isUnusable

def attemptAll (imp : Importer) (s : imp.State) : List Candidate → imp.State × List Attempt
  | [] => (s, [])
  | c :: rest =>
    let (s, result) := imp.importing s c.moduleName
    let attempt : Attempt := ⟨c, result⟩
    let (s, more) := if attempt.ends then (s, []) else attemptAll imp s rest
    (s, attempt :: more)

structure Search (imp : Importer) where
  registry : Registry imp
  journal : Journal
  fault : Option ImportFault

def registerFound (r : Registry imp) : List Attempt → Search imp
  | [] => ⟨r, .empty, none⟩
  | ⟨_, .ok m⟩ :: rest =>
    let (r, journal) := r.registerAll m.offers
    let after := registerFound r rest
    { after with journal := journal ++ after.journal }
  | ⟨c, .error fault⟩ :: rest =>
    if fault.isUnusable then
      let after := registerFound r rest
      { after with
        journal := .note .warning
          ("Error loading detector from " ++ c.path ++ ": " ++ fault.message) ++ after.journal }
    else ⟨r, .empty, some fault⟩

def attempts (r : Registry imp) (files : FileSystem) (dir : String) : imp.State × List Attempt :=
  attemptAll imp (imp.search r.imports (above dir)) (candidates files dir)

def load (r : Registry imp) (files : FileSystem) (dir : String) : Search imp :=
  if files.isDirAt (spelled (leading dir) (parts dir)) then
    let (imports, attempts) := r.attempts files dir
    { r with imports }.registerFound attempts
  else ⟨r, .note .warning
    ("Detector path " ++ dir ++ " does not exist or is not a directory"), none⟩

end Registry

/-- The detector that a class makes. What a class that is not built-in makes is up to the class, and
it may fail. -/
def DetectorClass.detector (outside : DetectorClass → Except String Detector) (c : DetectorClass) :
    Except String Detector :=
  match Detect.Builtin.all.find? (·.detectorClass = c) with
  | some kind => .ok (.builtin kind .fresh)
  | none => outside c

def Registry.analyzer {imp : Importer} (r : Registry imp)
    (outside : DetectorClass → Except String Detector) : Except String Analyzer :=
  (r.classes.mapM (DetectorClass.detector outside)).map Analyzer.mk

end ContractAudit

import ContractAudit.Detect.Builtin
import ContractAudit.Text.Quoted

/-! Detector classes, and the modules that define them. -/

namespace ContractAudit

inductive Origin where
  | builtin
  | user
  | inModule (name : String)
deriving DecidableEq, Repr

/-- A number tells classes of one name and origin apart. -/
structure DetectorClass where
  name : String
  origin : Origin
  number : Nat
deriving DecidableEq, Repr

def Detect.Builtin.className : Detect.Builtin → String
  | transfer => "UncheckedTransferDetector"
  | unwrap => "UnwrapDetector"
  | panic => "PanicDetector"
  | packed => "EncodePackedDetector"
  | lockedEther => "LockedEtherDetector"

def Detect.Builtin.detectorClass (b : Detect.Builtin) : DetectorClass := ⟨b.className, .builtin, 0⟩

def builtinClasses : List DetectorClass := Detect.Builtin.all.map Detect.Builtin.detectorClass

/-- Why a module cannot be imported. An unusable one is passed over, any other ends the search. -/
inductive ImportFault where
  | unusable (message : String)
  | broken (kind message : String)
  | noPackage (name : String)
deriving DecidableEq, Repr

namespace ImportFault

def message : ImportFault → String
  | unusable message => message
  | broken _ message => message
  | noPackage name =>
    "the 'package' argument is required to perform a relative import for " ++ Text.quoted name

def isUnusable : ImportFault → Bool
  | unusable _ => true
  | _ => false

def noModule (name : String) : ImportFault := .unusable ("No module named " ++ Text.quoted name)

def notPackage (name parent : String) : ImportFault :=
  .unusable ("No module named " ++ Text.quoted name ++ "; " ++ Text.quoted parent ++
    " is not a package")

end ImportFault

def baseClass : DetectorClass := ⟨"BaseDetector", .builtin, 0⟩

/-- The names in a module that stand for the base class or a class derived from it, whether the
class was defined there or imported. -/
abbrev Namespace := List (String × DetectorClass)

def Namespace.offers (n : Namespace) : List DetectorClass :=
  ((n.filter (·.2 ≠ baseClass)).mergeSort fun a b => a.1 ≤ b.1).map (·.2)

structure ModuleFile where
  classes : List (String × Option String)
  imports : List String
  fault : Option ImportFault
deriving DecidableEq, Repr

namespace ModuleFile

def blank : ModuleFile := ⟨[], [], none⟩

def detectorNames (imports : List String) (known : List String) :
    List (String × Option String) → List String
  | [] => known
  | (name, base) :: rest =>
    let isDetector := match base with
      | some b => imports.contains b || known.contains b
      | none => false
    let others := known.filter (· ≠ name)
    detectorNames (imports.filter (· ≠ name)) (if isDetector then others ++ [name] else others) rest

/-- What the names in a module stand for. A class that it defines takes the place of an imported
one. -/
def members (m : ModuleFile) (moduleName : String) : Namespace :=
  let imported := baseClass.name :: m.imports
  let own := (detectorNames imported [] m.classes).map fun n =>
    (n, (⟨n, .inModule moduleName, 0⟩ : DetectorClass))
  let defined := m.classes.map (·.1)
  own ++ (imported.filter fun n => !defined.contains n).map fun n => (n, ⟨n, .builtin, 0⟩)

end ModuleFile
end ContractAudit

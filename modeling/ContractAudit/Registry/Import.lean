import ContractAudit.Files.FileSystem
import ContractAudit.Registry.Importer

/-! How a module is found by its name. Each part of the name is looked for in the directories of the
part before it, and the first one on the search path. What was found is held. Directories without a
file of their own may share a name. They are looked for each time, because the search path grows. -/

namespace ContractAudit

abbrev ModuleName := List String

namespace ModuleName

def ofText (name : String) : ModuleName :=
  ((Text.splitAt '.' name.toList).map String.ofList).reverse

def text (name : ModuleName) : String := ".".intercalate name.reverse

end ModuleName

def moduleSuffix : String := ".py"

def packageFile : String := "__init__.py"

inductive Place where
  | file (path : String)
  | package (dir : String)
  | portions (dirs : List String)
deriving DecidableEq, Repr

/-- Looks for a name in directories. The first file or package is taken, and directories without
one are collected. -/
def Place.locate (files : FileSystem) (name : String) : List String → Place
  | [] => .portions []
  | dir :: rest =>
    let inside := Path.join dir name
    let path := Path.join dir (name ++ moduleSuffix)
    if name ≠ "" && files.isFileAt (Path.join inside packageFile) then .package inside
    else if files.isFileAt path then .file path
    else match locate files name rest with
      | .portions dirs =>
        .portions (if name ≠ "" && files.isDirAt inside then inside :: dirs else dirs)
      | found => found

inductive Loaded where
  | file (m : ModuleFile)
  | package (dir : String) (m : ModuleFile)
  | portions (dirs : List String)
deriving DecidableEq, Repr

namespace Loaded

def content : Loaded → ModuleFile
  | file m => m
  | package _ m => m
  | portions _ => .blank

def directories? : Loaded → Option (List String)
  | file _ => none
  | package dir _ => some [dir]
  | portions dirs => some dirs

def isFixed : Loaded → Bool
  | file _ => true
  | package _ _ => true
  | portions _ => false

/-- What a name stands for by what is held for it and what a search finds. Only directories that
share a name give way, and only to directories. -/
def settle : Option Loaded → Except ImportFault Loaded → Except ImportFault Loaded
  | none, found => found
  | some (portions _), .ok (portions dirs) => .ok (portions dirs)
  | some held, _ => .ok held

end Loaded

structure Sources where
  files : FileSystem
  modules : List (String × ModuleFile)

namespace Sources

def content (src : Sources) (path : String) : ModuleFile :=
  let names := Path.names src.files.cwd
  match src.modules.reverse.find? fun m => names m.1 = names path with
  | some (_, m) => m
  | none => .blank

def execute (src : Sources) (path : String) : Except ImportFault ModuleFile :=
  match (src.content path).fault with
  | some fault => .error fault
  | none => .ok (src.content path)

def find (src : Sources) (part : String) (parents : ModuleName) (parent : Loaded) :
    Except ImportFault Loaded :=
  match parent.directories? with
  | none => .error (.notPackage (ModuleName.text (part :: parents)) parents.text)
  | some dirs =>
    match Place.locate src.files part dirs with
    | .package dir => (src.execute (Path.join dir packageFile)).map (.package dir)
    | .file path => (src.execute path).map .file
    | .portions [] => .error (.noModule (ModuleName.text (part :: parents)))
    | .portions dirs => .ok (.portions dirs)

end Sources

structure Imports where
  searched : List String
  held : List (ModuleName × Loaded)
deriving DecidableEq, Repr

namespace Imports

def none : Imports := ⟨[], []⟩

def search (i : Imports) (dir : String) : Imports :=
  if i.searched.contains dir then i else { i with searched := i.searched ++ [dir] }

def held? (i : Imports) (name : ModuleName) : Option Loaded :=
  (i.held.find? (·.1 = name)).map (·.2)

def hold (i : Imports) (name : ModuleName) (l : Loaded) : Imports :=
  { i with held := (name, l) :: i.held }

def look (src : Sources) (i : Imports) : ModuleName → Except ImportFault Loaded
  | [] => .ok (.portions i.searched)
  | part :: parents =>
    Loaded.settle (i.held? (part :: parents)) (look src i parents >>= src.find part parents)

def holdFound (src : Sources) (i : Imports) (name : ModuleName) : Imports :=
  match i.look src name with
  | .ok l => i.hold name l
  | .error _ => i

def remember (src : Sources) (i : Imports) : ModuleName → Imports
  | [] => i
  | part :: parents =>
    if (i.held? (part :: parents)).any Loaded.isFixed then i
    else (remember src i parents).holdFound src (part :: parents)

/-- What an import of a module gives. A name that starts with a dot has no first part. -/
def outcome (src : Sources) (i : Imports) (name : String) : Except ImportFault ModuleFile :=
  if name.startsWith "." then .error (.noPackage name)
  else (i.look src (.ofText name)).map Loaded.content

def importing (src : Sources) (i : Imports) (name : String) : Imports :=
  if name.startsWith "." || (i.held? (.ofText name)).isSome then i
  else i.remember src (.ofText name)

def loaded (i : Imports) (name : String) : Option Namespace :=
  if name.startsWith "." then Option.none
  else (i.held? (.ofText name)).map (·.content.members name)

end Imports

def Sources.importer (src : Sources) : Importer where
  State := Imports
  loaded := Imports.loaded
  search := Imports.search
  importing i name := (i.importing src name, (i.outcome src name).map (·.members name))

end ContractAudit

import ContractAudit.Files.FileSystem

/-! Changes of a working directory: making directories and copying trees. A change that fails
leaves what was done before it. -/

namespace ContractAudit.FileSystem

def dirSlot (fs : FileSystem) (path : String) : Except FileCause (List String) :=
  match path, (Path.parts path).reverse.dropWhile (· = "") with
  | "", _ => .error .missing
  | _, [] => .error .alreadyThere
  | _, last :: init =>
    match fs.walk (fs.start path) init.reverse with
    | .error cause => .error cause
    | .ok s => match fs.entryAt? s with
      | some (.dir entries) =>
        if !Path.isName last || (Entry.lookup? entries last).isSome then .error .alreadyThere
        else .ok (s.names ++ [last])
      | _ => .error .notDirectory

def makeDir (fs : FileSystem) (path : String) : Except FileFault FileSystem :=
  match fs.dirSlot path with
  | .error cause => .error ⟨cause, path⟩
  | .ok names => .ok (fs.put names (.dir []) rfl)

structure Change where
  files : FileSystem
  fault : Option FileFault

/-- Makes a directory and those around it that are missing. A directory that is there already is
left alone. The fuel is the length of the path. -/
def makeDirsWith : Nat → FileSystem → String → Change
  | 0, fs, _ => ⟨fs, none⟩
  | fuel + 1, fs, path =>
    let (head, tail) := Path.split path
    let (head, tail) := if tail = "" then Path.split head else (head, tail)
    let around : Change := if head ≠ "" && tail ≠ "" && !fs.exists? head then
        makeDirsWith fuel fs head else ⟨fs, none⟩
    match around.fault with
    | some ⟨.alreadyThere, _⟩ | none =>
      match around.files.makeDir path with
      | .ok fs => ⟨fs, none⟩
      | .error fault =>
        ⟨around.files, if around.files.isDirAt path then none else some fault⟩
    | some fault => ⟨around.files, some fault⟩

def makeDirs (fs : FileSystem) (path : String) : Change :=
  makeDirsWith (path.length + 1) fs path

def copyFile (fs : FileSystem) (bytes : Bytes) (source target : String) : Change :=
  let target := if fs.isDirAt target then Path.join target (Path.basename source) else target
  match fs.write target bytes with
  | .ok fs => ⟨fs, none⟩
  | .error fault => ⟨fs, some fault⟩

structure CopyFailure where
  source : String
  target : String
  message : String
deriving DecidableEq, Repr

inductive CopyFault where
  | file (fault : FileFault)
  | parts (failures : List CopyFailure)
deriving DecidableEq, Repr

def CopyFailure.quoted (f : CopyFailure) : String :=
  "(" ++ Text.quoted f.source ++ ", " ++ Text.quoted f.target ++ ", " ++
    Text.quoted f.message ++ ")"

def CopyFault.message : CopyFault → String
  | file fault => fault.message
  | parts failures => "[" ++ ", ".intercalate (failures.map CopyFailure.quoted) ++ "]"

def CopyFault.failures (source target : String) : CopyFault → List CopyFailure
  | file fault => [⟨source, target, fault.message⟩]
  | parts failures => failures

def copyTo : Nat → FileSystem → String → String → FileSystem × Option CopyFault
  | 0, fs, source, _ => (fs, some (.file ⟨.tooManyLinks, source⟩))
  | depth + 1, fs, source, target =>
    match fs.get source with
    | .error cause => (fs, some (.file ⟨cause, source⟩))
    | .ok (.dir entries) =>
      let made := fs.makeDirs target
      match made.fault with
      | some fault => (made.files, some (.file fault))
      | none =>
        let (fs, failures) := entries.foldl (fun (fs, failures) (name, _) =>
          let source := Path.join source name
          let target := Path.join target name
          let (fs, fault) := copyTo depth fs source target
          (fs, failures ++ (fault.map (·.failures source target)).getD [])) (made.files, [])
        (fs, if failures.isEmpty then none else some (.parts failures))
    | .ok (.file bytes) =>
      let change := fs.copyFile bytes source target
      (change.files, change.fault.map .file)
    | .ok (.link _) => (fs, none)

/-- No path that leads somewhere is longer: each link starts again with at most the whole
height. -/
def longest (fs : FileSystem) : Nat := (linkLimit + 1) * (fs.root.height + 1)

def copyUntilFault (fs : FileSystem) (source target : String) :
    List String → FileSystem × Option CopyFault
  | [] => (fs, none)
  | name :: rest =>
    match copyTo fs.longest fs (Path.join source name) (Path.join target name) with
    | (fs, none) => copyUntilFault fs source target rest
    | (fs, some fault) => (fs, some fault)

end ContractAudit.FileSystem

namespace ContractAudit.Entry

mutual

def listing (above : String) : Entry → List (String × Option Bytes)
  | dir entries => listingEntries above entries
  | _ => []

def listingEntries (above : String) : List (String × Entry) → List (String × Option Bytes)
  | [] => []
  | (name, entry) :: rest =>
    let path := Path.join above name
    (match entry with
      | file bytes => [(path, some bytes)]
      | dir entries => (path, none) :: listingEntries path entries
      | link _ => []) ++ listingEntries above rest

end

end ContractAudit.Entry

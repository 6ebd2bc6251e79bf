import ContractAudit.Files.Entry

/-! A file system: everything below the root, and the directory that relative paths start from. A
path is walked part by part. A link on the way is followed, and only so many are. -/

namespace ContractAudit

inductive FileCause where
  | missing
  | alreadyThere
  | notDirectory
  | isDirectory
  | tooManyLinks
deriving DecidableEq, Repr

structure FileFault where
  cause : FileCause
  path : String
deriving DecidableEq, Repr

def FileCause.message : FileCause → String
  | missing => "[Errno 2] No such file or directory"
  | alreadyThere => "[Errno 17] File exists"
  | notDirectory => "[Errno 20] Not a directory"
  | isDirectory => "[Errno 21] Is a directory"
  | tooManyLinks => "[Errno 40] Too many levels of symbolic links"

def FileFault.message (f : FileFault) : String := f.cause.message ++ ": " ++ Text.quoted f.path

/-- The working directory goes by its names from the root on. -/
structure FileSystem where
  root : Entry
  cwd : List String
  regular : root.isRegular = true
  named : ∀ name ∈ cwd, Path.isName name = true

/-- Where a walk stands, and how many links it may still follow. -/
structure Spot where
  names : List String
  links : Nat
deriving DecidableEq, Repr

namespace FileSystem

def ofRoot (root : Entry) (cwd : List String)
    (h : root.isRegular = true ∧ ∀ name ∈ cwd, Path.isName name = true) : FileSystem :=
  ⟨root, cwd, h.1, h.2⟩

def linkLimit : Nat := 40

/-- One part of a walk. A link is walked by `follow` from the directory that it is in. -/
def step (root : Entry) (follow : Spot → List String → Except FileCause Spot) (spot : Spot)
    (part : String) : Except FileCause Spot :=
  match root.at? spot.names with
  | some (.dir entries) =>
    if part = "" || part = "." then .ok spot
    else if part = ".." then .ok { spot with names := spot.names.dropLast }
    else match Entry.lookup? entries part with
      | none => .error .missing
      | some (.link target) =>
        match spot.links with
        | 0 => .error .tooManyLinks
        | links + 1 => follow ⟨if Path.isAbsolute target then [] else spot.names, links⟩
            (Path.parts target)
      | some _ => .ok { spot with names := spot.names ++ [part] }
  | _ => .error .notDirectory

def walkTo (root : Entry) : Nat → Spot → List String → Except FileCause Spot
  | 0, _, _ => .error .tooManyLinks
  | depth + 1, spot, parts => parts.foldlM (step root (walkTo root depth)) spot

def walk (fs : FileSystem) (spot : Spot) (parts : List String) : Except FileCause Spot :=
  walkTo fs.root (linkLimit + 1) spot parts

def start (fs : FileSystem) (path : String) : Spot :=
  ⟨if Path.isAbsolute path then [] else fs.cwd, linkLimit⟩

def spot (fs : FileSystem) (path : String) : Except FileCause Spot :=
  fs.walk (fs.start path) (Path.parts path)

def entryAt? (fs : FileSystem) (s : Spot) : Option Entry := fs.root.at? s.names

def get (fs : FileSystem) (path : String) : Except FileCause Entry :=
  if path = "" then .error .missing
  else match fs.spot path with
    | .error cause => .error cause
    | .ok s => match fs.entryAt? s with
      | some e => .ok e
      | none => .error .missing

def exists? (fs : FileSystem) (path : String) : Bool :=
  match fs.get path with
  | .ok _ => true
  | .error _ => false

def isDirAt (fs : FileSystem) (path : String) : Bool :=
  match fs.get path with
  | .ok e => e.isDir
  | .error _ => false

def isFileAt (fs : FileSystem) (path : String) : Bool :=
  match fs.get path with
  | .ok e => !e.isDir
  | .error _ => false

def entriesAt (fs : FileSystem) (s : Spot) : List (String × Entry) :=
  match fs.entryAt? s with
  | some (.dir entries) => entries
  | _ => []

/-- Whether something stands at a path. A link counts, wherever it leads. -/
def isThere (fs : FileSystem) (path : String) : Bool :=
  match path, (Path.parts path).getLast? with
  | "", _ | _, none => false
  | _, some last =>
    match fs.walk (fs.start path) (Path.parts path).dropLast with
    | .error _ => false
    | .ok s =>
      if Path.isName last then (Entry.lookup? (fs.entriesAt s) last).isSome
      else (fs.entryAt? s).any Entry.isDir

def read (fs : FileSystem) (path : String) : Except FileFault Bytes :=
  match fs.get path with
  | .ok (.file bytes) => .ok bytes
  | .ok _ => .error ⟨.isDirectory, path⟩
  | .error cause => .error ⟨cause, path⟩

def listed (fs : FileSystem) (path : String) : List String :=
  match fs.get path with
  | .ok (.dir entries) => (entries.map (·.1)).mergeSort (fun a b => a ≤ b)
  | _ => []

def put (fs : FileSystem) (names : List String) (entry : Entry) (h : entry.isRegular = true) :
    FileSystem :=
  if hnames : ∀ name ∈ names, Path.isName name = true then
    { fs with
      root := Entry.insertAt entry names fs.root
      regular := Entry.isRegular_insertAt h hnames fs.regular }
  else fs

/-- Where a file is written: the names of one that is there or of one that can be made. A link at
the end is followed, nested up to a depth. -/
def fileSlot (fs : FileSystem) : Nat → Spot → List String → Except FileCause (List String)
  | 0, _, _ => .error .tooManyLinks
  | depth + 1, spot, parts =>
    match parts.reverse.dropWhile (· = "") with
    | [] => .error .isDirectory
    | last :: init =>
      match fs.walk spot init.reverse with
      | .error cause => .error cause
      | .ok s => match fs.entryAt? s with
        | some (.dir entries) =>
          if !Path.isName last || parts.getLast? = some "" then .error .isDirectory
          else match Entry.lookup? entries last with
            | some (.dir _) => .error .isDirectory
            | some (.link target) =>
              match s.links with
              | 0 => .error .tooManyLinks
              | links + 1 =>
                fileSlot fs depth ⟨if Path.isAbsolute target then [] else s.names, links⟩
                  (Path.parts target)
            | _ => .ok (s.names ++ [last])
        | _ => .error .notDirectory

def write (fs : FileSystem) (path : String) (bytes : Bytes) : Except FileFault FileSystem :=
  if path = "" then .error ⟨.missing, path⟩
  else match fs.fileSlot (linkLimit + 1) (fs.start path) (Path.parts path) with
    | .error cause => .error ⟨cause, path⟩
    | .ok names => .ok (fs.put names (.file bytes) rfl)

end FileSystem

inductive ReadFault where
  | file (fault : FileFault)
  | encoding (error : Utf8.Error)
deriving DecidableEq, Repr

def ReadFault.message : ReadFault → String
  | file fault => fault.message
  | encoding error => error.message

def FileSystem.readText (fs : FileSystem) (path : String) : Except ReadFault Text :=
  match fs.read path with
  | .error fault => .error (.file fault)
  | .ok bytes =>
    match Utf8.decode bytes with
    | .error error => .error (.encoding error)
    | .ok chars => .ok (Text.unifyNewlines chars)

end ContractAudit

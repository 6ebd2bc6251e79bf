import ContractAudit.Files.Glob
import ContractAudit.Journal

/-! A contract project on disk: its contract files, its readme and the readable contents. -/

namespace ContractAudit

def readContent (files : FileSystem) (path : String) : Journal × Option Text :=
  match files.readText path with
  | .ok text => (.empty, some text)
  | .error fault =>
    (.line ("Error reading file " ++ path ++ ": " ++ fault.message), none)

structure Project where
  contracts : List (String × Text)
  readme : Option Text
  directory : String
deriving Repr

namespace Project

def contractPatterns (dir : String) : List String :=
  [dir, Path.join dir "src", Path.join dir "contracts", Path.join dir "lib"].map fun d =>
    Path.join (Path.join d "**") "*.rs"

def contractPaths (files : FileSystem) (dir : String) : List String :=
  (((contractPatterns dir).flatMap (Glob.find files)).mergeSort (fun a b => a ≤ b)).eraseDups

def readmeNames : List String :=
  ["README.md", "Readme.md", "readme.md", "README.txt", "readme.txt"]

def findReadme (files : FileSystem) (dir : String) : Journal × Option Text :=
  match (readmeNames.map (Path.join dir)).find? files.exists? with
  | some path => readContent files path
  | none => (.empty, none)

def readAll (files : FileSystem) : List String → Journal × List (String × Text)
  | [] => (.empty, [])
  | path :: rest =>
    let (journal, content) := readContent files path
    let (more, contents) := readAll files rest
    (journal ++ more, match content with
      | some (c :: cs) => (path, c :: cs) :: contents
      | _ => contents)

def collect (files : FileSystem) (dir : String) : Journal × Project :=
  let (journal, readme) := findReadme files dir
  let (more, contracts) := readAll files (contractPaths files dir)
  (journal ++ more, ⟨contracts, readme, dir⟩)

end Project
end ContractAudit

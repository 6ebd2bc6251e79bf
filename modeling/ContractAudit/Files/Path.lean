/-! Paths as texts: parts, joining, the directory part, the names that a path gives without a look
at the files, and the way from one path to another. -/

namespace ContractAudit.Path

def splitSlash : List Char → List (List Char)
  | [] => [[]]
  | c :: rest =>
    if c = '/' then [] :: splitSlash rest
    else match splitSlash rest with
      | [] => [[c]]
      | part :: more => (c :: part) :: more

def parts (path : String) : List String := (splitSlash path.toList).map String.ofList

def isAbsolute (path : String) : Bool := path.startsWith "/"

def isName (s : String) : Bool := s ≠ "" && s ≠ "." && s ≠ ".." && !s.toList.contains '/'

def join (dir path : String) : String :=
  if isAbsolute path then path
  else if dir = "" || dir.endsWith "/" then dir ++ path
  else dir ++ "/" ++ path

def isSlash (c : Char) : Bool := c = '/'

/-- The text up to the last slash without its slashes at the end, and the text after it. Slashes
alone stay. -/
def split (path : String) : String × String :=
  let back := path.toList.reverse
  let tail := (back.takeWhile (! isSlash ·)).reverse
  let head := (back.dropWhile (! isSlash ·)).reverse
  let head := if head.all isSlash then head else (head.reverse.dropWhile isSlash).reverse
  (String.ofList head, String.ofList tail)

def dirname (path : String) : String := (split path).1

def basename (path : String) : String := (split path).2

def takePart (names : List String) (part : String) : List String :=
  if part = "" || part = "." then names
  else if part = ".." then names.dropLast
  else names ++ [part]

def names (cwd : List String) (path : String) : List String :=
  (parts path).foldl takePart (if isAbsolute path then [] else cwd)

def commonLength : List String → List String → Nat
  | a :: as, b :: bs => if a = b then commonLength as bs + 1 else 0
  | _, _ => 0

def steps (target origin : List String) : List String :=
  let common := commonLength target origin
  List.replicate (origin.length - common) ".." ++ target.drop common

def relative (cwd : List String) (path start : String) : String :=
  let way := steps (names cwd path) (names cwd start)
  if way.isEmpty then "." else "/".intercalate way

end ContractAudit.Path

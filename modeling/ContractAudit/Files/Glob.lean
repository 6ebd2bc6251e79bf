import ContractAudit.Files.FileSystem

/-! Path patterns: a star for any text inside a name, a question mark for one character, square
brackets for one of some characters, and two stars for any directories on the way. Names that
start with a dot are matched only by patterns that do. -/

namespace ContractAudit.Glob

inductive Item where
  | one (c : Char)
  | any
  | star
  | oneOf (negated : Bool) (ranges : List (Char × Char))
deriving DecidableEq, Repr

def inClass (ranges : List (Char × Char)) (c : Char) : Bool :=
  ranges.any fun (low, high) => low ≤ c && c ≤ high

def suffixes : List Char → List (List Char)
  | [] => [[]]
  | c :: rest => (c :: rest) :: suffixes rest

def matchesItems : List Item → List Char → Bool
  | [], s => s.isEmpty
  | .star :: items, s => (suffixes s).any (matchesItems items)
  | .one _ :: _, [] => false
  | .one c :: items, x :: rest => x = c && matchesItems items rest
  | .any :: _, [] => false
  | .any :: items, _ :: rest => matchesItems items rest
  | .oneOf _ _ :: _, [] => false
  | .oneOf negated ranges :: items, x :: rest =>
    (inClass ranges x != negated) && matchesItems items rest

/-- Splits the inside of a class at the hyphens that stand between two characters. -/
def hyphenParts (current : List Char) : Nat → List Char → List (List Char)
  | _, [] => [current]
  | 0, c :: rest =>
    if c = '-' then
      if rest.isEmpty then [current ++ ['-']]
      else current :: hyphenParts [] 2 rest
    else hyphenParts (current ++ [c]) 0 rest
  | n + 1, c :: rest => hyphenParts (current ++ [c]) n rest

/-- Joins neighbouring parts whose range would run backwards. -/
def dropEmptyRanges : List (List Char) → List (List Char)
  | [] => []
  | part :: rest =>
    match part.getLast?, dropEmptyRanges rest with
    | some last, (first :: more) :: parts =>
      if first < last then (part.dropLast ++ more) :: parts else part :: (first :: more) :: parts
    | _, parts => part :: parts

/-- The ranges that parts denote: the last character of a part up to the first of the next one,
and each other character alone. -/
def partRanges : List (List Char) → List (Char × Char)
  | [] => []
  | [part] => part.map fun c => (c, c)
  | part :: next :: rest =>
    match part.getLast?, next with
    | some last, first :: more =>
      (part.dropLast.map fun c => (c, c)) ++ (last, first) :: partRanges (more :: rest)
    | _, _ => ('-', '-') :: partRanges (next :: rest)
termination_by parts => parts.length

/-- The inside of a class and what follows it, if it is closed. A closing bracket right at its
start belongs to it. -/
def splitClass? (s : List Char) : Option (Bool × List Char × List Char) :=
  let (negated, s) := match s with
    | '!' :: rest => (true, rest)
    | _ => (false, s)
  let (first, s) := match s with
    | ']' :: rest => ([']'], rest)
    | _ => ([], s)
  match s.dropWhile (· ≠ ']') with
  | _ :: rest => some (negated, first ++ s.takeWhile (· ≠ ']'), rest)
  | [] => none

def classRanges (inside : List Char) : List (Char × Char) :=
  partRanges (dropEmptyRanges (hyphenParts [] 1 inside))

def readItems : Nat → List Char → List Item
  | 0, _ => []
  | _, [] => []
  | fuel + 1, '*' :: rest => .star :: readItems fuel rest
  | fuel + 1, '?' :: rest => .any :: readItems fuel rest
  | fuel + 1, '[' :: rest =>
    match splitClass? rest with
    | some (negated, inside, rest) => .oneOf negated (classRanges inside) :: readItems fuel rest
    | none => .one '[' :: readItems fuel rest
  | fuel + 1, c :: rest => .one c :: readItems fuel rest

def items (pattern : String) : List Item := readItems pattern.length pattern.toList

def matchesName (pattern name : String) : Bool := matchesItems (items pattern) name.toList

def isSpecial (s : String) : Bool := s.toList.any fun c => c = '*' || c = '?' || c = '['

def isHidden (s : String) : Bool := s.startsWith "."

def isDirIn (fs : FileSystem) (s : Spot) (name : String) : Bool :=
  match fs.walk s [name] with
  | .ok next => (fs.entryAt? next).any Entry.isDir
  | .error _ => false

def belowTo (fs : FileSystem) (dirsOnly : Bool) : Nat → Spot → List String
  | 0, _ => []
  | length + 1, s =>
    (fs.entriesAt s).flatMap fun (name, _) =>
      if isHidden name || (dirsOnly && !isDirIn fs s name) then []
      else name :: match fs.walk s [name] with
        | .ok next => (belowTo fs dirsOnly length next).map (Path.join name)
        | .error _ => []

/-- No path is longer: each link starts again with at most the whole height. -/
def below (fs : FileSystem) (dirsOnly : Bool) (s : Spot) : List String :=
  belowTo fs dirsOnly ((s.links + 1) * (fs.root.height + 1)) s

def matchPart (fs : FileSystem) (dirsOnly : Bool) (dir part : String) : List String :=
  if part = "**" then "" :: match fs.spot dir with
    | .ok s => below fs dirsOnly s
    | .error _ => []
  else if isSpecial part then
    match fs.spot dir with
    | .ok s =>
      let listed := (fs.entriesAt s).filter fun (name, _) =>
        (!dirsOnly || isDirIn fs s name) && (isHidden part || !isHidden name)
      (listed.map (·.1)).filter (matchesName part)
    | .error _ => []
  else if part = "" then if fs.isDirAt dir then [""] else []
  else if fs.isThere (Path.join dir part) then [part] else []

def paths (fs : FileSystem) (dirsOnly : Bool) : Nat → String → List String
  | 0, _ => []
  | fuel + 1, pattern =>
    let (dir, part) := Path.split pattern
    if !isSpecial pattern then
      if part = "" then if fs.isDirAt dir then [pattern] else []
      else if fs.isThere pattern then [pattern] else []
    else if dir = "" then matchPart fs dirsOnly "" part
    else
      let dirs := if dir ≠ pattern && isSpecial dir then paths fs true fuel dir else [dir]
      dirs.flatMap fun d => (matchPart fs dirsOnly d part).map (Path.join d)

def find (fs : FileSystem) (pattern : String) : List String :=
  (paths fs false (pattern.length + 1) pattern).filter (· ≠ "")

end ContractAudit.Glob

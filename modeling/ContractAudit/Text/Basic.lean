/-! Texts as lists of characters: search, cuts at a separator, removal and slices.
All positions count characters. -/

namespace ContractAudit

abbrev Text := List Char

namespace Text

def occurs (needle : Text) : Text → Bool
  | [] => needle.isEmpty
  | c :: rest => needle.isPrefixOf (c :: rest) || occurs needle rest

def has (t : Text) (pattern : String) : Bool := occurs pattern.toList t

def hasAny (t : Text) (patterns : List String) : Bool := patterns.any (has t ·)

def startsWith (t : Text) (pattern : String) : Bool := pattern.toList.isPrefixOf t

def endsWith (t : Text) (pattern : String) : Bool := pattern.toList.isSuffixOf t

def cut? (sep : Text) : Text → Option (Text × Text)
  | [] => if sep.isEmpty then some ([], []) else none
  | c :: rest =>
    if sep.isPrefixOf (c :: rest) then some ([], (c :: rest).drop sep.length)
    else (cut? sep rest).map fun (before, after) => (c :: before, after)

def before (t : Text) (sep : String) : Text :=
  match cut? sep.toList t with
  | some (head, _) => head
  | none => t

def after (t : Text) (sep : String) : Text :=
  match cut? sep.toList t with
  | some (_, tail) => tail
  | none => []

/-- Removes every occurrence of `pattern`, left to right without overlap, after
dropping the first `skip` characters. -/
def removeFrom (pattern : Text) : Nat → Text → Text
  | _, [] => []
  | skip + 1, _ :: rest => removeFrom pattern skip rest
  | 0, c :: rest =>
    if pattern.isPrefixOf (c :: rest) then removeFrom pattern (pattern.length - 1) rest
    else c :: removeFrom pattern 0 rest

def remove (t : Text) (pattern : String) : Text := removeFrom pattern.toList 0 t

def splitAt (sep : Char) : Text → List Text
  | [] => [[]]
  | c :: rest =>
    if c = sep then [] :: splitAt sep rest
    else match splitAt sep rest with
      | [] => [[c]]
      | piece :: more => (c :: piece) :: more

def lines (t : Text) : List Text := splitAt '\n' t

def joinWith (sep : Text) : List Text → Text
  | [] => []
  | [piece] => piece
  | piece :: more => piece ++ sep ++ joinWith sep more

/-- Where a signed position falls in a text of `size` characters: a negative one counts from
the end, and both sides are cut off at the text. -/
def place (size : Nat) (i : Int) : Nat :=
  if i < 0 then (i + size).toNat else min i.toNat size

def slice (t : Text) (start stop : Int) : Text :=
  (t.take (place t.length stop)).drop (place t.length start)

def upTo (t : Text) (stop : Int) : Text := t.take (place t.length stop)

end Text
end ContractAudit

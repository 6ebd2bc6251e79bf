import ContractAudit.Files.FileSystem

/-! The package manifest: whether it turns on the reentrant feature. The file is read block by
block, and the lines of a block are looked at before the next block is read. So bytes that are no
text show only when no line before their block decides. -/

namespace ContractAudit.Manifest

def turnsOn (line : Text) : Bool :=
  line.has "stylus-sdk" && line.has "features" && line.has "reentrant"

def blockSize : Nat := 8192

/-- What has been read but not looked at: bytes of a character that is not complete, a carriage
return that may be half of a line end, and the characters of a line without its end. -/
structure Pending where
  bytes : Bytes
  afterReturn : Bool
  line : List Char

def Pending.none : Pending := ⟨[], false, []⟩

def Pending.take (p : Pending) (bytes : Bytes) (chars : List Char) : Bool × Pending :=
  let chars := if p.afterReturn then '\r' :: chars else chars
  let ends := chars.getLast? == some '\r'
  let chars := if ends then chars.dropLast else chars
  let lines := Text.lines (p.line ++ Text.unifyNewlines chars)
  (lines.dropLast.any turnsOn, ⟨bytes, ends, lines.getLast?.getD []⟩)

/-- The characters of a block with the bytes held back before it. A character that is cut off at
the end is held back for the next block. -/
def decodeBlock (bytes : Bytes) : Except Utf8.Error (List Char × Bytes) :=
  match Utf8.decodeUpTo bytes with
  | (chars, none) => .ok (chars, [])
  | (chars, some error) =>
    if error.reason = .truncated then .ok (chars, error.bytes) else .error error

def readBlocks : Nat → Pending → Bytes → Except Utf8.Error Bool
  | 0, p, _ =>
    match p.bytes with
    | [] => .ok (turnsOn p.line)
    | cut => .error ⟨0, cut, .truncated⟩
  | count + 1, p, bytes =>
    match decodeBlock (p.bytes ++ bytes.take blockSize) with
    | .error error => .error error
    | .ok (chars, cut) =>
      let (found, p) := p.take cut chars
      if found then .ok true else readBlocks count p (bytes.drop blockSize)

def isReentrant (bytes : Bytes) : Except Utf8.Error Bool :=
  readBlocks (bytes.length / blockSize + 1) .none bytes

def reentrantAt (files : FileSystem) (dir : String) : Except ReadFault Bool :=
  let path := Path.join dir "Cargo.toml"
  if files.exists? path then
    match files.read path with
    | .error fault => .error (.file fault)
    | .ok bytes =>
      match isReentrant bytes with
      | .error error => .error (.encoding error)
      | .ok b => .ok b
  else .ok false

end ContractAudit.Manifest

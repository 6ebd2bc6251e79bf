import ContractAudit.Analysis.Loader
import ContractAudit.Files.Entry

/-! The library of a grammar: a shared object in the 64-bit ELF format with one function, which
gives the language. Only so much of the format is read as leads to this function and to what it
gives. -/

namespace ContractAudit.Install.Library

def number (bytes : Bytes) (offset size : Nat) : Option Nat :=
  let digits := (bytes.drop offset).take size
  if digits.length = size then some (digits.foldr (fun b n => n * 256 + b.toNat) 0) else none

structure Segment where
  kind : Nat
  offset : Nat
  address : Nat
  size : Nat

def Segment.loaded : Nat := 1

def Segment.dynamic : Nat := 2

def segment (bytes : Bytes) (start : Nat) : Option Segment := do
  pure ⟨← number bytes start 4, ← number bytes (start + 8) 8, ← number bytes (start + 16) 8,
    ← number bytes (start + 32) 8⟩

def segments (bytes : Bytes) : Option (List Segment) := do
  let start ← number bytes 32 8
  let count ← number bytes 56 2
  (List.range count).mapM fun i => segment bytes (start + 56 * i)

def offsetOf (segments : List Segment) (address : Nat) : Option Nat := do
  let s ← segments.find? fun s =>
    s.kind = Segment.loaded ∧ s.address ≤ address ∧ address < s.address + s.size
  pure (s.offset + (address - s.address))

def dynamicEntry (bytes : Bytes) (segments : List Segment) (tag : Nat) : Option Nat := do
  let s ← segments.find? (·.kind = Segment.dynamic)
  let start ← (List.range (s.size / 16)).findSome? fun i =>
    let start := s.offset + 16 * i
    if number bytes start 8 = some tag then some start else none
  number bytes (start + 8) 8

/-- The address of a function by name. The symbols fill the space up to their names. -/
def functionAddress (bytes : Bytes) (segments : List Segment) (name : String) : Option Nat := do
  let nameTable ← dynamicEntry bytes segments 5
  let symbolTable ← dynamicEntry bytes segments 6
  let names ← offsetOf segments nameTable
  let symbols ← offsetOf segments symbolTable
  (List.range ((nameTable - symbolTable) / 24)).findSome? fun i => do
    let symbol := symbols + 24 * i
    let start := names + (← number bytes symbol 4)
    let isDefined := decide (0 < (← number bytes (symbol + 6) 2))
    let address ← number bytes (symbol + 8) 8
    if isDefined ∧ (bytes.drop start).take (name.utf8ByteSize + 1) = name.toUTF8.toList ++ [0] then
      some address
    else none

def displaced (address low : Nat) : Nat :=
  if low < 0x80000000 then address + low else address + low - 0x100000000

/-- What straight-line machine code at an address gives, if it has no other instructions than
those that set its result up. -/
def given (address : Nat) (result : Option Nat) : Bytes → Option Nat
  -- the frame of a function
  | 0xf3 :: 0x0f :: 0x1e :: 0xfa :: rest => given (address + 4) result rest
  | 0x55 :: rest => given (address + 1) result rest
  | 0x48 :: 0x89 :: 0xe5 :: rest => given (address + 3) result rest
  | 0x5d :: rest => given (address + 1) result rest
  -- a zero, and an address relative to that of the next instruction
  | 0x31 :: 0xc0 :: rest => given (address + 2) (some 0) rest
  | 0x48 :: 0x8d :: 0x05 :: a :: b :: c :: d :: rest =>
    let low := ((d.toNat * 256 + c.toNat) * 256 + b.toNat) * 256 + a.toNat
    given (address + 7) (some (displaced (address + 7) low)) rest
  | 0xc3 :: _ => result
  | _ => none

inductive Fault where
  | directory
  | short
  | header
  | symbol (name : String)
  | null
  | version (v : Nat)
deriving DecidableEq, Repr

def oldestVersion : Nat := 13

def newestVersion : Nat := 14

/-- The faults of a file are found when it is loaded, those of a language when it is set. -/
def Fault.trouble (path : String) : Fault → Loader.Trouble
  | directory => ⟨.load, path ++ ": cannot read file data: Is a directory"⟩
  | short => ⟨.load, path ++ ": file too short"⟩
  | header => ⟨.load, path ++ ": invalid ELF header"⟩
  | symbol name => ⟨.load, path ++ ": undefined symbol: " ++ name⟩
  | null => ⟨.setLanguage, "Language ID must be an integer"⟩
  | version v => ⟨.setLanguage, "Incompatible Language version " ++ toString v ++
      ". Must be between " ++ toString oldestVersion ++ " and " ++ toString newestVersion⟩

def languageFault (bytes : Bytes) (segments : List Segment) (address : Nat) : Option Fault :=
  if address = 0 then some .null
  else do
    let v ← number bytes (← offsetOf segments address) 4
    if oldestVersion ≤ v ∧ v ≤ newestVersion then none else some (.version v)

/-- The fault of a library. A function that does more than set its result up is taken to give a
language that is fine. -/
def fault (function : String) : Entry → Option Fault
  | .dir _ => some .directory
  | .link _ => none
  | .file bytes =>
    if bytes.length < 64 then some .short
    else if bytes.take 4 ≠ [0x7f, 0x45, 0x4c, 0x46] then some .header
    else match segments bytes with
      | none => some .header
      | some segments => match functionAddress bytes segments function with
        | none => some (.symbol function)
        | some address => do
          let code := bytes.drop (← offsetOf segments address)
          languageFault bytes segments (← given address none code)

end ContractAudit.Install.Library

import ContractAudit.Detect.LockedEther
import ContractAudit.Detect.Packed
import ContractAudit.Detect.Panic
import ContractAudit.Detect.Transfer
import ContractAudit.Detect.Unwrap

/-! The five built-in detectors, with the notes that an instance of one keeps from run to run. -/

namespace ContractAudit.Detect

inductive Builtin where
  | transfer
  | unwrap
  | panic
  | packed
  | lockedEther
deriving DecidableEq, Repr

namespace Builtin

def all : List Builtin := [transfer, unwrap, panic, packed, lockedEther]

def name : Builtin → String
  | transfer => "unchecked_transfer"
  | unwrap => "unsafe_unwrap"
  | panic => "unsafe_panic"
  | packed => "unsafe_encode_packed"
  | lockedEther => "locked_ether"

def ofName? (s : String) : Option Builtin := all.find? (·.name = s)

end Builtin

structure Memory where
  seen : List (Int × Int)
  ledger : LockedEther.Ledger
deriving DecidableEq, Repr

namespace Memory

def fresh : Memory := ⟨[], .empty⟩

def forgetPlaces (m : Memory) : Memory := { m with seen := [] }

def forgetLedger (m : Memory) : Memory := { m with ledger := .empty }

def addPlaces (m : Memory) (places : Places → Node → Places) (reported : List Issue)
    (root : Node) : Memory × Findings :=
  let p := places ⟨m.seen, reported⟩ root
  ({ m with seen := p.seen }, .complete p.issues)

def addLedger (m : Memory) (code : Text) (reported : List Issue) (root : Node) :
    Memory × Findings :=
  let ledger := LockedEther.enter code m.ledger root
  ({ m with ledger := ledger }, .complete (reported ++ LockedEther.issues ledger))

end Memory

namespace Builtin

/-- Runs an instance on a source and its tree. It adds to the issues that are reported already,
after it has forgotten what it is going to note. -/
def run (b : Builtin) (m : Memory) (code : Text) (reported : List Issue) (root : Node) :
    Memory × Findings :=
  match b with
  | transfer => (m, Transfer.findings code reported root)
  | unwrap => m.forgetPlaces.addPlaces (Unwrap.places code) reported root
  | panic => m.forgetPlaces.addPlaces (Panic.places code) reported root
  | packed => m.forgetPlaces.addPlaces (Packed.places code) reported root
  | lockedEther => m.forgetLedger.addLedger code reported root

def findings (b : Builtin) (code : Text) (root : Node) : Findings :=
  (b.run .fresh code [] root).2

end Builtin
end ContractAudit.Detect

import ContractAudit.Detect.Builtin

/-! Detectors as an analysis holds them: built-in ones with their memory, and ones supplied by
the user. -/

namespace ContractAudit

/-- A detector supplied by the user: what it adds to a report before it ends or stops. -/
structure Custom where
  name : String
  findings : Text → Node → Findings

inductive Detector where
  | builtin (kind : Detect.Builtin) (memory : Detect.Memory)
  | custom (c : Custom)

namespace Detector

def name : Detector → String
  | builtin kind _ => kind.name
  | custom c => c.name

def fresh : Detector → Detector
  | builtin kind _ => builtin kind .fresh
  | custom c => custom c

def run (d : Detector) (code : Text) (reported : List Issue) (root : Node) :
    Detector × Findings :=
  match d with
  | builtin kind memory =>
    let (memory, findings) := kind.run memory code reported root
    (builtin kind memory, findings)
  | custom c =>
    let findings := c.findings code root
    (custom c, { findings with issues := reported ++ findings.issues })

def defaults : List Detector := Detect.Builtin.all.map (builtin · .fresh)

end Detector
end ContractAudit

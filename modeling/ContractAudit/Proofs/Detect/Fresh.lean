import ContractAudit.Analysis.Detector

/-! Detectors only add to the report they are given, and what they add does not depend on what
the instance remembers. Both follow from one law for each step of a search: a step commutes with
putting earlier issues in front of the report. -/

namespace ContractAudit

def Findings.behind (reported : List Issue) (f : Findings) : Findings :=
  { f with issues := reported ++ f.issues }

namespace Detect

def Places.behind (reported : List Issue) (p : Places) : Places :=
  { p with issues := reported ++ p.issues }

theorem Places.add_behind (find : Visit → Option Issue) (reported : List Issue) (p : Places)
    (v : Visit) : (p.behind reported).add find v = (p.add find v).behind reported := by
  unfold Places.add
  cases find v with
  | none => rfl
  | some issue =>
    by_cases hseen : v.node.rowSpan ∈ p.seen
    · simp only [Places.behind, hseen, if_true]
    · simp only [Places.behind, hseen, if_false, List.append_assoc]

theorem onePerPlace_behind (find : Visit → Option Issue) (reported : List Issue) (p : Places)
    (root : Node) :
    onePerPlace find (p.behind reported) root = (onePerPlace find p root).behind reported := by
  simp only [onePerPlace, Node.walk_eq_foldl]
  exact List.foldl_hom _ (Places.add_behind find reported)

namespace Transfer

theorem step_behind (code : Text) (reported : List Issue) (found : Findings) (v : Visit) :
    step code (found.behind reported) v = (step code found v).behind reported := by
  obtain ⟨issues, failure⟩ := found
  cases failure with
  | some failure => rfl
  | none =>
    simp only [step, Findings.behind]
    cases find code v with
    | error failure => rfl
    | ok result =>
      cases result with
      | none => rfl
      | some issue => simp only [List.append_assoc]

theorem treeFindings_behind (code : Text) (reported : List Issue) (root : Node) :
    treeFindings code reported root = (treeFindings code [] root).behind reported := by
  simp only [treeFindings, Node.walk_eq_foldl]
  rw [← List.foldl_hom _ (step_behind code reported)]
  simp only [Findings.complete, Findings.behind, List.append_nil]

theorem findings_behind (code : Text) (reported : List Issue) (root : Node) :
    findings code reported root = (findings code [] root).behind reported := by
  unfold findings
  rw [treeFindings_behind code reported root]
  obtain ⟨issues, failure⟩ := treeFindings code [] root
  cases failure with
  | some failure => rfl
  | none => simp only [Findings.behind, Findings.complete, List.append_assoc]

end Transfer

theorem addPlaces_forget (find : Visit → Option Issue) (m : Memory) (reported : List Issue)
    (root : Node) :
    (m.forgetPlaces.addPlaces (onePerPlace find) reported root).2 =
      (Memory.fresh.forgetPlaces.addPlaces (onePerPlace find) [] root).2.behind reported := by
  have h := onePerPlace_behind find reported ⟨[], []⟩ root
  simp only [Places.behind, List.append_nil] at h
  simp only [Memory.addPlaces, Memory.forgetPlaces, h, Findings.complete, Findings.behind]

/-- What an instance adds to a report is what a fresh one finds alone. -/
theorem Builtin.run_findings (b : Builtin) (m : Memory) (code : Text) (reported : List Issue)
    (root : Node) : (b.run m code reported root).2 = (b.findings code root).behind reported := by
  cases b with
  | transfer => exact Transfer.findings_behind code reported root
  | unwrap => exact addPlaces_forget (Unwrap.find code) m reported root
  | panic => exact addPlaces_forget (Panic.find code) m reported root
  | packed => exact addPlaces_forget (Packed.find code) m reported root
  | lockedEther => rfl

end Detect

namespace Detector

def alone (d : Detector) (code : Text) (root : Node) : Findings := (d.fresh.run code [] root).2

theorem run_findings (d : Detector) (code : Text) (reported : List Issue) (root : Node) :
    (d.run code reported root).2 = (d.alone code root).behind reported := by
  cases d with
  | builtin kind memory => exact kind.run_findings memory code reported root
  | custom c => rfl

theorem run_fresh (d : Detector) (code : Text) (reported : List Issue) (root : Node) :
    (d.run code reported root).1.fresh = d.fresh := by
  cases d with
  | builtin kind memory => rfl
  | custom c => rfl

theorem fresh_fresh (d : Detector) : d.fresh.fresh = d.fresh := by
  cases d <;> rfl

theorem name_fresh (d : Detector) : d.fresh.name = d.name := by
  cases d <;> rfl

theorem alone_fresh (d : Detector) (code : Text) (root : Node) :
    d.fresh.alone code root = d.alone code root := by
  rw [alone, fresh_fresh, alone]

end Detector
end ContractAudit

import ContractAudit.Detect.Builtin
import Mathlib.Data.List.Basic

/-! Where the issues of the built-in detectors come from. A step of a search adds what it makes of
its visit and nothing else, so each issue of a detector was made at one of the visits of the tree,
in a Solidity section, or from the functions that take payment. So a detector has one kind and one
severity of issues. -/

namespace ContractAudit

/-- If every step of a walk only adds issues that `P` relates to its visit, every issue after the
walk was there before or has such a visit. -/
theorem Node.mem_issues_walk {σ : Type} (issues : σ → List Issue) {step : σ → Visit → σ}
    {P : Visit → Issue → Prop}
    (hstep : ∀ s v i, i ∈ issues (step s v) → i ∈ issues s ∨ P v i)
    {s : σ} {root : Node} {i : Issue} (h : i ∈ issues (root.walk step s)) :
    i ∈ issues s ∨ ∃ v ∈ root.visits, P v i := by
  rw [Node.walk_eq_foldl] at h
  generalize root.visits = visits at h
  induction visits generalizing s with
  | nil => exact .inl h
  | cons v visits ih =>
    rcases ih h with hadded | ⟨w, hw, hP⟩
    · rcases hstep s v i hadded with hold | hP
      · exact .inl hold
      · exact .inr ⟨v, List.mem_cons_self, hP⟩
    · exact .inr ⟨w, List.mem_cons_of_mem v hw, hP⟩

namespace Detect

theorem Places.mem_issues_add (find : Visit → Option Issue) (p : Places) (v : Visit) (i : Issue)
    (h : i ∈ (p.add find v).issues) : i ∈ p.issues ∨ find v = some i := by
  unfold Places.add at h
  split at h
  · exact .inl h
  · next issue hissue =>
    split at h
    · exact .inl h
    · rcases List.mem_append.mp h with hold | hnew
      · exact .inl hold
      · obtain rfl := List.mem_singleton.mp hnew
        exact .inr hissue

theorem exists_find_of_mem_onePerPlace {find : Visit → Option Issue} {root : Node} {i : Issue}
    (h : i ∈ (onePerPlace find ⟨[], []⟩ root).issues) : ∃ v ∈ root.visits, find v = some i :=
  (Node.mem_issues_walk Places.issues (Places.mem_issues_add find) h).resolve_left
    List.not_mem_nil

namespace Transfer

theorem mem_issues_step (code : Text) (found : Findings) (v : Visit) (i : Issue)
    (h : i ∈ (step code found v).issues) : i ∈ found.issues ∨ find code v = .ok (some i) := by
  unfold step at h
  split at h
  · exact .inl h
  · split at h
    · exact .inl h
    · exact .inl h
    · next issue hissue =>
      rcases List.mem_append.mp h with hold | hnew
      · exact .inl hold
      · obtain rfl := List.mem_singleton.mp hnew
        exact .inr hissue

theorem exists_find_of_mem_treeFindings {code : Text} {root : Node} {i : Issue}
    (h : i ∈ (treeFindings code [] root).issues) :
    ∃ v ∈ root.visits, find code v = .ok (some i) :=
  (Node.mem_issues_walk Findings.issues (mem_issues_step code) h).resolve_left List.not_mem_nil

theorem mem_findings {code : Text} {root : Node} {i : Issue}
    (h : i ∈ (findings code [] root).issues) :
    (∃ v ∈ root.visits, find code v = .ok (some i)) ∨ i ∈ Solidity.sectionIssues code := by
  unfold findings at h
  dsimp only at h
  split at h
  · exact .inl (exists_find_of_mem_treeFindings h)
  · rcases List.mem_append.mp h with htree | hsection
    · exact .inl (exists_find_of_mem_treeFindings htree)
    · exact .inr hsection

end Transfer

namespace Builtin

def Origin (code : Text) (root : Node) (i : Issue) : Builtin → Prop
  | transfer => (∃ v ∈ root.visits, Transfer.find code v = .ok (some i)) ∨
      i ∈ Solidity.sectionIssues code
  | unwrap => ∃ v ∈ root.visits, Unwrap.find code v = some i
  | panic => ∃ v ∈ root.visits, Panic.find code v = some i
  | packed => ∃ v ∈ root.visits, Packed.find code v = some i
  | lockedEther => i ∈ LockedEther.issues (LockedEther.enter code .empty root)

theorem origin_of_mem_findings {b : Builtin} {code : Text} {root : Node} {i : Issue}
    (h : i ∈ (b.findings code root).issues) : b.Origin code root i := by
  cases b with
  | transfer => exact Transfer.mem_findings h
  | unwrap => exact exists_find_of_mem_onePerPlace h
  | panic => exact exists_find_of_mem_onePerPlace h
  | packed => exact exists_find_of_mem_onePerPlace h
  | lockedEther => exact h

def severity : Builtin → Severity
  | transfer => .high
  | unwrap => .medium
  | panic => .high
  | packed => .medium
  | lockedEther => .medium

def Labels (b : Builtin) (i : Issue) : Prop := i.kind = b.name ∧ i.severity = b.severity

end Builtin

theorem Transfer.exists_eq_issue_of_find {code : Text} {v : Visit} {i : Issue}
    (h : find code v = .ok (some i)) :
    ∃ description recommendation, i = issue code v.node description recommendation := by
  have hmap : ∀ {checked : Except Failure Bool} {j : Issue},
      (checked.map fun c => if c then none else some j) = .ok (some i) → i = j := by
    intro checked j hi
    cases checked with
    | error failure => cases hi
    | ok c =>
      cases c with
      | true => cases hi
      | false => cases hi; rfl
  unfold find at h
  split at h
  · dsimp only at h
    split at h
    · split at h
      · exact ⟨_, _, hmap h⟩
      · cases h
    · split at h
      · exact ⟨_, _, hmap h⟩
      · cases h
  · split at h
    · split at h
      · cases h
        exact ⟨_, _, rfl⟩
      · cases h
    · cases h

theorem Transfer.labels_of_find {code : Text} {v : Visit} {i : Issue}
    (h : find code v = .ok (some i)) : Builtin.transfer.Labels i := by
  obtain ⟨description, recommendation, rfl⟩ := exists_eq_issue_of_find h
  exact ⟨rfl, rfl⟩

theorem labels_of_headerIssue? {line : Int} {header : Text} {rest : List Text} {i : Issue}
    (h : Solidity.headerIssue? line header rest = some i) : Builtin.transfer.Labels i := by
  unfold Solidity.headerIssue? at h
  dsimp only at h
  split at h
  · split at h
    · split at h
      · cases h
      · cases h
        exact ⟨rfl, rfl⟩
    · cases h
  · cases h

theorem labels_of_mem_issuesFrom {line : Int} {ls : List Text} {i : Issue}
    (h : i ∈ Solidity.issuesFrom line ls) : Builtin.transfer.Labels i := by
  induction ls generalizing line with
  | nil => cases h
  | cons header rest ih =>
    rcases List.mem_append.mp h with hhere | hlater
    · split at hhere
      · exact labels_of_headerIssue? (Option.mem_toList.mp hhere)
      · cases hhere
    · exact ih hlater

namespace Builtin

theorem labels_of_mem_findings {b : Builtin} {code : Text} {root : Node} {i : Issue}
    (h : i ∈ (b.findings code root).issues) : b.Labels i := by
  have horigin := origin_of_mem_findings h
  cases b with
  | transfer =>
    rcases horigin with ⟨v, -, hfind⟩ | hsection
    · exact Transfer.labels_of_find hfind
    · obtain ⟨sect, -, hsect⟩ := List.mem_flatMap.mp hsection
      exact labels_of_mem_issuesFrom hsect
  | unwrap =>
    obtain ⟨v, -, hfind⟩ := horigin
    obtain ⟨-, rfl⟩ := Option.ite_some_none_eq_some.mp hfind
    exact ⟨rfl, rfl⟩
  | panic =>
    obtain ⟨v, -, hfind⟩ := horigin
    obtain ⟨-, rfl⟩ := Option.ite_some_none_eq_some.mp hfind
    exact ⟨rfl, rfl⟩
  | packed =>
    obtain ⟨v, -, hfind⟩ := horigin
    obtain ⟨finding, -, rfl⟩ := Option.map_eq_some_iff.mp hfind
    exact ⟨rfl, rfl⟩
  | lockedEther =>
    change i ∈ LockedEther.issues _ at horigin
    unfold LockedEther.issues at horigin
    split at horigin
    · obtain rfl := List.mem_singleton.mp horigin
      exact ⟨rfl, rfl⟩
    · cases horigin

end Builtin
end Detect
end ContractAudit

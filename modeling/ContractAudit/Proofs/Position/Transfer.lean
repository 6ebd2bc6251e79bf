import ContractAudit.Detect.Transfer
import ContractAudit.Proofs.Position.Place

/-! Unchecked transfers on a source that has whole lines in front. The search for a token
interface before a call sees the lines in front too, so these must not name one, and the
Solidity sections are those of the source only if no section opens in front. -/

namespace ContractAudit

def Findings.shift (rows : Int) (f : Findings) : Findings :=
  { f with issues := f.issues.map (Issue.shift rows) }

namespace Detect.Transfer

variable {p code : Text} {rows : Int}

theorem isTokenCall_shift (hwhole : p.WholeLines) (hp : p.has "IERC20" = false) {v : Visit}
    (h : v.Located) : isTokenCall (p ++ code) (v.shift p.length rows) = isTokenCall code v := by
  have hbefore : ((p ++ code).upTo (v.node.extent.shift p.length rows).startByte).has "IERC20" =
      (code.upTo v.node.extent.startByte).has "IERC20" := by
    -- the search reads from the start of the text, so it goes through `p` too
    rw [Extent.shift, Text.upTo_append p code h.1.self.1]
    exact Text.occurs_append hwhole (by decide) hp _
  unfold isTokenCall
  rw [Visit.node_shift, unmoved_forwardText v.node h.1.self, Visit.enclosingFunction?_shift,
    Node.extent_shift, hbefore]
  cases hfunction : v.enclosingFunction? with
  | none => rfl
  | some f =>
    simp only [Option.map_some, unmoved_forwardText f (h.enclosingFunction hfunction).self]

theorem statementChecked_shift {v : Visit} (h : v.Located) {statement : Node}
    (hs : statement.Located) :
    statementChecked (p ++ code) (v.shift p.length rows) (statement.shift p.length rows) =
      statementChecked code v statement := by
  unfold statementChecked
  rw [unmoved_forwardText statement hs, Visit.enclosingFunction?_shift]
  cases hfunction : v.enclosingFunction? with
  | none => rfl
  | some f =>
    simp only [Option.map_some, Visit.node_shift, unmoved_forwardText v.node h.1.self,
      unmoved_forwardText f (h.enclosingFunction hfunction).self]

theorem bindingChecked_shift {v : Visit} (h : v.Located) {binding : Node}
    (hb : binding.Located) :
    bindingChecked (p ++ code) (v.shift p.length rows) (binding.shift p.length rows) =
      bindingChecked code v binding := by
  unfold bindingChecked
  rw [unmoved_forwardText binding hb, Visit.enclosingFunction?_shift]
  cases hfunction : v.enclosingFunction? with
  | none => rfl
  | some f =>
    simp only [Option.map_some, unmoved_forwardText f (h.enclosingFunction hfunction).self]

theorem triedBindingChecked_shift {v : Visit} (h : v.Located) {binding : Node}
    (hb : binding.Located) :
    triedBindingChecked (p ++ code) (v.shift p.length rows) (binding.shift p.length rows) =
      triedBindingChecked code v binding := by
  unfold triedBindingChecked
  rw [unmoved_forwardText binding hb, Visit.enclosingFunction?_shift]
  cases hfunction : v.enclosingFunction? with
  | none => rfl
  | some f =>
    simp only [Option.map_some, unmoved_forwardText f (h.enclosingFunction hfunction).self]

theorem isBinding_shift (bytes rows : Int) (n : Node) :
    isBinding (n.shift bytes rows) = isBinding n := by
  simp only [isBinding, Node.kind_shift]

theorem isBranch_shift (bytes rows : Int) (n : Node) :
    isBranch (n.shift bytes rows) = isBranch n := by
  simp only [isBranch, Node.kind_shift]

theorem valueChecked_shift {v : Visit} (h : v.Located) :
    valueChecked (p ++ code) (v.shift p.length rows) = valueChecked code v := by
  unfold valueChecked
  rw [Visit.parent?_shift, Visit.grandparent?_shift]
  cases hparent : v.parent? with
  | none => rfl
  | some parent =>
    have hp := (h.parent hparent).self
    simp only [Option.map_some, Node.kind_shift, isBinding_shift, isBranch_shift,
      statementChecked_shift h hp, bindingChecked_shift h hp]
    cases hgrand : v.grandparent? with
    | none => rfl
    | some binding =>
      simp only [Option.map_some, isBinding_shift,
        triedBindingChecked_shift h (h.grandparent hgrand).self]

theorem resultChecked_shift {v : Visit} (h : v.Located) :
    resultChecked (p ++ code) (v.shift p.length rows) = resultChecked code v := by
  unfold resultChecked
  rw [Visit.parent?_shift, valueChecked_shift h]
  cases hparent : v.parent? with
  | none => rfl
  | some parent => simp only [Option.map_some, isBinding_shift, isBranch_shift]

theorem ignoresError_shift {n : Node} (h : n.Located) :
    ignoresError (p ++ code) (n.shift p.length rows) = ignoresError code n := by
  simp only [ignoresError, unmoved_forwardText n h]

theorem issue_shift {n : Node} (h : n.Located) (description recommendation : String) :
    issue (p ++ code) (n.shift p.length rows) description recommendation =
      (issue code n description recommendation).shift rows := by
  simp only [issue, Issue.shift, Node.firstLine_shift, Node.lastLine_shift,
    unmoved_forwardText n h]

theorem map_verdict_shift (verdict : Except Failure Bool) (i : Issue) :
    verdict.map (fun checked => if checked then none else some (i.shift rows)) =
      (verdict.map fun checked => if checked then none else some i).map
        (Option.map (Issue.shift rows)) := by
  cases verdict with
  | error failure => rfl
  | ok checked => cases checked <;> rfl

theorem find_shift (hwhole : p.WholeLines) (hp : p.has "IERC20" = false) {v : Visit}
    (h : v.Located) :
    find (p ++ code) (v.shift p.length rows) =
      (find code v).map (Option.map (Issue.shift rows)) := by
  have hn := h.1.self
  unfold find
  simp only [Visit.node_shift, Node.kind_shift, unmoved_forwardText v.node hn,
    isTokenCall_shift hwhole hp h, valueChecked_shift h, resultChecked_shift h,
    ignoresError_shift hn, tokenIssue, callIssue, matchIssue, issue_shift hn, map_verdict_shift]
  split_ifs <;> rfl

theorem step_shift (hwhole : p.WholeLines) (hp : p.has "IERC20" = false) {v : Visit}
    (h : v.Located) (found : Findings) :
    step (p ++ code) (found.shift rows) (v.shift p.length rows) =
      (step code found v).shift rows := by
  obtain ⟨issues, failure⟩ := found
  cases failure with
  -- a search that has failed takes no further step
  | some failure => rfl
  | none =>
    simp only [step, Findings.shift, find_shift hwhole hp h]
    cases find code v with
    | error failure => rfl
    | ok result =>
      cases result with
      | none => rfl
      | some issue =>
        simp only [Except.map, Option.map_some, List.map_append, List.map_cons, List.map_nil]

theorem treeFindings_shift (hwhole : p.WholeLines) (hp : p.has "IERC20" = false) {root : Node}
    (h : root.All Node.Located) :
    treeFindings (p ++ code) [] (root.shift p.length rows) =
      (treeFindings code [] root).shift rows := by
  have hvisits := Node.located_visits h
  rw [treeFindings, treeFindings]
  exact Node.walk_shift (Findings.shift rows) (fun v hv => step_shift hwhole hp (hvisits v hv))
    (.complete [])

theorem findings_shift (hwhole : p.WholeLines) (htoken : p.has "IERC20" = false)
    (hsection : p.has "sol! \x7b" = false) {root : Node} (h : root.All Node.Located) :
    findings (p ++ code) [] (root.shift p.length (p.count '\n' : Nat)) =
      (findings code [] root).shift (p.count '\n' : Nat) := by
  unfold findings
  rw [treeFindings_shift hwhole htoken h]
  obtain ⟨issues, failure⟩ := treeFindings code [] root
  cases failure with
  | some failure => rfl
  | none =>
    simp only [Findings.shift, Findings.complete, List.map_append,
      Solidity.sectionIssues_append hwhole hsection]

end Detect.Transfer
end ContractAudit

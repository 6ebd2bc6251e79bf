import ContractAudit.Proofs.Detect.Ledger
import ContractAudit.Proofs.Detect.Origin
import ContractAudit.Proofs.Solidity.CallLine

/-! Issues against the source they are about. If the rows of every node are rows of the source, an
issue stands in the lines of the source, whatever the offsets of the nodes are; and what an issue
shows was cut out of the source. -/

namespace ContractAudit

theorem Text.isInfix_slice (t : Text) (start stop : Int) : t.slice start stop <:+: t :=
  (List.drop_suffix _ _).isInfix.trans (List.take_prefix _ t).isInfix

theorem Text.isInfix_trim (t : Text) : t.trim <:+: t := by
  have hright : t.trim <+: t.trimLeft := by
    rw [Text.trim, Text.trimRight, ← List.reverse_suffix, List.reverse_reverse]
    exact List.dropWhile_suffix _
  have hleft : t.trimLeft <:+ t := List.dropWhile_suffix _
  exact hright.isInfix.trans hleft.isInfix

theorem Text.isInfix_lineAt (t : Text) (n : Nat) : t.lineAt n <:+: t := by
  rw [Text.lineAt, List.getD_eq_getElem?_getD]
  cases hline : t.lines[n - 1]? with
  | none => exact List.nil_infix
  | some line => exact Text.infix_of_mem_splitAt (List.mem_of_getElem? hline)

namespace Node

theorem isInfix_text (n : Node) (code : Text) : n.text code <:+: code := by
  unfold text
  split
  · exact List.nil_infix
  · exact Text.isInfix_slice code _ _

theorem isInfix_forwardText (n : Node) (code : Text) : n.forwardText code <:+: code := by
  unfold forwardText
  split
  · exact List.nil_infix
  · exact Text.isInfix_slice code _ _

def InRows (code : Text) (n : Node) : Prop :=
  0 ≤ n.extent.startRow ∧ n.extent.startRow ≤ n.extent.endRow ∧
    n.extent.endRow < code.lines.length

end Node

def Issue.InLines (code : Text) (i : Issue) : Prop :=
  1 ≤ i.lineStart ∧ i.lineStart ≤ i.lineEnd ∧ i.lineEnd ≤ code.lines.length

theorem Issue.inLines_of_node {code : Text} {n : Node} (h : n.InRows code) {i : Issue}
    (hstart : i.lineStart = n.firstLine) (hend : i.lineEnd = n.lastLine) : i.InLines code := by
  obtain ⟨hfirst, horder, hlast⟩ := h
  rw [InLines, hstart, hend, Node.firstLine, Node.lastLine]
  omega

namespace Detect

theorem LockedEther.exists_payable_of_mem_issues {code : Text} {root : Node} {i : Issue}
    (h : i ∈ issues (enter code .empty root)) :
    ∃ v ∈ root.visits, i.lineStart = v.node.firstLine ∧ i.lineEnd = v.node.lastLine ∧
      i.snippet = String.ofList (shorten (v.node.text code)) := by
  rw [enter_empty, issues] at h
  split at h
  · next hlocked =>
    cases hentered : entered code root with
    | nil =>
      rw [hentered] at hlocked
      cases hlocked
    | cons first rest =>
      have hfirst : first ∈ entered code root := hentered ▸ List.mem_cons_self
      obtain ⟨v, hv, hnode⟩ := List.mem_map.mp ((mem_entered_iff code [] first root).mp hfirst).1
      rw [hentered] at h
      obtain rfl := List.mem_singleton.mp h
      exact ⟨v, hv, by rw [hnode]; rfl, by rw [hnode]; rfl, by rw [hnode]; rfl⟩
  · cases h

theorem LockedEther.shorten_cases {piece code : Text} (h : piece <:+: code) :
    shorten piece <:+: code ∨
      ∃ long, long <:+: code ∧ 100 < long.length ∧
        shorten piece = long.take 100 ++ "...".toList := by
  by_cases hlong : piece.length > 100
  · exact .inr ⟨piece, h, hlong, if_pos hlong⟩
  · left
    rwa [shorten, if_neg hlong]

/-- An issue that stands at a visit of the tree and shows a piece of the source. Only ether that is
locked may be shown by the start of the piece. -/
def Builtin.DrawnFrom (b : Builtin) (code : Text) (i : Issue) (v : Visit) : Prop :=
  i.lineStart = v.node.firstLine ∧ i.lineEnd = v.node.lastLine ∧
    ∃ piece, piece <:+: code ∧ (i.snippet = String.ofList piece ∨
      b = .lockedEther ∧ i.snippet = String.ofList (LockedEther.shorten piece))

theorem Builtin.drawnFrom_of_mem_findings {b : Builtin} {code : Text} {root : Node} {i : Issue}
    (h : i ∈ (b.findings code root).issues) :
    (∃ v ∈ root.visits, b.DrawnFrom code i v) ∨ i ∈ Solidity.sectionIssues code := by
  have horigin := origin_of_mem_findings h
  cases b with
  | transfer =>
    rcases horigin with ⟨v, hv, hfind⟩ | hsection
    · obtain ⟨description, recommendation, rfl⟩ := Transfer.exists_eq_issue_of_find hfind
      exact .inl ⟨v, hv, rfl, rfl, _, v.node.isInfix_forwardText code, .inl rfl⟩
    · exact .inr hsection
  | unwrap =>
    obtain ⟨v, hv, hfind⟩ := horigin
    obtain ⟨-, rfl⟩ := Option.ite_some_none_eq_some.mp hfind
    exact .inl ⟨v, hv, rfl, rfl, _, v.node.isInfix_text code, .inl rfl⟩
  | panic =>
    obtain ⟨v, hv, hfind⟩ := horigin
    obtain ⟨-, rfl⟩ := Option.ite_some_none_eq_some.mp hfind
    exact .inl ⟨v, hv, rfl, rfl, _, v.node.isInfix_forwardText code, .inl rfl⟩
  | packed =>
    obtain ⟨v, hv, hfind⟩ := horigin
    obtain ⟨finding, -, rfl⟩ := Option.map_eq_some_iff.mp hfind
    -- an array is shown by the text of its parent, but stands at its own lines
    exact .inl ⟨v, hv, rfl, rfl, _, (finding.shown v).isInfix_forwardText code, .inl rfl⟩
  | lockedEther =>
    obtain ⟨v, hv, hstart, hend, hsnippet⟩ := LockedEther.exists_payable_of_mem_issues horigin
    exact .inl ⟨v, hv, hstart, hend, _, v.node.isInfix_text code, .inr ⟨rfl, hsnippet⟩⟩

/-- Where every node lies in the rows of a source, a detector adds only issues that lie in its
lines, and each shows a piece of the source. The snippet of an issue about locked ether may also be
the first hundred characters of a longer piece with dots behind them. -/
theorem run_within_source (b : Builtin) (m : Memory) (code : Text) (reported : List Issue)
    (root : Node)
    (hrows : ∀ v ∈ root.visits, 0 ≤ v.node.extent.startRow ∧
      v.node.extent.startRow ≤ v.node.extent.endRow ∧ v.node.extent.endRow < code.lines.length) :
    ∃ added, (b.run m code reported root).2.issues = reported ++ added ∧
      ∀ i ∈ added,
        1 ≤ i.lineStart ∧ i.lineStart ≤ i.lineEnd ∧ i.lineEnd ≤ code.lines.length ∧
        (i.snippet.toList <:+: code ∨
          i.kind = "locked_ether" ∧ ∃ piece, piece <:+: code ∧ 100 < piece.length ∧
            i.snippet.toList = piece.take 100 ++ "...".toList) := by
  refine ⟨(b.findings code root).issues, ?_, fun i hi => ?_⟩
  · rw [b.run_findings]
    rfl
  rcases Builtin.drawnFrom_of_mem_findings hi with ⟨v, hv, hdrawn⟩ | hsection
  · obtain ⟨hstart, hend, piece, hpiece, hsnippet⟩ := hdrawn
    obtain ⟨hone, horder, hlast⟩ := Issue.inLines_of_node (hrows v hv) hstart hend
    refine ⟨hone, horder, hlast, ?_⟩
    rcases hsnippet with hsnippet | ⟨rfl, hsnippet⟩
    · left
      rwa [hsnippet, String.toList_ofList]
    · have hkind : i.kind = "locked_ether" := (Builtin.labels_of_mem_findings hi).1
      rw [hsnippet, String.toList_ofList]
      exact (LockedEther.shorten_cases hpiece).imp_right fun hlong => ⟨hkind, hlong⟩
  · obtain ⟨header, lead, k, -, htwo, hfits, hstart, hend, hsnippet⟩ :=
      Solidity.sectionIssues_callAt hsection
    refine ⟨by omega, by omega, by omega, .inl ?_⟩
    rw [hsnippet, String.toList_ofList]
    exact (Text.isInfix_trim _).trans (code.isInfix_lineAt _)

def longFunction : Text :=
  "fn receive() \x7b ".toList ++ List.replicate 100 'x' ++ " \x7d".toList

/-- The offset of the function counts from the end of the source. -/
theorem run_within_source_longFunction :
    let root := Node.mk "source_file" ⟨0, 117, 0, 0⟩
      [.mk "function_item" ⟨-117, 117, 0, 0⟩ [.mk "identifier" ⟨3, 10, 0, 0⟩ []]]
    (∀ v ∈ root.visits, 0 ≤ v.node.extent.startRow ∧
      v.node.extent.startRow ≤ v.node.extent.endRow ∧
      v.node.extent.endRow < longFunction.lines.length) ∧
    (Builtin.lockedEther.run .fresh longFunction [] root).2.issues.map (·.snippet.length) = [103] ∧
    ∃ added : List Issue,
      (Builtin.lockedEther.run .fresh longFunction [] root).2.issues = [] ++ added ∧
      ∀ i ∈ added,
        1 ≤ i.lineStart ∧ i.lineStart ≤ i.lineEnd ∧ i.lineEnd ≤ longFunction.lines.length ∧
        (i.snippet.toList <:+: longFunction ∨
          i.kind = "locked_ether" ∧ ∃ piece, piece <:+: longFunction ∧ 100 < piece.length ∧
            i.snippet.toList = piece.take 100 ++ "...".toList) := by
  intro root
  have hrows : ∀ v ∈ root.visits, 0 ≤ v.node.extent.startRow ∧
      v.node.extent.startRow ≤ v.node.extent.endRow ∧
      v.node.extent.endRow < longFunction.lines.length := by decide +kernel
  exact ⟨hrows, by decide +kernel,
    run_within_source .lockedEther .fresh longFunction [] root hrows⟩

end Detect
end ContractAudit

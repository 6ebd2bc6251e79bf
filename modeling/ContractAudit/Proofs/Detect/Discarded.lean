import ContractAudit.Proofs.Detect.TokenCalls
import ContractAudit.Proofs.Text.Cuts
import ContractAudit.Rust.Parser

/-! Token transfers whose value is thrown away: the call is a statement of its own. Such a call is
reported unless its text starts with the three letters `let`, as in `letter.transfer(to)`. Then it
is taken for a binding, and a condition on anything in the rows below it passes for a test of its
value. -/

namespace ContractAudit.Detect.Transfer

/-- A call that is a statement of its own is taken for a binding whose value is tested. -/
structure TakenForBinding (code : Text) (v : Visit) (statement : Node) : Prop where
  spelled : (v.node.forwardText code).trim.startsWith "let"
  kept : ¬(statement.forwardText code).has "let _ ="
  tested : ∃ f, v.enclosingFunction? = some f ∧
    TestedBelow (f.forwardText code).rows (v.node.forwardText code) 4 fun row =>
      row.has "if" ∧ (row.has "success" ∨ row.has "result" ∨ row.has "!")

theorem startsWith_let_iff {call text : Text}
    (htransfers : call.has ".transfer(" ∨ call.has ".transferFrom(") (hstarts : call <+: text) :
    text.trim.startsWith "let" ↔ call.trim.startsWith "let" := by
  have hpattern : ∀ pattern : String, pattern.toList.head?.any Text.isBlank = false →
      call.has pattern → pattern.toList.length ≤ call.trimLeft.length := by
    intro pattern hfirst hhas
    rw [Text.has_iff] at hhas
    exact ((Text.infix_dropWhile_iff hfirst call).mpr hhas).length_le
  have hlong : 3 ≤ call.trimLeft.length := by
    rcases htransfers with hhas | hhas
    · exact Nat.le_trans (by decide) (hpattern ".transfer(" (by decide) hhas)
    · exact Nat.le_trans (by decide) (hpattern ".transferFrom(" (by decide) hhas)
  have hne : call.trimLeft ≠ [] := List.ne_nil_of_length_pos (by omega)
  obtain ⟨rest, rfl⟩ := hstarts
  rw [Text.startsWith, Text.startsWith, List.isPrefixOf_iff_prefix, List.isPrefixOf_iff_prefix,
    Text.prefix_trim_iff (by decide), Text.prefix_trim_iff (by decide), Text.trimLeft_append hne]
  constructor
  · intro h
    exact List.prefix_of_prefix_length_le h (List.prefix_append _ rest) hlong
  · intro h
    exact h.trans (List.prefix_append _ rest)

theorem testsOutcome_iff (row : Text) :
    testsOutcome row ↔ row.has "if" ∧ (row.has "success" ∨ row.has "result" ∨ row.has "!") := by
  simp only [testsOutcome, Text.hasAny, List.any_cons, List.any_nil, Bool.or_false,
    Bool.and_eq_true, Bool.or_eq_true]

theorem statementChecked_iff {code : Text} {v : Visit} {statement : Node}
    (htransfer : TokenTransfer code v)
    (htext : v.node.forwardText code <+: statement.forwardText code) :
    statementChecked code v statement ↔ TakenForBinding code v statement := by
  have hspelled := startsWith_let_iff htransfer.transfers htext
  have htested := tested_in_function_iff code v (v.node.forwardText code) 4 testsOutcome
  simp only [testsOutcome_iff] at htested
  unfold statementChecked
  by_cases hdiscard : (statement.forwardText code).has "let _ ="
  · rw [if_pos hdiscard]
    exact iff_of_false Bool.false_ne_true fun h => h.kept hdiscard
  · by_cases hstarts : (statement.forwardText code).trim.startsWith "let"
    · rw [if_neg hdiscard, hstarts, Bool.not_true, if_neg Bool.false_ne_true]
      exact htested.trans ⟨fun h => ⟨hspelled.mp hstarts, hdiscard, h⟩, fun h => h.tested⟩
    · rw [if_neg hdiscard, Bool.eq_false_iff.mpr hstarts, Bool.not_false, if_pos rfl]
      exact iff_of_false Bool.false_ne_true fun h => hstarts (hspelled.mpr h.spelled)

/-- A token transfer that is a statement of its own adds its issue to the report, at its lines and
with its text, unless it is taken for a binding whose value is tested; then it adds nothing. -/
theorem discarded_reported_unless (m : Memory) {code : Text} (reported : List Issue)
    {root : Node} {before after : List Visit} {v : Visit} {statement : Node}
    (hroot : root.kind = "source_file") (hvisits : root.visits = before ++ v :: after)
    (htransfer : TokenTransfer code v) (hparent : v.parent? = some statement)
    (hkind : statement.kind = "expression_statement")
    (htext : v.node.forwardText code <+: statement.forwardText code) :
    (¬TakenForBinding code v statement → (Builtin.transfer.run m code reported root).2 =
      reportWith code reported before after [tokenIssue code v.node]) ∧
    (TakenForBinding code v statement → (Builtin.transfer.run m code reported root).2 =
      reportWith code reported before after []) := by
  have hchecked : valueChecked code v = .ok (statementChecked code v statement) := by
    rw [valueChecked, hparent]
    exact if_pos hkind
  rw [← statementChecked_iff htransfer htext, htransfer.run_eq hchecked m reported hroot hvisits]
  constructor
  · intro h
    rw [if_neg h]
  · intro h
    rw [if_pos h]

def discardedThenAsked : Text :=
  "fn f(ledger: IERC20) \x7b\nledger.transfer(a);\nif !b \x7b\x7d\n\x7d".toList

theorem discarded_reported_unless_ledger :
    let call := Node.mk "call_expression" ⟨23, 41, 1, 1⟩ []
    let statement := Node.mk "expression_statement" ⟨23, 42, 1, 1⟩ [call]
    let function := Node.mk "function_item" ⟨0, 53, 0, 3⟩ [statement]
    let root := Node.mk "source_file" ⟨0, 53, 0, 3⟩ [function]
    let v : Visit := ⟨call, [statement, function, root]⟩
    TokenTransfer discardedThenAsked v ∧ ¬TakenForBinding discardedThenAsked v statement ∧
      (Builtin.transfer.run .fresh discardedThenAsked [] root).2 =
        .complete [tokenIssue discardedThenAsked call] := by
  intro call statement function root v
  let above : List Visit := [⟨root, []⟩, ⟨function, [root]⟩, ⟨statement, [function, root]⟩]
  -- the text is evaluated once for all that is read off it
  have hfacts : call.forwardText discardedThenAsked = "ledger.transfer(a)".toList ∧
      statement.forwardText discardedThenAsked = "ledger.transfer(a);".toList ∧
      (discardedThenAsked.upTo 23).has "IERC20" = true ∧
      reportWith discardedThenAsked [] above [] [tokenIssue discardedThenAsked call] =
        .complete [tokenIssue discardedThenAsked call] := by
    decide +kernel
  obtain ⟨hcall, hstatement, hinterface, hreport⟩ := hfacts
  have htransfer : TokenTransfer discardedThenAsked v :=
    ⟨rfl, .inl (by rw [hcall]; decide), .inr hinterface⟩
  have htext :
      call.forwardText discardedThenAsked <+: statement.forwardText discardedThenAsked := by
    rw [hcall, hstatement]
    exact ⟨[';'], by decide⟩
  have hnot : ¬TakenForBinding discardedThenAsked v statement := by
    intro h
    have hspelled := h.spelled
    rw [hcall] at hspelled
    exact absurd hspelled (by decide)
  have hvisits : root.visits = above ++ v :: [] := rfl
  have hreported := discarded_reported_unless .fresh [] rfl hvisits htransfer rfl rfl htext
  exact ⟨htransfer, hnot, (hreported.1 hnot).trans hreport⟩

def letterTransfer : Text :=
  ("fn f(letter: IERC20) \x7b\n    letter.transfer(a, b);\n" ++
    "    if !c \x7b d(); \x7d\n\x7d\n").toList

/-- A discarded transfer need not be reported. -/
theorem not_discarded_reported :
    let root := Rust.parse letterTransfer
    root.kind = "source_file" ∧
    ¬∀ v ∈ root.visits, ∀ statement, TokenTransfer letterTransfer v →
      v.parent? = some statement → statement.kind = "expression_statement" →
      v.node.forwardText letterTransfer <+: statement.forwardText letterTransfer →
        ∃ i ∈ (Builtin.transfer.findings letterTransfer root).issues,
          i.kind = "unchecked_transfer" ∧ i.lineStart = v.node.firstLine ∧
          i.lineEnd = v.node.lastLine ∧
          i.snippet = String.ofList (v.node.forwardText letterTransfer) := by
  intro root
  have hfacts : root.kind = "source_file" ∧
      (Builtin.transfer.findings letterTransfer root).issues = [] ∧
      ∃ v ∈ root.visits, v.node.kind = "call_expression" ∧
        v.node.forwardText letterTransfer = "letter.transfer(a, b)".toList ∧
        (letterTransfer.upTo v.node.extent.startByte).has "IERC20" = true ∧
        v.parent?.any (fun statement => statement.kind = "expression_statement" &&
          statement.forwardText letterTransfer = "letter.transfer(a, b);".toList) = true := by
    decide +kernel
  obtain ⟨hroot, hissues, v, hv, hkind, hcall, hinterface, hparent⟩ := hfacts
  obtain ⟨statement, hstatement, hchild⟩ := (Option.any_eq_true _ _).mp hparent
  rw [Bool.and_eq_true, decide_eq_true_eq, decide_eq_true_eq] at hchild
  have htransfer : TokenTransfer letterTransfer v :=
    ⟨hkind, .inl (by rw [hcall]; decide), .inr hinterface⟩
  have htext : v.node.forwardText letterTransfer <+: statement.forwardText letterTransfer := by
    rw [hcall, hchild.2]
    exact ⟨[';'], by decide⟩
  refine ⟨hroot, fun h => ?_⟩
  obtain ⟨i, hi, -⟩ := h v hv statement htransfer hstatement hchild.1 htext
  rw [hissues] at hi
  cases hi

end ContractAudit.Detect.Transfer

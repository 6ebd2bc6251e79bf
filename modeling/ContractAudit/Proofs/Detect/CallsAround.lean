import ContractAudit.Proofs.Detect.TokenCalls
import ContractAudit.Proofs.Tree.Nesting
import ContractAudit.Rust.Parser

/-! Calls around a transfer. A call is judged by its whole text, so every call on the way down to a
transfer is taken for a transfer itself, whether the transfer is its receiver, an argument of it or
inside a closure. Each of them is reported in its own right unless its value is looked at. -/

namespace ContractAudit.Detect.Transfer

def callsTransfer (code : Text) (call : Node) : Bool :=
  call.children.head?.any fun callee =>
    callee.kind = "field_expression" && (callee.childOfKind? "field_identifier").any fun field =>
      ["transfer".toList, "transferFrom".toList].contains (field.forwardText code)

def namesInterface (code : Text) (v : Visit) : Bool :=
  (match v.enclosingFunction? with
    | some f => (f.forwardText code).has "IERC20"
    | none => false) ||
    (code.upTo v.node.extent.startByte).has "IERC20"

def holdsTransfer (code : Text) (v : Visit) : Bool :=
  v.node.kind = "call_expression" && (v.node.forwardText code).hasAny transferCalls &&
    isTokenCall code v

def isUnseen (code : Text) (v : Visit) : Bool :=
  match valueChecked code v with
  | .ok checked => !checked
  | .error _ => false

def isTokenIssue (i : Issue) : Bool :=
  i.description =
    "ERC20 transfer call with unchecked return value. This can lead to silent failures."

/-- The calls on the way down to a visit, itself included, where the interface of tokens is
named. -/
def callsAround (code : Text) (v : Visit) : List Visit :=
  v.path.filter fun w => w.node.kind = "call_expression" && namesInterface code w

section Verdict

variable {code : Text} {v w : Visit}

theorem namesInterface_iff : namesInterface code v ↔
    (∃ f, v.enclosingFunction? = some f ∧ (f.forwardText code).has "IERC20") ∨
      (code.upTo v.node.extent.startByte).has "IERC20" := by
  rw [namesInterface, Bool.or_eq_true]
  cases v.enclosingFunction? <;> simp

theorem hasAny_transferCalls_iff (t : Text) :
    t.hasAny transferCalls ↔ t.has ".transfer(" ∨ t.has ".transferFrom(" := by
  simp [Text.hasAny, transferCalls]

theorem holdsTransfer_iff : holdsTransfer code v ↔ TokenTransfer code v := by
  constructor
  · intro h
    simp only [holdsTransfer, Bool.and_eq_true, decide_eq_true_eq] at h
    obtain ⟨⟨hcall, htransfers⟩, htoken⟩ := h
    have hnamed : namesInterface code v := (Bool.and_eq_true_iff.mp htoken).2
    exact ⟨hcall, (hasAny_transferCalls_iff _).mp htransfers, namesInterface_iff.mp hnamed⟩
  · intro h
    have htransfers := (hasAny_transferCalls_iff _).mpr h.transfers
    simp only [holdsTransfer, h.call, htransfers, h.isTokenCall, decide_true, Bool.and_self]

theorem issue?_of_not_holdsTransfer (h : ¬holdsTransfer code v) :
    issue? code v = none ∨ issue? code v = some (callIssue code v.node) ∨
      issue? code v = some (matchIssue code v.node) := by
  simp only [issue?, find]
  by_cases hcall : v.node.kind = "call_expression"
  · rw [if_pos hcall]
    by_cases htransfers : (v.node.forwardText code).hasAny transferCalls
    · have hother : ¬isTokenCall code v := by simpa [holdsTransfer, hcall, htransfers] using h
      simp [htransfers, hother]
    · rw [if_neg htransfers]
      by_cases hlow : ((v.node.forwardText code).has ".call(" &&
          (v.node.forwardText code).has "transfer") = true
      · rw [if_pos hlow]
        cases resultChecked code v with
        | error f => exact .inl rfl
        | ok checked => cases checked <;> simp [Except.map]
      · rw [if_neg hlow]
        exact .inl rfl
  · rw [if_neg hcall]
    by_cases hmatch : v.node.kind = "match_expression"
    · by_cases hignores : ignoresError code v.node <;> simp [hmatch, hignores]
    · rw [if_neg hmatch]
      exact .inl rfl

theorem issue?_of_holdsTransfer (h : holdsTransfer code v) :
    issue? code v = if isUnseen code v then some (tokenIssue code v.node) else none := by
  have htransfer : TokenTransfer code v := holdsTransfer_iff.mp h
  rw [isUnseen]
  cases hchecked : valueChecked code v with
  | ok checked =>
    rw [htransfer.issue?_eq hchecked]
    cases checked <;> rfl
  | error f =>
    have htransfers := (hasAny_transferCalls_iff _).mpr htransfer.transfers
    simp [issue?, find, htransfer.call, htransfers, htransfer.isTokenCall, hchecked, Except.map]

theorem filter_issue? (code : Text) (v : Visit) :
    (issue? code v).filter isTokenIssue =
      if holdsTransfer code v && isUnseen code v then some (tokenIssue code v.node) else none := by
  by_cases h : holdsTransfer code v
  · have htoken : isTokenIssue (tokenIssue code v.node) = true := decide_eq_true rfl
    rw [issue?_of_holdsTransfer h, h, Bool.true_and]
    cases isUnseen code v <;> simp [htoken]
  · have hcall : isTokenIssue (callIssue code v.node) = false := by
      simp [isTokenIssue, callIssue, issue]
    have hmatch : isTokenIssue (matchIssue code v.node) = false := by
      simp [isTokenIssue, matchIssue, issue]
    rcases issue?_of_not_holdsTransfer h with hnone | hissue | hissue <;> simp [*]

theorem tokenIssues_eq (code : Text) (visits : List Visit) :
    (visits.filterMap (issue? code)).filter isTokenIssue =
      (visits.filter fun v => holdsTransfer code v && isUnseen code v).map fun v =>
        tokenIssue code v.node := by
  rw [List.filter_filterMap]
  simp only [filter_issue?]
  induction visits with
  | nil => rfl
  | cons v visits ih =>
    by_cases h : (holdsTransfer code v && isUnseen code v) = true
    · rw [List.filterMap_cons, if_pos h, List.filter_cons, if_pos h, List.map_cons, ih]
    · rw [List.filterMap_cons, if_neg h, List.filter_cons, if_neg h, ih]

theorem TokenTransfer.of_mem_callsAround {root : Node} (hfits : root.Fits code)
    (hv : v ∈ root.visits) (h : TokenTransfer code v) (hw : w ∈ callsAround code v) :
    TokenTransfer code w := by
  obtain ⟨hpath, hcall⟩ := List.mem_filter.mp hw
  rw [Bool.and_eq_true, decide_eq_true_eq] at hcall
  have hwvisit : w ∈ root.visits := (Node.path_of_mem_visits hv).2.subset hpath
  have htext : v.node.forwardText code <:+: w.node.forwardText code := by
    rw [hfits.forwardText_eq hv, hfits.forwardText_eq hwvisit]
    exact hfits.text_infix hv hpath
  refine ⟨hcall.1, ?_, namesInterface_iff.mp hcall.2⟩
  exact h.transfers.imp (Text.has_of_infix htext) (Text.has_of_infix htext)

theorem TokenTransfer.self_mem_callsAround (h : TokenTransfer code v) : v ∈ callsAround code v := by
  apply List.mem_filter.mpr
  rw [Bool.and_eq_true, decide_eq_true_eq]
  exact ⟨v.self_mem_path, h.call, namesInterface_iff.mpr h.interface⟩

end Verdict

/-- In a source file that its tree fits, the issues about tokens are those of the calls with a
transfer in their text whose value is not looked at. A transfer so gives an issue for each call
around it, itself included, that is not looked at. Only calls of the method of a transfer are
reported iff every other call around a transfer is looked at. -/
theorem token_issue_at_each_call_around (m : Memory) {code : Text} (reported : List Issue)
    {root : Node} (hroot : root.kind = "source_file") (hfits : root.Fits code) :
    let found := root.visits.filterMap (issue? code)
    let blamed := root.visits.filter fun v => holdsTransfer code v && isUnseen code v
    (Builtin.transfer.run m code reported root).2 =
      .complete (reported ++ found ++ Solidity.sectionIssues code) ∧
    found.filter isTokenIssue = blamed.map (fun v => tokenIssue code v.node) ∧
    (∀ v ∈ root.visits, TokenTransfer code v →
      ((callsAround code v).filter (isUnseen code)).Sublist blamed) ∧
    ((∀ v ∈ blamed, callsTransfer code v.node) ↔
      ∀ v ∈ root.visits, TokenTransfer code v → ∀ w ∈ callsAround code v,
        callsTransfer code w.node ∨ ¬isUnseen code w) := by
  intro found blamed
  have hblamed : ∀ v ∈ root.visits, TokenTransfer code v → ∀ w ∈ callsAround code v,
      isUnseen code w → w ∈ blamed := by
    intro v hv htransfer w hw hunseen
    have hvisit : w ∈ root.visits :=
      (Node.path_of_mem_visits hv).2.subset (List.mem_of_mem_filter hw)
    have hholds : holdsTransfer code w :=
      holdsTransfer_iff.mpr (htransfer.of_mem_callsAround hfits hv hw)
    exact List.mem_filter.mpr ⟨hvisit, by rw [hholds, hunseen, Bool.and_self]⟩
  refine ⟨run_sourceFile m reported hroot, tokenIssues_eq code root.visits, ?_, ?_, ?_⟩
  · intro v hv htransfer
    have hsame : (callsAround code v).filter (isUnseen code) =
        (callsAround code v).filter fun w => holdsTransfer code w && isUnseen code w := by
      apply List.filter_congr
      intro w hw
      rw [holdsTransfer_iff.mpr (htransfer.of_mem_callsAround hfits hv hw), Bool.true_and]
    have hcalls : (callsAround code v).Sublist root.visits :=
      List.filter_sublist.trans (Node.path_of_mem_visits hv).2
    rw [hsame]
    exact hcalls.filter _
  · intro honly v hv htransfer w hw
    by_cases hunseen : isUnseen code w
    · exact .inl (honly w (hblamed v hv htransfer w hw hunseen))
    · exact .inr hunseen
  · intro hothers v hv
    obtain ⟨hvisit, hboth⟩ := List.mem_filter.mp hv
    rw [Bool.and_eq_true] at hboth
    have htransfer : TokenTransfer code v := holdsTransfer_iff.mp hboth.1
    have hself := hothers v hvisit htransfer v htransfer.self_mem_callsAround
    exact hself.resolve_right fun hseen => hseen hboth.2

/-- A transfer as the argument of another call: both are reported. -/
theorem token_issue_at_each_call_around_argument :
    let code := "IERC20; note(t.transfer(a))".toList
    let field := Node.mk "field_identifier" ⟨15, 23, 0, 0⟩ []
    let method := Node.mk "field_expression" ⟨13, 23, 0, 0⟩ [field]
    let transfer := Node.mk "call_expression" ⟨13, 26, 0, 0⟩ [method]
    let arguments := Node.mk "arguments" ⟨12, 27, 0, 0⟩ [transfer]
    let callee := Node.mk "identifier" ⟨8, 12, 0, 0⟩ []
    let note := Node.mk "call_expression" ⟨8, 27, 0, 0⟩ [callee, arguments]
    let root := Node.mk "source_file" ⟨0, 27, 0, 0⟩ [note]
    let v : Visit := ⟨transfer, [arguments, note, root]⟩
    root.Fits code ∧ TokenTransfer code v ∧ callsTransfer code transfer ∧
      ¬callsTransfer code note ∧
      [tokenIssue code note, tokenIssue code transfer].Sublist
        (Builtin.transfer.run .fresh code [] root).2.issues := by
  intro code field method transfer arguments callee note root v
  have hfits : root.Fits code := by decide +kernel
  have hcalls : callsTransfer code transfer ∧ ¬callsTransfer code note := by decide +kernel
  have hunseen : ((callsAround code v).filter (isUnseen code)).map
      (fun w => tokenIssue code w.node) = [tokenIssue code note, tokenIssue code transfer] := by
    decide +kernel
  have htransfer : TokenTransfer code v := holdsTransfer_iff.mp (by decide +kernel)
  have hfifth : root.visits[4]? = some v := rfl
  have hv : v ∈ root.visits := List.mem_of_getElem? hfifth
  obtain ⟨hrun, hfound, hsublist, -⟩ := token_issue_at_each_call_around .fresh [] rfl hfits
  refine ⟨hfits, htransfer, hcalls.1, hcalls.2, ?_⟩
  have hblamed := (hsublist v hv htransfer).map fun w => tokenIssue code w.node
  rw [hunseen, ← hfound] at hblamed
  rw [hrun]
  exact (hblamed.trans List.filter_sublist).trans (List.sublist_append_left _ _)

def notedTransfer : Text :=
  "fn f(token: IERC20) \x7b\n    note(token.transfer(a, b));\n\x7d\n".toList

/-- A call that only passes a transfer on is reported beside it. -/
theorem not_only_transfers_reported :
    let root := Rust.parse notedTransfer
    let issues := (Builtin.transfer.findings notedTransfer root).issues
    let calls := root.visits.filter fun v => v.node.kind = "call_expression"
    root.kind = "source_file" ∧ root.Fits notedTransfer ∧
    (¬∀ v ∈ calls, tokenIssue notedTransfer v.node ∈ issues → callsTransfer notedTransfer v.node) ∧
    (calls.countP fun v => callsTransfer notedTransfer v.node) = 1 ∧
    issues.countP isTokenIssue = 2 := by
  decide +kernel

end ContractAudit.Detect.Transfer

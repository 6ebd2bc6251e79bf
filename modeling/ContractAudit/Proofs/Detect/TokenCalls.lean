import ContractAudit.Proofs.Detect.Checked

/-! Transfers of a token in the tree of a source file. The search visits all of it, so the report is
made of what each visit adds, and whether a transfer adds its issue is decided by its own verdict.
Verdicts look for a row below the first one that holds a given text. -/

namespace ContractAudit.Detect.Transfer

def issue? (code : Text) (v : Visit) : Option Issue :=
  match find code v with
  | .ok found => found
  | .error _ => none

structure TokenTransfer (code : Text) (v : Visit) : Prop where
  call : v.node.kind = "call_expression"
  transfers : (v.node.forwardText code).has ".transfer(" ∨
    (v.node.forwardText code).has ".transferFrom("
  interface : (∃ f, v.enclosingFunction? = some f ∧ (f.forwardText code).has "IERC20") ∨
    (code.upTo v.node.extent.startByte).has "IERC20"

/-- What is reported of a source file whose visits are those in `before`, one that adds the issues
`here`, and those in `after`. -/
def reportWith (code : Text) (reported : List Issue) (before after : List Visit)
    (here : List Issue) : Findings :=
  .complete (reported ++
    (before.filterMap (issue? code) ++ here ++ after.filterMap (issue? code)) ++
    Solidity.sectionIssues code)

section Report

variable {code : Text} {root : Node}

theorem foldl_step_of_ok {visits : List Visit}
    (h : ∀ v ∈ visits, ∃ found, find code v = .ok found) (issues : List Issue) :
    visits.foldl (step code) (.complete issues) =
      .complete (issues ++ visits.filterMap (issue? code)) := by
  induction visits generalizing issues with
  | nil => rw [List.foldl_nil, List.filterMap_nil, List.append_nil]
  | cons v visits ih =>
    obtain ⟨⟨found, hfound⟩, hrest⟩ := List.forall_mem_cons.mp h
    have hissue : issue? code v = found := by rw [issue?, hfound]
    rw [List.foldl_cons, List.filterMap_cons, hissue]
    cases found with
    | none =>
      have hstep : step code (.complete issues) v = .complete issues := by
        simp only [step, Findings.complete, hfound]
      rw [hstep, ih hrest]
    | some i =>
      have hstep : step code (.complete issues) v = .complete (issues ++ [i]) := by
        simp only [step, Findings.complete, hfound]
      rw [hstep, ih hrest, List.append_assoc, List.singleton_append]

theorem find_ok_of_sourceFile (hroot : root.kind = "source_file") {v : Visit}
    (hv : v ∈ root.visits) : ∃ found, find code v = .ok found := by
  cases hfind : find code v with
  | ok found => exact ⟨found, rfl⟩
  | error f =>
    obtain ⟨-, hstops⟩ := find_error hv hfind
    rw [Stops, hroot] at hstops
    exact absurd hstops (by decide)

theorem run_sourceFile (m : Memory) (reported : List Issue) (hroot : root.kind = "source_file") :
    (Builtin.transfer.run m code reported root).2 =
      .complete (reported ++ root.visits.filterMap (issue? code) ++
        Solidity.sectionIssues code) := by
  have htree : treeFindings code reported root =
      .complete (reported ++ root.visits.filterMap (issue? code)) := by
    rw [treeFindings, Node.walk_eq_foldl]
    exact foldl_step_of_ok (fun v hv => find_ok_of_sourceFile hroot hv) reported
  simp only [Builtin.run, findings, htree, Findings.complete]

theorem run_eq_reportWith (m : Memory) (reported : List Issue) (hroot : root.kind = "source_file")
    {before after : List Visit} {v : Visit} (hvisits : root.visits = before ++ v :: after) :
    (Builtin.transfer.run m code reported root).2 =
      reportWith code reported before after (issue? code v).toList := by
  have hadded : (before ++ v :: after).filterMap (issue? code) =
      before.filterMap (issue? code) ++ (issue? code v).toList ++
        after.filterMap (issue? code) := by
    rw [List.filterMap_append, List.filterMap_cons]
    cases issue? code v with
    | none => rw [Option.toList_none, List.append_nil]
    | some i => rw [Option.toList_some, List.append_assoc, List.singleton_append]
  rw [run_sourceFile m reported hroot, hvisits, hadded, reportWith]

end Report

section Verdict

variable {code : Text} {v : Visit}

theorem TokenTransfer.isTokenCall (h : TokenTransfer code v) : isTokenCall code v := by
  have hmethod :
      (v.node.forwardText code).hasAny [".transfer(", ".transferFrom(", ".approve("] := by
    simp only [Text.hasAny, List.any_cons, Bool.or_eq_true]
    exact h.transfers.imp id Or.inl
  rw [Transfer.isTokenCall, hmethod, Bool.true_and, Bool.or_eq_true]
  rcases h.interface with ⟨f, hf, hnamed⟩ | hbefore
  · rw [hf]
    exact .inl hnamed
  · exact .inr hbefore

theorem TokenTransfer.issue?_eq (h : TokenTransfer code v) {checked : Bool}
    (hchecked : valueChecked code v = .ok checked) :
    issue? code v = if checked then none else some (tokenIssue code v.node) := by
  have hmethod : (v.node.forwardText code).hasAny transferCalls := by
    simp only [transferCalls, Text.hasAny, List.any_cons, List.any_nil, Bool.or_false,
      Bool.or_eq_true]
    exact h.transfers
  simp only [issue?, find, h.call, hmethod, h.isTokenCall, hchecked, if_true, Except.map]

theorem TokenTransfer.run_eq (h : TokenTransfer code v) {checked : Bool}
    (hchecked : valueChecked code v = .ok checked) (m : Memory) (reported : List Issue)
    {root : Node} (hroot : root.kind = "source_file") {before after : List Visit}
    (hvisits : root.visits = before ++ v :: after) :
    (Builtin.transfer.run m code reported root).2 =
      reportWith code reported before after (if checked then [] else [tokenIssue code v.node]) := by
  rw [run_eq_reportWith m reported hroot hvisits, h.issue?_eq hchecked]
  cases checked <;> rfl

end Verdict

structure FirstHolding (rows : List Text) (text : Text) (r : Nat) : Prop where
  holds : ∃ row, rows[r]? = some row ∧ text <:+: row
  before : ∀ k < r, ∀ row, rows[k]? = some row → ¬text <:+: row

def TestedBelow (rows : List Text) (text : Text) (window : Nat) (test : Text → Prop) : Prop :=
  ∃ r k row, FirstHolding rows text r ∧ r < k ∧ k ≤ r + window ∧ rows[k]? = some row ∧ test row

theorem findIdx?_occurs_iff (rows : List Text) (text : Text) (r : Nat) :
    rows.findIdx? (Text.occurs text) = some r ↔ FirstHolding rows text r := by
  rw [List.findIdx?_eq_some_iff_getElem]
  constructor
  · rintro ⟨hr, hholds, hbefore⟩
    refine ⟨⟨rows[r], List.getElem?_eq_getElem hr, (Text.occurs_iff text _).mp hholds⟩, ?_⟩
    intro k hk row hrow hinfix
    obtain ⟨hlt, rfl⟩ := List.getElem?_eq_some_iff.mp hrow
    exact hbefore k hk ((Text.occurs_iff text _).mpr hinfix)
  · rintro ⟨⟨row, hrow, hinfix⟩, hbefore⟩
    obtain ⟨hr, rfl⟩ := List.getElem?_eq_some_iff.mp hrow
    refine ⟨hr, (Text.occurs_iff text _).mpr hinfix, ?_⟩
    intro k hk hoccurs
    exact hbefore k hk _ (List.getElem?_eq_getElem (Nat.lt_trans hk hr))
      ((Text.occurs_iff text _).mp hoccurs)

theorem laterRow_iff (rows : List Text) (text : Text) (window : Nat) (test : Text → Bool) :
    laterRow rows text window test ↔ TestedBelow rows text window fun row => test row := by
  unfold laterRow TestedBelow
  simp only [← findIdx?_occurs_iff]
  cases rows.findIdx? (Text.occurs text) with
  | none => simp only [Bool.false_eq_true, reduceCtorEq, false_and, exists_false]
  | some i =>
    simp only [Option.some.injEq, List.any_eq_true]
    constructor
    · rintro ⟨row, hmem, htest⟩
      obtain ⟨n, hrow⟩ := List.mem_iff_getElem?.mp hmem
      rw [List.getElem?_take] at hrow
      split at hrow
      · rw [List.getElem?_drop] at hrow
        exact ⟨i, i + 1 + n, row, rfl, by omega, by omega, hrow, htest⟩
      · cases hrow
    · rintro ⟨r, k, row, rfl, hlt, hle, hrow, htest⟩
      refine ⟨row, List.mem_iff_getElem?.mpr ⟨k - (i + 1), ?_⟩, htest⟩
      rw [List.getElem?_take_of_lt (by omega), List.getElem?_drop, ← hrow]
      congr 1
      omega

theorem tested_in_function_iff (code : Text) (v : Visit) (text : Text) (window : Nat)
    (test : Text → Bool) :
    (match v.enclosingFunction? with
      | some f => laterRow (f.forwardText code).rows text window test
      | none => false) = true ↔
    ∃ f, v.enclosingFunction? = some f ∧
      TestedBelow (f.forwardText code).rows text window fun row => test row := by
  cases v.enclosingFunction? with
  | none => simp only [Bool.false_eq_true, reduceCtorEq, false_and, exists_false]
  | some f => simp only [laterRow_iff, Option.some.injEq, exists_eq_left']

end ContractAudit.Detect.Transfer

import ContractAudit.Proofs.Detect.Fresh
import Mathlib.Data.List.Basic

/-! The ledger of a contract against the tree it is read from. The functions that take payment are
read in one pass, in which those that stand directly in an implementation block can be entered
twice; the functions that pay out are read in a second pass. The verdict depends only on whether
there are such functions. -/

namespace ContractAudit.Detect.LockedEther

def isPayableFunction (code : Text) (n : Node) : Bool :=
  n.kind = "function_item" && isPayable n code

def isWithdrawalFunction (code : Text) (n : Node) : Bool :=
  n.kind = "function_item" && isWithdrawal n code

mutual

/-- The functions that the first pass enters below a node, in the order of their entries. -/
def entered (code : Text) : Node → List Node
  | n@(.mk kind _ cs) =>
    (if isPayableFunction code n then [n] else []) ++
      (if kind = "impl_item" && mentionsPayment n code then enteredFunctions code cs else []) ++
      enteredAll code cs

def enteredAll (code : Text) : List Node → List Node
  | [] => []
  | n :: ns => entered code n ++ enteredAll code ns

def enteredFunctions (code : Text) : List Node → List Node
  | [] => []
  | n :: ns => (if n.kind = "function_item" then entered code n else []) ++ enteredFunctions code ns

end

def Ledger.receiveAll (code : Text) (l : Ledger) (ns : List Node) : Ledger :=
  ns.foldl (fun l n => l.receive n code) l

mutual

theorem readPayable_eq (code : Text) (l : Ledger) :
    (n : Node) → readPayable code l n = l.receiveAll code (entered code n)
  | .mk kind extent cs => by
    -- what is read below the node is the same in all cases, so only the entry before it is split
    rw [readPayable, entered, Ledger.receiveAll, List.foldl_append, List.foldl_append]
    refine (readPayableAll_eq code _ cs).trans (congrArg (Ledger.receiveAll code · _) ?_)
    by_cases hfunction : kind = "function_item"
    · subst hfunction
      simp only [isPayableFunction, Node.kind, decide_true, Bool.true_and, if_true]
      split <;> rfl
    · have hnot : isPayableFunction code (.mk kind extent cs) = false := by
        simp only [isPayableFunction, Node.kind, hfunction, decide_false, Bool.false_and]
      simp only [hnot, hfunction, if_false, Bool.false_eq_true, List.foldl_nil]
      split
      · exact readFunctions_eq code l cs
      · rfl

theorem readPayableAll_eq (code : Text) (l : Ledger) :
    (ns : List Node) → readPayableAll code l ns = l.receiveAll code (enteredAll code ns)
  | [] => rfl
  | n :: ns => by
    rw [readPayableAll, enteredAll, Ledger.receiveAll, List.foldl_append, readPayable_eq code l n]
    exact readPayableAll_eq code _ ns

theorem readFunctions_eq (code : Text) (l : Ledger) :
    (ns : List Node) → readFunctions code l ns = l.receiveAll code (enteredFunctions code ns)
  | [] => rfl
  | n :: ns => by
    rw [readFunctions, enteredFunctions, Ledger.receiveAll, List.foldl_append]
    by_cases hfunction : n.kind = "function_item"
    · rw [if_pos hfunction, if_pos hfunction, readPayable_eq code l n]
      exact readFunctions_eq code _ ns
    · rw [if_neg hfunction, if_neg hfunction]
      exact readFunctions_eq code l ns

end

theorem receiveAll_eq (code : Text) (l : Ledger) (ns : List Node) :
    l.receiveAll code ns =
      { l with
        canReceive := l.canReceive || !ns.isEmpty
        payable := l.payable ++ ns.map (Payable.ofNode · code) } := by
  induction ns generalizing l with
  | nil => simp only [Ledger.receiveAll, List.foldl_nil, List.isEmpty_nil, Bool.not_true,
      Bool.or_false, List.map_nil, List.append_nil]
  | cons n ns ih =>
    rw [Ledger.receiveAll, List.foldl_cons]
    refine (ih (l.receive n code)).trans ?_
    simp only [Ledger.receive, Bool.true_or, List.isEmpty_cons, Bool.not_false, Bool.or_true,
      List.map_cons, List.append_assoc, List.singleton_append]

theorem readWithdrawals_eq (code : Text) (l : Ledger) (root : Node) :
    readWithdrawals code l root =
      { l with
        canWithdraw := l.canWithdraw || root.visits.any fun v => isWithdrawalFunction code v.node
        withdrawals := l.withdrawals ++
          ((root.visits.map Visit.node).filter (isWithdrawalFunction code)).map
            (Withdrawal.ofNode · code) } := by
  rw [readWithdrawals, Node.walk_eq_foldl]
  generalize root.visits = visits
  induction visits generalizing l with
  | nil => simp only [List.foldl_nil, List.any_nil, Bool.or_false, List.map_nil, List.filter_nil,
      List.append_nil]
  | cons v visits ih =>
    rw [List.foldl_cons, ih, List.any_cons, List.map_cons, List.filter_cons]
    by_cases h : isWithdrawalFunction code v.node
    · have h' : (v.node.kind = "function_item" && isWithdrawal v.node code) = true := h
      simp only [h, h', if_true, Ledger.withdraw, Bool.true_or, Bool.or_true, List.map_cons,
        List.append_assoc, List.singleton_append]
    · have h' : ¬(v.node.kind = "function_item" && isWithdrawal v.node code) = true := h
      simp only [h, h', if_false, Bool.false_or, Bool.false_eq_true]

theorem enteredFunctions_subset (code : Text) (ns : List Node) :
    enteredFunctions code ns ⊆ enteredAll code ns := by
  induction ns with
  | nil => exact List.Subset.refl _
  | cons n ns ih =>
    rw [enteredFunctions, enteredAll]
    refine List.append_subset.mpr ⟨?_, List.subset_append_of_subset_right _ ih⟩
    split
    · exact List.subset_append_left _ _
    · exact List.nil_subset _

theorem enteredFunctions_eq_nil {code : Text} {ns : List Node}
    (h : ∀ n ∈ ns, n.kind ≠ "function_item") : enteredFunctions code ns = [] := by
  induction ns with
  | nil => rfl
  | cons n ns ih =>
    rw [List.forall_mem_cons] at h
    rw [enteredFunctions, if_neg h.1, ih h.2, List.append_nil]

mutual

/-- Whatever is entered twice, exactly the functions that take payment are entered. -/
theorem mem_entered_iff (code : Text) (ancestors : List Node) (m : Node) : (n : Node) →
    (m ∈ entered code n ↔
      m ∈ (Node.visitsUnder ancestors n).map Visit.node ∧ isPayableFunction code m)
  | .mk kind extent cs => by
    have ih := mem_enteredAll_iff code (.mk kind extent cs :: ancestors) m cs
    rw [entered, Node.visitsUnder, List.map_cons, List.mem_append, List.mem_append, List.mem_cons,
      ih]
    constructor
    · rintro ((hown | hdirect) | hbelow)
      · split at hown
        · next hpayable =>
          obtain rfl := List.mem_singleton.mp hown
          exact ⟨.inl rfl, hpayable⟩
        · exact absurd hown List.not_mem_nil
      · split at hdirect
        -- entered from the block, and again as a node below it
        · obtain ⟨hmem, hpayable⟩ := ih.mp (enteredFunctions_subset code cs hdirect)
          exact ⟨.inr hmem, hpayable⟩
        · exact absurd hdirect List.not_mem_nil
      · exact ⟨.inr hbelow.1, hbelow.2⟩
    · rintro ⟨rfl | hmem, hpayable⟩
      · rw [if_pos hpayable]
        exact .inl (.inl (List.mem_singleton.mpr rfl))
      · exact .inr ⟨hmem, hpayable⟩

theorem mem_enteredAll_iff (code : Text) (ancestors : List Node) (m : Node) : (ns : List Node) →
    (m ∈ enteredAll code ns ↔
      m ∈ (Node.visitsOfAll ancestors ns).map Visit.node ∧ isPayableFunction code m)
  | [] => by
    simp only [enteredAll, Node.visitsOfAll, List.map_nil, List.not_mem_nil, false_and]
  | n :: ns => by
    rw [enteredAll, Node.visitsOfAll, List.map_append, List.mem_append, List.mem_append,
      mem_entered_iff code ancestors m n, mem_enteredAll_iff code ancestors m ns, or_and_right]

end

def BlocksHaveBodies (visits : List Visit) : Prop :=
  ∀ v ∈ visits, v.node.kind = "impl_item" → ∀ c ∈ v.node.children, c.kind ≠ "function_item"

instance (visits : List Visit) : Decidable (BlocksHaveBodies visits) :=
  inferInstanceAs (Decidable (∀ v ∈ visits, v.node.kind = "impl_item" →
    ∀ c ∈ v.node.children, c.kind ≠ "function_item"))

mutual

theorem entered_eq_filter (code : Text) (ancestors : List Node) : (n : Node) →
    BlocksHaveBodies (Node.visitsUnder ancestors n) →
    entered code n =
      ((Node.visitsUnder ancestors n).map Visit.node).filter (isPayableFunction code)
  | .mk kind extent cs, h => by
    rw [Node.visitsUnder, BlocksHaveBodies, List.forall_mem_cons] at h
    have hdirect : (if kind = "impl_item" && mentionsPayment (.mk kind extent cs) code then
        enteredFunctions code cs else []) = [] := by
      split
      · next hblock =>
        rw [Bool.and_eq_true, decide_eq_true_eq] at hblock
        exact enteredFunctions_eq_nil (h.1 hblock.1)
      · rfl
    rw [entered, hdirect, List.append_nil, Node.visitsUnder, List.map_cons, List.filter_cons,
      enteredAll_eq_filter code _ cs h.2]
    split
    · exact List.singleton_append
    · exact List.nil_append _

theorem enteredAll_eq_filter (code : Text) (ancestors : List Node) : (ns : List Node) →
    BlocksHaveBodies (Node.visitsOfAll ancestors ns) →
    enteredAll code ns =
      ((Node.visitsOfAll ancestors ns).map Visit.node).filter (isPayableFunction code)
  | [], _ => rfl
  | n :: ns, h => by
    rw [Node.visitsOfAll, BlocksHaveBodies, List.forall_mem_append] at h
    rw [enteredAll, Node.visitsOfAll, List.map_append, List.filter_append,
      entered_eq_filter code ancestors n h.1, enteredAll_eq_filter code ancestors ns h.2]

end

theorem enter_empty (code : Text) (root : Node) :
    enter code .empty root =
      { canReceive := !(entered code root).isEmpty
        canWithdraw := root.visits.any fun v => isWithdrawalFunction code v.node
        payable := (entered code root).map (Payable.ofNode · code)
        withdrawals := ((root.visits.map Visit.node).filter (isWithdrawalFunction code)).map
          (Withdrawal.ofNode · code) } := by
  rw [enter, readPayable_eq, receiveAll_eq, readWithdrawals_eq]
  simp only [Ledger.empty, Bool.false_or, List.nil_append]

theorem entered_ne_nil_iff (code : Text) (root : Node) :
    entered code root ≠ [] ↔
      ∃ v ∈ root.visits, v.node.kind = "function_item" ∧ isPayable v.node code = true := by
  constructor
  · intro h
    obtain ⟨n, hn⟩ := List.exists_mem_of_ne_nil _ h
    obtain ⟨hmem, hpayable⟩ := (mem_entered_iff code [] n root).mp hn
    obtain ⟨v, hv, rfl⟩ := List.mem_map.mp hmem
    rw [isPayableFunction, Bool.and_eq_true, decide_eq_true_eq] at hpayable
    exact ⟨v, hv, hpayable⟩
  · rintro ⟨v, hv, hfunction, hpayable⟩
    apply List.ne_nil_of_mem
    refine (mem_entered_iff code [] v.node root).mpr ⟨List.mem_map_of_mem hv, ?_⟩
    rw [isPayableFunction, Bool.and_eq_true, decide_eq_true_eq]
    exact ⟨hfunction, hpayable⟩

theorem any_isWithdrawalFunction_iff (code : Text) (visits : List Visit) :
    (visits.any fun v => isWithdrawalFunction code v.node) = true ↔
      ∃ v ∈ visits, v.node.kind = "function_item" ∧ isWithdrawal v.node code = true := by
  simp only [List.any_eq_true, isWithdrawalFunction, Bool.and_eq_true, decide_eq_true_eq]

theorem issues_of_locked {code : Text} {root : Node} (hpayable : entered code root ≠ [])
    (hkept : ¬(root.visits.any fun v => isWithdrawalFunction code v.node) = true) :
    issues (enter code .empty root) =
      [report ((entered code root).map (Payable.ofNode · code))] := by
  rw [Bool.not_eq_true] at hkept
  have hentered : (entered code root).isEmpty = false := by
    rw [List.isEmpty_eq_false_iff]
    exact hpayable
  simp only [enter_empty, issues, hentered, hkept, Bool.not_false, Bool.and_self, if_true]

theorem issues_of_not_locked {code : Text} {root : Node}
    (h : entered code root = [] ∨
      (root.visits.any fun v => isWithdrawalFunction code v.node) = true) :
    issues (enter code .empty root) = [] := by
  rw [enter_empty, issues]
  rcases h with hnone | hout
  · simp only [hnone, List.isEmpty_nil, Bool.not_true, Bool.false_and, Bool.false_eq_true,
      if_false]
  · simp only [hout, Bool.not_true, Bool.and_false, Bool.false_eq_true, if_false]

theorem mention_ofNode (code : Text) (n : Node) :
    (Payable.ofNode n code).mention =
      "'" ++ String.ofList (functionName n code) ++ "' (line " ++ toString n.firstLine ++ ")" := by
  simp only [Payable.mention, Payable.ofNode]

theorem map_mention_ofNode (code : Text) (ns : List Node) :
    (ns.map (Payable.ofNode · code)).map Payable.mention = ns.map fun n =>
      "'" ++ String.ofList (functionName n code) ++ "' (line " ++ toString n.firstLine ++ ")" := by
  rw [List.map_map]
  apply List.map_congr_left
  intro n _
  exact mention_ofNode code n

theorem mentions_of_ne_nil {payable : List Payable} (h : payable ≠ []) :
    mentions payable =
      "Payable functions found: " ++ ", ".intercalate (payable.map Payable.mention) ++ ". " := by
  cases payable with
  | nil => exact absurd rfl h
  | cons q payable => simp only [mentions]

theorem description_map_ofNode (code : Text) {ns : List Node} (h : ns ≠ []) :
    description (ns.map (Payable.ofNode · code)) =
      "Contract can receive Ether but lacks withdrawal methods. " ++
        ("Payable functions found: " ++ ", ".intercalate (ns.map fun n =>
          "'" ++ String.ofList (functionName n code) ++ "' (line " ++ toString n.firstLine ++ ")")
          ++ ". ") ++ "This may cause funds to become permanently locked." := by
  have hne : ns.map (Payable.ofNode · code) ≠ [] := by rwa [ne_eq, List.map_eq_nil_iff]
  have hmentions := mentions_of_ne_nil hne
  rw [map_mention_ofNode] at hmentions
  -- comparing the two texts by evaluation does not end, so only the middle is compared
  exact congrArg (fun middle => "Contract can receive Ether but lacks withdrawal methods. " ++
    middle ++ "This may cause funds to become permanently locked.") hmentions

/-- One issue is added iff some function takes payment and none pays out. Where no block has a
function as a direct child, the functions are recorded in pre-order, and the issue stands at the
first of them and names them all. -/
theorem lockedEther_verdict (m : Memory) (code : Text) (reported : List Issue) (root : Node) :
    let out := Builtin.lockedEther.run m code reported root
    let locked := (∃ v ∈ root.visits, v.node.kind = "function_item" ∧ isPayable v.node code) ∧
      ¬∃ v ∈ root.visits, v.node.kind = "function_item" ∧ isWithdrawal v.node code
    let payable := (root.visits.map Visit.node).filter fun n =>
      n.kind = "function_item" && isPayable n code
    (locked → ∃ issue, out.2 = .complete (reported ++ [issue])) ∧
    (¬locked → out.2 = .complete reported) ∧
    (BlocksHaveBodies root.visits →
      out.1.ledger.payable = payable.map (Payable.ofNode · code) ∧
      (locked → ∃ first rest issue, payable = first :: rest ∧
        out.2 = .complete (reported ++ [issue]) ∧
        issue.lineStart = first.firstLine ∧ issue.lineEnd = first.lastLine ∧
        issue.snippet = String.ofList (if (first.text code).length > 100
          then (first.text code).take 100 ++ "...".toList else first.text code) ∧
        issue.description = "Contract can receive Ether but lacks withdrawal methods. " ++
          ("Payable functions found: " ++ ", ".intercalate (payable.map fun n =>
            "'" ++ String.ofList (functionName n code) ++ "' (line " ++ toString n.firstLine ++ ")")
            ++ ". ") ++ "This may cause funds to become permanently locked.")) := by
  intro out locked payable
  have hledger : out.1.ledger = enter code .empty root := rfl
  have hout : out.2 = .complete (reported ++ issues (enter code .empty root)) := rfl
  have hlocked : locked → out.2 = .complete (reported ++
      [report ((entered code root).map (Payable.ofNode · code))]) := by
    rintro ⟨hpayable, hkept⟩
    rw [← entered_ne_nil_iff] at hpayable
    rw [← any_isWithdrawalFunction_iff] at hkept
    rw [hout, issues_of_locked hpayable hkept]
  refine ⟨fun h => ⟨_, hlocked h⟩, ?_, ?_⟩
  · intro h
    have hcases : entered code root = [] ∨
        (root.visits.any fun v => isWithdrawalFunction code v.node) = true := by
      rw [any_isWithdrawalFunction_iff]
      by_contra hnot
      rw [not_or, ← ne_eq, entered_ne_nil_iff] at hnot
      exact h hnot
    rw [hout, issues_of_not_locked hcases, List.append_nil]
  · intro hbodies
    have hentered : entered code root = payable := entered_eq_filter code [] root hbodies
    refine ⟨by rw [hledger, enter_empty, hentered], ?_⟩
    intro h
    obtain ⟨first, rest, hcons⟩ := List.exists_cons_of_ne_nil
      (hentered ▸ (entered_ne_nil_iff code root).mpr h.1)
    refine ⟨first, rest, report ((first :: rest).map (Payable.ofNode · code)), hcons, ?_, rfl, rfl,
      rfl, ?_⟩
    · rw [hlocked h, hentered, hcons]
    · rw [← hcons]
      exact description_map_ofNode code (hcons ▸ List.cons_ne_nil first rest)

def twoPayable : Node :=
  .mk "source_file" ⟨0, 47, 0, 1⟩
    [.mk "impl_item" ⟨0, 47, 0, 1⟩
      [.mk "declaration_list" ⟨7, 47, 0, 1⟩
        [.mk "function_item" ⟨9, 24, 0, 0⟩ [.mk "identifier" ⟨12, 19, 0, 0⟩ []],
         .mk "function_item" ⟨25, 45, 1, 1⟩ [.mk "identifier" ⟨28, 29, 1, 1⟩ []]]]]

/-- The instance remembers another contract. -/
theorem lockedEther_verdict_twoPayable :
    let code := "impl A \x7b fn receive() \x7b\x7d\nfn f() \x7bmsg_value()\x7d \x7d".toList
    let m : Memory := ⟨[], ⟨true, true, [⟨"old", 7, 7, "old"⟩], [⟨"older", 8, 8⟩]⟩⟩
    BlocksHaveBodies twoPayable.visits ∧
    (Builtin.lockedEther.run m code [] twoPayable).1.ledger.payable.map (·.name) =
      ["receive", "f"] ∧
    ∃ issue, (Builtin.lockedEther.run m code [] twoPayable).2 = .complete [issue] ∧
      issue.lineStart = 1 := by
  intro code m
  have hbodies : BlocksHaveBodies twoPayable.visits := by decide
  have hpayable : ∃ v ∈ twoPayable.visits,
      v.node.kind = "function_item" ∧ isPayable v.node code := by decide +kernel
  have hkept : ¬∃ v ∈ twoPayable.visits,
      v.node.kind = "function_item" ∧ isWithdrawal v.node code := by decide +kernel
  have hlines : ((twoPayable.visits.map Visit.node).filter fun n =>
      n.kind = "function_item" && isPayable n code).map Node.firstLine = [1, 2] := by
    decide +kernel
  obtain ⟨hrecorded, hreport⟩ := (lockedEther_verdict m code [] twoPayable).2.2 hbodies
  obtain ⟨first, rest, issue, hcons, hout, hline, -⟩ := hreport ⟨hpayable, hkept⟩
  refine ⟨hbodies, ?_, issue, hout, ?_⟩
  · rw [hrecorded]
    decide +kernel
  · rw [hcons] at hlines
    exact hline.trans (List.cons.inj hlines).1

end ContractAudit.Detect.LockedEther

import ContractAudit.Detect.LockedEther
import ContractAudit.Proofs.Position.Place

/-! The ledger of a contract on a source that has whole lines in front: the same functions take
payment and pay out, further down. -/

namespace ContractAudit.Detect.LockedEther

variable {p code : Text} {rows : Int}

def Payable.shift (rows : Int) (q : Payable) : Payable :=
  { q with lineStart := q.lineStart + rows, lineEnd := q.lineEnd + rows }

def Withdrawal.shift (rows : Int) (w : Withdrawal) : Withdrawal :=
  { w with lineStart := w.lineStart + rows, lineEnd := w.lineEnd + rows }

def Ledger.shift (rows : Int) (l : Ledger) : Ledger :=
  { l with
    payable := l.payable.map (Payable.shift rows)
    withdrawals := l.withdrawals.map (Withdrawal.shift rows) }

theorem functionName_shift {n : Node} (h : n.All Node.Located) :
    functionName (n.shift p.length rows) (p ++ code) = functionName n code := by
  rw [functionName, functionName, Node.kind_shift, Node.childOfKind?_shift]
  cases hchild : n.childOfKind? "identifier" with
  | none => rfl
  | some child =>
    have hlocated := (h.child (List.mem_of_find?_eq_some hchild)).self
    simp only [Option.map_some, unmoved_text child hlocated]

theorem any_sections_append (hwhole : p.WholeLines) (hp : p.has "sol! \x7b" = false)
    (test : Text → Bool) :
    ((Solidity.sections (p ++ code)).any fun s => test s.code) =
      (Solidity.sections code).any fun s => test s.code := by
  rw [Solidity.sections_append hwhole hp, List.any_map]
  rfl

theorem isPayable_shift (hwhole : p.WholeLines) (hp : p.has "sol! \x7b" = false) {n : Node}
    (h : n.All Node.Located) :
    isPayable (n.shift p.length rows) (p ++ code) = isPayable n code := by
  unfold isPayable takesPayment
  rw [unmoved_text n h.self, functionName_shift h,
    any_sections_append hwhole hp
      (fun text => text.has "payable" && Text.occurs (functionName n code) text)]

theorem isWithdrawal_shift (hwhole : p.WholeLines) (hp : p.has "sol! \x7b" = false) {n : Node}
    (h : n.All Node.Located) :
    isWithdrawal (n.shift p.length rows) (p ++ code) = isWithdrawal n code := by
  unfold isWithdrawal paysOut sectionPaysOut
  rw [unmoved_text n h.self, functionName_shift h,
    any_sections_append hwhole hp (fun text => Text.occurs (functionName n code) text &&
      (activeCode (fun line => withoutBlockComment (withoutLineComment line)) text).hasAny
        solidityPayoutPatterns)]

theorem receive_shift {n : Node} (h : n.All Node.Located) (l : Ledger) :
    (l.shift rows).receive (n.shift p.length rows) (p ++ code) =
      (l.receive n code).shift rows := by
  simp only [Ledger.receive, Ledger.shift, List.map_append, List.map_cons, List.map_nil,
    Payable.ofNode, Payable.shift, functionName_shift h, unmoved_text n h.self,
    Node.firstLine_shift, Node.lastLine_shift]

theorem withdraw_shift {n : Node} (h : n.All Node.Located) (l : Ledger) :
    (l.shift rows).withdraw (n.shift p.length rows) (p ++ code) =
      (l.withdraw n code).shift rows := by
  simp only [Ledger.withdraw, Ledger.shift, List.map_append, List.map_cons, List.map_nil,
    Withdrawal.ofNode, Withdrawal.shift, functionName_shift h, Node.firstLine_shift,
    Node.lastLine_shift]

mutual

theorem readPayable_shift (hwhole : p.WholeLines) (hp : p.has "sol! \x7b" = false) (l : Ledger) :
    (n : Node) → n.All Node.Located →
      readPayable (p ++ code) (l.shift rows) (n.shift p.length rows) =
        (readPayable code l n).shift rows
  | .mk kind extent cs, h => by
    have hcs : Node.AllOf Node.Located cs := (Node.allOf_iff _ _).mpr fun c hc => h.child hc
    have hpayable : isPayable ((Node.mk kind extent cs).shift p.length rows) (p ++ code) =
        isPayable (.mk kind extent cs) code := isPayable_shift hwhole hp h
    have hmentions : mentionsPayment ((Node.mk kind extent cs).shift p.length rows) (p ++ code) =
        mentionsPayment (.mk kind extent cs) code := by
      simp only [mentionsPayment, unmoved_text _ h.self]
    have hreceive : (l.shift rows).receive ((Node.mk kind extent cs).shift p.length rows)
        (p ++ code) = (l.receive (.mk kind extent cs) code).shift rows := receive_shift h l
    rw [Node.shift] at hpayable hmentions hreceive
    rw [Node.shift, readPayable, readPayable, hpayable, hmentions, hreceive]
    by_cases hfunction : kind = "function_item"
    · simp only [hfunction, if_true]
      split
      · exact readPayableAll_shift hwhole hp _ cs hcs
      · exact readPayableAll_shift hwhole hp _ cs hcs
    · simp only [hfunction, if_false]
      split
      · rw [readFunctions_shift hwhole hp l cs hcs]
        exact readPayableAll_shift hwhole hp _ cs hcs
      · exact readPayableAll_shift hwhole hp _ cs hcs

theorem readPayableAll_shift (hwhole : p.WholeLines) (hp : p.has "sol! \x7b" = false)
    (l : Ledger) : (ns : List Node) → Node.AllOf Node.Located ns →
      readPayableAll (p ++ code) (l.shift rows) (Node.shiftAll p.length rows ns) =
        (readPayableAll code l ns).shift rows
  | [], _ => rfl
  | n :: ns, h => by
    rw [Node.AllOf] at h
    rw [Node.shiftAll, readPayableAll, readPayableAll, readPayable_shift hwhole hp l n h.1]
    exact readPayableAll_shift hwhole hp _ ns h.2

theorem readFunctions_shift (hwhole : p.WholeLines) (hp : p.has "sol! \x7b" = false)
    (l : Ledger) : (ns : List Node) → Node.AllOf Node.Located ns →
      readFunctions (p ++ code) (l.shift rows) (Node.shiftAll p.length rows ns) =
        (readFunctions code l ns).shift rows
  | [], _ => rfl
  | n :: ns, h => by
    rw [Node.AllOf] at h
    rw [Node.shiftAll, readFunctions, readFunctions, Node.kind_shift]
    by_cases hfunction : n.kind = "function_item"
    · rw [if_pos hfunction, if_pos hfunction, readPayable_shift hwhole hp l n h.1]
      exact readFunctions_shift hwhole hp _ ns h.2
    · rw [if_neg hfunction, if_neg hfunction]
      exact readFunctions_shift hwhole hp l ns h.2

end

theorem readWithdrawals_shift (hwhole : p.WholeLines) (hp : p.has "sol! \x7b" = false)
    {root : Node} (h : root.All Node.Located) (l : Ledger) :
    readWithdrawals (p ++ code) (l.shift rows) (root.shift p.length rows) =
      (readWithdrawals code l root).shift rows := by
  rw [readWithdrawals, readWithdrawals]
  refine Node.walk_shift (Ledger.shift rows) ?_ l
  intro v hv l
  have hn := (Node.located_visits h v hv).1
  rw [Visit.node_shift, Node.kind_shift, isWithdrawal_shift hwhole hp hn, withdraw_shift hn]
  split <;> rfl

theorem enter_shift (hwhole : p.WholeLines) (hp : p.has "sol! \x7b" = false) {root : Node}
    (h : root.All Node.Located) :
    enter (p ++ code) .empty (root.shift p.length rows) = (enter code .empty root).shift rows := by
  rw [enter, enter, ← readWithdrawals_shift hwhole hp h, ← readPayable_shift hwhole hp _ root h]
  rfl

end ContractAudit.Detect.LockedEther

import ContractAudit.Proofs.Detect.Checked
import ContractAudit.Proofs.Detect.Ledger
import ContractAudit.Proofs.Tree.Nesting
import ContractAudit.Rust.Parser

/-! The attribute `#[payable]`. It is looked for in the text of a function, and an attribute stands
beside the function that it is about. So attributes can be taken out of a tree and the same is
reported of it. What is written in one counts where it is inside a function, and then it counts for
the function around it. -/

namespace ContractAudit

namespace Node

mutual

def withoutAttributes : Node → Node
  | mk kind extent cs => mk kind extent (withoutAttributesAll cs)

def withoutAttributesAll : List Node → List Node
  | [] => []
  | n :: ns =>
    if n.kind = "attribute_item" then withoutAttributesAll ns
    else n.withoutAttributes :: withoutAttributesAll ns

end

@[simp] theorem kind_withoutAttributes (n : Node) : n.withoutAttributes.kind = n.kind := by
  cases n
  rfl

@[simp] theorem extent_withoutAttributes (n : Node) : n.withoutAttributes.extent = n.extent := by
  cases n
  rfl

theorem text_withoutAttributes (n : Node) (code : Text) :
    n.withoutAttributes.text code = n.text code := by
  simp only [text, extent_withoutAttributes]

theorem find?_withoutAttributesAll {kind : String} (hkind : kind ≠ "attribute_item")
    (ns : List Node) :
    (withoutAttributesAll ns).find? (·.kind = kind) =
      (ns.find? (·.kind = kind)).map withoutAttributes := by
  induction ns with
  | nil => rfl
  | cons n ns ih =>
    rw [withoutAttributesAll, List.find?_cons]
    by_cases hattribute : n.kind = "attribute_item"
    · have hother : n.kind ≠ kind := fun h => hkind (h.symm.trans hattribute)
      rw [if_pos hattribute, ih]
      simp only [hother, decide_false]
    · rw [if_neg hattribute, List.find?_cons, kind_withoutAttributes]
      by_cases hfound : n.kind = kind
      · simp only [hfound, decide_true, Option.map_some]
      · simp only [hfound, decide_false, ih]

theorem childOfKind?_withoutAttributes {kind : String} (hkind : kind ≠ "attribute_item")
    (n : Node) :
    n.withoutAttributes.childOfKind? kind = (n.childOfKind? kind).map withoutAttributes := by
  cases n
  exact find?_withoutAttributesAll hkind _

def AttributesApart (visits : List Visit) : Prop :=
  ∀ v ∈ visits, v.node.kind = "function_item" → ∀ a ∈ v.ancestors, a.kind ≠ "attribute_item"

instance (visits : List Visit) : Decidable (AttributesApart visits) :=
  inferInstanceAs (Decidable (∀ v ∈ visits, v.node.kind = "function_item" →
    ∀ a ∈ v.ancestors, a.kind ≠ "attribute_item"))

theorem AttributesApart.no_function {ancestors : List Node} {n : Node}
    (h : AttributesApart (visitsUnder ancestors n)) (hn : n.kind = "attribute_item") :
    ∀ v ∈ visitsUnder ancestors n, v.node.kind ≠ "function_item" := by
  intro v hv hfunction
  rcases visitsUnder_eq_or_suffix ancestors n v hv with rfl | hsuffix
  · rw [hn] at hfunction
    exact absurd hfunction (by decide)
  · exact h v hv hfunction n (hsuffix.subset List.mem_cons_self) hn

theorem AttributesApart.children {ancestors : List Node} {kind : String} {extent : Extent}
    {cs : List Node} (h : AttributesApart (visitsUnder ancestors (mk kind extent cs))) :
    AttributesApart (visitsOfAll (mk kind extent cs :: ancestors) cs) := by
  rw [visitsUnder, AttributesApart, List.forall_mem_cons] at h
  exact h.2

theorem AttributesApart.cons {ancestors : List Node} {n : Node} {ns : List Node}
    (h : AttributesApart (visitsOfAll ancestors (n :: ns))) :
    AttributesApart (visitsUnder ancestors n) ∧ AttributesApart (visitsOfAll ancestors ns) := by
  rw [visitsOfAll, AttributesApart, List.forall_mem_append] at h
  exact h

/-- A step of a walk that looks at functions only, and neither at the attributes in them nor at the
nodes around them. -/
structure FunctionsOnly {σ : Type} (step : σ → Visit → σ) : Prop where
  skip : ∀ s v, v.node.kind ≠ "function_item" → step s v = s
  same : ∀ s n a b, step s ⟨n.withoutAttributes, a⟩ = step s ⟨n, b⟩

section Walk

variable {σ : Type} {step : σ → Visit → σ}

theorem FunctionsOnly.walkUnder_eq_self (hstep : FunctionsOnly step) {ancestors : List Node}
    {n : Node} (h : ∀ v ∈ visitsUnder ancestors n, v.node.kind ≠ "function_item") (s : σ) :
    walkUnder step ancestors s n = s := by
  rw [walkUnder_eq_foldl]
  generalize visitsUnder ancestors n = visits at h
  induction visits with
  | nil => rfl
  | cons v visits ih =>
    obtain ⟨hv, hrest⟩ := List.forall_mem_cons.mp h
    rw [List.foldl_cons, hstep.skip s v hv, ih hrest]

mutual

theorem FunctionsOnly.walkUnder_withoutAttributes (hstep : FunctionsOnly step)
    (above ancestors : List Node) (s : σ) : (n : Node) → AttributesApart (visitsUnder ancestors n) →
    walkUnder step above s n.withoutAttributes = walkUnder step ancestors s n
  | .mk kind extent cs, h => by
    have hsame := hstep.same s (.mk kind extent cs) above ancestors
    rw [withoutAttributes] at hsame ⊢
    rw [walkUnder, walkUnder, hsame]
    exact hstep.walkAll_withoutAttributes _ _ _ cs h.children

theorem FunctionsOnly.walkAll_withoutAttributes (hstep : FunctionsOnly step)
    (above ancestors : List Node) (s : σ) : (ns : List Node) →
    AttributesApart (visitsOfAll ancestors ns) →
    walkAll step above s (withoutAttributesAll ns) = walkAll step ancestors s ns
  | [], _ => rfl
  | n :: ns, h => by
    obtain ⟨hn, hns⟩ := h.cons
    rw [withoutAttributesAll, walkAll]
    by_cases hattribute : n.kind = "attribute_item"
    · rw [if_pos hattribute, hstep.walkUnder_eq_self (hn.no_function hattribute)]
      exact hstep.walkAll_withoutAttributes above ancestors s ns hns
    · rw [if_neg hattribute, walkAll, hstep.walkUnder_withoutAttributes above ancestors s n hn]
      exact hstep.walkAll_withoutAttributes above ancestors _ ns hns

end

end Walk

end Node

namespace Detect.LockedEther

open Node (AttributesApart visitsUnder visitsOfAll withoutAttributesAll)

section Unread

variable (code : Text)

theorem functionName_withoutAttributes (n : Node) :
    functionName n.withoutAttributes code = functionName n code := by
  rw [functionName, functionName, Node.kind_withoutAttributes,
    Node.childOfKind?_withoutAttributes (by decide)]
  cases n.childOfKind? "identifier" with
  | none => rfl
  | some child => simp only [Option.map_some, Node.text_withoutAttributes]

theorem isPayable_withoutAttributes (n : Node) :
    isPayable n.withoutAttributes code = isPayable n code := by
  simp only [isPayable, Node.text_withoutAttributes, functionName_withoutAttributes]

theorem isWithdrawal_withoutAttributes (n : Node) :
    isWithdrawal n.withoutAttributes code = isWithdrawal n code := by
  simp only [isWithdrawal, Node.text_withoutAttributes, functionName_withoutAttributes]

theorem mentionsPayment_withoutAttributes (n : Node) :
    mentionsPayment n.withoutAttributes code = mentionsPayment n code := by
  simp only [mentionsPayment, Node.text_withoutAttributes]

theorem receive_withoutAttributes (l : Ledger) (n : Node) :
    l.receive n.withoutAttributes code = l.receive n code := by
  simp only [Ledger.receive, Payable.ofNode, Node.firstLine, Node.lastLine,
    Node.extent_withoutAttributes, Node.text_withoutAttributes, functionName_withoutAttributes]

theorem withdraw_withoutAttributes (l : Ledger) (n : Node) :
    l.withdraw n.withoutAttributes code = l.withdraw n code := by
  simp only [Ledger.withdraw, Withdrawal.ofNode, Node.firstLine, Node.lastLine,
    Node.extent_withoutAttributes, functionName_withoutAttributes]

theorem readPayable_of_no_function {ancestors : List Node} {n : Node}
    (h : ∀ v ∈ visitsUnder ancestors n, v.node.kind ≠ "function_item") (l : Ledger) :
    readPayable code l n = l := by
  have hnone : entered code n = [] := by
    apply List.eq_nil_iff_forall_not_mem.mpr
    intro m hm
    obtain ⟨hmem, hpayable⟩ := (mem_entered_iff code ancestors m n).mp hm
    obtain ⟨v, hv, rfl⟩ := List.mem_map.mp hmem
    rw [isPayableFunction, Bool.and_eq_true, decide_eq_true_eq] at hpayable
    exact h v hv hpayable.1
  rw [readPayable_eq, hnone]
  rfl

mutual

theorem readPayable_withoutAttributes (ancestors : List Node) (l : Ledger) : (n : Node) →
    AttributesApart (visitsUnder ancestors n) →
    readPayable code l n.withoutAttributes = readPayable code l n
  | .mk kind extent cs, h => by
    have hpayable := isPayable_withoutAttributes code (.mk kind extent cs)
    have hmentions := mentionsPayment_withoutAttributes code (.mk kind extent cs)
    have hreceive := receive_withoutAttributes code l (.mk kind extent cs)
    rw [Node.withoutAttributes] at hpayable hmentions hreceive ⊢
    rw [readPayable, readPayable, hpayable, hmentions, hreceive,
      readFunctions_withoutAttributes _ l cs h.children]
    exact readPayableAll_withoutAttributes _ _ cs h.children

theorem readPayableAll_withoutAttributes (ancestors : List Node) (l : Ledger) : (ns : List Node) →
    AttributesApart (visitsOfAll ancestors ns) →
    readPayableAll code l (withoutAttributesAll ns) = readPayableAll code l ns
  | [], _ => rfl
  | n :: ns, h => by
    obtain ⟨hn, hns⟩ := h.cons
    rw [withoutAttributesAll, readPayableAll]
    by_cases hattribute : n.kind = "attribute_item"
    · -- nothing is entered from an attribute, so it makes no difference that it is read
      rw [if_pos hattribute, readPayable_of_no_function code (hn.no_function hattribute)]
      exact readPayableAll_withoutAttributes ancestors l ns hns
    · rw [if_neg hattribute, readPayableAll, readPayable_withoutAttributes ancestors l n hn]
      exact readPayableAll_withoutAttributes ancestors _ ns hns

theorem readFunctions_withoutAttributes (ancestors : List Node) (l : Ledger) : (ns : List Node) →
    AttributesApart (visitsOfAll ancestors ns) →
    readFunctions code l (withoutAttributesAll ns) = readFunctions code l ns
  | [], _ => rfl
  | n :: ns, h => by
    obtain ⟨hn, hns⟩ := h.cons
    rw [withoutAttributesAll, readFunctions]
    by_cases hattribute : n.kind = "attribute_item"
    · rw [if_pos hattribute, if_neg (by rw [hattribute]; decide)]
      exact readFunctions_withoutAttributes ancestors l ns hns
    · rw [if_neg hattribute, readFunctions, Node.kind_withoutAttributes,
        readPayable_withoutAttributes ancestors l n hn]
      exact readFunctions_withoutAttributes ancestors _ ns hns

end

theorem readWithdrawals_withoutAttributes (l : Ledger) {root : Node}
    (h : AttributesApart root.visits) :
    readWithdrawals code l root.withoutAttributes = readWithdrawals code l root := by
  refine Node.FunctionsOnly.walkUnder_withoutAttributes ⟨?_, ?_⟩ [] [] l root h
  · intro s v hv
    simp only [hv, decide_false, Bool.false_and, Bool.false_eq_true, if_false]
  · intro s n a b
    simp only [Node.kind_withoutAttributes, isWithdrawal_withoutAttributes,
      withdraw_withoutAttributes]

theorem enter_withoutAttributes (l : Ledger) {root : Node} (h : AttributesApart root.visits) :
    enter code l root.withoutAttributes = enter code l root := by
  rw [enter, enter, readPayable_withoutAttributes code [] l root h,
    readWithdrawals_withoutAttributes code _ h]

end Unread

inductive PaymentSign (code : Text) (n : Node) : Prop
  | marked (h : (n.text code).has "#[payable]")
  | value (h : (n.text code).has "msg_value()")
  | name (h : functionName n code ∈ ["receive".toList, "fallback".toList, "default".toList])
  | parameter (h : (n.text code).has "value:")
      (htype : (n.text code).has "U256" ∨ (n.text code).has "u256")
  | declaration (s : Solidity.Section) (hs : s ∈ Solidity.sections code) (h : s.code.has "payable")
      (hname : functionName n code <:+: s.code)

theorem isPayable_iff (n : Node) (code : Text) : isPayable n code ↔ PaymentSign code n := by
  have hvalue : (n.text code).has "evm::msg_value()" → (n.text code).has "msg_value()" := by
    intro h
    rw [Text.has_iff] at h ⊢
    exact List.IsInfix.trans ⟨"evm::".toList, [], rfl⟩ h
  simp only [isPayable, takesPayment, Text.hasAny, List.any_cons, List.any_nil, Bool.or_false,
    Bool.or_eq_true, Bool.and_eq_true, List.contains_iff_mem, List.any_eq_true, Text.occurs_iff]
  constructor
  · rintro ((((h | h | h) | h) | ⟨h, htype⟩) | ⟨s, hs, h, hname⟩)
    · exact .marked h
    · exact .value (hvalue h)
    · exact .value h
    · exact .name h
    · exact .parameter h htype
    · exact .declaration s hs h hname
  · rintro (h | h | h | ⟨h, htype⟩ | ⟨s, hs, h, hname⟩)
    · exact .inl (.inl (.inl (.inl h)))
    · exact .inl (.inl (.inl (.inr (.inr h))))
    · exact .inl (.inl (.inr h))
    · exact .inl (.inr ⟨h, htype⟩)
    · exact .inr ⟨s, hs, h, hname⟩

/-- A function right behind an attribute that says it takes payment, both children of a visit. -/
structure Attributed (code : Text) (p : Visit) (mark f : Node) : Prop where
  adjacent : ∃ lead rest, p.node.children = lead ++ mark :: f :: rest
  mark_kind : mark.kind = "attribute_item"
  mark_text : mark.text code = "#[payable]".toList
  function_kind : f.kind = "function_item"

theorem Attributed.sign_of_around {code : Text} {root : Node} {p : Visit} {mark f g : Node}
    (h : Attributed code p mark f) (hfits : root.Fits code) (hp : p ∈ root.visits)
    (hg : g ∈ p.node :: p.ancestors) :
    ∃ v ∈ root.visits, v.node = g ∧ PaymentSign code v.node := by
  have hchild : mark ∈ p.node.children := by
    obtain ⟨lead, rest, hchildren⟩ := h.adjacent
    rw [hchildren]
    exact List.mem_append_right lead List.mem_cons_self
  have hvisit : ⟨mark, p.node :: p.ancestors⟩ ∈ root.visits :=
    Node.mem_visitsUnder_of_child hchild [] root hp
  obtain ⟨w, hw, rfl⟩ := Visit.exists_mem_path (v := ⟨mark, p.node :: p.ancestors⟩)
    (List.mem_cons_of_mem _ hg)
  have hinside := hfits.text_infix hvisit hw
  refine ⟨w, (Node.path_of_mem_visits hvisit).2.subset hw, rfl, .marked ?_⟩
  apply Text.has_of_infix hinside
  rw [h.mark_text]
  decide

/-- Where a function stands right behind the attribute `#[payable]` and no function pays out, an
issue is added iff some function shows a sign of payment itself. Its attributes are not looked at:
without them the same is noted and reported. An attribute inside a function is a sign of that
function. -/
theorem payable_attribute_only_in_text (m : Memory) {code : Text} (reported : List Issue)
    {root : Node} {p : Visit} {mark f : Node} (hp : p ∈ root.visits)
    (hmarked : Attributed code p mark f)
    (hkept : ¬∃ v ∈ root.visits, v.node.kind = "function_item" ∧ isWithdrawal v.node code) :
    let out := Builtin.lockedEther.run m code reported root
    let shown := ∃ v ∈ root.visits, v.node.kind = "function_item" ∧ PaymentSign code v.node
    (shown → ∃ issue, out.2 = .complete (reported ++ [issue]) ∧ issue.kind = "locked_ether") ∧
    (¬shown → out.2 = .complete reported) ∧
    (AttributesApart root.visits →
      Builtin.lockedEther.run m code reported root.withoutAttributes = out) ∧
    (root.Fits code → (∃ g ∈ p.node :: p.ancestors, g.kind = "function_item") → shown) := by
  intro out shown
  have hout : out.2 = .complete (reported ++ issues (enter code .empty root)) := rfl
  have hshown : shown ↔ entered code root ≠ [] := by
    rw [entered_ne_nil_iff]
    simp only [isPayable_iff]
    rfl
  rw [← any_isWithdrawalFunction_iff] at hkept
  refine ⟨?_, ?_, ?_, ?_⟩
  · intro h
    rw [hout, issues_of_locked (hshown.mp h) hkept]
    exact ⟨_, rfl, rfl⟩
  · intro h
    have hnone : entered code root = [] := not_not.mp fun hne => h (hshown.mpr hne)
    rw [hout, issues_of_not_locked (.inl hnone), List.append_nil]
  · intro hapart
    have hledger : enter code .empty root.withoutAttributes = enter code .empty root :=
      enter_withoutAttributes code .empty hapart
    exact congrArg (fun l => ({ m with ledger := l }, Findings.complete (reported ++ issues l)))
      hledger
  · rintro hfits ⟨g, hg, hfunction⟩
    obtain ⟨v, hv, rfl, hsign⟩ := hmarked.sign_of_around hfits hp hg
    exact ⟨v, hv, hfunction, hsign⟩

def attributedInside : Text :=
  "fn f() \x7b\n#[payable]\nfn g() \x7b\x7d\n\x7d".toList

theorem payable_attribute_only_in_text_inside :
    let mark := Node.mk "attribute_item" ⟨9, 19, 1, 1⟩ []
    let inner := Node.mk "function_item" ⟨20, 29, 2, 2⟩ [.mk "identifier" ⟨23, 24, 2, 2⟩ []]
    let block := Node.mk "block" ⟨7, 31, 0, 3⟩ [mark, inner]
    let outer := Node.mk "function_item" ⟨0, 31, 0, 3⟩ [.mk "identifier" ⟨3, 4, 0, 0⟩ [], block]
    let root := Node.mk "source_file" ⟨0, 31, 0, 3⟩ [outer]
    Attributed attributedInside ⟨block, [outer, root]⟩ mark inner ∧ root.Fits attributedInside ∧
      AttributesApart root.visits ∧
      ∃ issue, (Builtin.lockedEther.run .fresh attributedInside [] root).2 = .complete [issue] ∧
        issue.kind = "locked_ether" := by
  intro mark inner block outer root
  have hfacts : mark.text attributedInside = "#[payable]".toList ∧ root.Fits attributedInside ∧
      AttributesApart root.visits ∧
      ¬∃ v ∈ root.visits, v.node.kind = "function_item" ∧ isWithdrawal v.node attributedInside := by
    decide +kernel
  obtain ⟨htext, hfits, hapart, hkept⟩ := hfacts
  have hmarked : Attributed attributedInside ⟨block, [outer, root]⟩ mark inner :=
    ⟨⟨[], [], rfl⟩, rfl, htext, rfl⟩
  have hp : (⟨block, [outer, root]⟩ : Visit) ∈ root.visits :=
    .tail _ (.tail _ (.tail _ (.head _)))
  obtain ⟨hreport, -, -, hsign⟩ := payable_attribute_only_in_text .fresh [] hp hmarked hkept
  have hshown := hsign hfits ⟨outer, .tail _ (.head _), rfl⟩
  exact ⟨hmarked, hfits, hapart, hreport hshown⟩

def attributedDeposit : Text := "#[payable]\nfn deposit() \x7b\x7d\n".toList

/-- A contract that takes payment by an attribute, and never pays out, need not be reported. -/
theorem not_payable_attribute_reported :
    let root := Rust.parse attributedDeposit
    root.kind = "source_file" ∧
    ¬∀ p ∈ root.visits, ∀ mark f, Attributed attributedDeposit p mark f →
      (¬∃ v ∈ root.visits, v.node.kind = "function_item" ∧
        isWithdrawal v.node attributedDeposit) →
      ∃ i ∈ (Builtin.lockedEther.findings attributedDeposit root).issues,
        i.kind = "locked_ether" := by
  intro root
  have hfacts : root.kind = "source_file" ∧
      (Builtin.lockedEther.findings attributedDeposit root).issues = [] ∧
      (¬∃ v ∈ root.visits, v.node.kind = "function_item" ∧
        isWithdrawal v.node attributedDeposit) ∧
      root.children.map (fun c => (c.kind, c.text attributedDeposit)) =
        [("attribute_item", "#[payable]".toList),
          ("function_item", "fn deposit() \x7b\x7d".toList)] := by
    decide +kernel
  obtain ⟨hroot, hissues, hkept, hchildren⟩ := hfacts
  obtain ⟨mark, rest, hsplit, hmark, hrest⟩ := List.map_eq_cons_iff.mp hchildren
  obtain ⟨f, rest, rfl, hf, -⟩ := List.map_eq_cons_iff.mp hrest
  have hmarked : Attributed attributedDeposit ⟨root, []⟩ mark f :=
    ⟨⟨[], rest, hsplit⟩, congrArg Prod.fst hmark, congrArg Prod.snd hmark, congrArg Prod.fst hf⟩
  refine ⟨hroot, fun h => ?_⟩
  obtain ⟨i, hi, -⟩ := h _ (Node.self_mem_visitsUnder [] root) mark f hmarked hkept
  rw [hissues] at hi
  cases hi

end Detect.LockedEther
end ContractAudit

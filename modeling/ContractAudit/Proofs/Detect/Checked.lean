import ContractAudit.Proofs.Position.Builtin
import ContractAudit.Proofs.Text.Cuts

/-! Detectors with their look-ups checked. Some steps take a thing that has to be there: the part
of a header after its first word, the place of a comment mark, the first function that takes
payment, the node around a node. A checked run stops where such a thing is missing. It is shown
to be the plain run, so a guard stands before every look-up; only the nodes around a transfer can
be missing, and only at the root. -/

namespace ContractAudit

def Failure.noMark : Failure := .stopped "substring not found"

def Failure.noPart : Failure := .stopped "list index out of range"

namespace Text

def cutChecked (failure : Failure) (mark : String) (t : Text) : Except Failure (Text × Text) :=
  match cut? mark.toList t with
  | some parts => .ok parts
  | none => .error failure

theorem cutChecked_of_has (failure : Failure) {mark : String} {t : Text} (h : t.has mark = true) :
    t.cutChecked failure mark = .ok (t.before mark, t.after mark) := by
  rw [has, ← isSome_cut?] at h
  obtain ⟨⟨head, tail⟩, hcut⟩ := Option.isSome_iff_exists.mp h
  simp only [cutChecked, before, after, hcut]

end Text

theorem mapM_eq_ok {α β : Type} {f : α → Except Failure β} {g : α → β}
    (h : ∀ a, f a = .ok (g a)) (as : List α) : as.mapM f = .ok (as.map g) := by
  have hf : f = fun a => pure (g a) := funext h
  rw [hf, List.mapM_pure]
  rfl

namespace Solidity

def headerNameChecked (line : Text) : Except Failure Text := do
  let (_, tail) ← line.cutChecked .noPart "function "
  pure ((tail.before "function ").before "(").trim

def headerIssueChecked (line : Int) (header : Text) (rest : List Text) :
    Except Failure (Option Issue) := do
  let _ ← headerNameChecked header
  pure (headerIssue? line header rest)

def issuesFromChecked (line : Int) : List Text → Except Failure (List Issue)
  | [] => pure []
  | header :: rest => do
    let here ← if isHeader header then headerIssueChecked line header rest else pure none
    let more ← issuesFromChecked (line + 1) rest
    pure (here.toList ++ more)

def sectionIssuesChecked (code : Text) : Except Failure (List Issue) := do
  let found ← (sections code).mapM fun s => issuesFromChecked s.startLine s.code.lines
  pure found.flatten

theorem headerNameChecked_of_isHeader {line : Text} (h : isHeader line = true) :
    headerNameChecked line = .ok (headerName line) := by
  rw [isHeader, Bool.and_eq_true] at h
  rw [headerNameChecked, Text.cutChecked_of_has .noPart h.1]
  rfl

theorem issuesFromChecked_eq (line : Int) (ls : List Text) :
    issuesFromChecked line ls = .ok (issuesFrom line ls) := by
  induction ls generalizing line with
  | nil => rfl
  | cons header rest ih =>
    rw [issuesFromChecked, ih, issuesFrom]
    by_cases hheader : isHeader header
    · rw [if_pos hheader, if_pos hheader, headerIssueChecked,
        headerNameChecked_of_isHeader hheader]
      rfl
    · rw [if_neg hheader, if_neg hheader]
      rfl

theorem sectionIssuesChecked_eq (code : Text) :
    sectionIssuesChecked code = .ok (sectionIssues code) := by
  have hsection : ∀ s : Section, issuesFromChecked s.startLine s.code.lines =
      .ok (transferIssues s.code s.startLine) :=
    fun s => issuesFromChecked_eq s.startLine s.code.lines
  rw [sectionIssuesChecked, mapM_eq_ok hsection, sectionIssues, List.flatMap_def]
  rfl

end Solidity

namespace Detect

namespace LockedEther

def withoutLineCommentChecked (line : Text) : Except Failure Text :=
  if line.has "//" then do
    let (head, _) ← line.cutChecked .noMark "//"
    pure head
  else pure line

def withoutBlockCommentChecked (line : Text) : Except Failure Text :=
  if line.has "/*" && line.has "*/" then do
    let (head, _) ← line.cutChecked .noMark "/*"
    let (_, tail) ← line.cutChecked .noMark "*/"
    pure (head ++ tail)
  else pure line

def activeCodeChecked (clean : Text → Except Failure Text) (text : Text) :
    Except Failure Text := do
  let cleaned ← text.lines.mapM clean
  pure (Text.joinWith [' '] ((cleaned.map Text.trim).filter (· ≠ [])))

def sectionPaysOutChecked (name : Text) (s : Solidity.Section) : Except Failure Bool := do
  let active ← activeCodeChecked (fun line => do
    withoutBlockCommentChecked (← withoutLineCommentChecked line)) s.code
  pure (Text.occurs name s.code && active.hasAny solidityPayoutPatterns)

def isWithdrawalChecked (n : Node) (code : Text) : Except Failure Bool := do
  let active ← activeCodeChecked withoutLineCommentChecked (n.text code)
  let sections ← (Solidity.sections code).mapM (sectionPaysOutChecked (functionName n code))
  pure (active.hasAny payoutPatterns || sections.any id)

def withdrawChecked (code : Text) (l : Ledger) (v : Visit) : Except Failure Ledger := do
  if v.node.kind = "function_item" then
    if ← isWithdrawalChecked v.node code then pure (l.withdraw v.node code) else pure l
  else pure l

def readWithdrawalsChecked (code : Text) (l : Ledger) (root : Node) : Except Failure Ledger :=
  root.walk (fun found v => found.bind (withdrawChecked code · v)) (.ok l)

def reportChecked : List Payable → Except Failure Issue
  | [] => .error .noPart
  | payable => .ok (report payable)

def issuesChecked (l : Ledger) : Except Failure (List Issue) :=
  if l.canReceive && !l.canWithdraw then do
    let issue ← reportChecked l.payable
    pure [issue]
  else pure []

theorem withoutLineCommentChecked_eq (line : Text) :
    withoutLineCommentChecked line = .ok (withoutLineComment line) := by
  rw [withoutLineCommentChecked, withoutLineComment]
  by_cases h : line.has "//"
  · rw [if_pos h, Text.cutChecked_of_has .noMark h]
    rfl
  · rw [if_neg h, Text.before_of_not_has h]
    rfl

theorem withoutBlockCommentChecked_eq (line : Text) :
    withoutBlockCommentChecked line = .ok (withoutBlockComment line) := by
  rw [withoutBlockCommentChecked, withoutBlockComment]
  by_cases h : (line.has "/*" && line.has "*/") = true
  · have hboth := Bool.and_eq_true_iff.mp h
    rw [if_pos h, if_pos h, Text.cutChecked_of_has .noMark hboth.1,
      Text.cutChecked_of_has .noMark hboth.2]
    rfl
  · rw [if_neg h, if_neg h]
    rfl

theorem activeCodeChecked_eq {cleanChecked : Text → Except Failure Text} {clean : Text → Text}
    (h : ∀ line, cleanChecked line = .ok (clean line)) (text : Text) :
    activeCodeChecked cleanChecked text = .ok (activeCode clean text) := by
  rw [activeCodeChecked, mapM_eq_ok h]
  simp only [activeCode, bind, Except.bind, pure, Except.pure, List.map_map, Function.comp_def]

theorem sectionPaysOutChecked_eq (name : Text) (s : Solidity.Section) :
    sectionPaysOutChecked name s = .ok (sectionPaysOut name s) := by
  have hclean : ∀ line, (do withoutBlockCommentChecked (← withoutLineCommentChecked line)) =
      Except.ok (withoutBlockComment (withoutLineComment line)) := by
    intro line
    rw [withoutLineCommentChecked_eq]
    exact withoutBlockCommentChecked_eq _
  rw [sectionPaysOutChecked, activeCodeChecked_eq hclean]
  rfl

theorem isWithdrawalChecked_eq (n : Node) (code : Text) :
    isWithdrawalChecked n code = .ok (isWithdrawal n code) := by
  rw [isWithdrawalChecked, activeCodeChecked_eq withoutLineCommentChecked_eq,
    mapM_eq_ok (sectionPaysOutChecked_eq (functionName n code))]
  simp only [isWithdrawal, paysOut, bind, Except.bind, pure, Except.pure, List.any_map,
    Function.id_comp]

theorem withdrawChecked_eq (code : Text) (l : Ledger) (v : Visit) :
    withdrawChecked code l v =
      .ok (if v.node.kind = "function_item" && isWithdrawal v.node code then
        l.withdraw v.node code else l) := by
  rw [withdrawChecked, isWithdrawalChecked_eq]
  by_cases hfunction : v.node.kind = "function_item"
  · rw [if_pos hfunction]
    simp only [hfunction, decide_true, Bool.true_and, bind, Except.bind, pure, Except.pure]
    split <;> rfl
  · rw [if_neg hfunction]
    simp only [hfunction, decide_false, Bool.false_and, Bool.false_eq_true, if_false, pure,
      Except.pure]

theorem readWithdrawalsChecked_eq (code : Text) (l : Ledger) (root : Node) :
    readWithdrawalsChecked code l root = .ok (readWithdrawals code l root) := by
  rw [readWithdrawalsChecked, readWithdrawals, Node.walk_eq_foldl, Node.walk_eq_foldl]
  refine List.foldl_hom Except.ok fun l v => ?_
  exact withdrawChecked_eq code l v

theorem issuesChecked_eq {l : Ledger} (h : l.canReceive → l.payable ≠ []) :
    issuesChecked l = .ok (issues l) := by
  rw [issuesChecked, issues]
  split
  · next hlocked =>
    rw [Bool.and_eq_true] at hlocked
    obtain ⟨first, rest, hpayable⟩ := List.exists_cons_of_ne_nil (h hlocked.1)
    rw [hpayable]
    rfl
  · rfl

end LockedEther

namespace Packed

def shownChecked (v : Visit) : Finding → Except Failure Node
  | .packing => pure v.node
  | .join => pure v.node
  | .array =>
    match v.parent? with
    | some parent => pure parent
    | none => .error .rootHasNoParent

def findChecked (code : Text) (v : Visit) : Except Failure (Option Issue) :=
  match classify code v with
  | none => pure none
  | some f => do
    let shown ← shownChecked v f
    pure (some { issue code v f with snippet := String.ofList (shown.forwardText code) })

theorem parent?_of_classify {code : Text} {v : Visit} (h : classify code v = some .array) :
    v.parent?.isSome := by
  unfold classify at h
  split at h
  · dsimp only at h
    split at h
    · split at h <;> cases h
    · split at h
      · split at h <;> cases h
      · cases h
  · split at h
    · cases hparent : v.parent? with
      | none =>
        rw [hparent] at h
        cases h
      | some parent => rfl
    · cases h

theorem findChecked_eq (code : Text) (v : Visit) : findChecked code v = .ok (find code v) := by
  rw [findChecked, find]
  cases hkind : classify code v with
  | none => rfl
  | some f =>
    cases f with
    | packing => rfl
    | join => rfl
    | array =>
      obtain ⟨parent, hparent⟩ := Option.isSome_iff_exists.mp (parent?_of_classify hkind)
      simp only [shownChecked, hparent, bind, Except.bind, pure, Except.pure, Option.map_some,
        issue, Finding.shown, Option.getD_some]

end Packed

def Memory.addPlacesChecked (m : Memory) (find : Visit → Except Failure (Option Issue))
    (reported : List Issue) (root : Node) : Except Failure (Memory × Findings) := do
  let p ← root.walk (fun found v => found.bind fun p => (find v).map fun issue =>
    p.add (fun _ => issue) v) (.ok (⟨m.seen, reported⟩ : Places))
  pure ({ m with seen := p.seen }, .complete p.issues)

theorem addPlacesChecked_eq (m : Memory) {findChecked : Visit → Except Failure (Option Issue)}
    {find : Visit → Option Issue} (h : ∀ v, findChecked v = .ok (find v)) (reported : List Issue)
    (root : Node) :
    m.addPlacesChecked findChecked reported root =
      .ok (m.addPlaces (onePerPlace find) reported root) := by
  have hwalk : root.walk (fun found v => found.bind fun p => (findChecked v).map fun issue =>
      p.add (fun _ => issue) v) (Except.ok (⟨m.seen, reported⟩ : Places)) =
        Except.ok (onePerPlace find ⟨m.seen, reported⟩ root) := by
    rw [onePerPlace, Node.walk_eq_foldl, Node.walk_eq_foldl]
    refine List.foldl_hom Except.ok fun p v => ?_
    rw [h]
    rfl
  rw [Memory.addPlacesChecked, hwalk]
  rfl

namespace Builtin

/-- A run that stops at a look-up that finds nothing. The searches for `unwrap` and `panic!` make
none; what the search for transfers makes in the tree is a failure of the plain run already. -/
def runChecked (b : Builtin) (m : Memory) (code : Text) (reported : List Issue) (root : Node) :
    Except Failure (Memory × Findings) :=
  match b with
  | transfer =>
    let found := Transfer.treeFindings code reported root
    match found.failure with
    | some _ => pure (m, found)
    | none => do
      let more ← Solidity.sectionIssuesChecked code
      pure (m, .complete (found.issues ++ more))
  | unwrap => pure (m.forgetPlaces.addPlaces (Unwrap.places code) reported root)
  | panic => pure (m.forgetPlaces.addPlaces (Panic.places code) reported root)
  | packed => m.forgetPlaces.addPlacesChecked (Packed.findChecked code) reported root
  | lockedEther => do
    let l ← LockedEther.readWithdrawalsChecked code (LockedEther.readPayable code .empty root) root
    let found ← LockedEther.issuesChecked l
    pure ({ m with ledger := l }, .complete (reported ++ found))

theorem runChecked_eq (b : Builtin) (m : Memory) (code : Text) (reported : List Issue)
    (root : Node) : b.runChecked m code reported root = .ok (b.run m code reported root) := by
  cases b with
  | transfer =>
    simp only [runChecked, run, Transfer.findings, Solidity.sectionIssuesChecked_eq]
    cases (Transfer.treeFindings code reported root).failure <;> rfl
  | unwrap => rfl
  | panic => rfl
  | packed => exact addPlacesChecked_eq m.forgetPlaces (Packed.findChecked_eq code) reported root
  | lockedEther =>
    have hissues := LockedEther.issuesChecked_eq (@payable_ne_nil_of_canReceive code root)
    rw [LockedEther.enter] at hissues
    simp only [runChecked, LockedEther.readWithdrawalsChecked_eq, bind, Except.bind, hissues]
    rfl

end Builtin

end Detect

namespace Node

mutual

theorem visitsUnder_eq_or_suffix (ancestors : List Node) : (n : Node) →
    ∀ v ∈ visitsUnder ancestors n, v = ⟨n, ancestors⟩ ∨ n :: ancestors <:+ v.ancestors
  | mk kind extent cs => by
    rw [visitsUnder, List.forall_mem_cons]
    exact ⟨.inl rfl, fun v hv => .inr (suffix_of_mem_visitsOfAll _ cs v hv)⟩

theorem suffix_of_mem_visitsOfAll (ancestors : List Node) : (ns : List Node) →
    ∀ v ∈ visitsOfAll ancestors ns, ancestors <:+ v.ancestors
  | [] => List.forall_mem_nil _
  | n :: ns => by
    rw [visitsOfAll, List.forall_mem_append]
    refine ⟨?_, suffix_of_mem_visitsOfAll ancestors ns⟩
    intro v hv
    rcases visitsUnder_eq_or_suffix ancestors n v hv with rfl | hsuffix
    · exact List.suffix_rfl
    · exact (List.suffix_cons n ancestors).trans hsuffix

end

theorem eq_root_of_parent?_eq_none {root : Node} {v : Visit} (hv : v ∈ root.visits)
    (h : v.parent? = none) : v.node = root := by
  rcases visitsUnder_eq_or_suffix [] root v hv with rfl | hsuffix
  · rfl
  · rw [Visit.parent?, List.head?_eq_none_iff] at h
    rw [h, List.suffix_nil] at hsuffix
    cases hsuffix

theorem eq_root_of_grandparent?_eq_none {root parent : Node} {v : Visit} (hv : v ∈ root.visits)
    (hparent : v.parent? = some parent) (h : v.grandparent? = none) : parent = root := by
  obtain ⟨rest, hcons⟩ : ∃ rest, v.ancestors = parent :: rest := List.head?_eq_some_iff.mp hparent
  rw [Visit.grandparent?, hcons, List.tail_cons, List.head?_eq_none_iff] at h
  rcases visitsUnder_eq_or_suffix [] root v hv with rfl | hsuffix
  · cases hcons
  · rw [hcons, h] at hsuffix
    have hsame := hsuffix.eq_of_length rfl
    exact (List.cons.inj hsame).1.symm

end Node

namespace Detect

namespace Transfer

def Stops (root : Node) : Prop := root.kind = "call_expression" ∨ root.kind = "try_expression"

theorem valueChecked_error {code : Text} {root : Node} {v : Visit} {f : Failure}
    (hv : v ∈ root.visits) (hcall : v.node.kind = "call_expression")
    (h : valueChecked code v = .error f) : f = .rootHasNoParent ∧ Stops root := by
  unfold valueChecked at h
  split at h
  · next hparent =>
    cases h
    exact ⟨rfl, .inl (Node.eq_root_of_parent?_eq_none hv hparent ▸ hcall)⟩
  · next parent hparent =>
    split at h
    · cases h
    · split at h
      · cases h
      · split at h
        · next htry =>
          split at h
          · next hgrandparent =>
            cases h
            exact ⟨rfl, .inr
              (Node.eq_root_of_grandparent?_eq_none hv hparent hgrandparent ▸ htry)⟩
          · cases h
        · cases h

theorem resultChecked_error {code : Text} {root : Node} {v : Visit} {f : Failure}
    (hv : v ∈ root.visits) (hcall : v.node.kind = "call_expression")
    (h : resultChecked code v = .error f) : f = .rootHasNoParent ∧ Stops root := by
  unfold resultChecked at h
  split at h
  · next hparent =>
    cases h
    exact ⟨rfl, .inl (Node.eq_root_of_parent?_eq_none hv hparent ▸ hcall)⟩
  · split at h
    · exact valueChecked_error hv hcall h
    · cases h

theorem map_eq_error {α β : Type} {x : Except Failure α} {g : α → β} {f : Failure}
    (h : x.map g = .error f) : x = .error f := by
  cases x with
  | error e =>
    cases h
    rfl
  | ok a => cases h

theorem find_error {code : Text} {root : Node} {v : Visit} {f : Failure}
    (hv : v ∈ root.visits) (h : find code v = .error f) : f = .rootHasNoParent ∧ Stops root := by
  unfold find at h
  split at h
  · next hcall =>
    dsimp only at h
    split at h
    · split at h
      · exact valueChecked_error hv hcall (map_eq_error h)
      · cases h
    · split at h
      · exact resultChecked_error hv hcall (map_eq_error h)
      · cases h
  · split at h <;> cases h

theorem foldl_step_failure (code : Text) (visits : List Visit) (found : Findings) {f : Failure}
    (h : (visits.foldl (step code) found).failure = some f) :
    found.failure = some f ∨ ∃ v ∈ visits, find code v = .error f := by
  induction visits generalizing found with
  | nil => exact .inl h
  | cons v visits ih =>
    rw [List.foldl_cons] at h
    rcases ih _ h with hstep | ⟨w, hw, herror⟩
    · unfold step at hstep
      split at hstep
      · exact .inl hstep
      · next hnone =>
        split at hstep
        · next failure herror =>
          cases hstep
          exact .inr ⟨v, List.mem_cons_self, herror⟩
        · exact .inl hstep
        · exact .inl hstep
    · exact .inr ⟨w, List.mem_cons_of_mem v hw, herror⟩

theorem findings_failure {code : Text} {reported : List Issue} {root : Node} {f : Failure}
    (h : (findings code reported root).failure = some f) : f = .rootHasNoParent ∧ Stops root := by
  have htree : (treeFindings code reported root).failure = some f := by
    unfold findings at h
    dsimp only at h
    split at h
    · exact h
    · cases h
  rw [treeFindings, Node.walk_eq_foldl] at htree
  rcases foldl_step_failure code root.visits _ htree with hstart | ⟨v, hv, herror⟩
  · cases hstart
  · exact find_error hv herror

end Transfer

/-- No detector stops at a look-up that finds nothing, except that the search for transfers stops
where the root itself is a call or passes the error of a call on. So all of them complete on the
tree of a source file. -/
theorem Builtin.run_stops_only_at_root (b : Builtin) (m : Memory) (code : Text)
    (reported : List Issue) (root : Node) :
    b.runChecked m code reported root = .ok (b.run m code reported root) ∧
    (∀ f, (b.run m code reported root).2.failure = some f →
      b = .transfer ∧ f = .rootHasNoParent ∧
        (root.kind = "call_expression" ∨ root.kind = "try_expression")) ∧
    (root.kind = "source_file" → (b.run m code reported root).2.failure = none) := by
  have hfailure : ∀ f, (b.run m code reported root).2.failure = some f →
      b = .transfer ∧ f = .rootHasNoParent ∧ Transfer.Stops root := by
    intro f h
    cases b with
    | transfer => exact ⟨rfl, Transfer.findings_failure h⟩
    | _ => cases h
  refine ⟨b.runChecked_eq m code reported root, hfailure, ?_⟩
  intro hroot
  by_contra hstopped
  obtain ⟨f, hf⟩ := Option.ne_none_iff_exists'.mp hstopped
  obtain ⟨-, -, hkind | hkind⟩ := hfailure f hf
  · exact absurd (hroot.symm.trans hkind) (by decide)
  · exact absurd (hroot.symm.trans hkind) (by decide)

theorem Builtin.run_stops_only_at_root_tried :
    let code : Text := "IERC20 t.transfer(x)?".toList
    let tried := Node.mk "try_expression" ⟨7, 21, 0, 0⟩ [.mk "call_expression" ⟨7, 20, 0, 0⟩ []]
    let file := Node.mk "source_file" ⟨0, 21, 0, 0⟩ [tried]
    (∃ f, (Builtin.transfer.run .fresh code [] tried).2.failure = some f ∧ f = .rootHasNoParent) ∧
      file.kind = "source_file" ∧ (Builtin.transfer.run .fresh code [] file).2.failure = none ∧
      (Builtin.transfer.run .fresh code [] file).2.issues.map (·.lineStart) = [1] := by
  intro code tried file
  have hstops : (Builtin.transfer.run .fresh code [] tried).2.failure.isSome := by decide +kernel
  obtain ⟨f, hf⟩ := Option.isSome_iff_exists.mp hstops
  obtain ⟨-, hfailure, -⟩ := Builtin.run_stops_only_at_root .transfer .fresh code [] tried
  obtain ⟨-, -, hcomplete⟩ := Builtin.run_stops_only_at_root .transfer .fresh code [] file
  exact ⟨⟨f, hf, (hfailure f hf).2.1⟩, rfl, hcomplete rfl, by decide +kernel⟩

end Detect
end ContractAudit

import ContractAudit.Proofs.Detect.TokenCalls
import ContractAudit.Proofs.Text.Cuts
import ContractAudit.Rust.Parser
import Mathlib.Data.List.Infix

/-! Token transfers whose value is bound to a name by `let`. The name that is looked for has lost
every `let` in it, the rows that are searched are those below the first row with the text of the
binding, and a condition counts as soon as it starts with the name. So a value that nobody tests can
pass for tested in three ways: its name has the letters `let`, the same binding stands further up,
or a longer name is tested. -/

namespace ContractAudit.Detect.Transfer

structure IsWord (name : Text) : Prop where
  ne_nil : name ≠ []
  parts : ∀ c ∈ name, Text.isWordPart c

/-- The text binds a name to a value: `let name = value;` with blanks anywhere between. -/
def IsLet (text name value : Text) : Prop :=
  ∃ a b c d : Text, a ≠ [] ∧ (∀ x ∈ a ++ b ++ c ++ d, Text.isBlank x) ∧
    text = "let".toList ++ a ++ name ++ b ++ "=".toList ++ (c ++ value ++ d ++ ";".toList)

/-- One of the nine rows below the first one with the text of the binding has a condition that
starts with what is left of the name without the letters `let`. -/
structure PassesForTested (code : Text) (v : Visit) (binding : Node) (name : Text) : Prop where
  kept : name.remove "let" ≠ ['_']
  tested : ∃ f, v.enclosingFunction? = some f ∧
    TestedBelow (f.forwardText code).rows (binding.forwardText code) 9 fun row =>
      "if ".toList ++ name.remove "let" <:+: row ∨ "if !".toList ++ name.remove "let" <:+: row

def TestsWhole (name row : Text) : Prop :=
  ∃ mark ∈ ["if ", "if !"], ∃ a b, row = a ++ (mark.toList ++ name) ++ b ∧
    ¬b.head?.any Text.isWordPart

theorem testsWhole_iff (name row : Text) :
    TestsWhole name row ↔ ∃ mark ∈ ["if ", "if !"], ∃ t ∈ row.tails,
      (mark.toList ++ name).isPrefixOf t ∧
        ¬(t.drop (mark.toList ++ name).length).head?.any Text.isWordPart := by
  simp only [TestsWhole, List.mem_tails, List.isPrefixOf_iff_prefix]
  constructor
  · rintro ⟨mark, hmark, a, b, rfl, hb⟩
    refine ⟨mark, hmark, mark.toList ++ name ++ b, ⟨a, (List.append_assoc _ _ _).symm⟩,
      List.prefix_append _ b, ?_⟩
    rwa [List.drop_left]
  · rintro ⟨mark, hmark, t, ⟨a, rfl⟩, ⟨b, rfl⟩, hb⟩
    rw [List.drop_left] at hb
    exact ⟨mark, hmark, a, b, (List.append_assoc _ _ _).symm, hb⟩

instance (name row : Text) : Decidable (TestsWhole name row) :=
  decidable_of_iff _ (testsWhole_iff name row).symm

def TestsLonger (name row : Text) : Prop :=
  ∃ mark ∈ ["if ", "if !"], ∃ a c b, row = a ++ (mark.toList ++ name) ++ c :: b ∧ Text.isWordPart c

def rowsUpTo (code : Text) (f binding : Node) : List Text :=
  (code.slice f.extent.startByte binding.extent.endByte).rows

def rowsAfter (code : Text) (f binding : Node) : List Text :=
  (f.forwardText code).rows.drop (rowsUpTo code f binding).length

def Repeated (code : Text) (f binding : Node) : Prop :=
  ∃ r row, r + 1 < (rowsUpTo code f binding).length ∧ (f.forwardText code).rows[r]? = some row ∧
    binding.forwardText code <:+: row

section Name

variable {text name value : Text}

theorem IsWord.unblank (h : IsWord name) : ∀ c ∈ name, Text.isBlank c = false :=
  fun c hc => Text.isBlank_of_isWordPart (h.parts c hc)

theorem IsWord.getLast? (h : IsWord name) (t : Text) :
    (t ++ name).getLast?.any Text.isBlank = false := by
  rw [List.getLast?_append_of_ne_nil t h.ne_nil, List.getLast?_eq_some_getLast h.ne_nil,
    Option.any_some]
  exact h.unblank _ (List.getLast_mem h.ne_nil)

theorem isLet_spaced (name value : Text) :
    IsLet ("let ".toList ++ name ++ " = ".toList ++ value ++ ";".toList) name value := by
  refine ⟨[' '], [' '], [' '], [], List.cons_ne_nil _ _, List.all_eq_true.mp (by decide), ?_⟩
  simp only [List.append_assoc]
  rfl

theorem isWord_ok : IsWord "ok".toList :=
  ⟨by decide, List.all_eq_true.mp (by decide)⟩

theorem boundName_eq (hlet : IsLet text name value) (hname : IsWord name) :
    boundName text = name.remove "let" := by
  obtain ⟨a, b, c, d, hne, hblank, rfl⟩ := hlet
  simp only [List.mem_append, or_imp, forall_and] at hblank
  obtain ⟨⟨⟨ha, hb⟩, -⟩, -⟩ := hblank
  have hequals : '=' ∉ "let".toList ++ a ++ name ++ b := by
    simp only [List.mem_append, not_or]
    refine ⟨⟨⟨by decide, Text.notMem_of_isBlank (by decide) ha⟩, ?_⟩,
      Text.notMem_of_isBlank (by decide) hb⟩
    intro hmem
    exact absurd (hname.parts '=' hmem) (by decide)
  have htrim : Text.trim ("let".toList ++ a ++ name ++ b) = "let".toList ++ a ++ name := by
    rw [Text.trim, Text.trimLeft_of_head? (by rfl), Text.trimRight_append_blank hb,
      Text.trimRight_of_getLast? (hname.getLast? _)]
  have hremove : Text.remove ("let".toList ++ a ++ name) "let" = a ++ name.remove "let" := by
    rw [List.append_assoc, Text.remove, Text.removeFrom_pattern_append (by decide)]
    exact Text.removeFrom_append (Text.notMem_of_isBlank (by decide) ha) _ name
  have hunblank : ∀ x ∈ name.remove "let", Text.isBlank x = false :=
    fun x hx => hname.unblank x (Text.removeFrom_subset _ _ _ hx)
  rw [boundName, Text.before_append rfl hequals, htrim, hremove, Text.trim,
    Text.trimLeft_blank_append ha]
  exact Text.trim_of_unblank hunblank

theorem testsName_iff (name row : Text) :
    testsName name row ↔ "if ".toList ++ name <:+: row ∨ "if !".toList ++ name <:+: row := by
  rw [testsName, Bool.or_eq_true, Text.occurs_iff, Text.occurs_iff]

theorem testsWhole_or_testsLonger {mark : String} (hmark : mark ∈ ["if ", "if !"]) {row : Text}
    (h : mark.toList ++ name <:+: row) : TestsWhole name row ∨ TestsLonger name row := by
  obtain ⟨a, b, rfl⟩ := h
  cases b with
  | nil => exact .inl ⟨mark, hmark, a, [], rfl, by decide⟩
  | cons c b =>
    by_cases hc : Text.isWordPart c
    · exact .inr ⟨mark, hmark, a, c, b, rfl, hc⟩
    · exact .inl ⟨mark, hmark, a, c :: b, rfl, hc⟩

end Name

section Verdict

variable {code name : Text} {v : Visit} {binding : Node}

theorem bindingChecked_iff_testedBelow (code : Text) (v : Visit) (binding : Node) :
    bindingChecked code v binding ↔ boundName (binding.forwardText code) ≠ ['_'] ∧
      ∃ f, v.enclosingFunction? = some f ∧
        TestedBelow (f.forwardText code).rows (binding.forwardText code) 9 fun row =>
          "if ".toList ++ boundName (binding.forwardText code) <:+: row ∨
            "if !".toList ++ boundName (binding.forwardText code) <:+: row := by
  have htested := tested_in_function_iff code v (binding.forwardText code) 9
    (testsName (boundName (binding.forwardText code)))
  simp only [testsName_iff] at htested
  simp only [bindingChecked, isDiscard, decide_eq_true_eq]
  by_cases hdiscard : boundName (binding.forwardText code) = ['_']
  · rw [if_pos hdiscard]
    exact iff_of_false Bool.false_ne_true fun h => h.1 hdiscard
  · rw [if_neg hdiscard]
    exact htested.trans ⟨fun h => ⟨hdiscard, h⟩, fun h => h.2⟩

theorem bindingChecked_iff (hlet : IsLet (binding.forwardText code) name (v.node.forwardText code))
    (hname : IsWord name) :
    bindingChecked code v binding ↔ PassesForTested code v binding name := by
  rw [bindingChecked_iff_testedBelow, boundName_eq hlet hname]
  exact ⟨fun h => ⟨h.1, h.2⟩, fun h => ⟨h.kept, h.tested⟩⟩

theorem PassesForTested.cause (h : PassesForTested code v binding name) {f : Node}
    (hf : v.enclosingFunction? = some f)
    (huntested : ∀ row ∈ rowsAfter code f binding, ¬TestsWhole name row) :
    name.has "let" ∨ Repeated code f binding ∨
      ∃ row ∈ rowsAfter code f binding, TestsLonger name row := by
  by_cases hletters : name.has "let"
  · exact .inl hletters
  · right
    have hwhole : name.remove "let" = name := Text.removeFrom_of_not_occurs hletters
    obtain ⟨g, hg, r, k, row, hfirst, hrk, -, hrow, htests⟩ := h.tested
    obtain rfl : f = g := Option.some.inj (hf.symm.trans hg)
    rw [hwhole] at htests
    rcases Nat.lt_or_ge k (rowsUpTo code f binding).length with hbefore | hafter
    · -- the row with the condition is not behind the binding, so the search began above it
      obtain ⟨first, hrowr, hholds⟩ := hfirst.holds
      exact .inl ⟨r, first, by omega, hrowr, hholds⟩
    · have hmem : row ∈ rowsAfter code f binding := by
        refine List.mem_iff_getElem?.mpr ⟨k - (rowsUpTo code f binding).length, ?_⟩
        rw [rowsAfter, List.getElem?_drop, ← hrow, Nat.add_sub_cancel' hafter]
      have hlonger : TestsLonger name row := by
        rcases htests with htest | htest
        · exact (testsWhole_or_testsLonger (by decide) htest).resolve_left (huntested row hmem)
        · exact (testsWhole_or_testsLonger (by decide) htest).resolve_left (huntested row hmem)
      exact .inr ⟨row, hmem, hlonger⟩

end Verdict

/-- A token transfer that `let` binds to a name adds its issue to the report unless its value passes
for tested; then it adds nothing. Where no row after the binding has a condition on the name, it
passes for tested only if the name has the letters `let`, the same text stands on an earlier row, or
a row after the binding has a condition on a longer name. -/
theorem bound_reported_unless (m : Memory) {code : Text} (reported : List Issue)
    {root : Node} {before after : List Visit} {v : Visit} {binding : Node} {name : Text}
    (hroot : root.kind = "source_file") (hvisits : root.visits = before ++ v :: after)
    (htransfer : TokenTransfer code v) (hparent : v.parent? = some binding)
    (hkind : binding.kind = "let_declaration")
    (hlet : IsLet (binding.forwardText code) name (v.node.forwardText code))
    (hname : IsWord name) :
    (¬PassesForTested code v binding name → (Builtin.transfer.run m code reported root).2 =
      reportWith code reported before after [tokenIssue code v.node]) ∧
    (PassesForTested code v binding name → (Builtin.transfer.run m code reported root).2 =
      reportWith code reported before after []) ∧
    (PassesForTested code v binding name → ∀ f, v.enclosingFunction? = some f →
      (∀ row ∈ rowsAfter code f binding, ¬TestsWhole name row) →
        name.has "let" ∨ Repeated code f binding ∨
          ∃ row ∈ rowsAfter code f binding, TestsLonger name row) := by
  have hchecked : valueChecked code v = .ok (bindingChecked code v binding) := by
    simp only [valueChecked, hparent, isBinding, hkind]
    rfl
  have hiff := bindingChecked_iff hlet hname
  have hrun := htransfer.run_eq hchecked m reported hroot hvisits
  refine ⟨fun h => ?_, fun h => ?_, fun h f hf huntested => h.cause hf huntested⟩
  · rw [hrun, if_neg (hiff.not.mpr h)]
  · rw [hrun, if_pos (hiff.mpr h)]

def boundThenDone : Text :=
  "fn f(token: IERC20) \x7b\nlet ok = token.transfer(a);\nif done \x7b\x7d\n\x7d".toList

theorem bound_reported_unless_done :
    let call := Node.mk "call_expression" ⟨31, 48, 1, 1⟩ []
    let declaration := Node.mk "let_declaration" ⟨22, 49, 1, 1⟩ [call]
    let function := Node.mk "function_item" ⟨0, 62, 0, 3⟩ [declaration]
    let root := Node.mk "source_file" ⟨0, 62, 0, 3⟩ [function]
    let v : Visit := ⟨call, [declaration, function, root]⟩
    IsLet (declaration.forwardText boundThenDone) "ok".toList (call.forwardText boundThenDone) ∧
      ¬PassesForTested boundThenDone v declaration "ok".toList ∧
      (Builtin.transfer.run .fresh boundThenDone [] root).2 =
        .complete [tokenIssue boundThenDone call] := by
  intro call declaration function root v
  let above : List Visit := [⟨root, []⟩, ⟨function, [root]⟩, ⟨declaration, [function, root]⟩]
  -- the text is evaluated once for all that is read off it
  have hfacts : call.forwardText boundThenDone = "token.transfer(a)".toList ∧
      declaration.forwardText boundThenDone = "let ".toList ++ "ok".toList ++ " = ".toList ++
        call.forwardText boundThenDone ++ ";".toList ∧
      (boundThenDone.upTo 31).has "IERC20" = true ∧
      bindingChecked boundThenDone v declaration = false ∧
      reportWith boundThenDone [] above [] [tokenIssue boundThenDone call] =
        .complete [tokenIssue boundThenDone call] := by
    decide +kernel
  obtain ⟨hcall, hdeclaration, hinterface, hchecked, hreport⟩ := hfacts
  have hlet : IsLet (declaration.forwardText boundThenDone) "ok".toList
      (call.forwardText boundThenDone) := by
    rw [hdeclaration]
    exact isLet_spaced _ _
  have htransfer : TokenTransfer boundThenDone v :=
    ⟨rfl, .inl (by rw [hcall]; decide), .inr hinterface⟩
  have hnot : ¬PassesForTested boundThenDone v declaration "ok".toList := by
    have hverdict : bindingChecked boundThenDone v declaration = true ↔
        PassesForTested boundThenDone v declaration "ok".toList :=
      bindingChecked_iff hlet isWord_ok
    rw [← hverdict, hchecked]
    exact Bool.false_ne_true
  have hvisits : root.visits = above ++ v :: [] := rfl
  have hbound := bound_reported_unless .fresh [] rfl hvisits htransfer rfl rfl hlet isWord_ok
  exact ⟨hlet, hnot, (hbound.1 hnot).trans hreport⟩

def otherTested : Text :=
  ("fn f(token: IERC20) \x7b\n    let ok = token.transfer(a, b);\n" ++
    "    if okay \x7b c(); \x7d\n\x7d\n").toList

/-- A bound value that no row after the binding tests need not be reported. -/
theorem not_bound_reported :
    let root := Rust.parse otherTested
    root.kind = "source_file" ∧
    ¬∀ v ∈ root.visits, ∀ binding f name, TokenTransfer otherTested v →
      v.parent? = some binding → binding.kind = "let_declaration" →
      IsLet (binding.forwardText otherTested) name (v.node.forwardText otherTested) →
      IsWord name → v.enclosingFunction? = some f →
      (∀ row ∈ rowsAfter otherTested f binding, ¬TestsWhole name row) →
        ∃ i ∈ (Builtin.transfer.findings otherTested root).issues,
          i.lineStart = v.node.firstLine ∧ i.lineEnd = v.node.lastLine := by
  intro root
  have hfacts : root.kind = "source_file" ∧
      (Builtin.transfer.findings otherTested root).issues = [] ∧
      ∃ v ∈ root.visits, v.node.kind = "call_expression" ∧
        v.node.forwardText otherTested = "token.transfer(a, b)".toList ∧
        (otherTested.upTo v.node.extent.startByte).has "IERC20" = true ∧
        v.parent?.any (fun binding => binding.kind = "let_declaration" &&
          binding.forwardText otherTested = "let ".toList ++ "ok".toList ++ " = ".toList ++
            v.node.forwardText otherTested ++ ";".toList &&
          v.enclosingFunction?.any fun f =>
            ∀ row ∈ rowsAfter otherTested f binding, ¬TestsWhole "ok".toList row) = true := by
    decide +kernel
  obtain ⟨hroot, hissues, v, hv, hkind, hcall, hinterface, hparent⟩ := hfacts
  obtain ⟨binding, hbinding, hchild⟩ := (Option.any_eq_true _ _).mp hparent
  rw [Bool.and_eq_true, Bool.and_eq_true, decide_eq_true_eq, decide_eq_true_eq] at hchild
  obtain ⟨⟨hdeclares, htext⟩, hfunction⟩ := hchild
  obtain ⟨f, hf, huntested⟩ := (Option.any_eq_true _ _).mp hfunction
  have htransfer : TokenTransfer otherTested v :=
    ⟨hkind, .inl (by rw [hcall]; decide), .inr hinterface⟩
  have hlet : IsLet (binding.forwardText otherTested) "ok".toList
      (v.node.forwardText otherTested) := by
    rw [htext]
    exact isLet_spaced _ _
  refine ⟨hroot, fun h => ?_⟩
  obtain ⟨i, hi, -⟩ := h v hv binding f "ok".toList htransfer hbinding hdeclares hlet
    isWord_ok hf (of_decide_eq_true huntested)
  rw [hissues] at hi
  cases hi

end ContractAudit.Detect.Transfer

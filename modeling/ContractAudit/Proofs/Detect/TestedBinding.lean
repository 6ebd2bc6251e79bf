import ContractAudit.Proofs.Detect.BoundResult
import ContractAudit.Proofs.Text.Rows
import ContractAudit.Proofs.Tree.Nesting

/-! Token transfers whose bound value is tested further down. All that stands between `let` and the
equals sign is taken for the name, and a test is looked for below the first row that has the whole
text of the binding. So a test is found if the binding is `let name = ...` on one row that no
earlier row repeats. It is not found if the binding takes several rows, and with `mut` or a type
only a condition that spells these out is found. -/

namespace ContractAudit.Detect.Transfer

structure IsName (name : Text) : Prop where
  ne_nil : name ≠ []
  parts : ∀ c ∈ name, Text.isWordPart c ∨ c = '#'
  binds : name ≠ ['_']

/-- The text binds a name to a value. Before the name stands `mut` or nothing, behind it a colon and
a type or nothing, with blanks anywhere between. -/
structure Declares (text mark name colon value : Text) : Prop where
  mark_eq : mark = [] ∨ ∃ a : Text, a ≠ [] ∧ (∀ c ∈ a, Text.isBlank c) ∧ mark = "mut".toList ++ a
  colon_eq : colon = [] ∨ ∃ a : Text, (∀ c ∈ a, Text.isBlank c) ∧ colon = a ++ ":".toList
  text_eq : ∃ a type rest : Text, a ≠ [] ∧ (∀ c ∈ a, Text.isBlank c) ∧
    (colon = [] → ∀ c ∈ type, Text.isBlank c) ∧ value <:+: rest ∧
    text = "let".toList ++ a ++ (mark ++ name ++ colon) ++ (type ++ "=".toList ++ rest)

def TestFound (code : Text) (f binding : Node) : Prop :=
  let sought := boundName (binding.forwardText code)
  TestedBelow (f.forwardText code).rows (binding.forwardText code) 9 fun row =>
    "if ".toList ++ sought <:+: row ∨ "if !".toList ++ sought <:+: row

section Name

variable {text mark name colon value : Text}

theorem IsName.unblank (h : IsName name) {c : Char} (hc : c ∈ name) : Text.isBlank c = false := by
  rcases h.parts c hc with hword | rfl
  · exact Text.isBlank_of_isWordPart hword
  · decide

theorem IsName.equals_notMem (h : IsName name) : '=' ∉ name := by
  intro hmem
  have hparts := h.parts '=' hmem
  exact absurd hparts (by decide)

theorem IsWord.isName (h : IsWord name) (hbinds : name ≠ ['_']) : IsName name :=
  ⟨h.ne_nil, fun c hc => .inl (h.parts c hc), hbinds⟩

theorem declares_spaced {mark : Text} (hmark : mark ∈ [[], "mut ".toList]) (name value : Text) :
    Declares ("let ".toList ++ (mark ++ name) ++ " = ".toList ++ value ++ ";".toList)
      mark name [] value := by
  have hblank : ∀ c ∈ [' '], Text.isBlank c := List.all_eq_true.mp (by decide)
  refine ⟨?_, .inl rfl, ?_⟩
  · rcases List.mem_pair.mp hmark with rfl | rfl
    · exact .inl rfl
    · exact .inr ⟨[' '], List.cons_ne_nil _ _, hblank, rfl⟩
  · refine ⟨[' '], [' '], " ".toList ++ value ++ ";".toList, List.cons_ne_nil _ _, hblank,
      fun _ => hblank, ⟨_, _, rfl⟩, ?_⟩
    simp only [List.append_assoc, List.nil_append]
    rfl

theorem Declares.notMem_mark (h : Declares text mark name colon value) {x : Char}
    (hx : Text.isBlank x = false) (hmut : x ∉ "mut".toList) : x ∉ mark := by
  rcases h.mark_eq with rfl | ⟨a, -, ha, rfl⟩
  · exact List.not_mem_nil
  · rw [List.mem_append, not_or]
    exact ⟨hmut, Text.notMem_of_isBlank hx ha⟩

theorem Declares.notMem_colon (h : Declares text mark name colon value) {x : Char}
    (hx : Text.isBlank x = false) (hcolon : x ∉ ":".toList) : x ∉ colon := by
  rcases h.colon_eq with rfl | ⟨a, ha, rfl⟩
  · exact List.not_mem_nil
  · rw [List.mem_append, not_or]
    exact ⟨Text.notMem_of_isBlank hx ha, hcolon⟩

theorem Declares.head?_unblank (h : Declares text mark name colon value) (hname : IsName name) :
    (mark ++ name ++ colon).head?.any Text.isBlank = false := by
  rcases h.mark_eq with rfl | ⟨a, -, -, rfl⟩
  · obtain ⟨c, name, rfl⟩ := List.exists_cons_of_ne_nil hname.ne_nil
    exact hname.unblank List.mem_cons_self
  · rfl

theorem Declares.getLast?_unblank (h : Declares text mark name colon value) (hname : IsName name) :
    (mark ++ name ++ colon).getLast?.any Text.isBlank = false := by
  rcases h.colon_eq with rfl | ⟨a, -, rfl⟩
  · rw [List.append_nil, List.getLast?_append_of_ne_nil _ hname.ne_nil,
      List.getLast?_eq_some_getLast hname.ne_nil]
    exact hname.unblank (List.getLast_mem hname.ne_nil)
  · rw [← List.append_assoc, List.getLast?_append_of_ne_nil _ (by decide)]
    decide

theorem Declares.removeFrom_eq (h : Declares text mark name colon value)
    (hletters : ¬name.has "let") {t : Text} (ht : colon = [] → t = []) :
    Text.removeFrom "let".toList 0 (mark ++ name ++ colon ++ t) =
      mark ++ name ++ colon ++ Text.removeFrom "let".toList 0 t := by
  have hmark : 'l' ∉ mark := h.notMem_mark (by decide) (by decide)
  have hcolon : 'l' ∉ colon := h.notMem_colon (by decide) (by decide)
  have hhead : ∀ c ∈ (colon ++ t).head?, c ∉ "let".toList := by
    intro c hc hletter
    have hne : colon ≠ [] := by
      intro hnone
      rw [hnone, ht hnone] at hc
      cases hc
    have hmem : c ∈ colon := by
      rw [List.head?_append_of_ne_nil colon hne] at hc
      exact List.mem_of_head? hc
    have hcases : c = 'l' ∨ c = 'e' ∨ c = 't' := by simpa using hletter
    rcases hcases with rfl | rfl | rfl
    all_goals exact h.notMem_colon (by decide) (by decide) hmem
  calc Text.removeFrom "let".toList 0 (mark ++ name ++ colon ++ t)
      = Text.removeFrom "let".toList 0 (mark ++ (name ++ (colon ++ t))) := by
        simp only [List.append_assoc]
    _ = mark ++ Text.removeFrom "let".toList 0 (name ++ (colon ++ t)) :=
        Text.removeFrom_append hmark _ _
    _ = mark ++ (name ++ Text.removeFrom "let".toList 0 (colon ++ t)) := by
        rw [Text.removeFrom_append_of_head? hletters hhead]
    _ = mark ++ (name ++ (colon ++ Text.removeFrom "let".toList 0 t)) :=
        congrArg (fun u => mark ++ (name ++ u)) (Text.removeFrom_append hcolon _ _)
    _ = mark ++ name ++ colon ++ Text.removeFrom "let".toList 0 t := by
        simp only [List.append_assoc]

theorem Declares.trim_before_eq (h : Declares text mark name colon value) (hname : IsName name) :
    ∃ a tail : Text, (∀ c ∈ a, Text.isBlank c) ∧ (colon = [] → tail = []) ∧
      (text.before "=").trim = "let".toList ++ (a ++ (mark ++ name ++ colon ++ tail)) := by
  obtain ⟨a, type, rest, -, ha, htype, -, rfl⟩ := h.text_eq
  have hequals : '=' ∉ "let".toList ++ a ++ (mark ++ name ++ colon) := by
    simp only [List.mem_append, not_or]
    exact ⟨⟨by decide, Text.notMem_of_isBlank (by decide) ha⟩,
      ⟨h.notMem_mark (by decide) (by decide), hname.equals_notMem⟩,
      h.notMem_colon (by decide) (by decide)⟩
  have hlast :
      ("let".toList ++ a ++ (mark ++ name ++ colon)).getLast?.any Text.isBlank = false := by
    have hne : mark ++ name ++ colon ≠ [] := by simp [hname.ne_nil]
    rw [List.getLast?_append_of_ne_nil _ hne]
    exact h.getLast?_unblank hname
  refine ⟨a, (Text.before (type ++ "=".toList ++ rest) "=").trimRight, ha, ?_, ?_⟩
  · intro hnone
    have hnotMem : '=' ∉ type := Text.notMem_of_isBlank (by decide) (htype hnone)
    rw [Text.before_append rfl hnotMem]
    exact Text.trimRight_append_blank (htype hnone) []
  · rw [Text.before_append_left rfl hequals, Text.trim, Text.trimLeft_of_head? (by rfl),
      Text.trimRight_append hlast]
    simp only [List.append_assoc]

/-- What is taken for the name starts with all that is written up to the colon. Without a type it
is no more than that. -/
theorem Declares.boundName_eq (h : Declares text mark name colon value) (hname : IsName name)
    (hletters : ¬name.has "let") :
    ∃ tail : Text, boundName text = mark ++ name ++ colon ++ tail ∧ (colon = [] → tail = []) := by
  obtain ⟨a, tail, ha, htail, htrim⟩ := h.trim_before_eq hname
  have hremove : Text.remove ("let".toList ++ (a ++ (mark ++ name ++ colon ++ tail))) "let" =
      a ++ (mark ++ name ++ colon ++ tail.remove "let") := by
    rw [Text.remove, Text.removeFrom_pattern_append (by decide)]
    refine (Text.removeFrom_append (Text.notMem_of_isBlank (by decide) ha) _ _).trans ?_
    exact congrArg (a ++ ·) (h.removeFrom_eq hletters htail)
  have hfirst : (mark ++ name ++ colon ++ tail.remove "let").head?.any Text.isBlank = false := by
    have hne : mark ++ name ++ colon ≠ [] := by simp [hname.ne_nil]
    rw [List.head?_append_of_ne_nil _ hne]
    exact h.head?_unblank hname
  refine ⟨(tail.remove "let").trimRight, ?_, ?_⟩
  · rw [boundName, htrim, hremove, Text.trim, Text.trimLeft_blank_append ha,
      Text.trimLeft_of_head? hfirst, Text.trimRight_append (h.getLast?_unblank hname)]
  · intro hnone
    rw [htail hnone]
    rfl

theorem Declares.boundName_ne_discard (h : Declares text mark name colon value)
    (hname : IsName name) (hletters : ¬name.has "let") : boundName text ≠ ['_'] := by
  obtain ⟨tail, hbound, -⟩ := h.boundName_eq hname hletters
  intro hdiscard
  rw [hbound] at hdiscard
  -- one character is left of all that is written, and the name takes it
  have hlength := congrArg List.length hdiscard
  simp only [List.length_append, List.length_singleton] at hlength
  have hpos := List.length_pos_of_ne_nil hname.ne_nil
  have hmark : mark = [] := List.eq_nil_of_length_eq_zero (by omega)
  have hcolon : colon = [] := List.eq_nil_of_length_eq_zero (by omega)
  have htail : tail = [] := List.eq_nil_of_length_eq_zero (by omega)
  apply hname.binds
  simpa [hmark, hcolon, htail] using hdiscard

theorem Declares.text_ne_nil (h : Declares text mark name colon value) : text ≠ [] := by
  obtain ⟨a, type, rest, -, -, -, -, rfl⟩ := h.text_eq
  simp

theorem TestsWhole.occurs {row : Text} (h : TestsWhole name row) :
    "if ".toList ++ name <:+: row ∨ "if !".toList ++ name <:+: row := by
  obtain ⟨mark, hmark, a, b, rfl, -⟩ := h
  rcases List.mem_pair.mp hmark with rfl | rfl
  · exact .inl ⟨a, b, rfl⟩
  · exact .inr ⟨a, b, rfl⟩

end Name

section Place

variable {code : Text} {f binding : Node}

theorem slice_of_forwardText_ne_nil {n : Node} (h : n.forwardText code ≠ []) :
    0 ≤ n.extent.startByte ∧ n.extent.startByte ≤ n.extent.endByte ∧
      n.extent.endByte ≤ code.length ∧
      n.forwardText code = code.slice n.extent.startByte n.extent.endByte := by
  unfold Node.forwardText at h ⊢
  split at h
  · exact absurd rfl h
  · next hinside => exact ⟨by omega, by omega, by omega, if_neg hinside⟩

theorem firstHolding_of_unrepeated (hf : f.forwardText code ≠ [])
    (hbinding : binding.forwardText code ≠ []) (hwithin : binding.extent.Within f.extent)
    (hrow : (binding.forwardText code).Unbroken) (honce : ¬Repeated code f binding) :
    ∃ r, (rowsUpTo code f binding).length = r + 1 ∧
      FirstHolding (f.forwardText code).rows (binding.forwardText code) r := by
  obtain ⟨hstart, -, hstop, hftext⟩ := slice_of_forwardText_ne_nil hf
  obtain ⟨-, horder, -, hbtext⟩ := slice_of_forwardText_ne_nil hbinding
  have hupTo : code.slice f.extent.startByte binding.extent.endByte =
      code.slice f.extent.startByte binding.extent.startByte ++ binding.forwardText code := by
    rw [hbtext]
    exact (Text.slice_append_slice hstart hwithin.start horder
      (Int.le_trans hwithin.stop hstop)).symm
  have hwhole : f.forwardText code = code.slice f.extent.startByte binding.extent.startByte ++
      binding.forwardText code ++ code.slice binding.extent.endByte f.extent.endByte := by
    rw [hftext, ← hupTo]
    exact (Text.slice_append_slice hstart (Int.le_trans hwithin.start horder) hwithin.stop
      hstop).symm
  obtain ⟨above, start, hrows⟩ := Text.rows_around hbinding hrow
    (code.slice f.extent.startByte binding.extent.startByte)
  have hlength : (rowsUpTo code f binding).length = above.length + 1 := by
    have hend := hrows []
    rw [List.append_nil] at hend
    rw [rowsUpTo, hupTo, hend]
    simp [Text.rows]
  refine ⟨above.length, hlength, ?_, ?_⟩
  · have hget : ∀ (row : Text) (more : List Text),
        (above ++ row :: more)[above.length]? = some row := by
      simp
    rw [hwhole, hrows]
    exact ⟨_, hget _ _, start, _, rfl⟩
  · intro k hk row hget hinfix
    exact honce ⟨k, row, by omega, hget, hinfix⟩

theorem getElem?_rowsAfter {row : Text} (h : row ∈ (rowsAfter code f binding).take 9) :
    ∃ k, (rowsUpTo code f binding).length ≤ k ∧ k < (rowsUpTo code f binding).length + 9 ∧
      (f.forwardText code).rows[k]? = some row := by
  obtain ⟨j, hj⟩ := List.mem_iff_getElem?.mp h
  rw [List.getElem?_take] at hj
  split at hj
  · rw [rowsAfter, List.getElem?_drop] at hj
    exact ⟨_, Nat.le_add_right _ j, by omega, hj⟩
  · cases hj

theorem TestFound.unbroken (h : TestFound code f binding) :
    (binding.forwardText code).Unbroken := by
  obtain ⟨r, -, -, hfirst, -⟩ := h
  obtain ⟨row, hrow, hholds⟩ := hfirst.holds
  have hunbroken := Text.unbroken_of_mem_rows (List.mem_of_getElem? hrow)
  exact fun c hc => hunbroken c (hholds.subset hc)

theorem TestFound.spelled {start : Text} (h : TestFound code f binding)
    (hstart : start <+: boundName (binding.forwardText code)) :
    ∃ row ∈ (f.forwardText code).rows,
      "if ".toList ++ start <:+: row ∨ "if !".toList ++ start <:+: row := by
  obtain ⟨-, k, row, -, -, -, hrow, htests⟩ := h
  have hspelled : ∀ sign : Text, sign ++ boundName (binding.forwardText code) <:+: row →
      sign ++ start <:+: row :=
    fun sign hinfix => ((List.prefix_append_right_inj sign).mpr hstart).isInfix.trans hinfix
  exact ⟨row, List.mem_of_getElem? hrow, htests.imp (hspelled _) (hspelled _)⟩

end Place

/-- A token transfer whose value is bound to a name and tested by a condition on the name, in one of
the nine rows after the binding, adds nothing to the report if the test is found, and its issue
otherwise. The test is found if nothing but the name stands between `let` and the equals sign, on
one row that no earlier row repeats. It is found only if the binding is on one row, and a condition
in the function spells out all that is written from `let` up to the colon of a type. -/
theorem tested_binding_reported_unless (m : Memory) {code : Text} (reported : List Issue)
    {root : Node} {before after : List Visit} {v : Visit} {binding f : Node}
    {mark name colon : Text} (hroot : root.kind = "source_file")
    (hvisits : root.visits = before ++ v :: after) (htransfer : TokenTransfer code v)
    (hparent : v.parent? = some binding) (hkind : binding.kind = "let_declaration")
    (hdeclares : Declares (binding.forwardText code) mark name colon (v.node.forwardText code))
    (hname : IsName name) (hletters : ¬name.has "let") (hf : v.enclosingFunction? = some f)
    (hwithin : binding.extent.Within f.extent)
    (htested : ∃ row ∈ (rowsAfter code f binding).take 9, TestsWhole name row) :
    (TestFound code f binding → (Builtin.transfer.run m code reported root).2 =
      reportWith code reported before after []) ∧
    (¬TestFound code f binding → (Builtin.transfer.run m code reported root).2 =
      reportWith code reported before after [tokenIssue code v.node]) ∧
    (mark = [] → colon = [] → (binding.forwardText code).Unbroken → ¬Repeated code f binding →
      TestFound code f binding) ∧
    (TestFound code f binding → (binding.forwardText code).Unbroken ∧
      ∃ row ∈ (f.forwardText code).rows, "if ".toList ++ (mark ++ name ++ colon) <:+: row ∨
        "if !".toList ++ (mark ++ name ++ colon) <:+: row) := by
  obtain ⟨tail, hbound, htail⟩ := hdeclares.boundName_eq hname hletters
  have hchecked : valueChecked code v = .ok (bindingChecked code v binding) := by
    simp only [valueChecked, hparent, isBinding, hkind]
    rfl
  have hiff : bindingChecked code v binding ↔ TestFound code f binding := by
    rw [bindingChecked_iff_testedBelow]
    constructor
    · rintro ⟨-, g, hg, htests⟩
      obtain rfl : f = g := Option.some.inj (hf.symm.trans hg)
      exact htests
    · intro hfound
      exact ⟨hdeclares.boundName_ne_discard hname hletters, f, hf, hfound⟩
  have hrun := htransfer.run_eq hchecked m reported hroot hvisits
  have hstart : mark ++ name ++ colon <+: boundName (binding.forwardText code) := by
    rw [hbound]
    exact List.prefix_append _ tail
  refine ⟨?_, ?_, ?_, fun hfound => ⟨hfound.unbroken, hfound.spelled hstart⟩⟩
  · intro hfound
    rw [hrun, if_pos (hiff.mpr hfound)]
  · intro hmissed
    rw [hrun, if_neg (hiff.not.mpr hmissed)]
  · intro hmark hcolon hunbroken honce
    obtain ⟨row, hrow, htests⟩ := htested
    obtain ⟨k, hlow, hhigh, hget⟩ := getElem?_rowsAfter hrow
    have hfunction : f.forwardText code ≠ [] := by
      intro hempty
      rw [hempty] at hget
      cases hget
    -- the search begins on the row that the binding ends on, so it meets the row with the test
    obtain ⟨r, hlength, hfirst⟩ := firstHolding_of_unrepeated hfunction hdeclares.text_ne_nil
      hwithin hunbroken honce
    have hsought : boundName (binding.forwardText code) = name := by
      rw [hbound, hmark, hcolon, htail hcolon, List.nil_append, List.append_nil, List.append_nil]
    refine ⟨r, k, row, hfirst, by omega, by omega, hget, ?_⟩
    rw [hsought]
    exact htests.occurs

def boundThenTested : Text :=
  "fn f(token: IERC20) \x7b\nlet ok = token.transfer(a);\nif !ok \x7b\x7d\n\x7d".toList

theorem tested_binding_reported_unless_plain :
    let call := Node.mk "call_expression" ⟨31, 48, 1, 1⟩ []
    let declaration := Node.mk "let_declaration" ⟨22, 49, 1, 1⟩ [call]
    let function := Node.mk "function_item" ⟨0, 61, 0, 3⟩ [declaration]
    let root := Node.mk "source_file" ⟨0, 61, 0, 3⟩ [function]
    Declares (declaration.forwardText boundThenTested) [] "ok".toList []
        (call.forwardText boundThenTested) ∧
      TestFound boundThenTested function declaration ∧
      (Builtin.transfer.run .fresh boundThenTested [] root).2 = .complete [] := by
  intro call declaration function root
  let v : Visit := ⟨call, [declaration, function, root]⟩
  let above : List Visit := [⟨root, []⟩, ⟨function, [root]⟩, ⟨declaration, [function, root]⟩]
  -- the text is evaluated once for all that is read off it
  have hfacts : call.forwardText boundThenTested = "token.transfer(a)".toList ∧
      declaration.forwardText boundThenTested = "let ".toList ++ ([] ++ "ok".toList) ++
        " = ".toList ++ call.forwardText boundThenTested ++ ";".toList ∧
      (boundThenTested.upTo 31).has "IERC20" = true ∧
      (∃ row ∈ (rowsAfter boundThenTested function declaration).take 9,
        TestsWhole "ok".toList row) ∧
      rowsUpTo boundThenTested function declaration =
        ["fn f(token: IERC20) \x7b".toList, "let ok = token.transfer(a);".toList] ∧
      (function.forwardText boundThenTested).rows[0]? = some "fn f(token: IERC20) \x7b".toList ∧
      reportWith boundThenTested [] above [] [] = .complete [] := by
    decide +kernel
  obtain ⟨hcall, hdeclaration, hinterface, htested, hupTo, hfirst, hreport⟩ := hfacts
  have hdeclares : Declares (declaration.forwardText boundThenTested) [] "ok".toList []
      (call.forwardText boundThenTested) := by
    rw [hdeclaration]
    exact declares_spaced List.mem_cons_self _ _
  have htransfer : TokenTransfer boundThenTested v :=
    ⟨rfl, .inl (by rw [hcall]; decide), .inr hinterface⟩
  have hunbroken : (declaration.forwardText boundThenTested).Unbroken := by
    rw [hdeclaration, hcall]
    decide
  have honce : ¬Repeated boundThenTested function declaration := by
    rintro ⟨r, row, hr, hrow, hinfix⟩
    rw [hupTo] at hr
    have hlt : r + 1 < 2 := hr
    obtain rfl : r = 0 := by omega
    obtain rfl := Option.some.inj (hfirst.symm.trans hrow)
    rw [hdeclaration, hcall, ← Text.occurs_iff] at hinfix
    exact absurd hinfix (by decide)
  have hvisits : root.visits = above ++ v :: [] := rfl
  have hbinding := tested_binding_reported_unless .fresh [] rfl hvisits htransfer rfl rfl hdeclares
    (isWord_ok.isName (by decide)) (by decide) rfl ⟨by decide, by decide⟩ htested
  have hfound := hbinding.2.2.1 rfl rfl hunbroken honce
  exact ⟨hdeclares, hfound, (hbinding.1 hfound).trans hreport⟩

def mutableTested : Text :=
  ("fn f(token: IERC20) \x7b\n    let mut ok = token.transfer(a, b);\n" ++
    "    if !ok \x7b c(); \x7d\n\x7d\n").toList

/-- A bound value that is tested on the next row can be reported. -/
theorem not_tested_binding_unreported :
    let root := Rust.parse mutableTested
    root.kind = "source_file" ∧
    ¬∀ v ∈ root.visits, ∀ binding f mark name colon, TokenTransfer mutableTested v →
      v.parent? = some binding → binding.kind = "let_declaration" →
      Declares (binding.forwardText mutableTested) mark name colon
        (v.node.forwardText mutableTested) →
      IsName name → ¬name.has "let" → v.enclosingFunction? = some f →
      (∃ row ∈ (rowsAfter mutableTested f binding).take 9, TestsWhole name row) →
        ∀ i ∈ (Builtin.transfer.findings mutableTested root).issues,
          ¬(i.lineStart = v.node.firstLine ∧ i.lineEnd = v.node.lastLine ∧
            i.snippet = String.ofList (v.node.forwardText mutableTested)) := by
  intro root
  have hfacts : root.kind = "source_file" ∧
      ∃ v ∈ root.visits, v.node.kind = "call_expression" ∧
        v.node.forwardText mutableTested = "token.transfer(a, b)".toList ∧
        (mutableTested.upTo v.node.extent.startByte).has "IERC20" = true ∧
        (Builtin.transfer.findings mutableTested root).issues =
          [tokenIssue mutableTested v.node] ∧
        v.parent?.any (fun binding => binding.kind = "let_declaration" &&
          binding.forwardText mutableTested = "let ".toList ++ ("mut ".toList ++ "ok".toList) ++
            " = ".toList ++ v.node.forwardText mutableTested ++ ";".toList &&
          v.enclosingFunction?.any fun f =>
            ∃ row ∈ (rowsAfter mutableTested f binding).take 9,
              TestsWhole "ok".toList row) = true := by
    decide +kernel
  obtain ⟨hroot, v, hv, hkind, hcall, hinterface, hissues, hparent⟩ := hfacts
  obtain ⟨binding, hbinding, hchild⟩ := (Option.any_eq_true _ _).mp hparent
  rw [Bool.and_eq_true, Bool.and_eq_true, decide_eq_true_eq, decide_eq_true_eq] at hchild
  obtain ⟨⟨hlet, htext⟩, hfunction⟩ := hchild
  obtain ⟨f, hf, htested⟩ := (Option.any_eq_true _ _).mp hfunction
  have htransfer : TokenTransfer mutableTested v :=
    ⟨hkind, .inl (by rw [hcall]; decide), .inr hinterface⟩
  have hdeclares : Declares (binding.forwardText mutableTested) "mut ".toList "ok".toList []
      (v.node.forwardText mutableTested) := by
    rw [htext]
    exact declares_spaced (List.mem_cons_of_mem _ List.mem_cons_self) _ _
  refine ⟨hroot, fun h => ?_⟩
  have hnone := h v hv binding f _ _ _ htransfer hbinding hlet hdeclares
    (isWord_ok.isName (by decide)) (by decide) hf (of_decide_eq_true htested)
  rw [hissues] at hnone
  exact hnone _ List.mem_cons_self ⟨rfl, rfl, rfl⟩

end ContractAudit.Detect.Transfer

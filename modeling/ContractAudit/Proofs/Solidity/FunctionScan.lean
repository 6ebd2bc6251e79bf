import ContractAudit.Proofs.Solidity.CallLine

/-! The scan of Solidity functions, one header after the other. A function whose header has an
opening brace is read up to the first line that closes as many braces as the lines from the header
on have opened, wherever the braces stand on their lines, and up to the end of the text where no
line does. Its issue is decided by what these lines hold. -/

namespace ContractAudit.Solidity

def linesFrom (ls : List Text) (i j : Nat) : List Text := (ls.drop i).take (j + 1 - i)

def closesBody (ls : List Text) (i j : Nat) : Bool :=
  '}' ∈ ls.getD j [] &&
    (linesFrom ls i j).flatten.count '{' = (linesFrom ls i j).flatten.count '}'

def bodyEnd (ls : List Text) (i : Nat) : Nat :=
  ((List.range' i (ls.length - i)).find? (closesBody ls i)).getD (ls.length - 1)

def Within (ls : List Text) (i e : Nat) (pattern : String) : Prop :=
  ∃ j, i ≤ j ∧ j ≤ e ∧ (ls.getD j []).has pattern

structure Unchecked (ls : List Text) (i e : Nat) : Prop where
  calls : Within ls i e ".call("
  transfers : Within ls i e "transfer(" ∨ Within ls i e "transferFrom("
  unrequired : ¬(Within ls i e "require" ∧ (Within ls i e "(bool" ∨ Within ls i e "success"))

structure FirstCall (ls : List Text) (i e k : Nat) : Prop where
  after : i ≤ k
  inside : k ≤ e
  call : (ls.getD k []).has ".call(" ∧ (ls.getD k []).has "transfer"
  before : ∀ j, i ≤ j → j < k → ¬((ls.getD j []).has ".call(" ∧ (ls.getD j []).has "transfer")

def functionIssue (name : Text) (line : Int) (call : Text) : Issue where
  kind := "unchecked_transfer"
  severity := .high
  description := "Solidity function '" ++ String.ofList name ++
    "' contains unchecked transfer call. This can lead to silent failures."
  lineStart := line
  lineEnd := line
  snippet := String.ofList call.trim
  recommendation := "Check the return value using `(bool success, bytes memory " ++
    "returnData) = ...` and verify success with require."

def issueAt (ls : List Text) (startLine : Int) (i : Nat) : Option Issue :=
  headerIssue? (startLine + i) (ls.getD i []) (ls.drop (i + 1))

section Body

/-- Reading lines from a depth of open braces, the line with index `j` closes the last one. -/
def ClosesAt (depth : Int) (ls : List Text) (j : Nat) : Prop :=
  '}' ∈ ls.getD j [] ∧
    depth + (ls.take (j + 1)).flatten.count '{' = (ls.take (j + 1)).flatten.count '}'

theorem closesAt_cons_succ (depth : Int) (line : Text) (rest : List Text) (j : Nat) :
    ClosesAt depth (line :: rest) (j + 1) ↔
      ClosesAt (depth + line.count '{' - line.count '}') rest j := by
  simp only [ClosesAt, List.getD_cons_succ, List.take_succ_cons, List.flatten_cons,
    List.count_append]
  refine and_congr_right fun _ => ?_
  omega

theorem bodyLines_of_opening (depth : Int) {line : Text} (h : '{' ∈ line) (rest : List Text) :
    bodyLines depth false (line :: rest) = bodyLines depth true (line :: rest) := by
  have hcount : (line.count '{' != 0) = true := by
    rw [bne_iff_ne, ne_eq, List.count_eq_zero, not_not]
    exact h
  simp only [bodyLines, hcount, Bool.or_true]

theorem bodyLines_inside {depth : Int} {ls : List Text} {n : Nat} (hn : n < ls.length)
    (hopen : ∀ j < n, ¬ClosesAt depth ls j) (hend : ClosesAt depth ls n ∨ n + 1 = ls.length) :
    bodyLines depth true ls = ls.take (n + 1) := by
  induction ls generalizing depth n with
  | nil => exact absurd hn (Nat.not_lt_zero n)
  | cons line rest ih =>
    have hstop : (line.count '}' ≠ 0 ∧ depth + line.count '{' - line.count '}' = 0) ↔
        ClosesAt depth (line :: rest) 0 := by
      simp only [ClosesAt, List.getD_cons_zero, List.take_succ_cons, List.take_zero,
        List.flatten_cons, List.flatten_nil, List.append_nil, ne_eq, List.count_eq_zero, not_not]
      refine and_congr_right fun _ => ?_
      omega
    simp only [bodyLines, Bool.true_or, and_true, if_true, List.take_succ_cons]
    cases n with
    | zero =>
      rcases hend with hclose | hlast
      · rw [if_pos (hstop.mpr hclose), List.take_zero]
      · have hrest : rest = [] := List.length_eq_zero_iff.mp (Nat.succ.inj hlast).symm
        rw [hrest, bodyLines, ite_self, List.take_nil]
    | succ n =>
      rw [if_neg (hstop.not.mpr (hopen 0 (Nat.succ_pos n)))]
      congr 1
      apply ih (Nat.lt_of_succ_lt_succ hn)
      · intro j hj
        rw [← closesAt_cons_succ]
        exact hopen (j + 1) (Nat.succ_lt_succ hj)
      · rw [← closesAt_cons_succ]
        exact hend.imp id Nat.succ.inj

variable {ls : List Text} {i : Nat}

theorem getD_drop (ls : List Text) (i j : Nat) : (ls.drop i).getD j [] = ls.getD (i + j) [] := by
  rw [List.getD_eq_getElem?_getD, List.getD_eq_getElem?_getD, List.getElem?_drop]

theorem closesBody_iff (j : Nat) : closesBody ls i (i + j) ↔ ClosesAt 0 (ls.drop i) j := by
  have hwidth : i + j + 1 - i = j + 1 := by omega
  simp only [closesBody, ClosesAt, linesFrom, getD_drop, hwidth, Bool.and_eq_true,
    decide_eq_true_eq, Int.zero_add, Int.natCast_inj]

theorem bodyEnd_spec (hi : i < ls.length) :
    i ≤ bodyEnd ls i ∧ bodyEnd ls i < ls.length ∧
      (∀ j, i ≤ j → j < bodyEnd ls i → ¬closesBody ls i j) ∧
      (closesBody ls i (bodyEnd ls i) ∨ bodyEnd ls i + 1 = ls.length) := by
  unfold bodyEnd
  cases hfind : (List.range' i (ls.length - i)).find? (closesBody ls i) with
  | none =>
    rw [List.find?_range'_eq_none] at hfind
    rw [Option.getD_none]
    refine ⟨by omega, by omega, ?_, .inr (by omega)⟩
    intro j hij hj
    simpa using hfind j hij (by omega)
  | some e =>
    rw [List.find?_range'_eq_some] at hfind
    obtain ⟨hclose, hmem, hbefore⟩ := hfind
    rw [List.mem_range'_1] at hmem
    rw [Option.getD_some]
    refine ⟨hmem.1, by omega, ?_, .inl hclose⟩
    intro j hij hj
    simpa using hbefore j hij hj

theorem bodyLines_header (hi : i < ls.length) (hbrace : '{' ∈ ls.getD i []) :
    bodyLines 0 false (ls.getD i [] :: ls.drop (i + 1)) = linesFrom ls i (bodyEnd ls i) := by
  obtain ⟨hle, hlt, hbefore, hend⟩ := bodyEnd_spec hi
  have hdrop : ls.getD i [] :: ls.drop (i + 1) = ls.drop i := by
    rw [List.drop_eq_getElem_cons hi, List.getD_eq_getElem?_getD, List.getElem?_eq_getElem hi,
      Option.getD_some]
  obtain ⟨n, hn⟩ := Nat.exists_eq_add_of_le hle
  rw [bodyLines_of_opening 0 hbrace, hdrop, linesFrom, hn, show i + n + 1 - i = n + 1 by omega]
  rw [hn] at hlt hbefore hend
  apply bodyLines_inside
  · rw [List.length_drop]
    omega
  · intro j hj
    rw [← closesBody_iff]
    exact hbefore (i + j) (Nat.le_add_right i j) (by omega)
  · rw [← closesBody_iff, List.length_drop]
    exact hend.imp id (by omega)

end Body

section Verdict

variable {ls : List Text} {i e : Nat}

theorem has_flatMap_iff {pattern : String} (hline : '\n' ∉ pattern.toList)
    (hne : pattern.toList ≠ []) (ls : List Text) :
    Text.has (ls.flatMap (· ++ ['\n'])) pattern ↔ ∃ line ∈ ls, line.has pattern := by
  induction ls with
  | nil =>
    rw [List.flatMap_nil, Text.has_iff, List.infix_nil]
    simp [hne]
  | cons line ls ih =>
    rw [List.flatMap_cons, List.append_assoc, List.singleton_append, Text.has_iff,
      Text.infix_append_sep_iff hline, ← Text.has_iff, ← Text.has_iff, ih]
    simp only [List.mem_cons, exists_eq_or_imp]

theorem exists_mem_linesFrom_iff (he : e < ls.length) (p : Text → Prop) :
    (∃ line ∈ linesFrom ls i e, p line) ↔ ∃ j, i ≤ j ∧ j ≤ e ∧ p (ls.getD j []) := by
  simp only [linesFrom, List.mem_take_iff_getElem, List.length_drop, List.getElem_drop]
  constructor
  · rintro ⟨line, ⟨n, hn, rfl⟩, hp⟩
    refine ⟨i + n, by omega, by omega, ?_⟩
    rwa [List.getD_eq_getElem?_getD, List.getElem?_eq_getElem, Option.getD_some]
  · rintro ⟨j, hij, hje, hp⟩
    have hj : j < ls.length := Nat.lt_of_le_of_lt hje he
    rw [List.getD_eq_getElem?_getD, List.getElem?_eq_getElem hj, Option.getD_some] at hp
    refine ⟨ls[j], ⟨j - i, by omega, ?_⟩, hp⟩
    congr 1
    omega

theorem has_body_iff (he : e < ls.length) {pattern : String} (hline : '\n' ∉ pattern.toList)
    (hne : pattern.toList ≠ []) :
    Text.has ((linesFrom ls i e).flatMap (· ++ ['\n'])) pattern ↔ Within ls i e pattern := by
  rw [has_flatMap_iff hline hne]
  exact exists_mem_linesFrom_iff he _

theorem unchecked_iff (he : e < ls.length) :
    (callsTransfer ((linesFrom ls i e).flatMap (· ++ ['\n'])) ∧
      ¬requiresSuccess ((linesFrom ls i e).flatMap (· ++ ['\n']))) ↔ Unchecked ls i e := by
  have hbody : ∀ pattern : String, '\n' ∉ pattern.toList → pattern.toList ≠ [] →
      (Text.has ((linesFrom ls i e).flatMap (· ++ ['\n'])) pattern ↔ Within ls i e pattern) :=
    fun _ hline hne => has_body_iff he hline hne
  simp only [callsTransfer, requiresSuccess, Text.hasAny, List.any_cons, List.any_nil,
    Bool.or_false, Bool.and_eq_true, Bool.or_eq_true, hbody ".call(" (by decide) (by decide),
    hbody "transfer(" (by decide) (by decide), hbody "transferFrom(" (by decide) (by decide),
    hbody "(bool" (by decide) (by decide), hbody "success" (by decide) (by decide),
    hbody "require" (by decide) (by decide)]
  constructor
  · rintro ⟨⟨hcalls, htransfers⟩, hunrequired⟩
    exact ⟨hcalls, htransfers, fun h => hunrequired h.symm⟩
  · rintro ⟨hcalls, htransfers, hunrequired⟩
    exact ⟨⟨hcalls, htransfers⟩, fun h => hunrequired h.symm⟩

theorem isTransferCall_iff (line : Text) :
    isTransferCall line ↔ line.has ".call(" ∧ line.has "transfer" := by
  rw [isTransferCall, Bool.and_eq_true]

theorem getElem?_linesFrom {n : Nat} (hn : i + n ≤ e) (he : e < ls.length) :
    (linesFrom ls i e)[n]? = some (ls.getD (i + n) []) := by
  have hin : i + n < ls.length := Nat.lt_of_le_of_lt hn he
  rw [linesFrom, List.getElem?_take_of_lt (by omega), List.getElem?_drop,
    List.getD_eq_getElem?_getD, List.getElem?_eq_getElem hin, Option.getD_some]

theorem findIdx?_linesFrom_iff (he : e < ls.length) (n : Nat) :
    (linesFrom ls i e).findIdx? isTransferCall = some n ↔ FirstCall ls i e (i + n) := by
  have hlength : (linesFrom ls i e).length = e + 1 - i := by
    rw [linesFrom, List.length_take, List.length_drop]
    omega
  have hget : ∀ m, i + m ≤ e → ∀ hm : m < (linesFrom ls i e).length,
      (linesFrom ls i e)[m] = ls.getD (i + m) [] := by
    intro m hme hm
    exact Option.some.inj ((List.getElem?_eq_getElem hm).symm.trans (getElem?_linesFrom hme he))
  rw [List.findIdx?_eq_some_iff_getElem]
  constructor
  · rintro ⟨hn, hcall, hbefore⟩
    have hne : i + n ≤ e := by omega
    refine ⟨Nat.le_add_right i n, hne, ?_, ?_⟩
    · rwa [hget n hne hn, isTransferCall_iff] at hcall
    · intro j hij hj
      obtain ⟨m, rfl⟩ := Nat.exists_eq_add_of_le hij
      have hm := hbefore m (by omega)
      rwa [hget m (by omega), isTransferCall_iff] at hm
  · intro h
    have hne := h.inside
    refine ⟨by omega, ?_, ?_⟩
    · rw [hget n hne, isTransferCall_iff]
      exact h.call
    · intro m hm
      rw [hget m (by omega), isTransferCall_iff]
      exact h.before (i + m) (Nat.le_add_right i m) (by omega)

theorem firstCall_iff (he : e < ls.length) (k : Nat) :
    FirstCall ls i e k ↔
      ∃ n, (linesFrom ls i e).findIdx? isTransferCall = some n ∧ k = i + n := by
  constructor
  · intro h
    obtain ⟨n, rfl⟩ := Nat.exists_eq_add_of_le h.after
    exact ⟨n, (findIdx?_linesFrom_iff he n).mpr h, rfl⟩
  · rintro ⟨n, hfind, rfl⟩
    exact (findIdx?_linesFrom_iff he n).mp hfind

theorem issueAt_eq_some_iff {startLine : Int} (hstart : 1 ≤ startLine) (hi : i < ls.length)
    (hbrace : '{' ∈ ls.getD i []) (issue : Issue) :
    issueAt ls startLine i = some issue ↔
      headerName (ls.getD i []) ≠ [] ∧ Unchecked ls i (bodyEnd ls i) ∧
        ∃ k, FirstCall ls i (bodyEnd ls i) k ∧
          issue = functionIssue (headerName (ls.getD i [])) (startLine + k) (ls.getD k []) := by
  have he : bodyEnd ls i < ls.length := (bodyEnd_spec hi).2.1
  rw [← unchecked_iff he, issueAt, headerIssue?, bodyLines_header hi hbrace]
  by_cases hverdict : headerName (ls.getD i []) ≠ [] ∧
      callsTransfer ((linesFrom ls i (bodyEnd ls i)).flatMap (· ++ ['\n'])) = true ∧
        ¬requiresSuccess ((linesFrom ls i (bodyEnd ls i)).flatMap (· ++ ['\n'])) = true
  · rw [if_pos hverdict]
    obtain ⟨hname, hcalls, hrequires⟩ := hverdict
    simp only [hname, hcalls, hrequires, ne_eq, not_false_eq_true, true_and, Bool.false_eq_true]
    cases hfind : (linesFrom ls i (bodyEnd ls i)).findIdx? isTransferCall with
    | none =>
      simp only [firstCall_iff he, hfind, reduceCtorEq, false_and, exists_false]
    | some n =>
      have hfirst := (findIdx?_linesFrom_iff he n).mp hfind
      have hline : (linesFrom ls i (bodyEnd ls i)).getD n [] = ls.getD (i + n) [] := by
        rw [List.getD_eq_getElem?_getD, getElem?_linesFrom hfirst.inside he, Option.getD_some]
      have hplace : startLine + (i : Int) + n = startLine + ((i + n : Nat) : Int) := by omega
      dsimp only
      rw [if_neg (by omega), hline, hplace]
      constructor
      · intro h
        cases h
        exact ⟨i + n, hfirst, rfl⟩
      · rintro ⟨k, hk, rfl⟩
        -- the first call is unique, so the issue is the one that was found
        obtain ⟨m, hm, rfl⟩ := (firstCall_iff he k).mp hk
        rw [hfind] at hm
        cases hm
        rfl
  · rw [if_neg hverdict]
    simp only [reduceCtorEq, false_iff]
    rintro ⟨hname, hunchecked, -⟩
    exact hverdict ⟨hname, hunchecked⟩

end Verdict

theorem issuesFrom_eq_filterMap (startLine : Int) (ls : List Text) :
    issuesFrom startLine ls =
      ((List.range ls.length).filter fun i => isHeader (ls.getD i [])).filterMap
        (issueAt ls startLine) := by
  induction ls generalizing startLine with
  | nil => rfl
  | cons header rest ih =>
    have hnext : ∀ i,
        issueAt (header :: rest) startLine (i + 1) = issueAt rest (startLine + 1) i := by
      intro i
      have hplace : startLine + ((i + 1 : Nat) : Int) = startLine + 1 + i := by omega
      rw [issueAt, issueAt, hplace]
      rfl
    have hhere : issueAt (header :: rest) startLine 0 = headerIssue? startLine header rest := by
      rw [issueAt, Int.natCast_zero, Int.add_zero]
      rfl
    rw [issuesFrom, ih, List.length_cons, List.range_succ_eq_map, List.filter_cons, List.filter_map,
      List.getD_cons_zero]
    simp only [Function.comp_def, List.getD_cons_succ]
    by_cases hheader : isHeader header
    · rw [if_pos hheader, if_pos hheader, List.filterMap_cons, List.filterMap_map, hhere]
      simp only [Function.comp_def, hnext]
      cases headerIssue? startLine header rest <;> rfl
    · rw [if_neg hheader, if_neg hheader, List.filterMap_map, List.nil_append]
      simp only [Function.comp_def, hnext]

theorem lt_length_of_brace {ls : List Text} {i : Nat} (h : '{' ∈ ls.getD i []) :
    i < ls.length := by
  by_contra hout
  rw [List.getD_eq_getElem?_getD, List.getElem?_eq_none (Nat.le_of_not_lt hout)] at h
  cases h

/-- The issues of a text are those of its headers, at most one for each and in their order. Where
the header has an opening brace there is one iff the function has a name, its lines make a call and
do not require its success, and one of them holds the call together with the word `transfer`; it
stands at the first such line. -/
theorem transferIssues_by_header (code : Text) {startLine : Int} (hstart : 1 ≤ startLine) :
    transferIssues code startLine =
      ((List.range code.lines.length).filter fun i => isHeader (code.lines.getD i [])).filterMap
        (issueAt code.lines startLine) ∧
    ∀ i, isHeader (code.lines.getD i []) → '{' ∈ code.lines.getD i [] →
      ∀ issue, issueAt code.lines startLine i = some issue ↔
        headerName (code.lines.getD i []) ≠ [] ∧
        Unchecked code.lines i (bodyEnd code.lines i) ∧
        ∃ k, FirstCall code.lines i (bodyEnd code.lines i) k ∧
          issue = functionIssue (headerName (code.lines.getD i [])) (startLine + k)
            (code.lines.getD k []) := by
  constructor
  · exact issuesFrom_eq_filterMap startLine code.lines
  · intro i _ hbrace issue
    exact issueAt_eq_some_iff hstart (lt_length_of_brace hbrace) hbrace issue

def blockInside : Text :=
  ("function transferAll() \x7b if (a) \x7b\nx.call(transfer(1));\n\x7d \x7d\n" ++
    "require(success)").toList

/-- What stands behind the function does not count. -/
theorem transferIssues_by_header_blockInside :
    (1 : Int) ≤ 5 ∧ bodyEnd blockInside.lines 0 = 2 ∧
      functionIssue "transferAll".toList 6 "x.call(transfer(1));".toList ∈
        transferIssues blockInside 5 := by
  let line (j : Nat) := blockInside.lines.getD j []
  -- the text is evaluated once for all that is read off it
  have hfacts : blockInside.lines.length = 4 ∧ bodyEnd blockInside.lines 0 = 2 ∧
      isHeader (line 0) ∧ '{' ∈ line 0 ∧ headerName (line 0) = "transferAll".toList ∧
      ¬((line 0).has ".call(" ∧ (line 0).has "transfer") ∧
      (line 1).has ".call(" ∧ (line 1).has "transfer(" ∧ (line 1).has "transfer" ∧
      line 1 = "x.call(transfer(1));".toList ∧ ∀ j < 3, ¬(line j).has "require" := by
    decide +kernel
  obtain ⟨hlength, hend, hheader, hbrace, hname, hzero, hcall, htransfer, hword, hone, hrequire⟩ :=
    hfacts
  obtain ⟨hall, heach⟩ := @transferIssues_by_header blockInside 5 (by decide)
  have hunchecked : Unchecked blockInside.lines 0 2 := by
    refine ⟨⟨1, by decide, by decide, hcall⟩, .inl ⟨1, by decide, by decide, htransfer⟩, ?_⟩
    rintro ⟨⟨j, -, hj, hhas⟩, -⟩
    exact hrequire j (by omega) hhas
  have hfirst : FirstCall blockInside.lines 0 2 1 := by
    refine ⟨by decide, by decide, ⟨hcall, hword⟩, ?_⟩
    intro j _ hj
    obtain rfl : j = 0 := by omega
    exact hzero
  have hissue : issueAt blockInside.lines 5 0 =
      some (functionIssue "transferAll".toList 6 "x.call(transfer(1));".toList) := by
    rw [heach 0 hheader hbrace, hend, hname, ← hone]
    exact ⟨by decide, hunchecked, 1, hfirst, rfl⟩
  refine ⟨by decide, hend, ?_⟩
  rw [hall, List.mem_filterMap]
  refine ⟨0, List.mem_filter.mpr ⟨?_, hheader⟩, hissue⟩
  rw [hlength, List.mem_range]
  decide

end ContractAudit.Solidity

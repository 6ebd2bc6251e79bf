import ContractAudit.Proofs.Solidity.Extent
import ContractAudit.Solidity.Transfer

/-! The lines that Solidity issues stand at. A section's text starts below its opening line, and a
function's body starts at its first line with an opening brace; the number of an issue counts
from the opening line and from the header instead, so it is too small by one and by the lines
between the header and the body. -/

namespace ContractAudit.Solidity

/-- Where a function stands among numbered lines: its body starts `lead` lines below its header,
and the first transfer call of the body is `k` lines below that. -/
structure CallAt (line : Nat → Text) (header lead k : Nat) : Prop where
  starts : isHeader (line header)
  unopened : ∀ j < lead, '{' ∉ line (header + j)
  opens : '{' ∈ line (header + lead)
  before : ∀ j < k, ¬isTransferCall (line (header + lead + j))
  call : isTransferCall (line (header + lead + k))

theorem CallAt.move {line line' : Nat → Text} {header lead k : Nat} (d : Nat)
    (h : CallAt line header lead k)
    (hline : ∀ x ≤ header + lead + k, line' (x + d) = line x) :
    CallAt line' (header + d) lead k := by
  have hat : ∀ x y, x ≤ header + lead + k → x + d = y → line' y = line x := by
    rintro x _ hx rfl
    exact hline x hx
  constructor
  · rw [hat header _ (by omega) rfl]
    exact h.starts
  · intro j hj
    rw [hat (header + j) _ (by omega) (by omega)]
    exact h.unopened j hj
  · rw [hat (header + lead) _ (by omega) (by omega)]
    exact h.opens
  · intro j hj
    rw [hat (header + lead + j) _ (by omega) (by omega)]
    exact h.before j hj
  · rw [hat (header + lead + k) _ (by omega) (by omega)]
    exact h.call

theorem bodyLines_inside_prefix (depth : Int) (ls : List Text) :
    bodyLines depth true ls <+: ls := by
  induction ls generalizing depth with
  | nil => exact List.prefix_rfl
  | cons line rest ih =>
    simp only [bodyLines, Bool.true_or, if_true]
    refine List.cons_prefix_cons.mpr ⟨rfl, ?_⟩
    split
    · exact List.nil_prefix
    · exact ih _

theorem bodyLines_outside (depth : Int) (ls : List Text) : bodyLines depth false ls ≠ [] →
    ∃ lead, (∀ j < lead, '{' ∉ ls.getD j []) ∧ '{' ∈ ls.getD lead [] ∧
      bodyLines depth false ls <+: ls.drop lead := by
  induction ls generalizing depth with
  | nil => exact fun h => absurd rfl h
  | cons line rest ih =>
    intro hne
    by_cases hopen : '{' ∈ line
    · have hcount : (line.count '{' != 0) = true := by
        rw [bne_iff_ne, ne_eq, List.count_eq_zero, not_not]
        exact hopen
      refine ⟨0, fun j hj => absurd hj (Nat.not_lt_zero j), hopen, ?_⟩
      simp only [bodyLines, hcount, Bool.or_true, if_true, List.drop_zero]
      refine List.cons_prefix_cons.mpr ⟨rfl, ?_⟩
      split
      · exact List.nil_prefix
      · exact bodyLines_inside_prefix _ rest
    · have hcount : (line.count '{' != 0) = false := by
        rw [bne_eq_false_iff_eq, List.count_eq_zero]
        exact hopen
      simp only [bodyLines, hcount, Bool.or_false, Bool.false_eq_true, and_false, if_false]
        at hne ⊢
      obtain ⟨lead, hlead, hbrace, hprefix⟩ := ih _ hne
      refine ⟨lead + 1, ?_, hbrace, hprefix⟩
      intro j hj
      cases j with
      | zero => exact hopen
      | succ j => exact hlead j (Nat.lt_of_succ_lt_succ hj)

theorem getElem?_of_findIdx? {ls : List Text} {k : Nat}
    (h : ls.findIdx? isTransferCall = some k) :
    (∃ line, ls[k]? = some line ∧ isTransferCall line) ∧
      ∀ j < k, ∃ line, ls[j]? = some line ∧ ¬isTransferCall line := by
  obtain ⟨hk, hcall, hbefore⟩ := List.findIdx?_eq_some_iff_getElem.mp h
  refine ⟨⟨ls[k], List.getElem?_eq_getElem hk, hcall⟩, ?_⟩
  intro j hj
  exact ⟨ls[j], List.getElem?_eq_getElem (Nat.lt_trans hj hk), hbefore j hj⟩

theorem getD_of_prefix_drop {body ls : List Text} {lead j : Nat} {line : Text}
    (h : body <+: ls.drop lead) (hline : body[j]? = some line) : ls.getD (lead + j) [] = line := by
  obtain ⟨hj, hget⟩ := List.getElem?_eq_some_iff.mp hline
  have hdrop := List.prefix_iff_getElem?.mp h j hj
  rw [List.getElem?_drop, hget] at hdrop
  rw [List.getD_eq_getElem?_getD, hdrop, Option.getD_some]

theorem headerIssue?_callAt {line : Int} {header : Text} {rest : List Text} {i : Issue}
    (hheader : isHeader header) (h : headerIssue? line header rest = some i) :
    ∃ lead k, CallAt ((header :: rest).getD · []) 0 lead k ∧
      i.lineStart = line + k ∧ i.lineEnd = line + k ∧
      i.snippet = String.ofList ((header :: rest).getD (lead + k) []).trim := by
  unfold headerIssue? at h
  dsimp only at h
  split at h
  · cases hfind : (bodyLines 0 false (header :: rest)).findIdx? isTransferCall with
    | none =>
      rw [hfind] at h
      cases h
    | some k =>
      rw [hfind] at h
      dsimp only at h
      split at h
      · cases h
      · cases h
        obtain ⟨⟨found, hfound, hcall⟩, hbefore⟩ := getElem?_of_findIdx? hfind
        have hne : bodyLines 0 false (header :: rest) ≠ [] := by
          intro hnil
          rw [hnil] at hfound
          cases hfound
        obtain ⟨lead, hlead, hbrace, hprefix⟩ := bodyLines_outside 0 (header :: rest) hne
        have hline := getD_of_prefix_drop hprefix hfound
        refine ⟨lead, k, ⟨hheader, ?_, ?_, ?_, ?_⟩, rfl, rfl, ?_⟩
        · intro j hj
          rw [Nat.zero_add]
          exact hlead j hj
        · rwa [Nat.zero_add]
        · intro j hj
          obtain ⟨other, hother, hnot⟩ := hbefore j hj
          rwa [Nat.zero_add, getD_of_prefix_drop hprefix hother]
        · rwa [Nat.zero_add, hline]
        · rw [hline, List.getD_eq_getElem?_getD, hfound, Option.getD_some]
  · cases h

theorem issuesFrom_callAt {line : Int} {ls : List Text} {i : Issue} (h : i ∈ issuesFrom line ls) :
    ∃ header lead k : Nat, CallAt (ls.getD · []) header lead k ∧
      i.lineStart = line + header + k ∧ i.lineEnd = line + header + k ∧
      i.snippet = String.ofList (ls.getD (header + lead + k) []).trim := by
  induction ls generalizing line with
  | nil => cases h
  | cons first rest ih =>
    rw [issuesFrom, List.mem_append] at h
    rcases h with h | h
    · split at h
      · next hheader =>
        obtain ⟨lead, k, hcall, hstart, hend, hsnippet⟩ :=
          headerIssue?_callAt hheader (Option.mem_toList.mp h)
        refine ⟨0, lead, k, hcall, ?_, ?_, ?_⟩
        · rw [hstart, Int.natCast_zero, Int.add_zero]
        · rw [hend, Int.natCast_zero, Int.add_zero]
        · rw [hsnippet, Nat.zero_add]
      · cases h
    · obtain ⟨header, lead, k, hcall, hstart, hend, hsnippet⟩ := ih h
      refine ⟨header + 1, lead, k, hcall.move 1 fun x _ => rfl, ?_, ?_, ?_⟩
      · rw [hstart]
        omega
      · rw [hend]
        omega
      · rw [hsnippet, show header + 1 + lead + k = header + lead + k + 1 by omega]
        rfl

theorem not_isTransferCall_nil : ¬isTransferCall [] := by decide

theorem isTransferCall_trim (line : Text) : isTransferCall line.trim = isTransferCall line := by
  have hcall : Text.has line.trim ".call(" = Text.has line ".call(" :=
    Text.occurs_trim (by decide) (by decide) line
  have htransfer : Text.has line.trim "transfer" = Text.has line "transfer" :=
    Text.occurs_trim (by decide) (by decide) line
  rw [isTransferCall, isTransferCall, hcall, htransfer]

theorem lines_sectionAt (code : Text) (o n : Nat) :
    (sectionAt code.lines o n).code.lines = (code.lines.drop (o + 1)).take n ++ [[]] := by
  apply Text.lines_flatMap
  intro line hline
  exact Text.sep_notMem_of_mem_splitAt (List.mem_of_mem_drop (List.mem_of_mem_take hline))

theorem startLine_sectionAt (ls : List Text) (o n : Nat) :
    (sectionAt ls o n).startLine = o + 1 := rfl

theorem lineAt_eq_getD {code : Text} {o n x : Nat} (hfits : o + 1 + n ≤ code.lines.length)
    (hx : x < n) :
    code.lineAt (x + (o + 2)) = ((code.lines.drop (o + 1)).take n ++ [[]]).getD x [] := by
  have hlength : x < ((code.lines.drop (o + 1)).take n).length := by
    rw [List.length_take, List.length_drop]
    omega
  rw [Text.lineAt, List.getD_eq_getElem?_getD, List.getD_eq_getElem?_getD,
    List.getElem?_append_left hlength, List.getElem?_take_of_lt hx, List.getElem?_drop,
    show x + (o + 2) - 1 = o + 1 + x by omega]

theorem getD_append_nil {ls : List Text} {x : Nat} (hx : ls.length ≤ x) :
    (ls ++ [[]]).getD x [] = [] := by
  rw [List.getD_eq_getElem?_getD, List.getElem?_append_right hx]
  cases x - ls.length <;> rfl

theorem sectionIssues_callAt {code : Text} {i : Issue} (h : i ∈ sectionIssues code) :
    ∃ header lead k : Nat, CallAt code.lineAt header lead k ∧
      2 ≤ header ∧ header + lead + k ≤ code.lines.length ∧
      i.lineStart = (header : Int) + k - 1 ∧ i.lineEnd = (header : Int) + k - 1 ∧
      i.snippet = String.ofList (code.lineAt (header + lead + k)).trim := by
  obtain ⟨sect, hsect, hi⟩ := List.mem_flatMap.mp h
  obtain ⟨o, n, hfits, rfl⟩ := exists_eq_sectionAt hsect
  rw [transferIssues, lines_sectionAt] at hi
  obtain ⟨header, lead, k, hcall, hstart, hend, hsnippet⟩ := issuesFrom_callAt hi
  -- the text of a section ends with a line feed, and no call is on the empty line after it
  have hinside : header + lead + k < n := by
    by_contra hout
    apply not_isTransferCall_nil
    have hpast : ((code.lines.drop (o + 1)).take n ++ [[]]).getD (header + lead + k) [] = [] := by
      apply getD_append_nil
      rw [List.length_take]
      omega
    exact hpast ▸ hcall.call
  have hline : ∀ x ≤ header + lead + k, code.lineAt (x + (o + 2)) =
      ((code.lines.drop (o + 1)).take n ++ [[]]).getD x [] :=
    fun x hx => lineAt_eq_getD hfits (Nat.lt_of_le_of_lt hx hinside)
  refine ⟨header + (o + 2), lead, k, hcall.move (o + 2) hline, by omega, by omega, ?_, ?_, ?_⟩
  · rw [hstart, startLine_sectionAt]
    omega
  · rw [hend, startLine_sectionAt]
    omega
  · rw [hsnippet, ← hline _ (Nat.le_refl _)]
    congr 3
    omega

/-- The line of an issue lies in the source, but the call itself stands `lead + 1` lines further
down, where `lead` is the distance from the header of the function to the first line of its body.
The line of the issue reads like the call only where the call is among the first `lead + 1` lines
of the body and the two lines are the same up to blanks at their ends. -/
theorem sectionIssues_line {code : Text} {i : Issue} (h : i ∈ sectionIssues code) :
    ∃ n header lead k : Nat, i.lineStart = n ∧ i.lineEnd = n ∧ 1 ≤ n ∧ n ≤ code.lines.length ∧
      n + 1 = header + k ∧ CallAt code.lineAt header lead k ∧
      n + 1 + lead ≤ code.lines.length ∧
      i.snippet = String.ofList (code.lineAt (n + 1 + lead)).trim ∧
      (i.snippet = String.ofList (code.lineAt n).trim ↔
        k ≤ lead ∧ (code.lineAt n).trim = (code.lineAt (n + 1 + lead)).trim) := by
  obtain ⟨header, lead, k, hcall, htwo, hfits, hstart, hend, hsnippet⟩ := sectionIssues_callAt h
  have hplace : header + k - 1 + 1 + lead = header + lead + k := by omega
  refine ⟨header + k - 1, header, lead, k, by omega, by omega, by omega, by omega, by omega, hcall,
    by omega, ?_, ?_⟩
  · rw [hplace, hsnippet]
  · rw [hplace, hsnippet, String.ofList_inj]
    constructor
    · intro hsame
      refine ⟨?_, hsame.symm⟩
      by_contra hdeep
      -- the line of the issue is in the body above the call, so it makes no transfer call
      have habove := hcall.before (k - 1 - lead) (by omega)
      rw [show header + lead + (k - 1 - lead) = header + k - 1 by omega, ← isTransferCall_trim,
        ← hsame, isTransferCall_trim] at habove
      exact habove hcall.call
    · intro hsame
      exact hsame.2.symm

def callOnThree : Text :=
  "sol! \x7b\nfunction transfer() \x7b\nx.call(transfer(\n\x7d\n".toList

theorem sectionIssues_line_callOnThree :
    ∃ i ∈ sectionIssues callOnThree, i.lineStart = 2 ∧
      ∃ n header lead k : Nat, i.lineStart = n ∧ i.lineEnd = n ∧ 1 ≤ n ∧
        n ≤ callOnThree.lines.length ∧ n + 1 = header + k ∧
        CallAt callOnThree.lineAt header lead k ∧ n + 1 + lead ≤ callOnThree.lines.length ∧
        i.snippet = String.ofList (callOnThree.lineAt (n + 1 + lead)).trim ∧
        (i.snippet = String.ofList (callOnThree.lineAt n).trim ↔
          k ≤ lead ∧ (callOnThree.lineAt n).trim = (callOnThree.lineAt (n + 1 + lead)).trim) := by
  have hissue : ∃ i ∈ sectionIssues callOnThree, i.lineStart = 2 := by decide +kernel
  obtain ⟨i, hi, hline⟩ := hissue
  exact ⟨i, hi, hline, sectionIssues_line hi⟩

/-- The line of an issue need not be the line of its snippet. -/
theorem not_snippet_at_line :
    ¬∀ i ∈ sectionIssues callOnThree, i.lineEnd = i.lineStart ∧ 1 ≤ i.lineStart ∧
      i.lineStart ≤ callOnThree.lines.length ∧
      i.snippet = String.ofList (callOnThree.lineAt i.lineStart.toNat).trim := by
  decide +kernel

end ContractAudit.Solidity

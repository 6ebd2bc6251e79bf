import ContractAudit.Proofs.Solidity.Extent
import ContractAudit.Solidity.Transfer

/-! Solidity sections and their issues when whole lines without an opening line are put in front
of the source: the same sections, with the same issues, as many lines further down. -/

namespace ContractAudit

def Issue.shift (rows : Int) (i : Issue) : Issue :=
  { i with lineStart := i.lineStart + rows, lineEnd := i.lineEnd + rows }

namespace Solidity

def Section.shift (rows : Nat) (s : Section) : Section :=
  { s with startLine := s.startLine + rows }

def Search.shift (rows : Nat) (s : Search) : Search :=
  ⟨s.current.map (Section.shift rows), s.found.map (Section.shift rows)⟩

theorem step_shift (rows : Nat) (s : Search) (line : Text) (i : Nat) :
    (s.shift rows).step (line, i + rows) = (s.step (line, i)).shift rows := by
  obtain ⟨current, found⟩ := s
  by_cases hopen : isOpening line
  · simp only [Search.step, hopen, if_true, Search.shift, Option.map_some, Section.shift]
    rw [Nat.add_right_comm]
  · cases current with
    | none =>
      simp only [Search.step, hopen, Search.shift, Option.map_none, Bool.false_eq_true, if_false]
    | some sect =>
      by_cases hclose : isClosing line
      · simp only [Search.step, hopen, hclose, Search.shift, Option.map_some, Option.map_none,
          Section.shift, Bool.false_eq_true, if_false, if_true, List.map_append, List.map_cons,
          List.map_nil]
      · simp only [Search.step, hopen, hclose, Search.shift, Option.map_some, Section.shift,
          Bool.false_eq_true, if_false]

theorem foldl_step_shift (rows : Nat) (ls : List Text) (s : Search) (i : Nat) :
    (ls.zipIdx (i + rows)).foldl Search.step (s.shift rows) =
      ((ls.zipIdx i).foldl Search.step s).shift rows := by
  induction ls generalizing s i with
  | nil => rfl
  | cons line ls ih =>
    rw [List.zipIdx_cons, List.zipIdx_cons, List.foldl_cons, List.foldl_cons, step_shift,
      Nat.add_right_comm, ih]

/-- Outside of sections only an opening line changes the state of the search. -/
theorem foldl_step_of_no_opening (ls : List Text) (h : ∀ line ∈ ls, isOpening line = false)
    (found : List Section) (i : Nat) :
    (ls.zipIdx i).foldl Search.step ⟨none, found⟩ = ⟨none, found⟩ := by
  induction ls generalizing i with
  | nil => rfl
  | cons line ls ih =>
    rw [List.forall_mem_cons] at h
    rw [List.zipIdx_cons, List.foldl_cons]
    have hstep : Search.step ⟨none, found⟩ (line, i) = ⟨none, found⟩ := by
      simp only [Search.step, h.1, Bool.false_eq_true, if_false]
    rw [hstep, ih h.2]

theorem sections_eq_nil {code : Text} (h : ¬code.has "sol! \x7b") : sections code = [] := by
  have hnone : ∀ line ∈ code.lines, isOpening line = false := fun line hline =>
    Bool.eq_false_iff.mpr fun hopen => h (Text.has_of_infix (Text.infix_of_mem_splitAt hline) hopen)
  rw [sections, foldl_step_of_no_opening code.lines hnone]

theorem isOpening_eq_false_of_mem_dropLast {p line : Text} (hp : p.has "sol! \x7b" = false)
    (h : line ∈ p.lines.dropLast) : isOpening line = false := by
  rw [Bool.eq_false_iff] at hp ⊢
  intro hopen
  apply hp
  rw [Text.has_iff]
  exact ((Text.has_iff _ _).mp hopen).trans
    (Text.infix_of_mem_splitAt (List.dropLast_subset _ h))

theorem sections_append {p : Text} (hwhole : p.WholeLines) (hp : p.has "sol! \x7b" = false)
    (code : Text) : sections (p ++ code) = (sections code).map (Section.shift (p.count '\n')) := by
  have hfront := foldl_step_of_no_opening p.lines.dropLast
    (fun _ h => isOpening_eq_false_of_mem_dropLast hp h) [] 0
  have hback := foldl_step_shift (p.count '\n') code.lines ⟨none, []⟩ 0
  rw [sections, Text.lines_append hwhole, List.zipIdx_append, List.foldl_append, hfront,
    Text.length_dropLast_lines]
  exact congrArg Search.found hback

theorem headerIssue?_shift {line : Int} (hline : 0 < line) (rows : Nat) (header : Text)
    (rest : List Text) :
    headerIssue? (line + rows) header rest =
      (headerIssue? line header rest).map (Issue.shift rows) := by
  unfold headerIssue?
  dsimp only
  split
  · cases (bodyLines 0 false (header :: rest)).findIdx? isTransferCall with
    | none => rfl
    | some k =>
      dsimp only
      -- numbers of lines are positive, so no issue is dropped on either side
      rw [if_neg (show ¬line + rows + k = 0 by omega), if_neg (show ¬line + k = 0 by omega),
        Option.map_some, Issue.shift, Int.add_right_comm]
  · rfl

theorem issuesFrom_shift {line : Int} (hline : 0 < line) (rows : Nat) (ls : List Text) :
    issuesFrom (line + rows) ls = (issuesFrom line ls).map (Issue.shift rows) := by
  induction ls generalizing line with
  | nil => rfl
  | cons header rest ih =>
    have hnext := ih (show 0 < line + 1 by omega)
    rw [Int.add_right_comm] at hnext
    rw [issuesFrom, issuesFrom, List.map_append, hnext, headerIssue?_shift hline]
    congr 1
    split
    · cases headerIssue? line header rest <;> rfl
    · rfl

theorem sectionIssues_append {p : Text} (hwhole : p.WholeLines)
    (hp : p.has "sol! \x7b" = false) (code : Text) :
    sectionIssues (p ++ code) = (sectionIssues code).map (Issue.shift (p.count '\n' : Nat)) := by
  rw [sectionIssues, sections_append hwhole hp, List.flatMap_map, sectionIssues, List.map_flatMap]
  apply List.flatMap_congr
  intro sect hsect
  have hline : (0 : Int) < sect.startLine := Int.natCast_pos.mpr (startLine_pos hsect)
  simpa only [transferIssues, Section.shift, Int.natCast_add] using
    issuesFrom_shift hline (p.count '\n') sect.code.lines

end Solidity
end ContractAudit

import ContractAudit.Proofs.Text.Lines
import ContractAudit.Solidity.Section

/-! Where the sections of a source lie. An opening line stays open until another one restarts the
section or a closing line ends it; the sections are those of the opening lines that are closed
first. Each is made of the lines after its opening line up to its closing line, without a gap. -/

namespace ContractAudit.Solidity

def sectionAt (ls : List Text) (o n : Nat) : Section :=
  ⟨((ls.drop (o + 1)).take n).flatMap (· ++ ['\n']), o + 1⟩

theorem sectionAt_succ {ls : List Text} {line : Text} {o n : Nat}
    (h : ls[o + 1 + n]? = some line) :
    sectionAt ls o (n + 1) = ⟨(sectionAt ls o n).code ++ line ++ ['\n'], o + 1⟩ := by
  have hdrop : (ls.drop (o + 1))[n]? = some line := by rw [List.getElem?_drop, h]
  simp only [sectionAt, List.take_add_one, hdrop, Option.toList_some, List.flatMap_append,
    List.flatMap_cons, List.flatMap_nil, List.append_nil, List.append_assoc]

/-- Line `i` opens a section and line `j` is the first to close it, with no opening line after
line `i` up to line `j`. -/
structure Encloses (ls : List Text) (i j : Nat) : Prop where
  before : i < j
  inside : j < ls.length
  opens : isOpening (ls.getD i [])
  unopened : ∀ k, i < k → k ≤ j → ¬isOpening (ls.getD k [])
  closes : isClosing (ls.getD j [])
  unclosed : ∀ k, i < k → k < j → ¬isClosing (ls.getD k [])

structure OpenAt (ls : List Text) (o n : Nat) : Prop where
  before : o < n
  opens : isOpening (ls.getD o [])
  goesOn : ∀ k, o < k → k < n → ¬isOpening (ls.getD k []) ∧ ¬isClosing (ls.getD k [])

section Line

variable {ls : List Text} {n : Nat} {line : Text}

theorem getD_of_getElem? (hline : ls[n]? = some line) : ls.getD n [] = line := by
  rw [List.getD_eq_getElem?_getD, hline, Option.getD_some]

theorem encloses_iff (hline : ls[n]? = some line) {i : Nat} :
    Encloses ls i n ↔ OpenAt ls i n ∧ ¬isOpening line ∧ isClosing line := by
  rw [← getD_of_getElem? hline]
  constructor
  · intro h
    refine ⟨⟨h.before, h.opens, fun k hik hkn => ?_⟩, h.unopened n h.before (Nat.le_refl n),
      h.closes⟩
    exact ⟨h.unopened k hik (Nat.le_of_lt hkn), h.unclosed k hik hkn⟩
  · rintro ⟨hopen, hlast, hcloses⟩
    refine ⟨hopen.before, (List.getElem?_eq_some_iff.mp hline).1, hopen.opens,
      fun k hik hkn => ?_, hcloses, fun k hik hkn => (hopen.goesOn k hik hkn).2⟩
    rcases Nat.lt_or_eq_of_le hkn with hkn | rfl
    · exact (hopen.goesOn k hik hkn).1
    · exact hlast

theorem openAt_succ (hline : ls[n]? = some line) {o : Nat} :
    OpenAt ls o (n + 1) ↔ (o = n ∧ isOpening line) ∨
      (OpenAt ls o n ∧ ¬isOpening line ∧ ¬isClosing line) := by
  rw [← getD_of_getElem? hline]
  constructor
  · intro h
    rcases Nat.lt_or_eq_of_le (Nat.le_of_lt_succ h.before) with hlt | rfl
    · exact .inr ⟨⟨hlt, h.opens, fun k hk hkn => h.goesOn k hk (Nat.lt_succ_of_lt hkn)⟩,
        h.goesOn n hlt (Nat.lt_succ_self n)⟩
    · exact .inl ⟨rfl, h.opens⟩
  · rintro (⟨rfl, hopens⟩ | ⟨h, hn⟩)
    · exact ⟨Nat.lt_succ_self o, hopens, fun k hk hkn => by omega⟩
    · refine ⟨Nat.lt_succ_of_lt h.before, h.opens, fun k hk hkn => ?_⟩
      rcases Nat.lt_or_eq_of_le (Nat.le_of_lt_succ hkn) with hkn | rfl
      · exact h.goesOn k hk hkn
      · exact hn

end Line

/-- At most one line is open: a later opening line would have restarted the section. -/
theorem OpenAt.unique {ls : List Text} {o o' n : Nat} (h : OpenAt ls o n) (h' : OpenAt ls o' n) :
    o = o' := by
  rcases Nat.lt_trichotomy o o' with hlt | heq | hlt
  · exact absurd h'.opens (h.goesOn o' hlt h'.before).1
  · exact heq
  · exact absurd h.opens (h'.goesOn o hlt h.before).1

def enclosed (ls : List Text) (p : Nat × Nat) : Section := sectionAt ls p.1 (p.2 - p.1)

/-- After `n` lines, what is found are the sections of the pairs that end among them, in order,
and what is being read are the lines since the one that is open. -/
structure Search.Exact (ls : List Text) (n : Nat) (pairs : List (Nat × Nat)) (s : Search) :
    Prop where
  found : s.found = pairs.map (enclosed ls)
  apart : pairs.Pairwise fun p q => p.2 < q.1
  pairs : ∀ i j, (i, j) ∈ pairs ↔ j < n ∧ Encloses ls i j
  current : ∀ sect, s.current = some sect ↔
    ∃ o, OpenAt ls o n ∧ sect = sectionAt ls o (n - (o + 1))

section Step

variable {ls : List Text} {n : Nat} {pairs : List (Nat × Nat)} {s : Search} {line : Text}

theorem Search.Exact.pairs_succ (hs : s.Exact ls n pairs) (h : ∀ i, ¬Encloses ls i n) (i j : Nat) :
    (i, j) ∈ pairs ↔ j < n + 1 ∧ Encloses ls i j := by
  rw [hs.pairs, Nat.lt_succ_iff_lt_or_eq, or_and_right]
  refine (or_iff_left ?_).symm
  rintro ⟨rfl, hi⟩
  exact h i hi

theorem Search.Exact.step_opening (hs : s.Exact ls n pairs) (hline : ls[n]? = some line)
    (hopen : isOpening line) : (s.step (line, n)).Exact ls (n + 1) pairs := by
  simp only [Search.step, hopen, if_true]
  refine ⟨hs.found, hs.apart, hs.pairs_succ fun i hi => ?_, fun sect => ?_⟩
  · exact ((encloses_iff hline).mp hi).2.1 hopen
  · -- whatever was being read is dropped, and nothing of the new section is read yet
    simp only [Option.some.injEq, openAt_succ hline, hopen, and_true, not_true_eq_false, false_and,
      and_false, or_false]
    constructor
    · rintro rfl
      refine ⟨n, rfl, ?_⟩
      rw [Nat.sub_self]
      rfl
    · rintro ⟨o, rfl, rfl⟩
      rw [Nat.sub_self]
      rfl

theorem Search.Exact.step_outside (hs : s.Exact ls n pairs) (hline : ls[n]? = some line)
    (hopen : ¬isOpening line) (hnone : s.current = none) :
    (s.step (line, n)).Exact ls (n + 1) pairs := by
  have hshut : ∀ o, ¬OpenAt ls o n := by
    intro o ho
    have hsome := (hs.current _).mpr ⟨o, ho, rfl⟩
    rw [hnone] at hsome
    cases hsome
  have hstep : s.step (line, n) = s := by
    simp only [Search.step, hopen, hnone, Bool.false_eq_true, if_false]
  rw [hstep]
  refine ⟨hs.found, hs.apart, hs.pairs_succ fun i hi => ?_, fun sect => ?_⟩
  · exact hshut i ((encloses_iff hline).mp hi).1
  · simp [hnone, openAt_succ hline, hopen, hshut]

theorem OpenAt.sectionAt_next {o : Nat} (ho : OpenAt ls o n) (hline : ls[n]? = some line) :
    (⟨(sectionAt ls o (n - (o + 1))).code ++ line ++ ['\n'],
      (sectionAt ls o (n - (o + 1))).startLine⟩ : Section) = sectionAt ls o (n - o) := by
  have hlt := ho.before
  have hat : ls[o + 1 + (n - (o + 1))]? = some line := by
    rw [show o + 1 + (n - (o + 1)) = n by omega, hline]
  rw [show n - o = n - (o + 1) + 1 by omega, sectionAt_succ hat]
  rfl

theorem Search.Exact.step_closing {sect : Section} (hs : s.Exact ls n pairs)
    (hline : ls[n]? = some line) (hopen : ¬isOpening line) (hclose : isClosing line)
    (hsome : s.current = some sect) :
    ∃ more, (s.step (line, n)).Exact ls (n + 1) (pairs ++ more) := by
  obtain ⟨o, ho, rfl⟩ := (hs.current sect).mp hsome
  have hends : ∀ i, Encloses ls i n ↔ i = o := by
    intro i
    rw [encloses_iff hline]
    refine ⟨fun h => h.1.unique ho, ?_⟩
    rintro rfl
    exact ⟨ho, hopen, hclose⟩
  refine ⟨[(o, n)], ?_⟩
  simp only [Search.step, hopen, hsome, hclose, Bool.false_eq_true, if_false, if_true,
    ho.sectionAt_next hline]
  refine ⟨?_, ?_, fun i j => ?_, fun sect => ?_⟩
  · rw [hs.found, List.map_append]
    rfl
  · -- a section found before ends before this one is opened
    refine List.pairwise_append.mpr ⟨hs.apart, List.pairwise_singleton _ _, ?_⟩
    rintro ⟨i, j⟩ hmem q hq
    obtain rfl := List.mem_singleton.mp hq
    obtain ⟨hjn, hij⟩ := (hs.pairs i j).mp hmem
    by_contra hlate
    rcases Nat.lt_or_eq_of_le (Nat.le_of_not_lt hlate) with hoj | hoj
    · exact (ho.goesOn j hoj hjn).2 hij.closes
    · obtain rfl : o = j := hoj
      exact hij.unopened o hij.before (Nat.le_refl o) ho.opens
  · rw [List.mem_append, hs.pairs, List.mem_singleton, Prod.mk.injEq, Nat.lt_succ_iff_lt_or_eq,
      or_and_right]
    refine or_congr_right ?_
    constructor
    · rintro ⟨rfl, rfl⟩
      exact ⟨rfl, (hends i).mpr rfl⟩
    · rintro ⟨rfl, hi⟩
      exact ⟨(hends i).mp hi, rfl⟩
  · simp [openAt_succ hline, hopen, hclose]

theorem Search.Exact.step_inside {sect : Section} (hs : s.Exact ls n pairs)
    (hline : ls[n]? = some line) (hopen : ¬isOpening line) (hclose : ¬isClosing line)
    (hsome : s.current = some sect) : (s.step (line, n)).Exact ls (n + 1) pairs := by
  obtain ⟨o, ho, rfl⟩ := (hs.current sect).mp hsome
  simp only [Search.step, hopen, hsome, hclose, Bool.false_eq_true, if_false,
    ho.sectionAt_next hline]
  refine ⟨hs.found, hs.apart, hs.pairs_succ fun i hi => ?_, fun sect => ?_⟩
  · exact hclose ((encloses_iff hline).mp hi).2.2
  simp only [Option.some.injEq, openAt_succ hline, hopen, hclose, not_false_eq_true, and_true,
    Bool.false_eq_true, and_false, false_or]
  constructor
  · rintro rfl
    exact ⟨o, ho, by rw [Nat.add_sub_add_right]⟩
  · rintro ⟨o', ho', rfl⟩
    rw [ho'.unique ho, Nat.add_sub_add_right]

theorem Search.Exact.step (hs : s.Exact ls n pairs) (hline : ls[n]? = some line) :
    ∃ pairs', (s.step (line, n)).Exact ls (n + 1) pairs' := by
  by_cases hopen : isOpening line
  · exact ⟨pairs, hs.step_opening hline hopen⟩
  · cases hcurrent : s.current with
    | none => exact ⟨pairs, hs.step_outside hline hopen hcurrent⟩
    | some sect =>
      by_cases hclose : isClosing line
      · obtain ⟨more, hmore⟩ := hs.step_closing hline hopen hclose hcurrent
        exact ⟨pairs ++ more, hmore⟩
      · exact ⟨pairs, hs.step_inside hline hopen hclose hcurrent⟩

end Step

theorem Search.Exact.foldl {ls : List Text} {pairs : List (Nat × Nat)} {s : Search}
    (done rest : List Text) (hls : ls = done ++ rest) (hs : s.Exact ls done.length pairs) :
    ∃ pairs', ((rest.zipIdx done.length).foldl Search.step s).Exact ls ls.length pairs' := by
  -- `done` are the lines before the index that the search has reached
  induction rest generalizing done s pairs with
  | nil =>
    rw [List.append_nil] at hls
    exact ⟨pairs, hls ▸ hs⟩
  | cons line rest ih =>
    have hline : ls[done.length]? = some line := by
      rw [hls, List.getElem?_append_right (Nat.le_refl _), Nat.sub_self, List.getElem?_cons_zero]
    obtain ⟨pairs', hnext⟩ := hs.step hline
    have hrest := ih (done ++ [line]) (by rw [hls, List.append_assoc, List.singleton_append])
      (by rwa [List.length_append, List.length_singleton])
    rw [List.length_append, List.length_singleton] at hrest
    rw [List.zipIdx_cons, List.foldl_cons]
    exact hrest

theorem exists_exact (code : Text) :
    ∃ pairs, (code.lines.zipIdx.foldl Search.step ⟨none, []⟩).Exact code.lines code.lines.length
      pairs := by
  have hstart : (⟨none, []⟩ : Search).Exact code.lines ([] : List Text).length [] := by
    refine ⟨rfl, .nil, fun i j => ?_, fun sect => ?_⟩
    · simp
    · simp only [reduceCtorEq, false_iff]
      rintro ⟨o, ho, -⟩
      exact Nat.not_lt_zero o ho.before
  exact Search.Exact.foldl [] code.lines rfl hstart

theorem exists_eq_sectionAt {code : Text} {sect : Section} (h : sect ∈ sections code) :
    ∃ o n, o + 1 + n ≤ code.lines.length ∧ sect = sectionAt code.lines o n := by
  obtain ⟨pairs, hpairs⟩ := exists_exact code
  rw [sections, hpairs.found] at h
  obtain ⟨⟨i, j⟩, hmem, rfl⟩ := List.mem_map.mp h
  obtain ⟨hj, hij⟩ := (hpairs.pairs i j).mp hmem
  have hlt := hij.before
  exact ⟨i, j - i, by omega, rfl⟩

theorem startLine_pos {code : Text} {sect : Section} (h : sect ∈ sections code) :
    0 < sect.startLine := by
  obtain ⟨o, n, -, rfl⟩ := exists_eq_sectionAt h
  exact Nat.succ_pos o

/-- The sections of a source are those of the pairs of an opening line and the line that closes
it, one for each pair, in the order of the opening lines. They do not overlap. -/
theorem sections_eq_enclosed (code : Text) :
    ∃ pairs : List (Nat × Nat),
      sections code = pairs.map (fun p => sectionAt code.lines p.1 (p.2 - p.1)) ∧
      (∀ i j, (i, j) ∈ pairs ↔ Encloses code.lines i j) ∧
      (pairs.map Prod.fst).Pairwise (· < ·) ∧
      pairs.Pairwise (fun p q => p.2 < q.1) := by
  obtain ⟨pairs, hpairs⟩ := exists_exact code
  have hmem : ∀ i j, (i, j) ∈ pairs ↔ Encloses code.lines i j := by
    intro i j
    rw [hpairs.pairs]
    exact ⟨fun h => h.2, fun h => ⟨h.inside, h⟩⟩
  refine ⟨pairs, hpairs.found, hmem, ?_, hpairs.apart⟩
  refine List.pairwise_map.mpr (hpairs.apart.imp_of_mem ?_)
  rintro ⟨i, j⟩ q hp - hlt
  exact Nat.lt_trans ((hmem i j).mp hp).before hlt

example : sections "sol! \x7b\na\nsol! \x7b\nb\n \x7d \nc\nsol! \x7b\nd".toList =
    [⟨"b\n \x7d \n".toList, 3⟩] := by
  decide +kernel

end ContractAudit.Solidity

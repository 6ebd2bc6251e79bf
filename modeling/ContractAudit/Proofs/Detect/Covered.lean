import ContractAudit.Detect.Builtin
import Mathlib.Data.List.Nodup

/-! What a search that keeps one issue per place reports: of the visits that it finds something
at, those that are the first of their place in pre-order, each with its issue. So a place is
reported once, and no place with a finding is left out. -/

namespace ContractAudit

def Issue.lines (i : Issue) : Int × Int := (i.lineStart, i.lineEnd)

def Node.lines (n : Node) : Int × Int := (n.firstLine, n.lastLine)

theorem Node.lines_eq_iff {n m : Node} : n.lines = m.lines ↔ n.rowSpan = m.rowSpan := by
  simp only [lines, rowSpan, Prod.ext_iff, firstLine, lastLine]
  omega

namespace Detect

def firstPerPlace (vs : List Visit) : List Visit :=
  vs.eraseDupsBy fun v w => v.node.rowSpan = w.node.rowSpan

theorem firstPerPlace_cons (v : Visit) (vs : List Visit) :
    firstPerPlace (v :: vs) =
      v :: firstPerPlace (vs.filter fun w => w.node.rowSpan ≠ v.node.rowSpan) := by
  simp [firstPerPlace, List.eraseDupsBy_cons]

/-- What holds of `v :: vs` if it holds of the visits in `vs` at other places holds always. -/
theorem firstPerPlace_induction {P : List Visit → Prop} (nil : P [])
    (cons : ∀ v vs, P (vs.filter fun w => w.node.rowSpan ≠ v.node.rowSpan) → P (v :: vs)) :
    ∀ vs, P vs
  | [] => nil
  | v :: vs => cons v vs (firstPerPlace_induction nil cons _)
termination_by vs => vs.length
decreasing_by exact Nat.lt_succ_of_le (List.length_filter_le _ vs)

theorem mem_of_mem_firstPerPlace {v : Visit} {vs : List Visit} (h : v ∈ firstPerPlace vs) :
    v ∈ vs := by
  induction vs using firstPerPlace_induction with
  | nil => exact h
  | cons first vs ih =>
    rw [firstPerPlace_cons] at h
    rcases List.mem_cons.mp h with rfl | h
    · exact List.mem_cons_self
    · exact List.mem_cons_of_mem first (List.mem_of_mem_filter (ih h))

theorem nodup_firstPerPlace (vs : List Visit) :
    ((firstPerPlace vs).map fun v => v.node.rowSpan).Nodup := by
  induction vs using firstPerPlace_induction with
  | nil => exact List.nodup_nil
  | cons first vs ih =>
    rw [firstPerPlace_cons, List.map_cons, List.nodup_cons]
    refine ⟨fun hmem => ?_, ih⟩
    obtain ⟨v, hv, hspan⟩ := List.mem_map.mp hmem
    exact of_decide_eq_true (List.mem_filter.mp (mem_of_mem_firstPerPlace hv)).2 hspan

theorem mem_rowSpan_firstPerPlace {v : Visit} {vs : List Visit} (h : v ∈ vs) :
    v.node.rowSpan ∈ (firstPerPlace vs).map fun v => v.node.rowSpan := by
  induction vs using firstPerPlace_induction with
  | nil => cases h
  | cons first vs ih =>
    rw [firstPerPlace_cons, List.map_cons, List.mem_cons]
    by_cases hspan : v.node.rowSpan = first.node.rowSpan
    · exact .inl hspan
    · have hvs : v ∈ vs := (List.mem_cons.mp h).resolve_left fun heq => hspan (by rw [heq])
      exact .inr (ih (List.mem_filter.mpr ⟨hvs, decide_eq_true hspan⟩))

theorem mem_firstPerPlace_iff {v : Visit} {vs : List Visit} :
    v ∈ firstPerPlace vs ↔ vs.find? (fun w => w.node.rowSpan = v.node.rowSpan) = some v := by
  induction vs using firstPerPlace_induction with
  | nil => exact iff_of_false List.not_mem_nil (Option.some_ne_none v).symm
  | cons first vs ih =>
    rw [firstPerPlace_cons, List.mem_cons, ih, List.find?_filter]
    by_cases hspan : first.node.rowSpan = v.node.rowSpan
    · -- the place is that of the first visit, and no other visit at it is left
      have hnone : vs.find? (fun w => decide (w.node.rowSpan ≠ first.node.rowSpan) = true ∧
          decide (w.node.rowSpan = v.node.rowSpan) = true) = none := by
        apply List.find?_eq_none.mpr
        intro w _ hw
        simp [hspan] at hw
      rw [hnone, List.find?_cons_of_pos (by simpa using hspan), Option.some.injEq]
      exact ⟨fun h => (h.resolve_right nofun).symm, fun h => .inl h.symm⟩
    · have hplace : (fun w : Visit => decide (decide (w.node.rowSpan ≠ first.node.rowSpan) = true ∧
          decide (w.node.rowSpan = v.node.rowSpan) = true)) =
            fun w => decide (w.node.rowSpan = v.node.rowSpan) := by
        funext w
        by_cases hw : w.node.rowSpan = v.node.rowSpan
        · simp [hw, Ne.symm hspan]
        · simp [hw]
      rw [hplace, List.find?_cons_of_neg (by simpa using hspan)]
      exact or_iff_right fun h => hspan (by rw [h])

def newVisits (find : Visit → Option Issue) (seen : List (Int × Int)) (vs : List Visit) :
    List Visit :=
  firstPerPlace (vs.filter fun v => (find v).isSome && !seen.contains v.node.rowSpan)

section Add

variable {find : Visit → Option Issue}

theorem newVisits_cons_of_new {seen : List (Int × Int)} {v : Visit} (vs : List Visit)
    (hfind : (find v).isSome) (hnew : v.node.rowSpan ∉ seen) :
    newVisits find seen (v :: vs) = v :: newVisits find (seen ++ [v.node.rowSpan]) vs := by
  have hv : ((find v).isSome && !seen.contains v.node.rowSpan) = true := by simp [hfind, hnew]
  rw [newVisits, List.filter_cons, if_pos hv, firstPerPlace_cons, List.filter_filter, newVisits]
  congr 3
  funext w
  by_cases hspan : w.node.rowSpan = v.node.rowSpan <;> simp [hspan]

theorem newVisits_cons_of_not {seen : List (Int × Int)} {v : Visit} (vs : List Visit)
    (h : ¬((find v).isSome ∧ v.node.rowSpan ∉ seen)) :
    newVisits find seen (v :: vs) = newVisits find seen vs := by
  rw [newVisits, List.filter_cons, if_neg (by simpa using h), newVisits]

/-- What is seen and what is reported after a run of visits, from any places seen before. -/
theorem foldl_add_eq (vs : List Visit) (p : Places) :
    vs.foldl (Places.add find) p =
      ⟨p.seen ++ (newVisits find p.seen vs).map (fun v => v.node.rowSpan),
        p.issues ++ (newVisits find p.seen vs).filterMap find⟩ := by
  induction vs generalizing p with
  | nil => simp [newVisits, firstPerPlace]
  | cons v vs ih =>
    rw [List.foldl_cons]
    cases hfind : find v with
    | none =>
      have hadd : p.add find v = p := by simp only [Places.add, hfind]
      rw [hadd, ih, newVisits_cons_of_not vs (by simp [hfind])]
    | some issue =>
      by_cases hseen : v.node.rowSpan ∈ p.seen
      · have hadd : p.add find v = p := by simp only [Places.add, hfind, hseen, if_true]
        rw [hadd, ih, newVisits_cons_of_not vs (by simp [hseen])]
      · have hadd : p.add find v = ⟨p.seen ++ [v.node.rowSpan], p.issues ++ [issue]⟩ := by
          simp only [Places.add, hfind, hseen, if_false]
        rw [hadd, ih, newVisits_cons_of_new vs (by rw [hfind]; rfl) hseen, List.map_cons,
          List.filterMap_cons_some hfind, List.append_assoc, List.append_assoc]
        rfl

def reportedVisits (find : Visit → Option Issue) (root : Node) : List Visit :=
  firstPerPlace (root.visits.filter fun v => (find v).isSome)

theorem issues_onePerPlace (reported : List Issue) (root : Node) :
    (onePerPlace find ⟨[], reported⟩ root).issues =
      reported ++ (reportedVisits find root).filterMap find := by
  rw [onePerPlace, Node.walk_eq_foldl, foldl_add_eq]
  simp only [newVisits, List.contains_nil, Bool.not_false, Bool.and_true]
  rfl

/-- A visit is reported iff the search finds something at it and at no visit before it in the same
rows. -/
theorem mem_reportedVisits_iff {root : Node} {v : Visit} :
    v ∈ reportedVisits find root ↔ (find v).isSome ∧ ∃ before after,
      root.visits = before ++ v :: after ∧
        ∀ w ∈ before, w.node.rowSpan = v.node.rowSpan → find w = none := by
  rw [reportedVisits, mem_firstPerPlace_iff, List.find?_filter, List.find?_eq_some_iff_append]
  simp only [decide_true, and_true, decide_eq_true_eq, Bool.not_eq_true', decide_eq_false_iff_not,
    not_and', Option.not_isSome_iff_eq_none]

def AtVisit (find : Visit → Option Issue) : Prop :=
  ∀ v i, find v = some i → i.lines = v.node.lines

theorem map_lines_reportedVisits (hfind : AtVisit find) (root : Node) :
    ((reportedVisits find root).filterMap find).map Issue.lines =
      (reportedVisits find root).map fun v => v.node.lines := by
  rw [List.map_filterMap, List.filterMap_eq_map_iff_forall_eq_some]
  intro v hv
  obtain ⟨i, hi⟩ := Option.isSome_iff_exists.mp (List.mem_filter.mp (mem_of_mem_firstPerPlace hv)).2
  rw [hi, Option.map_some, hfind v i hi]

theorem nodup_lines_reportedVisits (hfind : AtVisit find) (root : Node) :
    (((reportedVisits find root).filterMap find).map Issue.lines).Nodup := by
  rw [map_lines_reportedVisits hfind]
  refine List.pairwise_map.mpr ((List.pairwise_map.mp (nodup_firstPerPlace _)).imp ?_)
  intro v w hne heq
  exact hne (Node.lines_eq_iff.mp heq)

theorem mem_lines_reportedVisits (hfind : AtVisit find) (root n : Node) :
    n.lines ∈ ((reportedVisits find root).filterMap find).map Issue.lines ↔
      ∃ v ∈ root.visits, (find v).isSome ∧ v.node.rowSpan = n.rowSpan := by
  rw [map_lines_reportedVisits hfind, List.mem_map]
  constructor
  · rintro ⟨v, hv, hlines⟩
    obtain ⟨hvisit, hsome⟩ := List.mem_filter.mp (mem_of_mem_firstPerPlace hv)
    exact ⟨v, hvisit, hsome, Node.lines_eq_iff.mp hlines⟩
  · rintro ⟨v, hvisit, hsome, hspan⟩
    have hkept : v ∈ root.visits.filter fun v => (find v).isSome :=
      List.mem_filter.mpr ⟨hvisit, hsome⟩
    obtain ⟨w, hw, heq⟩ := List.mem_map.mp (mem_rowSpan_firstPerPlace hkept)
    exact ⟨w, hw, Node.lines_eq_iff.mpr (heq.trans hspan)⟩

theorem issue_of_first (hfind : AtVisit find) {root : Node} {before after : List Visit} {v : Visit}
    {i : Issue} (hvisits : root.visits = before ++ v :: after) (hi : find v = some i)
    (hfirst : ∀ w ∈ before, w.node.rowSpan = v.node.rowSpan → find w = none) :
    i ∈ (reportedVisits find root).filterMap find ∧
      ∀ other ∈ (reportedVisits find root).filterMap find,
        other.lines = v.node.lines → other = i := by
  have hsome : (find v).isSome = true := by rw [hi]; rfl
  have hmem : i ∈ (reportedVisits find root).filterMap find :=
    List.mem_filterMap.mpr
      ⟨v, mem_reportedVisits_iff.mpr ⟨hsome, before, after, hvisits, hfirst⟩, hi⟩
  refine ⟨hmem, fun other hother hlines => ?_⟩
  exact List.inj_on_of_nodup_map (nodup_lines_reportedVisits hfind root) hother hmem
    (hlines.trans (hfind v i hi).symm)

end Add

def findWhere (qualifies : Visit → Bool) (issue : Visit → Issue) (v : Visit) : Option Issue :=
  if qualifies v then some (issue v) else none

section FindWhere

variable {qualifies : Visit → Bool} {issue : Visit → Issue}

theorem isSome_findWhere (v : Visit) : (findWhere qualifies issue v).isSome = qualifies v := by
  rw [Bool.eq_iff_iff, findWhere, Option.isSome_ite]

theorem atVisit_findWhere (hissue : ∀ v, (issue v).lines = v.node.lines) :
    AtVisit (findWhere qualifies issue) := by
  intro v i h
  obtain ⟨-, rfl⟩ := Option.ite_some_none_eq_some.mp h
  exact hissue v

theorem filterMap_findWhere (root : Node) :
    (reportedVisits (findWhere qualifies issue) root).filterMap (findWhere qualifies issue) =
      (firstPerPlace (root.visits.filter qualifies)).map issue := by
  rw [reportedVisits, funext isSome_findWhere, List.filterMap_eq_map_iff_forall_eq_some]
  intro v hv
  exact if_pos (List.mem_filter.mp (mem_of_mem_firstPerPlace hv)).2

theorem exists_issue_iff_qualifies (hissue : ∀ v, (issue v).lines = v.node.lines)
    (root n : Node) :
    (∃ i ∈ (onePerPlace (findWhere qualifies issue) ⟨[], []⟩ root).issues,
        i.lineStart = n.firstLine ∧ i.lineEnd = n.lastLine) ↔
      ∃ v ∈ root.visits, qualifies v ∧ v.node.rowSpan = n.rowSpan := by
  have hat : AtVisit (findWhere qualifies issue) := atVisit_findWhere hissue
  have hmem := mem_lines_reportedVisits hat root n
  simp only [isSome_findWhere] at hmem
  rw [← hmem, issues_onePerPlace, List.nil_append, List.mem_map]
  simp only [Issue.lines, Node.lines, Prod.mk.injEq]

end FindWhere

theorem addPlaces_findings (find : Visit → Option Issue) (m : Memory) (reported : List Issue)
    (root : Node) :
    (m.forgetPlaces.addPlaces (onePerPlace find) reported root).2 =
      .complete (reported ++ (reportedVisits find root).filterMap find) :=
  congrArg Findings.complete (issues_onePerPlace reported root)

/-- Issues at different lines each, among them the lines of every visit that qualifies. -/
structure CoversOnce (qualifies : Visit → Bool) (root : Node) (issues : List Issue) : Prop where
  distinct : (issues.map Issue.lines).Nodup
  covered : ∀ v ∈ root.visits, qualifies v → v.node.lines ∈ issues.map Issue.lines

theorem coversOnce {find : Visit → Option Issue} (hfind : AtVisit find) (root : Node) :
    CoversOnce (fun v => (find v).isSome) root ((reportedVisits find root).filterMap find) where
  distinct := nodup_lines_reportedVisits hfind root
  covered v hv hsome := (mem_lines_reportedVisits hfind root v.node).mpr ⟨v, hv, hsome, rfl⟩

theorem coversOnce_qualifies {qualifies : Visit → Bool} {issue : Visit → Issue}
    (hissue : ∀ v, (issue v).lines = v.node.lines) (root : Node) :
    CoversOnce qualifies root ((firstPerPlace (root.visits.filter qualifies)).map issue) := by
  have hat : AtVisit (findWhere qualifies issue) := atVisit_findWhere hissue
  have hcovers := coversOnce hat root
  rwa [filterMap_findWhere, funext isSome_findWhere] at hcovers

/-- The detectors of `unwrap`, `panic!` and packed encodings add to a report the issues of the
visits that qualify, in pre-order and of each place only the first. So no place is reported twice
and every visit that qualifies has its place reported. The three findings of packed encodings
share the places: the first visit of a place that is any of them decides which one is reported. -/
theorem run_reports_first_of_place (m : Memory) (code : Text) (reported : List Issue)
    (root : Node) :
    let unwraps := (firstPerPlace (root.visits.filter (Unwrap.qualifies code))).map
      (Unwrap.issue code)
    let panics := (firstPerPlace (root.visits.filter (Panic.qualifies code))).map
      (Panic.issue code)
    let packings := (firstPerPlace
      (root.visits.filter fun v => (Packed.classify code v).isSome)).filterMap
        fun v => (Packed.classify code v).map (Packed.issue code v)
    (Builtin.unwrap.run m code reported root).2 = .complete (reported ++ unwraps) ∧
    (Builtin.panic.run m code reported root).2 = .complete (reported ++ panics) ∧
    (Builtin.packed.run m code reported root).2 = .complete (reported ++ packings) ∧
    CoversOnce (Unwrap.qualifies code) root unwraps ∧
    CoversOnce (Panic.qualifies code) root panics ∧
    CoversOnce (fun v => (Packed.classify code v).isSome) root packings ∧
    ∀ before v after finding, root.visits = before ++ v :: after →
      Packed.classify code v = some finding →
      (∀ w ∈ before, w.node.rowSpan = v.node.rowSpan → Packed.classify code w = none) →
      Packed.issue code v finding ∈ packings ∧
        ∀ i ∈ packings, i.lines = v.node.lines → i = Packed.issue code v finding := by
  intro unwraps panics packings
  have hat : AtVisit (Packed.find code) := by
    intro v i h
    obtain ⟨finding, -, rfl⟩ := Option.map_eq_some_iff.mp h
    rfl
  have hpackings : (reportedVisits (Packed.find code) root).filterMap (Packed.find code) =
      packings := by
    simp only [reportedVisits, Packed.find, Option.isSome_map]
    rfl
  refine ⟨?_, ?_, ?_, coversOnce_qualifies (fun _ => rfl) root,
    coversOnce_qualifies (fun _ => rfl) root, ?_, ?_⟩
  · have hrun := addPlaces_findings (findWhere (Unwrap.qualifies code) (Unwrap.issue code)) m
      reported root
    rwa [filterMap_findWhere] at hrun
  · have hrun := addPlaces_findings (findWhere (Panic.qualifies code) (Panic.issue code)) m
      reported root
    rwa [filterMap_findWhere] at hrun
  · have hrun := addPlaces_findings (Packed.find code) m reported root
    rwa [hpackings] at hrun
  · have hcovers := coversOnce hat root
    rw [hpackings] at hcovers
    simpa only [Packed.find, Option.isSome_map] using hcovers
  · intro before v after finding hvisits hv hfirst
    have hi : Packed.find code v = some (Packed.issue code v finding) := by
      rw [Packed.find, hv, Option.map_some]
    have hnone : ∀ w ∈ before, w.node.rowSpan = v.node.rowSpan → Packed.find code w = none := by
      intro w hw hspan
      rw [Packed.find, hfirst w hw hspan, Option.map_none]
    rw [← hpackings]
    exact issue_of_first hat hvisits hi hnone

example :
    let code := "[a.as_bytes(), b.as_bytes()].concat()".toList
    let array : Node := .mk "array_expression" ⟨0, 28, 0, 0⟩ []
    let field : Node := .mk "field_expression" ⟨0, 35, 0, 0⟩ [array]
    let call : Node := .mk "call_expression" ⟨0, 37, 0, 0⟩ [field]
    call.visits.map (Packed.classify code) = [some .join, none, some .array] ∧
      (Builtin.packed.findings code call).issues =
        [Packed.issue code ⟨call, []⟩ .join] := by
  decide +kernel

end Detect
end ContractAudit

import ContractAudit.Proofs.Report.Composition
import Mathlib.Algebra.Order.BigOperators.Group.List
import Mathlib.Algebra.Order.Group.Nat

/-! The errors that a document shows. A result without issues gets one sentence, and that stands in
the place of its errors too. So an error is shown iff its result has an issue as well, be it of a
severity that has no chapter. -/

namespace ContractAudit

def Filled.shownErrors (r : Filled) : List ErrorEntry := if r.notes = [] then [] else r.errors

theorem Filled.shownErrors_eq_iff (r : Filled) :
    r.shownErrors = r.errors ↔ (r.errors ≠ [] → r.notes ≠ []) := by
  rw [shownErrors]
  split
  · next hnotes => simp only [hnotes, ne_eq, not_true_eq_false, imp_false, not_not, eq_comm]
  · next hnotes => exact ⟨fun _ _ => hnotes, fun _ => rfl⟩

theorem Filled.shownErrors_sublist (r : Filled) : r.shownErrors.Sublist r.errors := by
  rw [shownErrors]
  split
  · exact List.nil_sublist _
  · exact List.Sublist.refl _

namespace Report

def errorParagraph (e : ErrorEntry) : Flowable :=
  plain ("Error in " ++ e.detector ++ ": " ++ e.message)

def isErrorParagraph : Flowable → Bool
  | .paragraph .normal s => Text.startsWith s.toList "Error in "
  | _ => false

def errorsShown (parts : List Flowable) : List Flowable := parts.filter isErrorParagraph

theorem errorsShown_append (a b : List Flowable) :
    errorsShown (a ++ b) = errorsShown a ++ errorsShown b := List.filter_append a b

theorem errorsShown_flatMap {α : Type} (f : α → List Flowable) (items : List α) :
    errorsShown (items.flatMap f) = items.flatMap fun x => errorsShown (f x) :=
  List.filter_flatMap

theorem errorsShown_cons {part : Flowable} (h : isErrorParagraph part = false)
    (parts : List Flowable) : errorsShown (part :: parts) = errorsShown parts :=
  List.filter_cons_of_neg (Bool.eq_false_iff.mp h)

theorem isErrorParagraph_errorParagraph (e : ErrorEntry) :
    isErrorParagraph (errorParagraph e) = true := by
  rw [errorParagraph, plain, isErrorParagraph, String.append_assoc, String.append_assoc,
    String.toList_append]
  exact List.isPrefixOf_iff_prefix.mpr (List.prefix_append _ _)

theorem isErrorParagraph_plain {a : String} (h : a.toList.head?.any (· ≠ 'E')) (b : String) :
    isErrorParagraph (plain (a ++ b)) = false := by
  rw [plain, isErrorParagraph, String.toList_append, Text.startsWith, Bool.eq_false_iff, ne_eq,
    List.isPrefixOf_iff_prefix]
  rintro ⟨rest, hrest⟩
  cases hcons : a.toList with
  | nil =>
    rw [hcons] at h
    cases h
  | cons c more =>
    rw [hcons] at h hrest
    have hc : c ≠ 'E' := by simpa using h
    exact hc (List.cons.inj hrest).1.symm

theorem head?_severity (s : Severity) : s.name.toList.head?.any (· ≠ 'E') := by
  cases s <;> decide

/-! ## The parts of a document -/

theorem errorsShown_issueParts (number : Nat) (n : Note) :
    errorsShown (issueParts number n) = [] := by
  rw [issueParts, String.append_assoc, String.append_assoc,
    errorsShown_cons (isErrorParagraph_plain (by decide) _)]
  rfl

theorem errorsShown_chapterParts (c : Severity × List Note) :
    errorsShown (chapterParts c) = [] := by
  rw [chapterParts, errorsShown_cons (isErrorParagraph_plain (head?_severity c.1) _),
    errorsShown_cons rfl, errorsShown_flatMap, List.flatMap_eq_nil_iff]
  exact fun e _ => errorsShown_issueParts e.2 e.1

theorem errorsShown_errorsParts (errors : List ErrorEntry) :
    errorsShown (errorsParts errors) = errors.map errorParagraph := by
  cases errors with
  | nil => rfl
  | cons e errors =>
    have hall : errorsShown ((e :: errors).map errorParagraph) =
        (e :: errors).map errorParagraph := by
      refine List.filter_eq_self.mpr fun part hpart => ?_
      obtain ⟨entry, -, rfl⟩ := List.mem_map.mp hpart
      exact isErrorParagraph_errorParagraph entry
    change errorsShown ((e :: errors).map errorParagraph ++ [middleSpace]) = _
    rw [errorsShown_append, hall]
    exact List.append_nil _

theorem errorsShown_resultParts (r : Filled) :
    errorsShown (resultParts r.notes r.errors r.shownTime) = r.shownErrors.map errorParagraph := by
  rw [resultParts, Filled.shownErrors]
  simp only [List.isEmpty_iff]
  split
  · decide
  · have hchapters : errorsShown ((chapters r.notes).flatMap chapterParts) = [] := by
      rw [errorsShown_flatMap, List.flatMap_eq_nil_iff]
      exact fun c _ => errorsShown_chapterParts c
    rw [errorsShown_append, errorsShown_append, hchapters, errorsShown_errorsParts,
      String.append_assoc, errorsShown_cons (isErrorParagraph_plain (by decide) _)]
    exact List.append_nil _

theorem errorsShown_fileParts (path : String) (parts : List Flowable) :
    errorsShown (fileParts path parts) = errorsShown parts := by
  rw [fileParts, List.cons_append, errorsShown_cons rfl, List.cons_append, errorsShown_cons rfl,
    errorsShown_append]
  exact List.append_nil _

theorem isErrorParagraph_severityLines {count : Severity → Nat} {line : String}
    (h : line ∈ severityLines count) : isErrorParagraph (plain line) = false := by
  obtain ⟨s, -, hs⟩ := List.mem_filterMap.mp h
  split at hs
  · cases hs
  · obtain rfl := Option.some.inj hs
    rw [String.append_assoc]
    exact isErrorParagraph_plain (head?_severity s) _

theorem errorsShown_summary {lines : List String}
    (h : ∀ line ∈ lines, isErrorParagraph (plain line) = false) (now : String)
    (parts : List Flowable) :
    errorsShown (documentHead now ++ (summary lines ++ parts)) = errorsShown parts := by
  have hlines : errorsShown (lines.map plain) = [] := by
    refine List.filter_eq_nil_iff.mpr fun part hpart => ?_
    obtain ⟨line, hline, rfl⟩ := List.mem_map.mp hpart
    exact Bool.eq_false_iff.mp (h line hline)
  change errorsShown (plain ("Generated on: " ++ now) :: wideSpace :: _ ::
    (summary lines ++ parts)) = _
  rw [errorsShown_cons (isErrorParagraph_plain (by decide) _), errorsShown_cons rfl,
    errorsShown_cons rfl, errorsShown_append, summary, errorsShown_append, hlines]
  rfl

/-! ## Whole documents -/

theorem errorsShown_documentOf (now : String) (r : Filled) :
    errorsShown (documentOf now r) = r.shownErrors.map errorParagraph := by
  rw [documentOf, errorsShown_summary, errorsShown_resultParts]
  refine List.forall_mem_cons.mpr ⟨?_, fun _ => isErrorParagraph_severityLines⟩
  rw [String.append_assoc]
  exact isErrorParagraph_plain (by decide) _

theorem errorsShown_document_byPath (now : String) (files : List (String × Filled)) :
    ∃ doc, document now (.object (byPath files)) = .ok doc ∧
      errorsShown doc = files.flatMap fun f => f.2.shownErrors.map errorParagraph := by
  by_cases hfiles : files = []
  · -- an empty collection reads as a result without anything in it
    subst hfiles
    exact ⟨documentOf now ⟨[], none⟩, rfl, errorsShown_documentOf now ⟨[], none⟩⟩
  · refine ⟨_, document_byPath now hfiles, ?_⟩
    rw [errorsShown_summary, errorsShown_flatMap]
    · simp only [documentOf, afterSummary_document, errorsShown_fileParts, errorsShown_resultParts]
    · refine List.forall_mem_cons.mpr ⟨?_, List.forall_mem_cons.mpr ⟨?_, fun _ =>
        isErrorParagraph_severityLines⟩⟩
      · rw [String.append_assoc]
        exact isErrorParagraph_plain (by decide) _
      · rw [String.append_assoc]
        exact isErrorParagraph_plain (by decide) _

/-- Lists that are each a part of another one put together to the same only if none is smaller. -/
theorem flatMap_eq_flatMap_iff {α β : Type} {g f : α → List β} (h : ∀ x, (g x).Sublist (f x))
    (items : List α) : items.flatMap g = items.flatMap f ↔ ∀ x ∈ items, g x = f x := by
  induction items with
  | nil => simp only [List.flatMap_nil, List.not_mem_nil, false_imp_iff, implies_true]
  | cons x items ih =>
    have hrest : (items.flatMap g).length ≤ (items.flatMap f).length := by
      rw [List.length_flatMap, List.length_flatMap]
      exact List.sum_le_sum fun y _ => (h y).length_le
    rw [List.flatMap_cons, List.flatMap_cons, List.forall_mem_cons, ← ih]
    refine ⟨fun heq => ?_, fun heq => by rw [heq.1, heq.2]⟩
    have hlength := congrArg List.length heq
    rw [List.length_append, List.length_append] at hlength
    have hfirst := (h x).length_le
    exact List.append_inj heq (by omega)

theorem map_errorParagraph_eq_iff (r : Filled) :
    r.shownErrors.map errorParagraph = r.errors.map errorParagraph ↔
      (r.errors ≠ [] → r.notes ≠ []) := by
  rw [← r.shownErrors_eq_iff]
  refine ⟨fun heq => r.shownErrors_sublist.eq_of_length ?_, fun heq => by rw [heq]⟩
  have hlength := congrArg List.length heq
  rwa [List.length_map, List.length_map] at hlength

/-- Every result has a document, and so has every collection of results by path. The errors that it
shows are those of the results with an issue, in their order. So none is missing iff each result
with an error has an issue too. -/
theorem errors_shown_beside_issues (now : String) :
    (∀ r : Filled, ∃ doc, document now r.record.toValue = .ok doc ∧
      errorsShown doc = r.shownErrors.map errorParagraph ∧
      (errorsShown doc = r.errors.map errorParagraph ↔ (r.errors ≠ [] → r.notes ≠ []))) ∧
    ∀ files : List (String × Filled), ∃ doc, document now (.object (byPath files)) = .ok doc ∧
      errorsShown doc = (files.flatMap fun f => f.2.shownErrors.map errorParagraph) ∧
      (errorsShown doc = (files.flatMap fun f => f.2.errors.map errorParagraph) ↔
        ∀ f ∈ files, f.2.errors ≠ [] → f.2.notes ≠ []) := by
  refine ⟨fun r => ?_, fun files => ?_⟩
  · have hshown := errorsShown_documentOf now r
    refine ⟨documentOf now r, document_filled now r, hshown, ?_⟩
    rw [hshown, map_errorParagraph_eq_iff]
  · obtain ⟨doc, hdoc, hshown⟩ := errorsShown_document_byPath now files
    refine ⟨doc, hdoc, hshown, ?_⟩
    rw [hshown, flatMap_eq_flatMap_iff fun f => f.2.shownErrors_sublist.map errorParagraph]
    simp only [map_errorParagraph_eq_iff]

def withoutTree : Filled :=
  ⟨[.error ⟨"parser", "Failed to generate AST for the provided code"⟩], none⟩

/-- An error need not be shown, neither in the document on its result nor among other files. -/
theorem not_every_error_shown :
    (¬∃ doc, document "2024-01-02 03:04:05" withoutTree.record.toValue = .ok doc ∧
      ∀ e ∈ withoutTree.errors, errorParagraph e ∈ doc) ∧
    ¬∃ doc, document "2024-01-02 03:04:05" (.object (byPath [("lib.rs", withoutTree)])) =
        .ok doc ∧ ∀ e ∈ withoutTree.errors, errorParagraph e ∈ doc := by
  constructor
  · rw [document_filled]
    rintro ⟨doc, heq, hall⟩
    cases heq
    exact absurd hall (by decide)
  · rw [document_byPath _ (List.cons_ne_nil _ _)]
    rintro ⟨doc, heq, hall⟩
    cases heq
    exact absurd hall (by decide)

end Report
end ContractAudit

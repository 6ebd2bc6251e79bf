import ContractAudit.Proofs.Detect.Covered
import ContractAudit.Proofs.Text.Lines
import ContractAudit.Rust.Parser

/-! Byte strings that are joined with a delimiter between them: `[a, delimiter, b].concat()`. Both
the call and the array are looked at. The verdict on the call knows about delimiters and finds
nothing. The verdict on the array does not: it finds a byte string followed by a comma and a space,
whatever comes next, and the array is reported if nothing before it is found in the same rows. -/

namespace ContractAudit.Detect.Packed

structure DelimitedJoin (code : Text) (u : Visit) (field call : Node) : Prop where
  array : u.node.kind = "array_expression"
  parent : u.parent? = some field
  grandparent : u.grandparent? = some call
  field_kind : field.kind = "field_expression"
  call_kind : call.kind = "call_expression"
  joins : "concat".toList <:+ field.forwardText code
  delimited : (call.forwardText code).has "delimiter" ∨ (call.forwardText code).has "0u8"
  unpacked : ¬(call.forwardText code).has "encode_packed"

section Verdict

variable {code : Text} {u : Visit} {field call : Node}

theorem not_hasAny_packing {t : Text} (h : ¬t.has "encode_packed") :
    t.hasAny ["encode_packed", "abi_encode_packed"] = false := by
  have hlonger : ¬t.has "abi_encode_packed" := by
    intro hhas
    rw [Text.has_iff] at h hhas
    exact h (List.IsInfix.trans ⟨"abi_".toList, [], rfl⟩ hhas)
  simp [Text.hasAny, h, hlonger]

theorem DelimitedJoin.classify_call (h : DelimitedJoin code u field call) {w : Visit}
    (hw : w.node = call) : classify code w = none := by
  have hsafe : isUnsafeJoin code call = false := by
    rcases h.delimited with hhas | hhas
    · simp [isUnsafeJoin, hhas]
    · simp [isUnsafeJoin, hhas]
  have hpacking := not_hasAny_packing h.unpacked
  simp only [classify, hw, h.call_kind, if_true, hpacking, hsafe, if_false, Bool.false_eq_true,
    ite_self]

theorem DelimitedJoin.classify_array (h : DelimitedJoin code u field call) :
    classify code u =
      if (u.node.forwardText code).has ".as_bytes(), " then some .array else none := by
  have hconcat : (field.forwardText code).has "concat" := by
    rw [Text.has_iff]
    exact h.joins.isInfix
  have hbytes : (u.node.forwardText code).has ".as_bytes(), " →
      (u.node.forwardText code).has "as_bytes" := by
    intro hhas
    rw [Text.has_iff] at hhas ⊢
    exact List.IsInfix.trans ⟨".".toList, "(), ".toList, rfl⟩ hhas
  have hcall : u.node.kind ≠ "call_expression" := by
    rw [h.array]
    decide
  rw [classify, if_neg hcall, if_pos h.array, h.parent]
  simp only [h.field_kind, decide_true, Bool.true_and, isByteArrayJoin, hconcat]
  by_cases hside : (u.node.forwardText code).has ".as_bytes(), "
  · simp only [hside, hbytes hside, Bool.and_self, if_true]
  · simp only [Bool.eq_false_iff.mpr hside, Bool.and_false, Bool.false_eq_true, if_false]

theorem find_eq_none_iff {w : Visit} : find code w = none ↔ classify code w = none :=
  Option.map_eq_none_iff

end Verdict

/-- The report of a tree is made of the issues of its reported visits. Among these is never the call
that joins byte strings with a delimiter. The array that it joins is among them iff a byte string in
it is followed by a comma and a space and nothing is found before it in the same rows; its issue
then says that there are no delimiters. -/
theorem delimited_join_reported_iff (m : Memory) {code : Text} (reported : List Issue)
    (root : Node) {u : Visit} {field call : Node} (hjoin : DelimitedJoin code u field call) :
    let visits := reportedVisits (find code) root
    (Builtin.packed.run m code reported root).2 =
      .complete (reported ++ visits.filterMap (find code)) ∧
    (∀ w ∈ visits, w.node ≠ call) ∧
    (u ∈ visits ↔ (u.node.forwardText code).has ".as_bytes(), " ∧ ∃ before after,
      root.visits = before ++ u :: after ∧
        ∀ w ∈ before, w.node.rowSpan = u.node.rowSpan → classify code w = none) ∧
    (u ∈ visits → find code u = some (issue code u .array)) := by
  intro visits
  have harray := hjoin.classify_array
  have hfound : (find code u).isSome ↔ (u.node.forwardText code).has ".as_bytes(), " := by
    rw [find, Option.isSome_map, harray, Option.isSome_ite]
  refine ⟨addPlaces_findings (find code) m reported root, ?_, ?_, ?_⟩
  · intro w hw hcall
    obtain ⟨hsome, -⟩ := mem_reportedVisits_iff.mp hw
    rw [find_eq_none_iff.mpr (hjoin.classify_call hcall)] at hsome
    cases hsome
  · rw [mem_reportedVisits_iff, hfound]
    simp only [find_eq_none_iff]
  · intro hu
    have hside := hfound.mp (mem_reportedVisits_iff.mp hu).1
    rw [find, harray, if_pos hside]
    rfl

def delimitedRows : Text :=
  "[a.as_bytes(),\n0u8,\nb.as_bytes(),\n].concat()".toList

theorem delimited_join_reported_iff_rows :
    let array := Node.mk "array_expression" ⟨0, 35, 0, 3⟩ []
    let field := Node.mk "field_expression" ⟨0, 42, 0, 3⟩ [array]
    let call := Node.mk "call_expression" ⟨0, 44, 0, 3⟩ [field]
    let root := Node.mk "source_file" ⟨0, 44, 0, 3⟩ [call]
    let u : Visit := ⟨array, [field, call, root]⟩
    DelimitedJoin delimitedRows u field call ∧ u ∉ reportedVisits (find delimitedRows) root := by
  intro array field call root u
  have hfacts : "concat".toList.isSuffixOf (field.forwardText delimitedRows) = true ∧
      (call.forwardText delimitedRows).has "0u8" = true ∧
      (call.forwardText delimitedRows).has "encode_packed" = false ∧
      (array.forwardText delimitedRows).has ".as_bytes(), " = false := by
    decide +kernel
  obtain ⟨hjoins, hdelimited, hunpacked, hside⟩ := hfacts
  have hjoin : DelimitedJoin delimitedRows u field call :=
    ⟨rfl, rfl, rfl, rfl, rfl, List.isSuffixOf_iff_suffix.mp hjoins, .inr hdelimited,
      Bool.eq_false_iff.mp hunpacked⟩
  have hreported := delimited_join_reported_iff .fresh [] root hjoin
  exact ⟨hjoin, fun hu => Bool.eq_false_iff.mp hside (hreported.2.2.1.mp hu).1⟩

def delimitedJoin : Text :=
  "fn f() \x7b\n    [a.as_bytes(), &delimiter, b.as_bytes()].concat();\n\x7d\n".toList

/-- An array that is joined with a delimiter can be reported. -/
theorem not_delimited_join_unreported :
    let root := Rust.parse delimitedJoin
    root.kind = "source_file" ∧
    ¬∀ u ∈ root.visits, ∀ field call, DelimitedJoin delimitedJoin u field call →
      ∀ finding, issue delimitedJoin u finding ∉
        (Builtin.packed.findings delimitedJoin root).issues := by
  intro root
  have hfacts : root.kind = "source_file" ∧
      ∃ u ∈ root.visits, u.node.kind = "array_expression" ∧
        issue delimitedJoin u .array ∈ (Builtin.packed.findings delimitedJoin root).issues ∧
        u.parent?.any (fun field => field.kind = "field_expression" &&
          "concat".toList.isSuffixOf (field.forwardText delimitedJoin)) = true ∧
        u.grandparent?.any (fun call => call.kind = "call_expression" &&
          (call.forwardText delimitedJoin).has "delimiter" &&
            !(call.forwardText delimitedJoin).has "encode_packed") = true := by
    decide +kernel
  obtain ⟨hroot, u, hu, harray, hreported, hparent, hgrandparent⟩ := hfacts
  obtain ⟨field, hfield, hmember⟩ := (Option.any_eq_true _ _).mp hparent
  obtain ⟨call, hcall, hdelimited⟩ := (Option.any_eq_true _ _).mp hgrandparent
  rw [Bool.and_eq_true, decide_eq_true_eq, List.isSuffixOf_iff_suffix] at hmember
  rw [Bool.and_eq_true, Bool.and_eq_true, decide_eq_true_eq, Bool.not_eq_true',
    Bool.eq_false_iff] at hdelimited
  have hjoin : DelimitedJoin delimitedJoin u field call :=
    ⟨harray, hfield, hcall, hmember.1, hdelimited.1.1, hmember.2, .inl hdelimited.1.2, hdelimited.2⟩
  exact ⟨hroot, fun h => h u hu field call hjoin .array hreported⟩

end ContractAudit.Detect.Packed

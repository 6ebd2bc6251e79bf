import ContractAudit.Proofs.Detect.Covered
import ContractAudit.Proofs.Text.Bytes
import ContractAudit.Rust.Parser

/-! Findings in sources that are not plain ASCII. The offsets of a node count bytes and its text is
cut by characters, so a node is read further on in the source, by the drift of what stands before
it. What was to be found at the node is then found only by accident. -/

namespace ContractAudit

open Text

/-- The node covers the text `t` behind `before`, with offsets in bytes. -/
structure Node.Covers (n : Node) (before t : Text) : Prop where
  startByte : n.extent.startByte = (before.size : Int)
  endByte : n.extent.endByte = ((before ++ t).size : Int)

namespace Node

variable {n : Node} {before t : Text}

def read (before t after : Text) : Text :=
  if (before ++ t).drift ≤ after.length then ((t ++ after).drop before.drift).take t.size else []

theorem Covers.slice_eq (h : n.Covers before t) {after : Text}
    (hfits : (before ++ t).drift ≤ after.length) :
    (before ++ t ++ after).slice n.extent.startByte n.extent.endByte =
      ((t ++ after).drop before.drift).take t.size := by
  have hsize := size_eq_length_add_drift (before ++ t)
  have hbefore := size_eq_length_add_drift before
  have hend : (before ++ t).size ≤ (before ++ t ++ after).length := by
    rw [List.length_append]
    omega
  rw [h.startByte, h.endByte, slice_eq_take_drop hend, List.append_assoc, hbefore,
    List.drop_length_add_append, size_append]
  congr 1
  omega

theorem Covers.guarded_eq (h : n.Covers before t) (after : Text) {guard : Prop} [Decidable guard]
    (hpast : n.extent.endByte > (before ++ t ++ after).length → guard)
    (hguard : guard → n.extent.endByte ≤ (before ++ t ++ after).length →
      n.extent.endByte ≤ n.extent.startByte) :
    (if guard then [] else (before ++ t ++ after).slice n.extent.startByte n.extent.endByte) =
      read before t after := by
  have hsize := size_eq_length_add_drift (before ++ t)
  have hlength : (before ++ t ++ after).length = (before ++ t).length + after.length :=
    List.length_append
  by_cases hfits : (before ++ t).drift ≤ after.length
  · rw [read, if_pos hfits]
    split
    · next hrefused =>
      have hstart := size_append before t
      have hempty := hguard hrefused (by rw [h.endByte]; omega)
      have hzero : t.size = 0 := by
        rw [h.startByte, h.endByte] at hempty
        omega
      rw [hzero, List.take_zero]
    · exact h.slice_eq hfits
  · rw [read, if_neg hfits, if_pos (hpast (by rw [h.endByte]; omega))]

theorem Covers.text_eq (h : n.Covers before t) (after : Text) :
    n.text (before ++ t ++ after) = read before t after :=
  h.guarded_eq after .inr (by omega)

theorem Covers.forwardText_eq (h : n.Covers before t) (after : Text) :
    n.forwardText (before ++ t ++ after) = read before t after := by
  have hstart : 0 ≤ n.extent.startByte := by
    rw [h.startByte]
    omega
  exact h.guarded_eq after (fun hpast => .inr (.inl hpast)) (by omega)

/-- A word is read at its place although the place is missed by `drift` characters: it is not
missed at all, or the same word stands again so far on in the text behind it. -/
def Echoes (word : Text) (drift : Nat) (rest : Text) : Prop :=
  drift = 0 ∨ word.length ≤ drift ∧ word <+: rest.drop (drift - word.length)

theorem read_eq_word_iff {word : Text} (hword : word.LeadsOnce) (hascii : word.drift = 0)
    (before after : Text) :
    read before word after = word ↔ Echoes word before.drift after := by
  have hsize : word.size = word.length := by
    rw [size_eq_length_add_drift, hascii, Nat.add_zero]
  rw [Echoes, ← prefix_drop_append_iff hword, read, drift_append, hascii, Nat.add_zero, hsize]
  constructor
  · intro h
    split at h
    · have hstarts := List.take_prefix word.length ((word ++ after).drop before.drift)
      rwa [h] at hstarts
    · rw [← h]
      exact List.nil_prefix
  · intro h
    have hlength := h.length_le
    rw [List.length_drop, List.length_append] at hlength
    have hfits : before.drift ≤ after.length := by
      cases word with
      | nil => exact hword.elim
      | cons c w =>
        rw [List.length_cons] at hlength
        omega
    rw [if_pos hfits]
    exact (List.prefix_iff_eq_take.mp h).symm

theorem prefix_read_iff {word : Text} (hword : word.LeadsOnce) (before rest after : Text) :
    word <+: read before (word ++ rest) after ↔
      (before ++ (word ++ rest)).drift ≤ after.length ∧
        Echoes word before.drift (rest ++ after) := by
  have hsize : word.length ≤ (word ++ rest).size := by
    have hlength := length_le_size (word ++ rest)
    rw [List.length_append] at hlength
    omega
  rw [Echoes, ← prefix_drop_append_iff hword, read]
  by_cases hfits : (before ++ (word ++ rest)).drift ≤ after.length
  · rw [if_pos hfits, List.prefix_take_iff, List.append_assoc]
    simp [hfits, hsize]
  · rw [if_neg hfits, List.prefix_nil]
    refine iff_of_false ?_ fun h => hfits h.1
    rintro rfl
    exact hword

end Node

namespace Detect

def Builtin.Marks (b : Builtin) (code : Text) (root n : Node) : Prop :=
  ∃ i ∈ (b.findings code root).issues, i.lineStart = n.firstLine ∧ i.lineEnd = n.lastLine

theorem Unwrap.marks_iff (code : Text) (root n : Node) :
    Builtin.unwrap.Marks code root n ↔
      ∃ w ∈ root.visits, Unwrap.qualifies code w ∧ w.node.rowSpan = n.rowSpan :=
  exists_issue_iff_qualifies (fun _ => rfl) root n

theorem Panic.marks_iff (code : Text) (root n : Node) :
    Builtin.panic.Marks code root n ↔
      ∃ w ∈ root.visits, Panic.qualifies code w ∧ w.node.rowSpan = n.rowSpan :=
  exists_issue_iff_qualifies (fun _ => rfl) root n

theorem Unwrap.methodName_eq {call callee field : Node} {others : List Node} (code : Text)
    (hcallee : call.children.filter (·.kind = "field_expression") = callee :: others)
    (hfield : callee.childOfKind? "field_identifier" = some field) :
    methodName call code = field.text code := by
  rw [Node.childOfKind?] at hfield
  simp only [methodName, hcallee, List.flatMap_cons, List.find?_append, hfield, Option.some_or]

/-- A call of `unwrap` and an invocation of `panic!` are marked iff some node in the same rows is
read as one. The node itself is so read iff the text in front of it has no drift, or the same word
happens to stand as far behind it as the drift; a `panic!` must also have as much text behind it as
the source has drifted at its end. So both are marked if the text up to them is ASCII, and that of
the `panic!` too. -/
theorem marks_iff_echoes (code : Text) (root : Node) :
    (∀ v ∈ root.visits, ∀ (callee field : Node) (others : List Node) (before after : Text),
      v.node.kind = "call_expression" →
      v.node.children.filter (·.kind = "field_expression") = callee :: others →
      callee.childOfKind? "field_identifier" = some field →
      code = before ++ "unwrap".toList ++ after → field.Covers before "unwrap".toList →
        (Builtin.unwrap.Marks code root v.node ↔
          ∃ w ∈ root.visits, Unwrap.qualifies code w ∧ w.node.rowSpan = v.node.rowSpan) ∧
        (Unwrap.qualifies code v ↔ Node.Echoes "unwrap".toList before.drift after) ∧
        ((∀ c ∈ before, c.val ≤ 127) → Builtin.unwrap.Marks code root v.node)) ∧
    (∀ v ∈ root.visits, ∀ before rest after : Text,
      v.node.kind = "macro_invocation" →
      code = before ++ ("panic!".toList ++ rest) ++ after →
      v.node.Covers before ("panic!".toList ++ rest) →
        (Builtin.panic.Marks code root v.node ↔
          ∃ w ∈ root.visits, Panic.qualifies code w ∧ w.node.rowSpan = v.node.rowSpan) ∧
        (Panic.qualifies code v ↔
          (before ++ ("panic!".toList ++ rest)).drift ≤ after.length ∧
            Node.Echoes "panic!".toList before.drift (rest ++ after)) ∧
        ((∀ c ∈ before ++ rest, c.val ≤ 127) → Builtin.panic.Marks code root v.node)) := by
  constructor
  · intro v hv callee field others before after hcall hcallee hfield hcode hcovers
    have hread : Unwrap.qualifies code v ↔ Node.Echoes "unwrap".toList before.drift after := by
      rw [Unwrap.qualifies, Unwrap.methodName_eq code hcallee hfield, hcode, hcovers.text_eq]
      simp only [hcall, decide_true, Bool.true_and, decide_eq_true_eq]
      exact Node.read_eq_word_iff (by decide) (by decide) before after
    refine ⟨Unwrap.marks_iff code root v.node, hread, fun hascii => ?_⟩
    have hdrift : before.drift = 0 := (drift_eq_zero_iff before).mpr hascii
    exact (Unwrap.marks_iff code root v.node).mpr ⟨v, hv, hread.mpr (.inl hdrift), rfl⟩
  · intro v hv before rest after hinvocation hcode hcovers
    have hread : Panic.qualifies code v ↔
        (before ++ ("panic!".toList ++ rest)).drift ≤ after.length ∧
          Node.Echoes "panic!".toList before.drift (rest ++ after) := by
      rw [Panic.qualifies, hcode, hcovers.forwardText_eq]
      simp only [hinvocation, decide_true, Bool.true_and, Text.startsWith,
        List.isPrefixOf_iff_prefix]
      exact Node.prefix_read_iff (by decide) before rest after
    refine ⟨Panic.marks_iff code root v.node, hread, fun hascii => ?_⟩
    have hdrift : (before ++ rest).drift = 0 := (drift_eq_zero_iff _).mpr hascii
    have hpanic : Text.drift "panic!".toList = 0 := by decide
    rw [drift_append] at hdrift
    refine (Panic.marks_iff code root v.node).mpr ⟨v, hv, hread.mpr ⟨?_, .inl ?_⟩, rfl⟩
    · rw [drift_append, drift_append]
      omega
    · omega

/-- A call and a `panic!` with a character of two bytes behind them, the same call with one in
front, and a `panic!` with one inside at the end of the source. -/
theorem marks_iff_echoes_accent :
    let field (i : Int) := Node.mk "field_identifier" ⟨i, i + 6, 0, 0⟩ []
    let callee (i : Int) := Node.mk "field_expression" ⟨i - 2, i + 6, 0, 0⟩ [field i]
    let call (i : Int) := Node.mk "call_expression" ⟨i - 2, i + 8, 0, 0⟩ [callee i]
    let panic (size : Int) := Node.mk "macro_invocation" ⟨0, size, 0, 0⟩ []
    (Builtin.unwrap.Marks "a.unwrap()é".toList (call 2) (call 2) ∧
      ¬Unwrap.qualifies "éa.unwrap()".toList ⟨call 4, []⟩) ∧
    (Builtin.panic.Marks "panic!()é".toList (panic 8) (panic 8) ∧
      ¬Panic.qualifies "panic!(\"é\")".toList ⟨panic 12, []⟩) := by
  intro field callee call panic
  have hbehind := (marks_iff_echoes "a.unwrap()é".toList (call 2)).1 ⟨call 2, []⟩
    List.mem_cons_self (callee 2) (field 2) [] "a.".toList "()é".toList rfl rfl rfl (by decide)
    ⟨by decide, by decide⟩
  have hfront := (marks_iff_echoes "éa.unwrap()".toList (call 4)).1 ⟨call 4, []⟩
    List.mem_cons_self (callee 4) (field 4) [] "éa.".toList "()".toList rfl rfl rfl (by decide)
    ⟨by decide, by decide⟩
  have hpanic := (marks_iff_echoes "panic!()é".toList (panic 8)).2 ⟨panic 8, []⟩
    List.mem_cons_self [] "()".toList "é".toList rfl (by decide) ⟨by decide, by decide⟩
  have hinside := (marks_iff_echoes "panic!(\"é\")".toList (panic 12)).2 ⟨panic 12, []⟩
    List.mem_cons_self [] "(\"é\")".toList [] rfl (by decide) ⟨by decide, by decide⟩
  refine ⟨⟨hbehind.2.2 ((drift_eq_zero_iff _).mp (by decide)), ?_⟩,
    hpanic.2.2 ((drift_eq_zero_iff _).mp (by decide)), ?_⟩
  · rw [hfront.2.1]
    rintro (h | h)
    · exact absurd h (by decide)
    · exact absurd h.1 (by decide)
  · rw [hinside.2.1]
    exact fun h => absurd h.1 (by decide)

def accented : Text := "// é\nfn f() \x7b a.unwrap(); panic!(\"no\"); \x7d".toList

/-- Neither of the two is marked. -/
theorem not_marks_accented :
    let root := Rust.parse accented
    (¬∀ v ∈ root.visits, ∀ (callee field : Node) (others : List Node) (before after : Text),
      v.node.kind = "call_expression" →
      v.node.children.filter (·.kind = "field_expression") = callee :: others →
      callee.childOfKind? "field_identifier" = some field →
      accented = before ++ "unwrap".toList ++ after → field.Covers before "unwrap".toList →
        Builtin.unwrap.Marks accented root v.node) ∧
    (¬∀ v ∈ root.visits, ∀ before rest after : Text,
      v.node.kind = "macro_invocation" →
      accented = before ++ ("panic!".toList ++ rest) ++ after →
      v.node.Covers before ("panic!".toList ++ rest) →
        Builtin.panic.Marks accented root v.node) := by
  intro root
  have hunwrap : (Builtin.unwrap.findings accented root).issues = [] := by decide +kernel
  have hpanic : (Builtin.panic.findings accented root).issues = [] := by decide +kernel
  constructor
  · intro h
    have hcall : ∃ v ∈ root.visits, v.node.kind = "call_expression" ∧
        (v.node.children.filter (·.kind = "field_expression")).head?.bind (fun callee =>
          (callee.childOfKind? "field_identifier").map Node.extent) = some ⟨17, 23, 1, 1⟩ := by
      decide +kernel
    obtain ⟨v, hv, hkind, hextent⟩ := hcall
    obtain ⟨callee, hhead, hmap⟩ := Option.bind_eq_some_iff.mp hextent
    obtain ⟨field, hfield, hplace⟩ := Option.map_eq_some_iff.mp hmap
    obtain ⟨others, hcallee⟩ := List.head?_eq_some_iff.mp hhead
    obtain ⟨i, hi, -⟩ := h v hv callee field others (accented.take 16) (accented.drop 22) hkind
      hcallee hfield (by decide) ⟨by rw [hplace]; decide, by rw [hplace]; decide⟩
    rw [hunwrap] at hi
    cases hi
  · intro h
    have hinvocation : ∃ v ∈ root.visits, v.node.kind = "macro_invocation" ∧
        v.node.extent = ⟨27, 39, 1, 1⟩ := by decide +kernel
    obtain ⟨v, hv, hkind, hplace⟩ := hinvocation
    obtain ⟨i, hi, -⟩ := h v hv (accented.take 26) "(\"no\")".toList (accented.drop 38) hkind
      (by decide) ⟨by rw [hplace]; decide, by rw [hplace]; decide⟩
    rw [hpanic] at hi
    cases hi

end Detect
end ContractAudit

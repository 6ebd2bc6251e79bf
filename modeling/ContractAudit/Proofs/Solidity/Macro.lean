import ContractAudit.Proofs.Solidity.CallLine
import Mathlib.Data.List.Infix

/-! Sections against the macros they are read from. A macro goes on to the brace that closes its
own, however deep the blocks inside it nest, but a section ends with the first line that ends with
any closing brace. A block inside the macro that ends with its line cuts the section there, and
the lines of the macro behind it are in no section. -/

namespace ContractAudit.Solidity

structure Balanced (t : Text) : Prop where
  nested : ∀ p, p <+: t → p.count '}' ≤ p.count '{'
  closed : t.count '{' = t.count '}'

def macroText (ls : List Text) (i k : Nat) : Text :=
  (ls.getD i []).after "sol! \x7b" ++ ((ls.drop (i + 1)).take (k - i)).flatMap ('\n' :: ·)

/-- Line `i` opens one macro, and the brace that closes it stands on line `j`. -/
structure Spans (ls : List Text) (i j : Nat) : Prop where
  before : i < j
  inside : j < ls.length
  opens : isOpening (ls.getD i [])
  once : ¬isOpening ((ls.getD i []).after "sol! \x7b")
  closes : ∃ p q, ls.getD j [] = p ++ '}' :: q ∧ Balanced (macroText ls i (j - 1) ++ '\n' :: p)

def Section.Reaches (s : Section) (x : Nat) : Prop :=
  s.startLine ≤ x ∧ x < s.startLine + s.code.count '\n'

section Enclosed

variable {code : Text} {i j k : Nat}

theorem count_newline_sectionAt {o n : Nat} (hfits : o + 1 + n ≤ code.lines.length) :
    (sectionAt code.lines o n).code.count '\n' = n := by
  have hlines := congrArg List.length (lines_sectionAt code o n)
  rw [Text.length_lines, List.length_append, List.length_take, List.length_drop,
    List.length_singleton] at hlines
  omega

theorem Encloses.fits {ls : List Text} (h : Encloses ls i j) : i + 1 + (j - i) ≤ ls.length := by
  have hbefore := h.before
  have hinside := h.inside
  omega

theorem Encloses.unique {ls : List Text} (hj : Encloses ls i j) (hk : Encloses ls i k) : j = k := by
  rcases Nat.lt_trichotomy j k with hlt | heq | hlt
  · exact absurd hj.closes (hk.unclosed j hj.before hlt)
  · exact heq
  · exact absurd hk.closes (hj.unclosed k hk.before hlt)

theorem mem_sections_iff {s : Section} :
    s ∈ sections code ↔ ∃ i j, Encloses code.lines i j ∧ s = sectionAt code.lines i (j - i) := by
  obtain ⟨pairs, hpairs⟩ := exists_exact code
  have hmem : ∀ i j, (i, j) ∈ pairs ↔ Encloses code.lines i j :=
    fun i j => (hpairs.pairs i j).trans (and_iff_right_of_imp Encloses.inside)
  rw [sections, hpairs.found, List.mem_map]
  constructor
  · rintro ⟨⟨i, j⟩, hpair, rfl⟩
    exact ⟨i, j, (hmem i j).mp hpair, rfl⟩
  · rintro ⟨i, j, hij, rfl⟩
    exact ⟨(i, j), (hmem i j).mpr hij, rfl⟩

theorem sectionAt_mem_sections_iff (hbefore : i < j) (hinside : j < code.lines.length) :
    sectionAt code.lines i (j - i) ∈ sections code ↔ Encloses code.lines i j := by
  rw [mem_sections_iff]
  constructor
  · rintro ⟨o, e, hoe, heq⟩
    obtain rfl : i = o := by
      have hstart := congrArg Section.startLine heq
      rw [startLine_sectionAt, startLine_sectionAt] at hstart
      exact Nat.succ.inj hstart
    -- two sections of one opening line with the same text have as many lines
    have hj : (sectionAt code.lines i (j - i)).code.count '\n' = j - i :=
      count_newline_sectionAt (by omega)
    have he : (sectionAt code.lines i (e - i)).code.count '\n' = e - i :=
      count_newline_sectionAt hoe.fits
    rw [heq, he] at hj
    have hbeforeE := hoe.before
    obtain rfl : j = e := by omega
    exact hoe
  · intro h
    exact ⟨i, j, h, rfl⟩

theorem reaches_iff (h : Encloses code.lines i j) (x : Nat) :
    (sectionAt code.lines i (j - i)).Reaches x ↔ i < x ∧ x ≤ j := by
  have hbefore := h.before
  rw [Section.Reaches, startLine_sectionAt, count_newline_sectionAt h.fits]
  omega

/-- Behind the closing line of a section nothing is read up to the next opening line. -/
theorem not_reaches_of_encloses {x : Nat} (h : Encloses code.lines i k) (hkx : k < x)
    (hunopened : ∀ y, k < y → y ≤ x → ¬isOpening (code.lines.getD y [])) {s : Section}
    (hs : s ∈ sections code) : ¬s.Reaches x := by
  obtain ⟨o, e, hoe, rfl⟩ := mem_sections_iff.mp hs
  rw [reaches_iff hoe]
  rintro ⟨hox, hxe⟩
  have hik := h.before
  rcases Nat.lt_trichotomy o i with hlt | rfl | hlt
  · exact hoe.unopened i hlt (by omega) h.opens
  · have hek := hoe.unique h
    omega
  · rcases Nat.lt_or_ge k o with hko | hok
    · exact hunopened o hko (Nat.le_of_lt hox) hoe.opens
    · exact h.unopened o hlt hok hoe.opens

end Enclosed

section Macro

variable {ls : List Text} {i j k : Nat}

theorem macroText_prefix (ls : List Text) (i : Nat) (h : k ≤ j) :
    macroText ls i k <+: macroText ls i j := by
  have htake : (ls.drop (i + 1)).take (k - i) <+: (ls.drop (i + 1)).take (j - i) :=
    List.take_prefix_take_left (Nat.sub_le_sub_right h i)
  obtain ⟨rest, hrest⟩ := htake
  refine List.prefix_append_right_inj _ |>.mpr ⟨rest.flatMap ('\n' :: ·), ?_⟩
  rw [← List.flatMap_append, hrest]

/-- Before its last line no brace closes the macro itself. -/
theorem Spans.open_at (h : Spans ls i j) (hkj : k < j) :
    (macroText ls i k).count '}' ≤ (macroText ls i k).count '{' := by
  obtain ⟨p, q, -, hbalanced⟩ := h.closes
  apply hbalanced.nested
  have hprefix : macroText ls i k <+: macroText ls i (j - 1) :=
    macroText_prefix ls i (Nat.le_sub_one_of_lt hkj)
  exact hprefix.trans (List.prefix_append _ _)

theorem Spans.encloses_iff (h : Spans ls i j) :
    Encloses ls i j ↔ isClosing (ls.getD j []) ∧
      (∀ k, i < k → k < j → ¬isClosing (ls.getD k [])) ∧
      (∀ k, i < k → k ≤ j → ¬isOpening (ls.getD k [])) := by
  constructor
  · intro hij
    exact ⟨hij.closes, hij.unclosed, hij.unopened⟩
  · rintro ⟨hcloses, hunclosed, hunopened⟩
    exact ⟨h.before, h.inside, h.opens, hunopened, hcloses, hunclosed⟩

end Macro

/-- A macro is a section as a whole iff its last line ends with a closing brace, no line before
that one does, and none of its lines opens another macro. Where a line inside the macro is the
first to end with a closing brace, that brace closes a block of the macro and not the macro
itself; the section ends there all the same, and the rest of the macro is in no section unless
another macro is opened in it. -/
theorem macro_section_whole_iff {code : Text} {i j : Nat} (h : Spans code.lines i j) :
    (sectionAt code.lines i (j - i) ∈ sections code ↔
      isClosing (code.lines.getD j []) ∧
      (∀ k, i < k → k < j → ¬isClosing (code.lines.getD k [])) ∧
      (∀ k, i < k → k ≤ j → ¬isOpening (code.lines.getD k []))) ∧
    ∀ k, Encloses code.lines i k → k < j →
      sectionAt code.lines i (k - i) ∈ sections code ∧
      (macroText code.lines i k).count '}' ≤ (macroText code.lines i k).count '{' ∧
      ∀ x, k < x → x ≤ j → (∀ y, k < y → y ≤ x → ¬isOpening (code.lines.getD y [])) →
        ∀ s ∈ sections code, ¬s.Reaches x := by
  constructor
  · rw [sectionAt_mem_sections_iff h.before h.inside]
    exact h.encloses_iff
  · intro k hik hkj
    refine ⟨(sectionAt_mem_sections_iff hik.before hik.inside).mpr hik, h.open_at hkj, ?_⟩
    intro x hkx _ hunopened s hs
    exact not_reaches_of_encloses hik hkx hunopened hs

def nestedMacro : Text := "sol! \x7b\ncontract A \x7b\n\x7d\nevent E();\n\x7d\n".toList

theorem spans_nestedMacro : Spans nestedMacro.lines 0 4 := by
  have hnested : ∀ p ∈ (macroText nestedMacro.lines 0 3 ++ ['\n']).inits,
      p.count '}' ≤ p.count '{' := by
    decide +kernel
  refine ⟨by decide, by decide, by decide +kernel, by decide +kernel, [], [], by decide, ?_,
    by decide⟩
  intro p hp
  exact hnested p ((List.mem_inits p _).mpr hp)

theorem encloses_nestedMacro : Encloses nestedMacro.lines 0 2 where
  before := by decide
  inside := by decide
  opens := by decide +kernel
  unopened k hk hk2 := by
    obtain rfl | rfl : k = 1 ∨ k = 2 := by omega
    · decide +kernel
    · decide +kernel
  closes := by decide +kernel
  unclosed k hk hk2 := by
    obtain rfl : k = 1 := by omega
    decide +kernel

theorem macro_section_whole_iff_nestedMacro :
    Spans nestedMacro.lines 0 4 ∧ Encloses nestedMacro.lines 0 2 ∧
      (sectionAt nestedMacro.lines 0 2 ∈ sections nestedMacro ∧
        ∀ s ∈ sections nestedMacro, ¬s.Reaches 3) := by
  have hcut := (macro_section_whole_iff spans_nestedMacro).2 2 encloses_nestedMacro (by decide)
  refine ⟨spans_nestedMacro, encloses_nestedMacro, hcut.1, ?_⟩
  apply hcut.2.2 3 (by decide) (by decide)
  intro y hy hy3
  obtain rfl : y = 3 := by omega
  decide +kernel

/-- A macro that spans lines need not be a section as a whole. -/
theorem not_macro_section_whole :
    ¬∀ i j, Spans nestedMacro.lines i j →
      sectionAt nestedMacro.lines i (j - i) ∈ sections nestedMacro := by
  intro h
  have hwhole := h 0 4 spans_nestedMacro
  revert hwhole
  decide +kernel

end ContractAudit.Solidity

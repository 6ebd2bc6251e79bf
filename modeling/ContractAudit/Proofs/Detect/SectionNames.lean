import ContractAudit.Proofs.Detect.ActiveCode
import ContractAudit.Rust.Parser
import Mathlib.Data.List.DropRight

/-! Solidity sections and the functions they name. A section counts for a function as soon as the
name of the function occurs in it, and a short name may occur inside a longer word. So a section
that does not name a function still decides for it, if it has a longer word with the name in it. -/

namespace ContractAudit

namespace Text

def isNamePart (c : Char) : Bool := isWordPart c || c == '$'

/-- A word occurs in a text with no character of an identifier right before or behind it. -/
def StandsAlone (word t : Text) : Prop :=
  ∃ a b, t = a ++ (word ++ b) ∧ a.getLast?.any isNamePart = false ∧ b.head?.any isNamePart = false

def InLongerWord (name t : Text) : Prop :=
  ∃ u v, (u ≠ [] ∨ v ≠ []) ∧ (∀ c ∈ u, isNamePart c) ∧ (∀ c ∈ v, isNamePart c) ∧
    StandsAlone (u ++ (name ++ v)) t

theorem standsAlone_iff (word t : Text) :
    StandsAlone word t ↔ ∃ i < t.length + 1, word <+: t.drop i ∧
      (t.take i).getLast?.any isNamePart = false ∧
      (t.drop (i + word.length)).head?.any isNamePart = false := by
  constructor
  · rintro ⟨a, b, rfl, ha, hb⟩
    refine ⟨a.length, by rw [List.length_append]; omega, ?_, ?_, ?_⟩
    · rw [List.drop_left]
      exact List.prefix_append word b
    · rwa [List.take_left]
    · rwa [List.drop_length_add_append, List.drop_left]
  · rintro ⟨i, -, ⟨b, hb⟩, hbefore, hbehind⟩
    refine ⟨t.take i, b, by rw [hb, List.take_append_drop], hbefore, ?_⟩
    rwa [← List.drop_drop, ← hb, List.drop_left] at hbehind

instance (word t : Text) : Decidable (StandsAlone word t) :=
  decidable_of_iff _ (standsAlone_iff word t).symm

theorem StandsAlone.isInfix {word t : Text} (h : StandsAlone word t) : word <:+: t := by
  obtain ⟨a, b, rfl, -⟩ := h
  exact ⟨a, b, List.append_assoc a word b⟩

/-- What occurs in a text stands alone there, or some longer word does in which it is. -/
theorem infix_iff_standsAlone (name t : Text) :
    name <:+: t ↔ StandsAlone name t ∨ InLongerWord name t := by
  constructor
  · rintro ⟨a, b, rfl⟩
    let u := a.rtakeWhile isNamePart
    let v := b.takeWhile isNamePart
    have hword : StandsAlone (u ++ (name ++ v)) (a ++ name ++ b) := by
      refine ⟨a.rdropWhile isNamePart, b.dropWhile isNamePart, ?_, ?_, head?_dropWhile _ b⟩
      · calc a ++ name ++ b
            = a.rdropWhile isNamePart ++ u ++ name ++ (v ++ b.dropWhile isNamePart) := by
              rw [List.rdropWhile_append_rtakeWhile, List.takeWhile_append_dropWhile]
          _ = _ := by simp only [List.append_assoc]
      · rw [List.rdropWhile, List.getLast?_reverse]
        exact head?_dropWhile _ _
    by_cases hnone : u = [] ∧ v = []
    · rw [hnone.1, hnone.2, List.nil_append, List.append_nil] at hword
      exact .inl hword
    · have hlonger : u ≠ [] ∨ v ≠ [] := Decidable.not_and_iff_not_or_not.mp hnone
      exact .inr ⟨u, v, hlonger, fun c => List.mem_rtakeWhile_imp, fun c => List.mem_takeWhile_imp,
        hword⟩
  · rintro (halone | ⟨u, v, -, -, -, hword⟩)
    · exact halone.isInfix
    · exact List.IsInfix.trans ⟨u, v, List.append_assoc u name v⟩ hword.isInfix

end Text

namespace Detect.LockedEther

open Text (InLongerWord StandsAlone)

def ShowsPayout (s : Solidity.Section) : Prop :=
  ∃ line ∈ s.code.lines, ∃ p ∈ solidityPayoutPatterns,
    (withoutBlockComment (line.before "//")).has p

instance (s : Solidity.Section) : Decidable (ShowsPayout s) :=
  inferInstanceAs (Decidable (∃ line ∈ s.code.lines, ∃ p ∈ solidityPayoutPatterns, _))

section Sections

variable (text name : Text) {code bare : Text}

theorem takesPayment_iff_of_sections (hbare : Solidity.sections bare = []) :
    takesPayment text name code ↔ takesPayment text name bare ∨
      ∃ s ∈ Solidity.sections code, name <:+: s.code ∧ s.code.has "payable" := by
  rw [takesPayment, Bool.or_eq_true, takesPayment, hbare, List.any_nil, Bool.or_false,
    List.any_eq_true]
  simp only [Bool.and_eq_true, Text.occurs_iff, and_comm]

theorem paysOut_iff_of_sections (hbare : Solidity.sections bare = []) :
    paysOut text name code ↔ paysOut text name bare ∨
      ∃ s ∈ Solidity.sections code, name <:+: s.code ∧ ShowsPayout s := by
  rw [paysOut_iff, paysOut_iff, hbare]
  simp only [List.not_mem_nil, false_and, exists_false, or_false, sectionPaysOut_iff]
  rfl

end Sections

/-- A verdict that sections can only make true, by having the name in them and passing a test. If
the name stands alone in none of them, it is a longer word that makes the difference. -/
theorem ne_iff_of_standsAlone {name : Text} {sections : List Solidity.Section}
    (halone : ∀ s ∈ sections, ¬StandsAlone name s.code) {test : Solidity.Section → Prop}
    {verdict alone : Bool} (h : verdict ↔ alone ∨ ∃ s ∈ sections, name <:+: s.code ∧ test s) :
    verdict ≠ alone ↔ alone = false ∧ ∃ s ∈ sections, InLongerWord name s.code ∧ test s := by
  have hwords : (∃ s ∈ sections, name <:+: s.code ∧ test s) ↔
      ∃ s ∈ sections, InLongerWord name s.code ∧ test s := by
    refine exists_congr fun s => and_congr_right fun hs => and_congr_left fun _ => ?_
    rw [Text.infix_iff_standsAlone, or_iff_right (halone s hs)]
  rw [← hwords]
  cases alone with
  | true => simp [h]
  | false => simp [h]

/-- If the name of a function stands alone in no Solidity section, then its verdicts are those of a
source without sections, unless some section has the name in a longer word: such a section makes the
function take payment if it says payable, and pay out if it shows a payment. -/
theorem sections_reach_longer_words (n : Node) {code bare : Text}
    (hbare : Solidity.sections bare = [])
    (halone : ∀ s ∈ Solidity.sections code, ¬StandsAlone (functionName n code) s.code) :
    let text := n.text code
    let name := functionName n code
    (isPayable n code ≠ takesPayment text name bare ↔ takesPayment text name bare = false ∧
      ∃ s ∈ Solidity.sections code, InLongerWord name s.code ∧ s.code.has "payable") ∧
    (isWithdrawal n code ≠ paysOut text name bare ↔ paysOut text name bare = false ∧
      ∃ s ∈ Solidity.sections code, InLongerWord name s.code ∧ ShowsPayout s) :=
  ⟨ne_iff_of_standsAlone halone (takesPayment_iff_of_sections _ _ hbare),
    ne_iff_of_standsAlone halone (paysOut_iff_of_sections _ _ hbare)⟩

/-- A section with another function that takes payment, and does not pay out. -/
theorem sections_reach_longer_words_payAll :
    let code := "sol! \x7b\nfunction payAll() payable;\n\x7d\nfn pay() \x7b\x7d".toList
    let n := Node.mk "function_item" ⟨36, 47, 3, 3⟩ [.mk "identifier" ⟨39, 42, 3, 3⟩ []]
    functionName n code = "pay".toList ∧
      (∀ s ∈ Solidity.sections code, ¬StandsAlone (functionName n code) s.code) ∧
      isPayable n code ≠ takesPayment (n.text code) (functionName n code) [] ∧
      isWithdrawal n code = paysOut (n.text code) (functionName n code) [] := by
  intro code n
  have hfacts : functionName n code = "pay".toList ∧
      Solidity.sections code = [⟨"function payAll() payable;\n\x7d\n".toList, 1⟩] ∧
      takesPayment (n.text code) "pay".toList [] = false ∧
      StandsAlone "payAll".toList "function payAll() payable;\n\x7d\n".toList ∧
      ∀ s ∈ Solidity.sections code,
        ¬StandsAlone "pay".toList s.code ∧ s.code.has "payable" ∧ ¬ShowsPayout s := by
    decide +kernel
  obtain ⟨hname, hsections, hbare, hword, hall⟩ := hfacts
  have halone : ∀ s ∈ Solidity.sections code, ¬StandsAlone (functionName n code) s.code :=
    fun s hs => hname ▸ (hall s hs).1
  have hempty : Solidity.sections [] = [] := rfl
  obtain ⟨hpayable, hout⟩ := sections_reach_longer_words n hempty halone
  refine ⟨hname, halone, hpayable.mpr ?_, ?_⟩
  · have hs : ⟨"function payAll() payable;\n\x7d\n".toList, 1⟩ ∈ Solidity.sections code :=
      hsections ▸ List.mem_cons_self
    rw [hname]
    exact ⟨hbare, _, hs, ⟨[], "All".toList, .inr (by decide), List.forall_mem_nil _,
      List.all_eq_true.mp (by decide), hword⟩, (hall _ hs).2.1⟩
  · refine Classical.not_not.mp fun hne => ?_
    obtain ⟨-, s, hs, -, hshows⟩ := hout.mp hne
    exact (hall s hs).2.2 hshows

def payBesidePayable : Text :=
  ("sol! \x7b\nfunction close(address payable to) \x7b to.transfer(1); \x7d\n\x7d\n" ++
    "fn pay() \x7b\x7d\n").toList

/-- A section that does not name a function need not leave its verdicts as they are. -/
theorem not_sections_speak_by_name :
    let root := Rust.parse payBesidePayable
    root.kind = "source_file" ∧
    ¬∀ v ∈ root.visits, v.node.kind = "function_item" →
      (∀ s ∈ Solidity.sections payBesidePayable,
        ¬StandsAlone (functionName v.node payBesidePayable) s.code) →
      isPayable v.node payBesidePayable = takesPayment (v.node.text payBesidePayable)
          (functionName v.node payBesidePayable) [] ∧
        isWithdrawal v.node payBesidePayable = paysOut (v.node.text payBesidePayable)
          (functionName v.node payBesidePayable) [] := by
  decide +kernel

end Detect.LockedEther
end ContractAudit

import ContractAudit.Proofs.Detect.ActiveCode
import ContractAudit.Proofs.Position.Section
import ContractAudit.Proofs.Rust.Comments
import ContractAudit.Rust.Parser
import Mathlib.Data.List.Infix

/-! Payments that are commented out. The search for a payment cuts each line at the first mark of a
line comment, wherever that mark stands. It knows nothing of block comments, and nothing of strings.
So it sees the payments in a block comment, and misses those behind a mark in a string. In a
function without quotes and block comments it finds just the payments that are not in a comment. -/

namespace ContractAudit.Detect.LockedEther

open Rust (BehindMark Comment Commented Plain comments)

/-- A place of a function where a pattern of a payment starts: behind `lead`, and from there on the
function reads `tail`. -/
structure PayoutAt (text lead tail : Text) : Prop where
  split : text = lead ++ tail
  pattern : ∃ p ∈ payoutPatterns, p.toList <+: tail

def Live (text : Text) : Prop := ∃ lead tail, PayoutAt text lead tail ∧ ¬Commented text tail

theorem live_iff (text : Text) :
    Live text ↔ ∃ tail ∈ text.tails, (∃ p ∈ payoutPatterns, p.toList <+: tail) ∧
      ¬Commented text tail := by
  simp only [List.mem_tails]
  constructor
  · rintro ⟨lead, tail, ⟨rfl, hpattern⟩, hlive⟩
    exact ⟨tail, List.suffix_append lead tail, hpattern, hlive⟩
  · rintro ⟨tail, ⟨lead, hlead⟩, hpattern, hlive⟩
    exact ⟨lead, tail, ⟨hlead.symm, hpattern⟩, hlive⟩

instance (text : Text) : Decidable (Live text) := decidable_of_iff _ (live_iff text).symm

theorem notMem_payoutPatterns :
    ∀ p ∈ payoutPatterns, '/' ∉ p.toList ∧ '\n' ∉ p.toList := by decide

namespace PayoutAt

variable {text lead tail : Text}

theorem tail_ne_nil (h : PayoutAt text lead tail) : tail ≠ [] := by
  obtain ⟨p, hp, hprefix⟩ := h.pattern
  rintro rfl
  exact (solid_payoutPatterns p hp).ne_nil (List.prefix_nil.mp hprefix)

theorem head?_ne (h : PayoutAt text lead tail) :
    tail.head? ≠ some '/' ∧ tail.head? ≠ some '\n' := by
  obtain ⟨p, hp, rest, rfl⟩ := h.pattern
  obtain ⟨c, p', hcons⟩ := List.exists_cons_of_ne_nil (solid_payoutPatterns p hp).ne_nil
  have hnot := notMem_payoutPatterns p hp
  rw [hcons] at hnot ⊢
  exact ⟨fun hc => hnot.1 (Option.some.inj hc ▸ List.mem_cons_self),
    fun hc => hnot.2 (Option.some.inj hc ▸ List.mem_cons_self)⟩

end PayoutAt

theorem behindMark_append_iff {above start : Text} (habove : above.WholeLines)
    (hstart : '\n' ∉ start) : BehindMark (above ++ start) ↔ ['/', '/'] <:+: start := by
  constructor
  · rintro ⟨a, b, hsplit, hb⟩
    have hmark : '\n' ∉ '/' :: '/' :: b := by simp [hb]
    rcases List.append_eq_append_iff.mp hsplit with ⟨more, -, hmore⟩ | ⟨more, hmore, hrest⟩
    · exact ⟨more, b, by rw [hmore, List.append_assoc]; rfl⟩
    · -- the mark would start above, and then go on over the end of a line
      rw [hrest, List.mem_append, not_or] at hmark
      have hnil : more = [] := habove.eq_nil_of_suffix (hmore ▸ List.suffix_append a more) hmark.1
      rw [hnil, List.nil_append] at hrest
      exact ⟨[], b, hrest⟩
  · rintro ⟨a, b, rfl⟩
    refine ⟨above ++ a, b, ?_, ?_⟩
    · simp
    · exact fun hb => hstart (List.mem_append_right _ hb)

theorem shows_iff_payoutAt (text : Text) :
    Shows withoutLineComment payoutPatterns text.lines ↔
      ∃ lead tail, PayoutAt text lead tail ∧ ¬BehindMark lead := by
  have hcut : ∀ p ∈ payoutPatterns, ∀ line : Text, (withoutLineComment line).has p ↔
      ∃ a b, line = a ++ (p.toList ++ b) ∧ ¬['/', '/'] <:+: a := by
    intro p hp line
    rw [Text.has_iff]
    refine Text.infix_before_iff rfl (solid_payoutPatterns p hp).ne_nil ?_ line
    intro c hc hmark
    have hslash : c = '/' := by simpa using hmark
    exact (notMem_payoutPatterns p hp).1 (hslash ▸ hc)
  constructor
  · rintro ⟨line, hline, p, hp, hhas⟩
    obtain ⟨a, b, rfl, ha⟩ := (hcut p hp line).mp hhas
    obtain ⟨hfeed, above, below, rfl, habove, -⟩ := Text.mem_lines_iff.mp hline
    refine ⟨above ++ a, p.toList ++ b ++ below, ⟨?_, p, hp, ?_⟩, ?_⟩
    · simp only [List.append_assoc]
    · rw [List.append_assoc]
      exact List.prefix_append _ _
    · rw [behindMark_append_iff habove fun hmem => hfeed (List.mem_append_left _ hmem)]
      exact ha
  · rintro ⟨lead, tail, ⟨rfl, p, hp, rest, rfl⟩, hmark⟩
    obtain ⟨above, start, rfl, habove, hstart⟩ := Text.exists_wholeLines_append lead
    rw [behindMark_append_iff habove hstart] at hmark
    obtain ⟨more, hline⟩ :=
      Text.exists_line_around habove hstart (notMem_payoutPatterns p hp).2 rest
    exact ⟨_, hline, p, hp, (hcut p hp _).mpr ⟨start, more, rfl, hmark⟩⟩

theorem paysOut_iff_payoutAt (text name : Text) {code : Text} (hcode : ¬code.has "sol! \x7b") :
    paysOut text name code ↔ ∃ lead tail, PayoutAt text lead tail ∧ ¬BehindMark lead := by
  rw [paysOut_iff, Solidity.sections_eq_nil hcode, shows_iff_payoutAt]
  simp only [List.not_mem_nil, false_and, exists_false, or_false]

/-- A payment in a comment that has no mark before it on its line is in a block comment. -/
theorem PayoutAt.covered_by_block {text lead tail : Text} (h : PayoutAt text lead tail)
    (hmark : ¬BehindMark lead) (hcommented : Commented text tail) :
    ∃ k ∈ comments text, k.IsBlock ∧ k.Covers tail := by
  obtain ⟨k, hk, hcovers⟩ := hcommented
  refine ⟨k, hk, Classical.not_not.mp fun hline => hmark ?_, hcovers⟩
  exact Rust.behindMark_of_covers hk hline hcovers h.split h.head?_ne.1

/-- Without Solidity sections a function pays out iff it has a payment with no mark of a line
comment before it on its line. If none of its payments is live then, one is in a block comment. If
it does not pay out, then each live payment has a mark before it that starts no comment. A function
without quotes and block comments pays out iff it has a live payment. -/
theorem paysOut_up_to_marks (text name : Text) {code : Text} (hcode : ¬code.has "sol! \x7b") :
    (paysOut text name code ↔ ∃ lead tail, PayoutAt text lead tail ∧ ¬BehindMark lead) ∧
    (paysOut text name code → ¬Live text → ∃ lead tail, PayoutAt text lead tail ∧
      ¬BehindMark lead ∧ ∃ k ∈ comments text, k.IsBlock ∧ k.Covers tail) ∧
    (¬paysOut text name code → ∀ lead tail, PayoutAt text lead tail → ¬Commented text tail →
      BehindMark lead ∧ ∀ a b, lead = a ++ '/' :: '/' :: b → '\n' ∉ b →
        ∀ k ∈ comments text, k.first.rest ≠ '/' :: '/' :: b ++ tail) ∧
    (Plain text → (paysOut text name code ↔ Live text)) := by
  have hpays := paysOut_iff_payoutAt text name hcode
  refine ⟨hpays, ?_, ?_, ?_⟩
  · intro hout hdead
    obtain ⟨lead, tail, hplace, hmark⟩ := hpays.mp hout
    have hcommented : Commented text tail :=
      Classical.not_not.mp fun hlive => hdead ⟨lead, tail, hplace, hlive⟩
    exact ⟨lead, tail, hplace, hmark, hplace.covered_by_block hmark hcommented⟩
  · intro hout lead tail hplace hlive
    refine ⟨Classical.not_not.mp fun hmark => hout (hpays.mpr ⟨lead, tail, hplace, hmark⟩), ?_⟩
    intro a b _ hb k hk hfirst
    exact hlive ⟨k, hk, Rust.covers_of_first_eq hk hb hplace.tail_ne_nil hplace.head?_ne.2 hfirst⟩
  · intro hplain
    refine hpays.trans (exists_congr fun lead => exists_congr fun tail =>
      and_congr_right fun hplace => not_congr ⟨fun hmark => ?_, fun hcommented => ?_⟩)
    · exact hplain.commented hplace.split hmark hplace.tail_ne_nil hplace.head?_ne.2
    · refine Classical.not_not.mp fun hmark => ?_
      obtain ⟨k, hk, hblock, -⟩ := hplace.covered_by_block hmark hcommented
      exact hplain.not_isBlock hk hblock

/-- A payment behind an address in quotes. -/
theorem paysOut_up_to_marks_quoted :
    let lead := "fn w() \x7b let url = \"http://a\"; owner".toList
    let tail := ".transfer(b); \x7d".toList
    let text := lead ++ tail
    ¬Text.has text "sol! \x7b" ∧ PayoutAt text lead tail ∧ Live text ∧
      paysOut text "w".toList text = false ∧ BehindMark lead ∧
      ∀ k ∈ comments text, k.first.rest ≠ "//a\"; owner.transfer(b); \x7d".toList := by
  intro lead tail text
  have hfacts : ¬Text.has text "sol! \x7b" ∧ (∃ p ∈ payoutPatterns, p.toList <+: tail) ∧
      ¬Commented text tail ∧ paysOut text "w".toList text = false := by
    decide +kernel
  obtain ⟨hcode, hpattern, hlive, hout⟩ := hfacts
  have hplace : PayoutAt text lead tail := ⟨rfl, hpattern⟩
  obtain ⟨-, -, hmissed, -⟩ := paysOut_up_to_marks text "w".toList hcode
  obtain ⟨hmark, hstarts⟩ := hmissed (Bool.eq_false_iff.mp hout) lead tail hplace hlive
  refine ⟨hcode, hplace, ⟨lead, tail, hplace, hlive⟩, hout, hmark, ?_⟩
  exact hstarts "fn w() \x7b let url = \"http:".toList "a\"; owner".toList rfl (by decide)

def commentedPayout : Text :=
  "fn withdraw() \x7b\n    /* evm::transfer_eth(owner, balance); */\n\x7d\n".toList

/-- A function that pays out need not have a payment outside of its comments. -/
theorem not_paysOut_iff_live :
    let root := Rust.parse commentedPayout
    root.kind = "source_file" ∧ ¬commentedPayout.has "sol! \x7b" ∧
    ¬∀ v ∈ root.visits, v.node.kind = "function_item" →
      (isWithdrawal v.node commentedPayout ↔ Live (v.node.text commentedPayout)) := by
  decide +kernel

end ContractAudit.Detect.LockedEther

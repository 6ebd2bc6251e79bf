import ContractAudit.Detect.LockedEther
import ContractAudit.Proofs.Text.Cuts
import Mathlib.Data.List.Forall2
import Mathlib.Logic.Relation

/-! Payments out of the contract, line by line. The lines of a text are cleared of comments, trimmed
and joined before they are searched, but no pattern has a blank in it, so none is lost at the end of
a line and none comes about at a joint. What decides is whether one line has a pattern, and that
does not depend on how the text is laid out. -/

namespace ContractAudit

namespace Text

structure Solid (pattern : Text) : Prop where
  ne_nil : pattern ≠ []
  unblank : pattern.any isBlank = false

instance (pattern : Text) : Decidable pattern.Solid :=
  decidable_of_iff (pattern ≠ [] ∧ pattern.any isBlank = false)
    ⟨fun h => ⟨h.1, h.2⟩, fun h => ⟨h.ne_nil, h.unblank⟩⟩

section Solid

variable {pattern : Text}

theorem Solid.isBlank_of_mem (h : pattern.Solid) {c : Char} (hc : c ∈ pattern) :
    isBlank c = false :=
  Bool.eq_false_iff.mpr (List.any_eq_false.mp h.unblank c hc)

theorem Solid.head? (h : pattern.Solid) : pattern.head?.any isBlank = false := by
  cases hhead : pattern.head? with
  | none => rfl
  | some c => exact h.isBlank_of_mem (List.mem_of_head? hhead)

theorem Solid.getLast? (h : pattern.Solid) : pattern.getLast?.any isBlank = false := by
  cases hlast : pattern.getLast? with
  | none => rfl
  | some c => exact h.isBlank_of_mem (List.mem_of_getLast? hlast)

theorem Solid.notMem (h : pattern.Solid) {c : Char} (hc : isBlank c = true) : c ∉ pattern := by
  intro hmem
  rw [h.isBlank_of_mem hmem] at hc
  cases hc

end Solid

inductive SpacingEdit : List Text → List Text → Prop
  | indent (above below : List Text) (line : Text) {margin : Text} (h : ∀ c ∈ margin, isBlank c) :
      SpacingEdit (above ++ line :: below) (above ++ (margin ++ line) :: below)
  | blankLine (above below : List Text) {line : Text} (h : ∀ c ∈ line, isBlank c) :
      SpacingEdit (above ++ below) (above ++ line :: below)

/-- A change of the lines of a text that is no change of code: one of spacing, or something else is
written behind the mark of a comment. `keeps` is asked of the line before and after the latter. -/
inductive LayoutEdit (keeps : Text → Text → Prop) : List Text → List Text → Prop
  | spacing {ls ls' : List Text} (h : SpacingEdit ls ls') : LayoutEdit keeps ls ls'
  | comment (above below : List Text) (line note note' : Text)
      (h : keeps (line ++ "//".toList ++ note) (line ++ "//".toList ++ note')) :
      LayoutEdit keeps (above ++ (line ++ "//".toList ++ note) :: below)
        (above ++ (line ++ "//".toList ++ note') :: below)

def RelaidBy (keeps : Text → Text → Prop) : Text → Text → Prop :=
  Relation.EqvGen fun t u => LayoutEdit keeps t.lines u.lines

def Relaid : Text → Text → Prop := RelaidBy fun _ _ => True

theorem RelaidBy.eq_of_edit {α : Type} {keeps : Text → Text → Prop} (test : Text → α)
    (hedit : ∀ t u : Text, LayoutEdit keeps t.lines u.lines → test t = test u) {t u : Text}
    (h : RelaidBy keeps t u) : test t = test u := by
  induction h with
  | rel t u h => exact hedit t u h
  | refl t => rfl
  | symm t u _ ih => exact ih.symm
  | trans t u v _ _ ih ih' => exact ih.trans ih'

end Text

namespace Detect.LockedEther

open Solidity (Search Section isClosing isOpening)
open Text (LayoutEdit Relaid RelaidBy Solid SpacingEdit WholeLines)

structure ClearsLine (clean : Text → Text) : Prop where
  nil : clean [] = []
  margin : ∀ {margin : Text}, (∀ c ∈ margin, Text.isBlank c) →
    ∀ line, clean (margin ++ line) = margin ++ clean line
  comment : ∀ line note note' : Text,
    clean (line ++ "//".toList ++ note) = clean (line ++ "//".toList ++ note')

theorem clearsLine_withoutLineComment : ClearsLine withoutLineComment := by
  refine ⟨rfl, fun h line => ?_, fun line note note' => ?_⟩
  · exact Text.before_append_left rfl (Text.notMem_of_isBlank (by decide) h) line
  · have hmark : Text.has (line ++ "//".toList) "//" :=
      (Text.has_iff _ _).mpr (List.suffix_append _ _).isInfix
    rw [withoutLineComment, withoutLineComment, Text.before_append_right hmark,
      Text.before_append_right hmark]

theorem withoutBlockComment_margin {margin : Text} (h : ∀ c ∈ margin, Text.isBlank c)
    (line : Text) : withoutBlockComment (margin ++ line) = margin ++ withoutBlockComment line := by
  have hslash : '/' ∉ margin := Text.notMem_of_isBlank (by decide) h
  have hstar : '*' ∉ margin := Text.notMem_of_isBlank (by decide) h
  have hhas : ∀ mark : String, mark.toList.head?.any Text.isBlank = false →
      Text.has (margin ++ line) mark = line.has mark := by
    intro mark hmark
    rw [Bool.eq_iff_iff, Text.has_iff, Text.has_iff]
    exact Text.infix_append_of_forall hmark h line
  rw [withoutBlockComment, hhas "/*" (by decide), hhas "*/" (by decide),
    Text.before_append_left rfl hslash, Text.after_append_left rfl hstar, withoutBlockComment]
  split
  · rw [List.append_assoc]
  · rfl

def withoutComments (line : Text) : Text := withoutBlockComment (withoutLineComment line)

theorem clearsLine_withoutComments : ClearsLine withoutComments := by
  refine ⟨rfl, fun h line => ?_, fun line note note' => ?_⟩
  · rw [withoutComments, clearsLine_withoutLineComment.margin h, withoutBlockComment_margin h]
    rfl
  · rw [withoutComments, withoutComments, clearsLine_withoutLineComment.comment line note note']

def Shows (clean : Text → Text) (patterns : List String) (ls : List Text) : Prop :=
  ∃ line ∈ ls, ∃ p ∈ patterns, (clean line).has p

section Patterns

variable {clean : Text → Text} {patterns : List String}

/-- Joined lines have a pattern iff one of the lines has it. -/
theorem hasAny_activeCode_iff (h : ∀ p ∈ patterns, Solid p.toList) (text : Text) :
    (activeCode clean text).hasAny patterns ↔ Shows clean patterns text.lines := by
  have hone : ∀ p ∈ patterns, (activeCode clean text).has p ↔
      ∃ line ∈ text.lines, (clean line).has p := by
    intro p hp
    have hsolid := h p hp
    have htrim : ∀ line : Text, p.toList <:+: (clean line).trim ↔ (clean line).has p := by
      intro line
      rw [← Text.occurs_iff, Text.occurs_trim hsolid.head? hsolid.getLast?]
      rfl
    rw [Text.has_iff, activeCode, Text.infix_joinWith_iff hsolid.ne_nil (hsolid.notMem (by decide))]
    constructor
    · rintro ⟨piece, hpiece, hinfix⟩
      obtain ⟨line, hline, rfl⟩ := List.mem_map.mp (List.mem_of_mem_filter hpiece)
      exact ⟨line, hline, (htrim line).mp hinfix⟩
    · rintro ⟨line, hline, hhas⟩
      have hinfix := (htrim line).mpr hhas
      -- an empty piece is dropped, but it does not have the pattern
      have hne : (clean line).trim ≠ [] := by
        intro hnil
        rw [hnil, List.infix_nil] at hinfix
        exact hsolid.ne_nil hinfix
      exact ⟨_, List.mem_filter.mpr ⟨List.mem_map_of_mem hline, decide_eq_true hne⟩, hinfix⟩
  rw [Text.hasAny, List.any_eq_true]
  constructor
  · rintro ⟨p, hp, hhas⟩
    obtain ⟨line, hline, hcleared⟩ := (hone p hp).mp hhas
    exact ⟨line, hline, p, hp, hcleared⟩
  · rintro ⟨line, hline, p, hp, hcleared⟩
    exact ⟨p, hp, (hone p hp).mpr ⟨line, hline, hcleared⟩⟩

theorem shows_append {above below : List Text} :
    Shows clean patterns (above ++ below) ↔
      Shows clean patterns above ∨ Shows clean patterns below := by
  simp only [Shows, List.mem_append, or_and_right, exists_or]

theorem shows_cons {line : Text} {below : List Text} :
    Shows clean patterns (line :: below) ↔
      (∃ p ∈ patterns, (clean line).has p) ∨ Shows clean patterns below := by
  simp only [Shows, List.mem_cons, exists_eq_or_imp]

theorem ClearsLine.shows_margin (hclean : ClearsLine clean)
    (h : ∀ p ∈ patterns, Solid p.toList) {margin : Text} (hblank : ∀ c ∈ margin, Text.isBlank c)
    (line : Text) :
    (∃ p ∈ patterns, (clean (margin ++ line)).has p) ↔ ∃ p ∈ patterns, (clean line).has p := by
  refine exists_congr fun p => and_congr_right fun hp => ?_
  rw [hclean.margin hblank, Text.has_iff, Text.has_iff]
  exact Text.infix_append_of_forall (h p hp).head? hblank _

theorem ClearsLine.not_shows_blank (hclean : ClearsLine clean)
    (h : ∀ p ∈ patterns, Solid p.toList) {line : Text} (hblank : ∀ c ∈ line, Text.isBlank c) :
    ¬∃ p ∈ patterns, (clean line).has p := by
  rw [← List.append_nil line, hclean.shows_margin h hblank, hclean.nil]
  rintro ⟨p, hp, hhas⟩
  exact (h p hp).ne_nil (List.infix_nil.mp ((Text.has_iff _ _).mp hhas))

theorem ClearsLine.shows_edit (hclean : ClearsLine clean) (h : ∀ p ∈ patterns, Solid p.toList)
    {keeps : Text → Text → Prop} {ls ls' : List Text} (hedit : LayoutEdit keeps ls ls') :
    Shows clean patterns ls ↔ Shows clean patterns ls' := by
  cases hedit with
  | spacing hspacing =>
    cases hspacing with
    | indent above below line hblank =>
      rw [shows_append, shows_append, shows_cons, shows_cons, hclean.shows_margin h hblank]
    | blankLine above below hblank =>
      rw [shows_append, shows_append, shows_cons, or_iff_right (hclean.not_shows_blank h hblank)]
  | comment above below line note note' _ =>
    rw [shows_append, shows_append, shows_cons, shows_cons, hclean.comment line note note']

end Patterns

theorem solid_payoutPatterns : ∀ p ∈ payoutPatterns, Solid p.toList := by decide

theorem solid_solidityPayoutPatterns : ∀ p ∈ solidityPayoutPatterns, Solid p.toList := by decide

theorem sectionPaysOut_iff (name : Text) (s : Solidity.Section) :
    sectionPaysOut name s ↔ name <:+: s.code ∧
      Shows withoutComments solidityPayoutPatterns s.code.lines := by
  rw [sectionPaysOut, Bool.and_eq_true, Text.occurs_iff,
    hasAny_activeCode_iff solid_solidityPayoutPatterns]
  rfl

theorem paysOut_iff (text name code : Text) :
    paysOut text name code ↔ Shows withoutLineComment payoutPatterns text.lines ∨
      ∃ s ∈ Solidity.sections code, sectionPaysOut name s := by
  rw [paysOut, Bool.or_eq_true, hasAny_activeCode_iff solid_payoutPatterns, List.any_eq_true]

structure SameRole (name line line' : Text) : Prop where
  opens : isOpening line = isOpening line'
  closes : isClosing line = isClosing line'
  names : name <:+: line ↔ name <:+: line'

/-- A line without a part in the search: it neither opens nor closes a section, shows no pattern
and names the function only if everything does. -/
structure Silent (name line : Text) : Prop where
  opens : isOpening line = false
  closes : isClosing line = false
  names : name <:+: line → name = []
  pays : ¬∃ p ∈ solidityPayoutPatterns, (withoutComments line).has p

theorem sameRole_margin {name margin : Text} (hname : ∀ c ∈ name, Text.isBlank c = false)
    (hblank : ∀ c ∈ margin, Text.isBlank c) (line : Text) :
    SameRole name line (margin ++ line) where
  opens := by
    rw [isOpening, isOpening, Bool.eq_iff_iff, Text.has_iff, Text.has_iff]
    exact (Text.infix_append_of_forall (by decide) hblank line).symm
  closes := by rw [isClosing, isClosing, Text.trim, Text.trim, Text.trimLeft_blank_append hblank]
  names := by
    refine (Text.infix_append_of_forall ?_ hblank line).symm
    cases hhead : name.head? with
    | none => rfl
    | some c => exact hname c (List.mem_of_head? hhead)

theorem silent_of_blank {name line : Text} (hname : ∀ c ∈ name, Text.isBlank c = false)
    (hblank : ∀ c ∈ line, Text.isBlank c) : Silent name line := by
  have hrole := sameRole_margin hname hblank []
  rw [List.append_nil] at hrole
  refine ⟨hrole.opens.symm, hrole.closes.symm, fun h => ?_, ?_⟩
  · exact List.infix_nil.mp (hrole.names.mpr h)
  · exact clearsLine_withoutComments.not_shows_blank solid_solidityPayoutPatterns hblank

structure SameSection (name : Text) (s s' : Section) : Prop where
  whole : s.code.WholeLines
  whole' : s'.code.WholeLines
  names : name <:+: s.code ↔ name <:+: s'.code
  pays : Shows withoutComments solidityPayoutPatterns s.code.lines ↔
    Shows withoutComments solidityPayoutPatterns s'.code.lines

theorem lines_append_line {code line : Text} (hcode : code.WholeLines) (hline : '\n' ∉ line) :
    Text.lines (code ++ line ++ ['\n']) = code.lines.dropLast ++ [line, []] ∧
      code.lines = code.lines.dropLast ++ [[]] := by
  constructor
  · have hlast : Text.lines (line ++ ['\n']) = [line, []] := by
      rw [Text.lines, Text.splitAt_append_sep, Text.splitAt_of_notMem hline]
      rfl
    rw [List.append_assoc, Text.lines_append hcode, hlast]
  · have hsplit := Text.lines_append hcode []
    rwa [List.append_nil] at hsplit

theorem names_append_line {name code line : Text} (hname : '\n' ∉ name) (hcode : code.WholeLines)
    (hline : '\n' ∉ line) :
    name <:+: code ++ line ++ ['\n'] ↔ name <:+: code ∨ name <:+: line := by
  obtain ⟨hlines, hsplit⟩ := lines_append_line hcode hline
  rw [Text.infix_iff_exists_line hname, Text.infix_iff_exists_line hname code, hlines, hsplit,
    List.dropLast_concat]
  simp only [List.mem_append, List.mem_cons, List.not_mem_nil, or_false, or_and_right, exists_or,
    exists_eq_left]
  rw [or_right_comm, or_assoc]

theorem shows_append_line {code line : Text} (hcode : code.WholeLines) (hline : '\n' ∉ line) :
    Shows withoutComments solidityPayoutPatterns (Text.lines (code ++ line ++ ['\n'])) ↔
      Shows withoutComments solidityPayoutPatterns code.lines ∨
        ∃ p ∈ solidityPayoutPatterns, (withoutComments line).has p := by
  obtain ⟨hlines, hsplit⟩ := lines_append_line hcode hline
  rw [hlines, hsplit, List.dropLast_concat]
  simp only [shows_append, shows_cons]
  rw [or_right_comm, or_assoc]

theorem wholeLines_concat (code line : Text) : WholeLines (code ++ line ++ ['\n']) :=
  .inr (List.isSuffixOf_iff_suffix.mpr (List.suffix_append (code ++ line) ['\n']))

section Step

variable {name : Text} {s s' : Section} {line line' : Text}

theorem SameSection.append (hname : '\n' ∉ name) (h : SameSection name s s')
    (hline : '\n' ∉ line) (hline' : '\n' ∉ line') (hrole : SameRole name line line')
    (hpays : (∃ p ∈ solidityPayoutPatterns, (withoutComments line).has p) ↔
      ∃ p ∈ solidityPayoutPatterns, (withoutComments line').has p) (n n' : Nat) :
    SameSection name ⟨s.code ++ line ++ ['\n'], n⟩ ⟨s'.code ++ line' ++ ['\n'], n'⟩ where
  whole := wholeLines_concat s.code line
  whole' := wholeLines_concat s'.code line'
  names := by
    rw [names_append_line hname h.whole hline, names_append_line hname h.whole' hline', h.names,
      hrole.names]
  pays := by rw [shows_append_line h.whole hline, shows_append_line h.whole' hline', h.pays, hpays]

theorem SameSection.append_silent (hname : '\n' ∉ name) (h : SameSection name s s')
    (hline : '\n' ∉ line) (hsilent : Silent name line) (n : Nat) :
    SameSection name s ⟨s'.code ++ line ++ ['\n'], n⟩ where
  whole := h.whole
  whole' := wholeLines_concat s'.code line
  names := by
    rw [names_append_line hname h.whole' hline, h.names]
    refine ⟨.inl, ?_⟩
    rintro (hold | hnew)
    · exact hold
    · rw [hsilent.names hnew]
      exact List.nil_infix
  pays := by rw [shows_append_line h.whole' hline, or_iff_left hsilent.pays, h.pays]

end Step

theorem SameSection.sectionPaysOut_eq {name : Text} {s s' : Section} (h : SameSection name s s') :
    sectionPaysOut name s = sectionPaysOut name s' := by
  rw [Bool.eq_iff_iff, sectionPaysOut_iff, sectionPaysOut_iff, h.names, h.pays]

/-- Two states of the search for sections that lead to one verdict. -/
structure SameSearch (name : Text) (s s' : Search) : Prop where
  found : s.found.any (sectionPaysOut name) = s'.found.any (sectionPaysOut name)
  current : Option.Rel (SameSection name) s.current s'.current

section Search

variable {name : Text} {s s' : Search}

theorem sameSection_empty (name : Text) (n n' : Nat) : SameSection name ⟨[], n⟩ ⟨[], n'⟩ :=
  ⟨.inl rfl, .inl rfl, Iff.rfl, Iff.rfl⟩

theorem SameSearch.step (hname : '\n' ∉ name) (h : SameSearch name s s') {line line' : Text}
    (hline : '\n' ∉ line) (hline' : '\n' ∉ line') (hrole : SameRole name line line')
    (hpays : (∃ p ∈ solidityPayoutPatterns, (withoutComments line).has p) ↔
      ∃ p ∈ solidityPayoutPatterns, (withoutComments line').has p) (n n' : Nat) :
    SameSearch name (s.step (line, n)) (s'.step (line', n')) := by
  obtain ⟨hfound, hcurrent⟩ := h
  rcases s with ⟨current, found⟩
  rcases s' with ⟨current', found'⟩
  rw [Search.step, Search.step, ← hrole.opens, ← hrole.closes]
  cases isOpening line with
  | true => exact ⟨hfound, .some (sameSection_empty name _ _)⟩
  | false =>
    cases hcurrent with
    | none => exact ⟨hfound, .none⟩
    | some hsection =>
      have hnext := SameSection.append hname hsection hline hline' hrole hpays
      cases isClosing line with
      | true =>
        refine ⟨?_, .none⟩
        change List.any (_ ++ [_]) _ = List.any (_ ++ [_]) _
        rw [List.any_append, List.any_append, hfound, List.any_cons, List.any_cons,
          (hnext _ _).sectionPaysOut_eq]
      | false => exact ⟨hfound, .some (hnext _ _)⟩

theorem SameSearch.step_silent (hname : '\n' ∉ name) (h : SameSearch name s s') {line : Text}
    (hline : '\n' ∉ line) (hsilent : Silent name line) (n : Nat) :
    SameSearch name s (s'.step (line, n)) := by
  obtain ⟨hfound, hcurrent⟩ := h
  rcases s with ⟨current, found⟩
  rcases s' with ⟨current', found'⟩
  rw [Search.step, hsilent.opens, hsilent.closes]
  cases hcurrent with
  | none => exact ⟨hfound, .none⟩
  | some hsection =>
    exact ⟨hfound, .some (SameSection.append_silent hname hsection hline hsilent _)⟩

theorem SameSearch.foldl (hname : '\n' ∉ name) (h : SameSearch name s s') {ls : List Text}
    (hls : ∀ l ∈ ls, '\n' ∉ l) (n n' : Nat) :
    SameSearch name ((ls.zipIdx n).foldl Search.step s) ((ls.zipIdx n').foldl Search.step s') := by
  induction ls generalizing s s' n n' with
  | nil => exact h
  | cons line ls ih =>
    rw [List.forall_mem_cons] at hls
    rw [List.zipIdx_cons, List.zipIdx_cons, List.foldl_cons, List.foldl_cons]
    exact ih (SameSearch.step hname h hls.1 hls.1 ⟨rfl, rfl, Iff.rfl⟩ Iff.rfl n n') hls.2
      (n + 1) (n' + 1)

end Search

theorem SameSearch.refl_empty (name : Text) : SameSearch name ⟨none, []⟩ ⟨none, []⟩ := ⟨rfl, .none⟩

/-- A change of the layout of a source leaves the payments of its sections alone, as long as no
line is changed in what it opens, closes and names. -/
theorem any_sections_edit {name : Text} (hname : ∀ c ∈ name, Text.isBlank c = false)
    {code code' : Text} (hedit : LayoutEdit (SameRole name) code.lines code'.lines) :
    (Solidity.sections code).any (sectionPaysOut name) =
      (Solidity.sections code').any (sectionPaysOut name) := by
  have hfeed : '\n' ∉ name := fun hmem => Bool.false_ne_true ((hname _ hmem).symm.trans (by decide))
  have hlines : ∀ l ∈ code.lines, '\n' ∉ l := fun l hl => Text.sep_notMem_of_mem_splitAt hl
  have hlines' : ∀ l ∈ code'.lines, '\n' ∉ l := fun l hl => Text.sep_notMem_of_mem_splitAt hl
  -- the lines above the change are the same, and those below count alike under other numbers
  have hreplace : ∀ {above below : List Text} {line line' : Text},
      code.lines = above ++ line :: below → code'.lines = above ++ line' :: below →
      SameRole name line line' →
      ((∃ p ∈ solidityPayoutPatterns, (withoutComments line).has p) ↔
        ∃ p ∈ solidityPayoutPatterns, (withoutComments line').has p) →
      (Solidity.sections code).any (sectionPaysOut name) =
        (Solidity.sections code').any (sectionPaysOut name) := by
    intro above below line line' heq heq' hrole hpays
    rw [heq, List.forall_mem_append, List.forall_mem_cons] at hlines
    rw [heq', List.forall_mem_append, List.forall_mem_cons] at hlines'
    rw [Solidity.sections, Solidity.sections, heq, heq', List.zipIdx_append, List.zipIdx_append,
      List.foldl_append, List.foldl_append, List.zipIdx_cons, List.zipIdx_cons, List.foldl_cons,
      List.foldl_cons]
    have habove := SameSearch.foldl hfeed (SameSearch.refl_empty name) hlines.1 0 0
    have hline := SameSearch.step hfeed habove hlines.2.1 hlines'.2.1 hrole hpays
    exact (SameSearch.foldl hfeed (hline _ _) hlines.2.2 _ _).found
  generalize hls : code.lines = ls at hedit
  generalize hls' : code'.lines = ls' at hedit
  cases hedit with
  | spacing hspacing =>
    cases hspacing with
    | indent above below line hblank =>
      refine hreplace hls hls' (sameRole_margin hname hblank line) ?_
      exact (clearsLine_withoutComments.shows_margin solid_solidityPayoutPatterns hblank line).symm
    | @blankLine above below line hblank =>
      rw [hls, List.forall_mem_append] at hlines
      rw [hls', List.forall_mem_append, List.forall_mem_cons] at hlines'
      rw [Solidity.sections, Solidity.sections, hls, hls', List.zipIdx_append, List.zipIdx_append,
        List.foldl_append, List.foldl_append, List.zipIdx_cons, List.foldl_cons]
      have habove := SameSearch.foldl hfeed (SameSearch.refl_empty name) hlines.1 0 0
      exact (SameSearch.foldl hfeed (SameSearch.step_silent hfeed habove hlines'.2.1
        (silent_of_blank hname hblank) _) hlines.2 _ _).found
  | comment above below line note note' hrole =>
    refine hreplace hls hls' hrole ?_
    rw [clearsLine_withoutComments.comment line note note']

/-- A function pays out iff one line of its text has a pattern before the mark of a comment, or a
section that names it has a line with a pattern in what is left of it without its comments. So
the layout of the function makes no difference. The layout of the source makes one only where a
comment has a say in the sections: by the name of the function, an opening or a closing brace. -/
theorem paysOut_by_line (name : Text) :
    (∀ text code, paysOut text name code ↔
      (∃ line ∈ text.lines, ∃ p ∈ payoutPatterns, (line.before "//").has p) ∨
      ∃ s ∈ Solidity.sections code, name <:+: s.code ∧
        ∃ line ∈ s.code.lines, ∃ p ∈ solidityPayoutPatterns,
          (withoutBlockComment (line.before "//")).has p) ∧
    (∀ text text' code, Relaid text text' → paysOut text name code = paysOut text' name code) ∧
    ((∀ c ∈ name, Text.isBlank c = false) → ∀ text code code', RelaidBy (SameRole name) code code' →
      paysOut text name code = paysOut text name code') := by
  refine ⟨?_, ?_, ?_⟩
  · intro text code
    rw [paysOut_iff]
    simp only [sectionPaysOut_iff]
    rfl
  · intro text text' code hrelaid
    refine RelaidBy.eq_of_edit (fun t => paysOut t name code) (fun t u hedit => ?_) hrelaid
    rw [Bool.eq_iff_iff, paysOut_iff, paysOut_iff,
      clearsLine_withoutLineComment.shows_edit solid_payoutPatterns hedit]
  · intro hname text code code' hrelaid
    refine RelaidBy.eq_of_edit (fun t => paysOut text name t) (fun t u hedit => ?_) hrelaid
    rw [paysOut, paysOut, any_sections_edit hname hedit]

/-- A function with another comment, a blank line and a margin, and a source with a margin and
another comment in its section. -/
theorem paysOut_by_line_relaid :
    let text := "fn w() \x7b\na.b(); // one\n\x7d".toList
    let text' := "fn w() \x7b\n\n  a.b(); // two\n\x7d".toList
    let code := "sol! \x7b\nfunction w() \x7b x.send(1); // a\n\x7d".toList
    let code' := "sol! \x7b\n  function w() \x7b x.send(1); // b\n\x7d".toList
    Relaid text text' ∧ RelaidBy (SameRole "w".toList) code code' ∧
      paysOut text' "w".toList code' = true := by
  intro text text' code code'
  have hmargin : ∀ c ∈ "  ".toList, Text.isBlank c := List.all_eq_true.mp (by decide)
  have htext : Relaid text text' := by
    let other := "fn w() \x7b\na.b(); // two\n\x7d".toList
    let moved := "fn w() \x7b\n  a.b(); // two\n\x7d".toList
    refine .trans text other text' (.rel text other ?_) (.trans other moved text'
      (.rel other moved ?_) (.rel moved text' ?_))
    · exact .comment ["fn w() \x7b".toList] ["\x7d".toList] "a.b(); ".toList " one".toList
        " two".toList trivial
    · exact .spacing (.indent ["fn w() \x7b".toList] ["\x7d".toList] "a.b(); // two".toList hmargin)
    · exact .spacing (.blankLine ["fn w() \x7b".toList]
        ["  a.b(); // two".toList, "\x7d".toList] (List.forall_mem_nil _))
  have hcode : RelaidBy (SameRole "w".toList) code code' := by
    let other := "sol! \x7b\nfunction w() \x7b x.send(1); // b\n\x7d".toList
    refine .trans code other code' (.rel code other ?_) (.rel other code' ?_)
    · refine .comment ["sol! \x7b".toList] ["\x7d".toList] "function w() \x7b x.send(1); ".toList
        " a".toList " b".toList ⟨by decide, by decide, ?_⟩
      rw [← Text.occurs_iff, ← Text.occurs_iff]
      decide
    · exact .spacing (.indent ["sol! \x7b".toList] ["\x7d".toList]
        "function w() \x7b x.send(1); // b".toList hmargin)
  refine ⟨htext, hcode, ?_⟩
  rw [← (paysOut_by_line "w".toList).2.1 text text' code' htext,
    ← (paysOut_by_line "w".toList).2.2 (List.forall_mem_singleton.mpr (by decide)) text code code'
      hcode]
  decide +kernel

/-- The three tests are needed: a comment can name the function, close the section or open a new
one, and the verdict is another. -/
theorem not_paysOut_of_relaid :
    let naming (note : String) : Text := ("sol! \x7b\nx.send(1); // " ++ note ++ "\n\x7d").toList
    let bracing (note : String) : Text :=
      ("sol! \x7b\nw // " ++ note ++ "\nx.send(1);\n\x7d").toList
    (Relaid (naming "a") (naming "w") ∧ paysOut [] "w".toList (naming "a") = false ∧
      paysOut [] "w".toList (naming "w") = true) ∧
    (Relaid (bracing "a") (bracing "\x7d") ∧ paysOut [] "w".toList (bracing "a") = true ∧
      paysOut [] "w".toList (bracing "\x7d") = false) ∧
    Relaid (bracing "a") (bracing "sol! \x7b") ∧
      paysOut [] "w".toList (bracing "sol! \x7b") = false := by
  intro naming bracing
  refine ⟨⟨.rel _ _ ?_, by decide +kernel, by decide +kernel⟩,
    ⟨.rel _ _ ?_, by decide +kernel, by decide +kernel⟩, .rel _ _ ?_, by decide +kernel⟩
  · exact .comment ["sol! \x7b".toList] ["\x7d".toList] "x.send(1); ".toList " a".toList
      " w".toList trivial
  · exact .comment ["sol! \x7b".toList] ["x.send(1);".toList, "\x7d".toList] "w ".toList
      " a".toList " \x7d".toList trivial
  · exact .comment ["sol! \x7b".toList] ["x.send(1);".toList, "\x7d".toList] "w ".toList
      " a".toList " sol! \x7b".toList trivial

end Detect.LockedEther
end ContractAudit

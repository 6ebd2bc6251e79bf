import ContractAudit.Text.Blank
import Mathlib.Data.List.Basic

/-! Searches, lines and slices, in particular of a text that has whole lines put in front: a
search for a pattern of one line does not see across a line feed, and positions move by the
length of what is in front. -/

namespace ContractAudit.Text

theorem occurs_iff (needle t : Text) : occurs needle t = true ↔ needle <:+: t := by
  induction t with
  | nil => rw [occurs, List.isEmpty_iff, List.infix_nil]
  | cons c t ih =>
    rw [occurs, Bool.or_eq_true, List.isPrefixOf_iff_prefix, ih, List.infix_cons_iff]

theorem has_iff (t : Text) (pattern : String) : t.has pattern = true ↔ pattern.toList <:+: t :=
  occurs_iff pattern.toList t

theorem has_of_infix {t u : Text} (h : t <:+: u) {pattern : String} (ht : t.has pattern) :
    u.has pattern := by
  rw [has_iff] at ht ⊢
  exact ht.trans h

theorem prefix_append_sep_iff {needle : Text} {sep : Char} (h : sep ∉ needle) (a b : Text) :
    needle <+: a ++ sep :: b ↔ needle <+: a := by
  induction a generalizing needle with
  | nil =>
    cases needle with
    | nil => simp only [List.nil_prefix]
    | cons x needle =>
      have hx : x ≠ sep := fun e => h (e ▸ List.mem_cons_self)
      simp only [List.nil_append, List.cons_prefix_cons, hx, false_and, List.prefix_nil,
        List.cons_ne_nil]
  | cons y a ih =>
    cases needle with
    | nil => simp only [List.nil_prefix]
    | cons x needle =>
      rw [List.cons_append, List.cons_prefix_cons, List.cons_prefix_cons,
        ih fun hm => h (List.mem_cons_of_mem x hm)]

theorem infix_append_sep_iff {needle : Text} {sep : Char} (h : sep ∉ needle) (a b : Text) :
    needle <:+: a ++ sep :: b ↔ needle <:+: a ∨ needle <:+: b := by
  induction a with
  | nil =>
    have hprefix := prefix_append_sep_iff h [] b
    rw [List.nil_append] at hprefix ⊢
    rw [List.infix_cons_iff, hprefix, List.prefix_nil, List.infix_nil]
  | cons x a ih =>
    rw [List.cons_append, List.infix_cons_iff, ← List.cons_append, prefix_append_sep_iff h, ih,
      List.infix_cons_iff, or_assoc]

theorem occurs_append_newline {needle : Text} (h : '\n' ∉ needle) (a b : Text) :
    occurs needle (a ++ '\n' :: b) = (occurs needle a || occurs needle b) := by
  rw [Bool.eq_iff_iff, Bool.or_eq_true, occurs_iff, occurs_iff, occurs_iff]
  exact infix_append_sep_iff h a b

theorem infix_dropWhile_iff {needle : Text} {test : Char → Bool}
    (h : needle.head?.any test = false) (t : Text) :
    needle <:+: t.dropWhile test ↔ needle <:+: t := by
  refine ⟨fun hinfix => hinfix.trans (List.dropWhile_suffix test).isInfix, ?_⟩
  induction t with
  | nil => exact id
  | cons c t ih =>
    intro hinfix
    by_cases hc : test c
    · rw [List.dropWhile_cons_of_pos hc]
      rcases List.infix_cons_iff.mp hinfix with hprefix | hinfix
      · rcases List.prefix_cons_iff.mp hprefix with rfl | ⟨rest, rfl, -⟩
        · exact List.nil_infix
        · exact absurd hc (Bool.eq_false_iff.mp h)
      · exact ih hinfix
    · rwa [List.dropWhile_cons_of_neg hc]

theorem infix_append_of_forall {needle : Text} {test : Char → Bool}
    (h : needle.head?.any test = false) {a : Text} (ha : ∀ c ∈ a, test c) (t : Text) :
    needle <:+: a ++ t ↔ needle <:+: t := by
  rw [← infix_dropWhile_iff h (a ++ t), List.dropWhile_append_of_pos ha, infix_dropWhile_iff h]

theorem infix_joinWith_iff {needle : Text} (hne : needle ≠ []) {sep : Char} (hsep : sep ∉ needle)
    (pieces : List Text) :
    needle <:+: joinWith [sep] pieces ↔ ∃ piece ∈ pieces, needle <:+: piece := by
  induction pieces using joinWith.induct with
  | case1 => simp only [joinWith, List.infix_nil, hne, List.not_mem_nil, false_and, exists_false]
  | case2 piece => simp only [joinWith, List.mem_singleton, exists_eq_left]
  | case3 piece more hmore ih =>
    rw [joinWith.eq_3 _ _ _ hmore, List.append_assoc, List.singleton_append,
      infix_append_sep_iff hsep, ih]
    simp only [List.mem_cons, exists_eq_or_imp]

theorem occurs_trim {needle : Text} (hfirst : needle.head?.any isBlank = false)
    (hlast : needle.getLast?.any isBlank = false) (t : Text) :
    occurs needle t.trim = occurs needle t := by
  rw [← List.head?_reverse] at hlast
  rw [Bool.eq_iff_iff, occurs_iff, occurs_iff, trim, trimRight, ← List.reverse_infix,
    List.reverse_reverse, infix_dropWhile_iff hlast, List.reverse_infix, trimLeft,
    infix_dropWhile_iff hfirst]

theorem splitAt_ne_nil (sep : Char) (t : Text) : splitAt sep t ≠ [] := by
  cases t with
  | nil => exact List.cons_ne_nil _ _
  | cons c t =>
    rw [splitAt]
    split
    · exact List.cons_ne_nil _ _
    · split <;> exact List.cons_ne_nil _ _

theorem splitAt_cons_sep (sep : Char) (t : Text) :
    splitAt sep (sep :: t) = [] :: splitAt sep t := if_pos rfl

theorem splitAt_cons_of_ne {sep c : Char} (h : c ≠ sep) (t : Text) :
    splitAt sep (c :: t) = (splitAt sep t).modifyHead (c :: ·) := by
  rw [splitAt, if_neg h]
  cases hsplit : splitAt sep t with
  | nil => exact absurd hsplit (splitAt_ne_nil sep t)
  | cons piece more => rfl

theorem exists_splitAt_cons {sep c : Char} (h : c ≠ sep) (t : Text) :
    ∃ first more, splitAt sep t = first :: more ∧
      splitAt sep (c :: t) = (c :: first) :: more := by
  obtain ⟨first, more, hsplit⟩ := List.exists_cons_of_ne_nil (splitAt_ne_nil sep t)
  refine ⟨first, more, hsplit, ?_⟩
  rw [splitAt_cons_of_ne h, hsplit, List.modifyHead_cons]

theorem splitAt_append_sep (sep : Char) (a b : Text) :
    splitAt sep (a ++ sep :: b) = splitAt sep a ++ splitAt sep b := by
  induction a with
  | nil =>
    rw [List.nil_append, splitAt_cons_sep]
    rfl
  | cons c a ih =>
    by_cases hc : c = sep
    · rw [List.cons_append, splitAt, if_pos hc, ih, splitAt, if_pos hc, List.cons_append]
    · obtain ⟨first, more, hsplit, hcons⟩ := exists_splitAt_cons hc a
      rw [List.cons_append, splitAt_cons_of_ne hc, ih, hsplit, hcons, List.cons_append,
        List.cons_append, List.modifyHead_cons]

theorem splitAt_of_notMem {sep : Char} {t : Text} (h : sep ∉ t) : splitAt sep t = [t] := by
  induction t with
  | nil => rfl
  | cons c t ih =>
    have hc : c ≠ sep := fun e => h (e ▸ List.mem_cons_self)
    rw [splitAt_cons_of_ne hc, ih fun hm => h (List.mem_cons_of_mem c hm), List.modifyHead_cons]

theorem length_splitAt (sep : Char) (t : Text) : (splitAt sep t).length = t.count sep + 1 := by
  induction t with
  | nil => rfl
  | cons c t ih =>
    by_cases hc : c = sep
    · rw [splitAt, if_pos hc, List.length_cons, ih, hc, List.count_cons_self]
    · rw [splitAt_cons_of_ne hc, List.length_modifyHead, ih, List.count_cons_of_ne hc]

theorem sep_notMem_of_mem_splitAt {sep : Char} {t piece : Text} (h : piece ∈ splitAt sep t) :
    sep ∉ piece := by
  induction t generalizing piece with
  | nil =>
    rw [splitAt, List.mem_singleton] at h
    exact h ▸ List.not_mem_nil
  | cons c t ih =>
    by_cases hc : c = sep
    · rw [splitAt, if_pos hc] at h
      rcases List.mem_cons.mp h with rfl | h
      · exact List.not_mem_nil
      · exact ih h
    · obtain ⟨first, more, hsplit, hcons⟩ := exists_splitAt_cons hc t
      rw [hcons] at h
      rw [hsplit] at ih
      rcases List.mem_cons.mp h with rfl | h
      · intro hm
        rcases List.mem_cons.mp hm with rfl | hm
        · exact hc rfl
        · exact ih List.mem_cons_self hm
      · exact ih (List.mem_cons_of_mem first h)

theorem prefix_of_splitAt_eq_cons {sep : Char} {t piece : Text} {more : List Text}
    (h : splitAt sep t = piece :: more) : piece <+: t := by
  induction t generalizing piece more with
  | nil =>
    cases h
    exact List.nil_prefix
  | cons c t ih =>
    by_cases hc : c = sep
    · rw [splitAt, if_pos hc] at h
      cases h
      exact List.nil_prefix
    · obtain ⟨first, rest, hsplit, hcons⟩ := exists_splitAt_cons hc t
      rw [hcons] at h
      cases h
      exact List.cons_prefix_cons.mpr ⟨rfl, ih hsplit⟩

theorem infix_of_mem_splitAt {sep : Char} {t piece : Text} (h : piece ∈ splitAt sep t) :
    piece <:+: t := by
  induction t generalizing piece with
  | nil =>
    rw [splitAt, List.mem_singleton] at h
    exact h ▸ List.infix_rfl
  | cons c t ih =>
    by_cases hc : c = sep
    · rw [splitAt, if_pos hc] at h
      rcases List.mem_cons.mp h with rfl | h
      · exact List.nil_infix
      · exact List.infix_cons (ih h)
    · obtain ⟨first, more, hsplit, hcons⟩ := exists_splitAt_cons hc t
      rw [hcons] at h
      rcases List.mem_cons.mp h with rfl | h
      -- the first piece goes on to the left, which the hypothesis about pieces does not say
      · exact (List.cons_prefix_cons.mpr ⟨rfl, prefix_of_splitAt_eq_cons hsplit⟩).isInfix
      · exact List.infix_cons (ih (hsplit ▸ List.mem_cons_of_mem first h))

theorem length_lines (t : Text) : t.lines.length = t.count '\n' + 1 := length_splitAt '\n' t

theorem lines_flatMap {ls : List Text} (h : ∀ line ∈ ls, '\n' ∉ line) :
    Text.lines (ls.flatMap (· ++ ['\n'])) = ls ++ [[]] := by
  induction ls with
  | nil => rfl
  | cons line ls ih =>
    rw [List.forall_mem_cons] at h
    rw [List.flatMap_cons, List.append_assoc, List.singleton_append, lines, splitAt_append_sep,
      splitAt_of_notMem h.1, List.cons_append]
    exact congrArg (line :: ·) (ih h.2)

def lineAt (t : Text) (n : Nat) : Text := t.lines.getD (n - 1) []

def WholeLines (p : Text) : Prop := p = [] ∨ p.endsWith "\n" = true

theorem WholeLines.cases {p : Text} (h : p.WholeLines) : p = [] ∨ ∃ q, p = q ++ ['\n'] := by
  rcases h with h | h
  · exact .inl h
  · obtain ⟨q, hq⟩ := List.isSuffixOf_iff_suffix.mp h
    exact .inr ⟨q, hq.symm⟩

theorem WholeLines.eq_nil_of_suffix {p s : Text} (h : p.WholeLines) (hs : s <:+ p)
    (hfeed : '\n' ∉ s) : s = [] := by
  rcases h.cases with rfl | ⟨q, rfl⟩
  · exact List.suffix_nil.mp hs
  · rcases List.suffix_concat_iff.mp hs with rfl | ⟨t, rfl, -⟩
    · rfl
    · exact absurd (List.mem_append_right t List.mem_cons_self) hfeed

theorem WholeLines.append_newline {p : Text} (h : p.WholeLines) (t : Text) :
    (t ++ '\n' :: p).WholeLines := by
  refine .inr (List.isSuffixOf_iff_suffix.mpr ?_)
  rcases h.cases with rfl | ⟨q, rfl⟩
  · exact List.suffix_append t ['\n']
  · exact ⟨t ++ '\n' :: q, List.append_assoc t _ _⟩

theorem lines_append {p : Text} (h : p.WholeLines) (t : Text) :
    (p ++ t).lines = p.lines.dropLast ++ t.lines := by
  rcases h.cases with rfl | ⟨q, rfl⟩
  · rfl
  · have hq : (q ++ ['\n']).lines = q.lines ++ [[]] := splitAt_append_sep '\n' q []
    rw [hq, List.dropLast_concat, List.append_assoc, List.singleton_append]
    exact splitAt_append_sep '\n' q t

theorem exists_wholeLines_append (t : Text) :
    ∃ above start : Text, t = above ++ start ∧ above.WholeLines ∧ '\n' ∉ start := by
  induction t with
  | nil => exact ⟨[], [], rfl, .inl rfl, List.not_mem_nil⟩
  | cons c t ih =>
    obtain ⟨above, start, rfl, habove, hstart⟩ := ih
    rcases habove.cases with rfl | ⟨q, rfl⟩
    · by_cases hc : c = '\n'
      · subst hc
        exact ⟨['\n'], start, rfl, .inr rfl, hstart⟩
      · exact ⟨[], c :: start, rfl, .inl rfl,
          List.not_mem_cons_of_ne_of_not_mem (Ne.symm hc) hstart⟩
    · refine ⟨c :: q ++ ['\n'], start, rfl, .inr ?_, hstart⟩
      exact List.isSuffixOf_iff_suffix.mpr (List.suffix_append (c :: q) ['\n'])

/-- A line is a piece without a line feed that has whole lines above it and ends with a line feed or
with the text. -/
theorem mem_lines_iff {t line : Text} :
    line ∈ t.lines ↔ '\n' ∉ line ∧ ∃ above below : Text, t = above ++ (line ++ below) ∧
      above.WholeLines ∧ (below = [] ∨ ∃ more, below = '\n' :: more) := by
  constructor
  · intro h
    refine ⟨sep_notMem_of_mem_splitAt h, ?_⟩
    induction hlength : t.length using Nat.strongRecOn generalizing t with
    | ind n ih =>
      by_cases hfeed : '\n' ∈ t
      · obtain ⟨first, rest, rfl, hfirst⟩ := List.eq_append_cons_of_mem hfeed
        rw [lines, splitAt_append_sep, splitAt_of_notMem hfirst, List.singleton_append] at h
        rcases List.mem_cons.mp h with rfl | h
        · exact ⟨[], _, rfl, .inl rfl, .inr ⟨rest, rfl⟩⟩
        · have hshorter : rest.length < n := by
            rw [← hlength, List.length_append, List.length_cons]
            omega
          obtain ⟨above, below, hrest, habove, hbelow⟩ := ih rest.length hshorter h rfl
          refine ⟨first ++ '\n' :: above, below, ?_, habove.append_newline first, hbelow⟩
          rw [hrest, List.append_assoc, List.cons_append]
      · rw [lines, splitAt_of_notMem hfeed, List.mem_singleton] at h
        exact ⟨[], [], by rw [h, List.append_nil, List.nil_append], .inl rfl, .inl rfl⟩
  · rintro ⟨hline, above, below, rfl, habove, hbelow⟩
    rw [lines_append habove]
    refine List.mem_append_right _ ?_
    rcases hbelow with rfl | ⟨more, rfl⟩
    · rw [List.append_nil, lines, splitAt_of_notMem hline]
      exact List.mem_cons_self
    · rw [lines, splitAt_append_sep, splitAt_of_notMem hline]
      exact List.mem_cons_self

theorem head?_dropWhile (test : Char → Bool) (t : Text) :
    (t.dropWhile test).head?.any test = false := by
  have hhead := List.head?_dropWhile_not test t
  cases hdrop : (t.dropWhile test).head? with
  | none => rfl
  | some c =>
    rw [hdrop] at hhead
    exact hhead

theorem dropWhile_newline (t : Text) :
    t.dropWhile (· ≠ '\n') = [] ∨ ∃ more, t.dropWhile (· ≠ '\n') = '\n' :: more := by
  have hhead := head?_dropWhile (· ≠ '\n') t
  cases hdrop : t.dropWhile (· ≠ '\n') with
  | nil => exact .inl rfl
  | cons c more =>
    rw [hdrop] at hhead
    have hfeed : c = '\n' := by simpa using hhead
    exact .inr ⟨more, by rw [hfeed]⟩

theorem exists_line_around {above start piece : Text} (habove : above.WholeLines)
    (hstart : '\n' ∉ start) (hpiece : '\n' ∉ piece) (rest : Text) :
    ∃ more, start ++ (piece ++ more) ∈ Text.lines (above ++ start ++ (piece ++ rest)) := by
  refine ⟨rest.takeWhile (· ≠ '\n'),
    mem_lines_iff.mpr ⟨?_, above, rest.dropWhile (· ≠ '\n'), ?_, habove, dropWhile_newline rest⟩⟩
  · simp only [List.mem_append, not_or]
    refine ⟨hstart, hpiece, fun hmem => ?_⟩
    simpa using List.all_eq_true.mp List.all_takeWhile _ hmem
  · simp only [List.append_assoc, List.takeWhile_append_dropWhile]

theorem infix_iff_exists_line {needle : Text} (h : '\n' ∉ needle) (t : Text) :
    needle <:+: t ↔ ∃ line ∈ t.lines, needle <:+: line := by
  constructor
  · rintro ⟨a, b, rfl⟩
    obtain ⟨above, start, rfl, habove, hstart⟩ := exists_wholeLines_append a
    obtain ⟨more, hmem⟩ := exists_line_around habove hstart h b
    rw [← List.append_assoc] at hmem
    exact ⟨_, hmem, start, more, List.append_assoc start needle more⟩
  · rintro ⟨line, hline, hinfix⟩
    exact hinfix.trans (infix_of_mem_splitAt hline)

theorem length_dropLast_lines (p : Text) : p.lines.dropLast.length = p.count '\n' := by
  rw [List.length_dropLast, length_lines, Nat.add_sub_cancel]

theorem occurs_append {p needle : Text} (h : p.WholeLines) (hneedle : '\n' ∉ needle)
    (hp : occurs needle p = false) (t : Text) : occurs needle (p ++ t) = occurs needle t := by
  rcases h.cases with rfl | ⟨q, rfl⟩
  · rfl
  · rw [occurs_append_newline hneedle, Bool.or_eq_false_iff] at hp
    rw [List.append_assoc, List.singleton_append, occurs_append_newline hneedle, hp.1,
      Bool.false_or]

theorem place_add (size : Nat) (n : Nat) {i : Int} (h : 0 ≤ i) :
    place (n + size) (i + n) = n + place size i := by
  unfold place
  rw [if_neg (by omega), if_neg (by omega)]
  omega

theorem upTo_append (p t : Text) {stop : Int} (h : 0 ≤ stop) :
    (p ++ t).upTo (stop + p.length) = p ++ t.upTo stop := by
  rw [upTo, upTo, List.length_append, place_add _ _ h, List.take_length_add_append]

theorem slice_append (p t : Text) {start stop : Int} (hstart : 0 ≤ start) (hstop : 0 ≤ stop) :
    (p ++ t).slice (start + p.length) (stop + p.length) = t.slice start stop := by
  rw [slice, slice, List.length_append, place_add _ _ hstart, place_add _ _ hstop,
    List.take_length_add_append, List.drop_length_add_append]

end ContractAudit.Text

import ContractAudit.Proofs.Text.Lines
import ContractAudit.Text.Word

/-! Texts that are cut at a separator, trimmed, or cleared of a word, when they are known piece by
piece: blanks at the ends go, and what has no blank at an end and no piece of the word stays. -/

namespace ContractAudit.Text

theorem isSome_cut? (sep t : Text) : (cut? sep t).isSome = occurs sep t := by
  induction t with
  | nil =>
    rw [cut?, occurs]
    cases sep.isEmpty <;> rfl
  | cons c t ih =>
    rw [cut?, occurs, ← ih]
    cases sep.isPrefixOf (c :: t) with
    | true => rfl
    | false =>
      rw [if_neg Bool.false_ne_true, Option.isSome_map, Bool.false_or]

theorem before_of_not_has {mark : String} {t : Text} (h : ¬t.has mark = true) :
    t.before mark = t := by
  rw [has, ← isSome_cut?, Option.not_isSome_iff_eq_none] at h
  rw [before, h]

theorem length_le_of_cut? {sep t a b : Text} (h : cut? sep t = some (a, b)) :
    sep.length ≤ t.length := by
  have hoccurs : occurs sep t = true := by rw [← isSome_cut?, h, Option.isSome_some]
  exact ((occurs_iff sep t).mp hoccurs).length_le

theorem cut?_append_right {sep t a b : Text} (h : cut? sep t = some (a, b)) (u : Text) :
    cut? sep (t ++ u) = some (a, b ++ u) := by
  induction t generalizing a with
  | nil =>
    obtain rfl := List.eq_nil_of_length_eq_zero (Nat.le_zero.mp (length_le_of_cut? h))
    cases h
    cases u <;> rfl
  | cons c t ih =>
    have hlength := length_le_of_cut? h
    rw [cut?] at h
    rw [List.cons_append, cut?, ← List.cons_append]
    by_cases hstarts : sep.isPrefixOf (c :: t) = true
    · have hfront := List.isPrefixOf_iff_prefix.mp hstarts
      rw [if_pos hstarts] at h
      cases h
      rw [if_pos (List.isPrefixOf_iff_prefix.mpr (hfront.trans (List.prefix_append _ u))),
        List.drop_append_of_le_length hlength]
    · -- a separator that starts here would have to end in what follows
      have hstarts' : ¬sep.isPrefixOf (c :: t ++ u) = true := by
        rw [List.isPrefixOf_iff_prefix] at hstarts ⊢
        intro hlonger
        exact hstarts (List.prefix_of_prefix_length_le hlonger (List.prefix_append _ u) hlength)
      rw [if_neg hstarts] at h
      rw [if_neg hstarts']
      obtain ⟨⟨a', b'⟩, hcut, heq⟩ := Option.map_eq_some_iff.mp h
      cases heq
      rw [ih hcut, Option.map_some]

theorem before_append_right {sep : String} {t : Text} (h : t.has sep) (u : Text) :
    Text.before (t ++ u) sep = t.before sep := by
  rw [has, ← isSome_cut?] at h
  obtain ⟨⟨a, b⟩, hcut⟩ := Option.isSome_iff_exists.mp h
  rw [before, before, hcut, cut?_append_right hcut]

theorem eq_of_cut? {sep t a b : Text} (h : cut? sep t = some (a, b)) : t = a ++ sep ++ b := by
  induction t generalizing a with
  | nil =>
    obtain rfl := List.eq_nil_of_length_eq_zero (Nat.le_zero.mp (length_le_of_cut? h))
    cases h
    rfl
  | cons c t ih =>
    rw [cut?] at h
    split at h
    · next hstarts =>
      cases h
      obtain ⟨rest, hrest⟩ := List.isPrefixOf_iff_prefix.mp hstarts
      rw [← hrest, List.drop_left, List.nil_append]
    · obtain ⟨⟨a', b'⟩, hcut, heq⟩ := Option.map_eq_some_iff.mp h
      cases heq
      rw [ih hcut]
      rfl

theorem not_infix_of_cut? {sep t a b : Text} (hne : sep ≠ []) (h : cut? sep t = some (a, b)) :
    ¬sep <:+: a := by
  induction t generalizing a with
  | nil =>
    obtain rfl := List.eq_nil_of_length_eq_zero (Nat.le_zero.mp (length_le_of_cut? h))
    exact absurd rfl hne
  | cons c t ih =>
    rw [cut?] at h
    split at h
    · cases h
      rwa [List.infix_nil]
    · next hstarts =>
      obtain ⟨⟨a', b'⟩, hcut, heq⟩ := Option.map_eq_some_iff.mp h
      cases heq
      rw [List.infix_cons_iff, not_or]
      refine ⟨fun hprefix => hstarts (List.isPrefixOf_iff_prefix.mpr ?_), ih hcut⟩
      rw [eq_of_cut? hcut, List.append_assoc]
      exact hprefix.trans (List.cons_prefix_cons.mpr ⟨rfl, List.prefix_append a' _⟩)

theorem before_prefix (t : Text) (sep : String) : t.before sep <+: t := by
  rw [before]
  split
  · next a b hcut =>
    rw [eq_of_cut? hcut, List.append_assoc]
    exact List.prefix_append a _
  · exact List.prefix_rfl

theorem not_infix_before {sep : String} (hne : sep.toList ≠ []) (t : Text) :
    ¬sep.toList <:+: t.before sep := by
  rw [before]
  split
  · next a b hcut => exact not_infix_of_cut? hne hcut
  · next hcut =>
    rw [← occurs_iff, ← isSome_cut?, hcut]
    exact Bool.false_ne_true

theorem cut?_append_left {x : Char} {xs a : Text} (h : x ∉ a) (t : Text) :
    cut? (x :: xs) (a ++ t) = (cut? (x :: xs) t).map fun parts => (a ++ parts.1, parts.2) := by
  induction a with
  | nil => simp
  | cons c a ih =>
    have hne : ¬(x :: xs).isPrefixOf (c :: (a ++ t)) = true := by
      rw [List.isPrefixOf_iff_prefix, List.cons_prefix_cons]
      exact fun hfirst => h (hfirst.1 ▸ List.mem_cons_self)
    rw [List.cons_append, cut?, if_neg hne, ih fun hmem => h (List.mem_cons_of_mem c hmem)]
    cases cut? (x :: xs) t <;> rfl

theorem cut?_append {x : Char} {xs a : Text} (h : x ∉ a) (b : Text) :
    cut? (x :: xs) (a ++ (x :: xs) ++ b) = some (a, b) := by
  have hstarts : (x :: xs).isPrefixOf (x :: (xs ++ b)) = true :=
    List.isPrefixOf_iff_prefix.mpr (List.prefix_append (x :: xs) b)
  have hfront : cut? (x :: xs) (x :: xs ++ b) = some ([], b) := by
    rw [List.cons_append, cut?, hstarts, if_pos rfl, ← List.cons_append, List.drop_left]
  rw [List.append_assoc, cut?_append_left h, hfront, Option.map_some, List.append_nil]

theorem before_append {sep : String} {x : Char} {xs a : Text} (hsep : sep.toList = x :: xs)
    (h : x ∉ a) (b : Text) : Text.before (a ++ sep.toList ++ b) sep = a := by
  rw [before, hsep, cut?_append h]

theorem after_append {sep : String} {x : Char} {xs a : Text} (hsep : sep.toList = x :: xs)
    (h : x ∉ a) (b : Text) : Text.after (a ++ sep.toList ++ b) sep = b := by
  rw [after, hsep, cut?_append h]

theorem before_append_left {sep : String} {x : Char} {xs a : Text} (hsep : sep.toList = x :: xs)
    (h : x ∉ a) (t : Text) : Text.before (a ++ t) sep = a ++ t.before sep := by
  rw [before, before, hsep, cut?_append_left h]
  cases cut? (x :: xs) t <;> rfl

theorem cut?_append_apart {x : Char} {xs a piece : Text} (ha : ¬x :: xs <:+: a) (hne : piece ≠ [])
    (hpiece : ∀ c ∈ piece, c ∉ x :: xs) (b : Text) :
    cut? (x :: xs) (a ++ (piece ++ b)) =
      (cut? (x :: xs) b).map fun parts => (a ++ (piece ++ parts.1), parts.2) := by
  induction a with
  | nil => exact cut?_append_left (fun hx => hpiece x hx List.mem_cons_self) b
  | cons c a ih =>
    rw [List.infix_cons_iff, not_or] at ha
    have hnot : ¬(x :: xs).isPrefixOf (c :: (a ++ (piece ++ b))) = true := by
      obtain ⟨d, piece, rfl⟩ := List.exists_cons_of_ne_nil hne
      rw [List.isPrefixOf_iff_prefix]
      exact fun h => ha.1 ((prefix_append_sep_iff (hpiece d List.mem_cons_self) (c :: a) _).mp h)
    rw [List.cons_append, cut?, if_neg hnot, ih ha.2]
    cases cut? (x :: xs) b <;> rfl

/-- A piece that shares no character with the separator occurs before the separator iff it has a
place with no separator in front. -/
theorem infix_before_iff {sep : String} {x : Char} {xs piece : Text} (hsep : sep.toList = x :: xs)
    (hne : piece ≠ []) (hpiece : ∀ c ∈ piece, c ∉ sep.toList) (t : Text) :
    piece <:+: t.before sep ↔ ∃ a b, t = a ++ (piece ++ b) ∧ ¬sep.toList <:+: a := by
  constructor
  · rintro ⟨a, b, hbefore⟩
    obtain ⟨rest, hrest⟩ := before_prefix t sep
    refine ⟨a, b ++ rest, ?_, fun ha => ?_⟩
    · rw [← hrest, ← hbefore, List.append_assoc, List.append_assoc]
    · refine not_infix_before (hsep ▸ List.cons_ne_nil x xs) t (ha.trans ?_)
      rw [← hbefore, List.append_assoc]
      exact (List.prefix_append a _).isInfix
  · rintro ⟨a, b, rfl, ha⟩
    rw [hsep] at ha hpiece
    rw [before, hsep, cut?_append_apart ha hne hpiece]
    cases cut? (x :: xs) b with
    | none => exact ⟨a, b, List.append_assoc a piece b⟩
    | some parts => exact ⟨a, parts.1, List.append_assoc a piece parts.1⟩

theorem after_append_left {sep : String} {x : Char} {xs a : Text} (hsep : sep.toList = x :: xs)
    (h : x ∉ a) (t : Text) : Text.after (a ++ t) sep = t.after sep := by
  rw [after, after, hsep, cut?_append_left h]
  cases cut? (x :: xs) t <;> rfl

theorem notMem_of_isBlank {x : Char} {a : Text} (hx : isBlank x = false)
    (ha : ∀ c ∈ a, isBlank c) : x ∉ a := by
  intro hmem
  rw [ha x hmem] at hx
  cases hx

section Trim

variable {needle a t : Text}

theorem trimLeft_append (h : t.trimLeft ≠ []) (rest : Text) :
    trimLeft (t ++ rest) = t.trimLeft ++ rest := by
  rw [trimLeft, List.dropWhile_append, if_neg]
  · rfl
  · rw [List.isEmpty_iff]
    exact h

theorem trimLeft_blank_append (ha : ∀ c ∈ a, isBlank c) (t : Text) :
    trimLeft (a ++ t) = t.trimLeft :=
  List.dropWhile_append_of_pos ha

theorem trimRight_append_blank (ha : ∀ c ∈ a, isBlank c) (t : Text) :
    trimRight (t ++ a) = t.trimRight := by
  have hreverse : ∀ c ∈ a.reverse, isBlank c := fun c hc => ha c (List.mem_reverse.mp hc)
  rw [trimRight, List.reverse_append, List.dropWhile_append_of_pos hreverse, trimRight]

theorem trimLeft_of_head? (h : t.head?.any isBlank = false) : t.trimLeft = t := by
  cases t with
  | nil => rfl
  | cons c t =>
    apply List.dropWhile_cons_of_neg
    rw [Bool.not_eq_true]
    exact h

theorem trimRight_of_getLast? (h : t.getLast?.any isBlank = false) : t.trimRight = t := by
  rw [← List.head?_reverse] at h
  have hkeep : t.reverse.dropWhile isBlank = t.reverse := trimLeft_of_head? h
  rw [trimRight, hkeep, List.reverse_reverse]

theorem trimRight_append (ha : a.getLast?.any isBlank = false) (t : Text) :
    trimRight (a ++ t) = a ++ t.trimRight := by
  have hkeep : a.reverse.dropWhile isBlank = a.reverse := by
    rw [← List.head?_reverse] at ha
    exact trimLeft_of_head? ha
  rw [trimRight, trimRight, List.reverse_append, List.dropWhile_append, hkeep]
  split
  · next hblank =>
    rw [List.isEmpty_iff.mp hblank, List.reverse_reverse, List.reverse_nil, List.append_nil]
  · rw [List.reverse_append, List.reverse_reverse]

theorem trim_of_unblank (h : ∀ c ∈ t, isBlank c = false) : t.trim = t := by
  have hfirst : t.head?.any isBlank = false := by
    cases hhead : t.head? with
    | none => rfl
    | some c => exact h c (List.mem_of_head? hhead)
  have hlast : t.getLast?.any isBlank = false := by
    cases hgetLast : t.getLast? with
    | none => rfl
    | some c => exact h c (List.mem_of_getLast? hgetLast)
  rw [trim, trimLeft_of_head? hfirst, trimRight_of_getLast? hlast]

theorem prefix_trim_iff (hlast : needle.getLast?.any isBlank = false) (t : Text) :
    needle <+: t.trim ↔ needle <+: t.trimLeft := by
  have hsuffix : t.trimLeft.reverse.dropWhile isBlank <:+ t.trimLeft.reverse :=
    List.dropWhile_suffix isBlank
  rw [← List.head?_reverse] at hlast
  have hkeep : needle.reverse.dropWhile isBlank = needle.reverse := trimLeft_of_head? hlast
  constructor
  · intro h
    have htrim : t.trim <+: t.trimLeft := by
      rw [trim, trimRight, ← List.reverse_suffix, List.reverse_reverse]
      exact hsuffix
    exact h.trans htrim
  · rintro ⟨rest, hrest⟩
    rw [trim, trimRight, ← hrest, List.reverse_append, List.dropWhile_append, hkeep]
    split
    · refine ⟨[], ?_⟩
      rw [List.append_nil, List.reverse_reverse]
    · rw [List.reverse_append, List.reverse_reverse]
      exact List.prefix_append _ _

end Trim

section Remove

variable {pattern t : Text}

theorem removeFrom_eq_drop (pattern : Text) (skip : Nat) (t : Text) :
    removeFrom pattern skip t = removeFrom pattern 0 (t.drop skip) := by
  induction t generalizing skip with
  | nil => simp only [removeFrom, List.drop_nil]
  | cons c t ih =>
    cases skip with
    | zero => rfl
    | succ skip => rw [removeFrom, ih, List.drop_succ_cons]

theorem removeFrom_pattern_append (hne : pattern ≠ []) (t : Text) :
    removeFrom pattern 0 (pattern ++ t) = removeFrom pattern 0 t := by
  cases pattern with
  | nil => exact absurd rfl hne
  | cons c pattern =>
    have hstarts : (c :: pattern).isPrefixOf (c :: (pattern ++ t)) = true :=
      List.isPrefixOf_iff_prefix.mpr (List.prefix_append (c :: pattern) t)
    rw [List.cons_append, removeFrom, if_pos hstarts, removeFrom_eq_drop, List.length_cons,
      Nat.add_sub_cancel, List.drop_left]

theorem removeFrom_append {a : Text} {x : Char} (ha : x ∉ a) (xs t : Text) :
    removeFrom (x :: xs) 0 (a ++ t) = a ++ removeFrom (x :: xs) 0 t := by
  induction a with
  | nil => rfl
  | cons c a ih =>
    have hne : ¬(x :: xs).isPrefixOf (c :: (a ++ t)) = true := by
      rw [List.isPrefixOf_iff_prefix, List.cons_prefix_cons]
      exact fun hfirst => ha (hfirst.1 ▸ List.mem_cons_self)
    rw [List.cons_append, removeFrom, if_neg hne, ih fun hmem => ha (List.mem_cons_of_mem c hmem),
      List.cons_append]

theorem removeFrom_of_not_occurs (h : ¬occurs pattern t = true) : removeFrom pattern 0 t = t := by
  induction t with
  | nil => rfl
  | cons c t ih =>
    rw [occurs, Bool.or_eq_true, not_or] at h
    rw [removeFrom, if_neg h.1, ih h.2]

theorem removeFrom_append_of_head? {a : Text} (ha : ¬occurs pattern a = true)
    (ht : ∀ c ∈ t.head?, c ∉ pattern) :
    removeFrom pattern 0 (a ++ t) = a ++ removeFrom pattern 0 t := by
  induction a with
  | nil => rfl
  | cons c a ih =>
    rw [occurs, Bool.or_eq_true, not_or, List.isPrefixOf_iff_prefix] at ha
    have hne : ¬pattern.isPrefixOf (c :: (a ++ t)) = true := by
      rw [List.isPrefixOf_iff_prefix, ← List.cons_append]
      cases t with
      | nil =>
        rw [List.append_nil]
        exact ha.1
      | cons d t =>
        rw [prefix_append_sep_iff (ht d rfl)]
        exact ha.1
    rw [List.cons_append, removeFrom, if_neg hne, ih ha.2, List.cons_append]

theorem removeFrom_subset (pattern : Text) (skip : Nat) (t : Text) :
    removeFrom pattern skip t ⊆ t := by
  induction t generalizing skip with
  | nil => exact List.Subset.refl []
  | cons c t ih =>
    cases skip with
    | succ skip => exact fun x hx => List.mem_cons_of_mem c (ih skip hx)
    | zero =>
      rw [removeFrom]
      split
      · exact fun x hx => List.mem_cons_of_mem c (ih _ hx)
      · exact List.cons_subset_cons c (ih 0)

end Remove

theorem isBlank_of_isWordPart {c : Char} (h : isWordPart c) : isBlank c = false := by
  let blanks := List.range' 0x09 5 ++ List.range' 0x1C 5 ++ List.range' 0x2000 11 ++
    [0x85, 0xA0, 0x1680, 0x2028, 0x2029, 0x202F, 0x205F, 0x3000]
  have hblanks : ∀ n ∈ blanks, isWordPart (Char.ofNat n) = false := by decide +kernel
  by_contra hblank
  rw [Bool.not_eq_false] at hblank
  have hmem : c.toNat ∈ blanks := by
    simp only [isBlank, Bool.or_eq_true, Bool.and_eq_true, decide_eq_true_eq] at hblank
    simp only [blanks, List.mem_append, List.mem_range'_1, List.mem_cons, List.not_mem_nil]
    omega
  have hnot := hblanks c.toNat hmem
  rw [Char.ofNat_toNat, h] at hnot
  cases hnot

end ContractAudit.Text

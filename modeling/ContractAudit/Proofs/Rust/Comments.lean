import ContractAudit.Proofs.Text.Lines
import ContractAudit.Rust.Lexeme
import Mathlib.Data.List.TakeWhile

/-! The comments of a source, as the lexer reads them: literals and words are passed over as a
whole, so a mark inside a string starts no comment. A line comment goes on to the end of its line.
In a source without quotes and block comments every mark of a line comment is one or stands in
one. -/

namespace ContractAudit.Rust

structure Comment where
  first : Cursor
  stop : Cursor

/-- The position behind the lexeme at a position that is no comment: a literal with quotes or a word
as a whole, anything else by the character. -/
def lexemeEnd (c : Cursor) : Cursor :=
  (rawLiteralEnd c <|> stringLiteralEnd c <|> charLiteralEnd c).getD
    (c.skip (max 1 (wordLength c.rest)))

/-- The comments from a position on; each lexeme takes one step. -/
def commentsFrom : Nat → Cursor → List Comment
  | 0, _ => []
  | fuel + 1, c =>
    match comment? c with
    | some (_, stop) => ⟨c, stop⟩ :: commentsFrom fuel stop
    | none => commentsFrom fuel (lexemeEnd c)

def comments (source : Text) : List Comment := commentsFrom source.length (.start source)

example : (comments "f(\"//\", '\"', r#\"/*\"#); /* a /* b */ c */ // d\n".toList).map
    (fun k => k.first.rest.take (k.first.left - k.stop.left)) =
      ["/* a /* b */ c */".toList, "// d".toList] := by
  decide +kernel

namespace Comment

def IsBlock (k : Comment) : Prop := ∃ rest, k.first.rest = '/' :: '*' :: rest

def Covers (k : Comment) (tail : Text) : Prop := tail <:+ k.first.rest ∧ ¬tail <:+ k.stop.rest

instance (k : Comment) (tail : Text) : Decidable (k.Covers tail) :=
  inferInstanceAs (Decidable (_ ∧ _))

end Comment

def Commented (source tail : Text) : Prop := ∃ k ∈ comments source, k.Covers tail

instance (source tail : Text) : Decidable (Commented source tail) :=
  inferInstanceAs (Decidable (∃ k ∈ comments source, k.Covers tail))

def BehindMark (lead : Text) : Prop := ∃ a b, lead = a ++ '/' :: '/' :: b ∧ '\n' ∉ b

namespace Cursor

theorem rest_next (c : Cursor) : c.next.rest = c.rest.tail := by
  obtain ⟨rest, left, byte, row⟩ := c
  cases rest <;> rfl

theorem rest_skip (n : Nat) (c : Cursor) : (c.skip n).rest = c.rest.drop n := by
  induction n generalizing c with
  | zero => rfl
  | succ n ih => rw [skip, ih, rest_next, List.drop_tail]

theorem rest_skipWhile (test : Char → Bool) (c : Cursor) :
    (c.skipWhile test).rest = c.rest.dropWhile test := by
  calc (c.skipWhile test).rest
      = c.rest.drop (c.rest.takeWhile test).length := rest_skip _ c
    _ = (c.rest.takeWhile test ++ c.rest.dropWhile test).drop (c.rest.takeWhile test).length := by
      rw [List.takeWhile_append_dropWhile]
    _ = c.rest.dropWhile test := List.drop_left

theorem next_suffix (c : Cursor) : c.next.rest <:+ c.rest := by
  rw [rest_next]
  exact List.tail_suffix _

theorem skip_suffix (n : Nat) (c : Cursor) : (c.skip n).rest <:+ c.rest := by
  rw [rest_skip]
  exact List.drop_suffix _ _

end Cursor

section Ends

/-! No lexeme ends before it starts. -/

open Cursor

variable {c stop : Cursor}

theorem suffix_of_blockCommentEnd {fuel depth : Nat} {star : Bool}
    (h : blockCommentEnd fuel depth star c = some stop) : stop.rest <:+ c.rest := by
  fun_induction blockCommentEnd fuel depth star c
  case case1 | case2 => cases h
  case case4 =>
    cases h
    exact next_suffix _
  case case6 ih => exact (ih h).trans ((next_suffix _).trans (next_suffix _))
  case case3 ih | case5 ih | case7 ih | case8 ih => exact (ih h).trans (next_suffix _)

theorem suffix_of_stringEnd {fuel : Nat} (h : stringEnd fuel c = some stop) :
    stop.rest <:+ c.rest := by
  fun_induction stringEnd fuel c
  case case1 | case2 => cases h
  case case3 =>
    cases h
    exact next_suffix _
  case case4 ih => exact (ih h).trans (skip_suffix 2 _)
  case case5 ih => exact (ih h).trans (next_suffix _)

theorem suffix_of_rawStringEnd {hashes fuel : Nat} (h : rawStringEnd hashes fuel c = some stop) :
    stop.rest <:+ c.rest := by
  fun_induction rawStringEnd hashes fuel c
  case case1 | case2 => cases h
  case case3 =>
    cases h
    exact skip_suffix _ _
  case case4 ih => exact (ih h).trans (skip_suffix _ _)
  case case5 ih => exact (ih h).trans (next_suffix _)

theorem rawLiteralEnd_eq_some (h : rawLiteralEnd c = some stop) :
    ∃ quote : Cursor, quote.rest <:+ c.rest ∧ '"' ∈ quote.rest ∧
      ∃ hashes fuel, rawStringEnd hashes fuel quote.next = some stop := by
  unfold rawLiteralEnd at h
  split at h
  · dsimp only at h
    split at h
    · next rest hrest =>
      exact ⟨_, (skip_suffix _ _).trans (skip_suffix 2 c), hrest ▸ List.mem_cons_self, _, _, h⟩
    · cases h
  · dsimp only at h
    split at h
    · next rest hrest =>
      exact ⟨_, (skip_suffix _ _).trans (next_suffix c), hrest ▸ List.mem_cons_self, _, _, h⟩
    · cases h
  · cases h

theorem suffix_of_rawLiteralEnd (h : rawLiteralEnd c = some stop) : stop.rest <:+ c.rest := by
  obtain ⟨quote, hquote, -, hashes, fuel, hend⟩ := rawLiteralEnd_eq_some h
  exact (suffix_of_rawStringEnd hend).trans ((next_suffix quote).trans hquote)

theorem suffix_of_stringLiteralEnd (h : stringLiteralEnd c = some stop) :
    stop.rest <:+ c.rest := by
  unfold stringLiteralEnd at h
  split at h
  · exact (suffix_of_stringEnd h).trans (next_suffix c)
  · exact (suffix_of_stringEnd h).trans (skip_suffix 2 c)
  · cases h

theorem suffix_of_charEscapeEnd (h : charEscapeEnd c = some stop) : stop.rest <:+ c.rest := by
  unfold charEscapeEnd at h
  split at h
  · dsimp only at h
    split at h
    · cases h
      rw [rest_next, rest_skipWhile]
      exact (List.tail_suffix _).trans ((List.dropWhile_suffix _).trans (skip_suffix 2 c))
    · cases h
  · split at h
    · cases h
      exact skip_suffix 5 c
    · cases h
  · split at h
    · cases h
      exact skip_suffix 3 c
    · cases h
  · cases h
    exact next_suffix c
  · cases h

theorem suffix_of_charBodyEnd (h : charBodyEnd c = some stop) : stop.rest <:+ c.rest := by
  unfold charBodyEnd at h
  split at h
  · cases h
    exact skip_suffix 2 c
  · obtain ⟨quote, hquote, hclose⟩ := Option.bind_eq_some_iff.mp h
    have hstop : stop.rest <:+ quote.rest := by
      unfold closeChar at hclose
      split at hclose
      · cases hclose
        exact next_suffix quote
      · cases hclose
    exact hstop.trans ((suffix_of_charEscapeEnd hquote).trans (skip_suffix 2 c))
  · cases h
    exact skip_suffix 3 c
  · cases h

theorem suffix_of_charLiteralEnd (h : charLiteralEnd c = some stop) : stop.rest <:+ c.rest := by
  unfold charLiteralEnd at h
  split at h
  · exact (suffix_of_charBodyEnd h).trans (next_suffix c)
  · exact suffix_of_charBodyEnd h

theorem suffix_lexemeEnd (c : Cursor) : (lexemeEnd c).rest <:+ c.rest := by
  unfold lexemeEnd
  cases hraw : rawLiteralEnd c with
  | some stop => exact suffix_of_rawLiteralEnd hraw
  | none =>
    cases hstring : stringLiteralEnd c with
    | some stop => exact suffix_of_stringLiteralEnd hstring
    | none =>
      cases hchar : charLiteralEnd c with
      | some stop => exact suffix_of_charLiteralEnd hchar
      | none => exact skip_suffix _ c

theorem comment?_eq_some {n : Node} (h : comment? c = some (n, stop)) :
    stop.rest <:+ c.rest ∧
      ((∃ rest, c.rest = '/' :: '/' :: rest ∧ stop.rest = rest.dropWhile (· ≠ '\n')) ∨
        ∃ rest, c.rest = '/' :: '*' :: rest) := by
  unfold comment? at h
  split at h
  · next rest hrest =>
    cases h
    have hstop := rest_skipWhile (· ≠ '\n') c
    refine ⟨hstop ▸ List.dropWhile_suffix _, .inl ⟨rest, hrest, ?_⟩⟩
    rw [hstop, hrest]
    rfl
  · next rest hrest =>
    obtain ⟨e, he, heq⟩ := Option.map_eq_some_iff.mp h
    cases heq
    exact ⟨(suffix_of_blockCommentEnd he).trans (skip_suffix 2 c), .inr ⟨rest, hrest⟩⟩
  · cases h

end Ends

theorem mem_commentsFrom {fuel : Nat} {c : Cursor} {k : Comment} (h : k ∈ commentsFrom fuel c) :
    k.first.rest <:+ c.rest ∧ ∃ n, comment? k.first = some (n, k.stop) := by
  induction fuel generalizing c with
  | zero => cases h
  | succ fuel ih =>
    rw [commentsFrom] at h
    split at h
    · next n stop hcomment =>
      rcases List.mem_cons.mp h with rfl | h
      · exact ⟨List.suffix_rfl, n, hcomment⟩
      · obtain ⟨hsuffix, hk⟩ := ih h
        exact ⟨hsuffix.trans (comment?_eq_some hcomment).1, hk⟩
    · obtain ⟨hsuffix, hk⟩ := ih h
      exact ⟨hsuffix.trans (suffix_lexemeEnd c), hk⟩

theorem mem_comments {source : Text} {k : Comment} (h : k ∈ comments source) :
    k.first.rest <:+ source ∧ ∃ n, comment? k.first = some (n, k.stop) := mem_commentsFrom h

section Places

variable {source lead tail : Text} {k : Comment}

theorem line_or_isBlock (h : k ∈ comments source) :
    (∃ rest, k.first.rest = '/' :: '/' :: rest ∧ k.stop.rest = rest.dropWhile (· ≠ '\n')) ∨
      k.IsBlock := by
  obtain ⟨-, n, hcomment⟩ := mem_comments h
  exact (comment?_eq_some hcomment).2

/-- A place in a line comment, other than at its mark, has the mark before it on its line. -/
theorem behindMark_of_covers (hk : k ∈ comments source) (hline : ¬k.IsBlock)
    (hcovers : k.Covers tail) (hsource : source = lead ++ tail) (htail : tail.head? ≠ some '/') :
    BehindMark lead := by
  obtain ⟨rest, hfirst, hstop⟩ := (line_or_isBlock hk).resolve_right hline
  obtain ⟨⟨u, hu⟩, hbehind⟩ := hcovers
  obtain ⟨w, hw⟩ := (mem_comments hk).1
  have hlead : lead = w ++ u := by
    rw [← List.append_left_inj tail, ← hsource, ← hw, ← hu, List.append_assoc]
  rw [hfirst] at hu
  match u with
  | [] =>
    obtain rfl : tail = '/' :: '/' :: rest := hu
    exact absurd rfl htail
  | [x] =>
    obtain rfl : tail = '/' :: rest := (List.cons.inj hu).2
    exact absurd rfl htail
  | x :: y :: b =>
    obtain ⟨rfl, hrest⟩ := List.cons.inj hu
    obtain ⟨rfl, rfl⟩ := List.cons.inj hrest
    refine ⟨w, b, hlead, fun hmem => hbehind ?_⟩
    -- a line feed before the place would have ended the comment
    have hne : b.dropWhile (· ≠ '\n') ≠ [] := by
      rw [ne_eq, List.dropWhile_eq_nil_iff]
      intro hall
      exact absurd (hall '\n' hmem) (by decide)
    rw [hstop, List.append_eq, List.dropWhile_append, if_neg (by rwa [List.isEmpty_iff])]
    exact List.suffix_append _ tail

theorem covers_of_first_eq (hk : k ∈ comments source) {b : Text} (hb : '\n' ∉ b)
    (hne : tail ≠ []) (htail : tail.head? ≠ some '\n')
    (hfirst : k.first.rest = '/' :: '/' :: b ++ tail) : k.Covers tail := by
  have hline : ¬k.IsBlock := by
    rintro ⟨rest, hrest⟩
    rw [hrest] at hfirst
    exact absurd (List.cons.inj (List.cons.inj hfirst).2).1 (by decide)
  obtain ⟨rest, hrest, hstop⟩ := (line_or_isBlock hk).resolve_right hline
  obtain rfl : b ++ tail = rest := by
    rw [hfirst] at hrest
    exact (List.cons.inj (List.cons.inj hrest).2).2
  refine ⟨hfirst ▸ List.suffix_append _ tail, fun hsuffix => ?_⟩
  obtain ⟨x, tail, rfl⟩ := List.exists_cons_of_ne_nil hne
  have hx : (x :: tail).dropWhile (· ≠ '\n') = tail.dropWhile (· ≠ '\n') :=
    List.dropWhile_cons_of_pos (decide_eq_true fun h => htail (congrArg some h))
  have hunbroken : ∀ y ∈ b, decide (y ≠ '\n') = true :=
    fun y hy => decide_eq_true fun h => hb (h ▸ hy)
  rw [hstop, List.dropWhile_append_of_pos hunbroken, hx] at hsuffix
  have hlength := (hsuffix.trans (List.dropWhile_suffix _)).length_le
  rw [List.length_cons] at hlength
  omega

end Places

structure Plain (t : Text) : Prop where
  quote : '"' ∉ t
  tick : '\'' ∉ t
  block : ¬['/', '*'] <:+: t

theorem Plain.of_suffix {t u : Text} (h : Plain t) (hsuffix : u <:+ t) : Plain u :=
  ⟨fun hmem => h.quote (hsuffix.subset hmem), fun hmem => h.tick (hsuffix.subset hmem),
    fun hblock => h.block (hblock.trans hsuffix.isInfix)⟩

theorem Plain.not_isBlock {source : Text} {k : Comment} (h : Plain source)
    (hk : k ∈ comments source) : ¬k.IsBlock := by
  rintro ⟨rest, hrest⟩
  have hmark : ['/', '*'] <+: k.first.rest := hrest ▸ List.prefix_append ['/', '*'] rest
  exact h.block (hmark.isInfix.trans (mem_comments hk).1.isInfix)

section Plain

variable {c : Cursor}

theorem Plain.lexemeEnd_eq (h : Plain c.rest) :
    lexemeEnd c = c.skip (max 1 (wordLength c.rest)) := by
  have hraw : rawLiteralEnd c = none := by
    refine Option.eq_none_iff_forall_ne_some.mpr fun stop hstop => ?_
    obtain ⟨quote, hquote, hmem, -⟩ := rawLiteralEnd_eq_some hstop
    exact h.quote (hquote.subset hmem)
  have hstring : stringLiteralEnd c = none := by
    unfold stringLiteralEnd
    split
    · next hrest => exact absurd (hrest ▸ List.mem_cons_self) h.quote
    · next hrest => exact absurd (hrest ▸ .tail _ List.mem_cons_self) h.quote
    · rfl
  have hbody : charBodyEnd c = none := by
    unfold charBodyEnd
    split
    · next hrest => exact absurd (hrest ▸ List.mem_cons_self) h.tick
    · next hrest => exact absurd (hrest ▸ List.mem_cons_self) h.tick
    · next hrest => exact absurd (hrest ▸ List.mem_cons_self) h.tick
    · rfl
  have hchar : charLiteralEnd c = none := by
    unfold charLiteralEnd
    split
    · next hrest => exact absurd (hrest ▸ .tail _ List.mem_cons_self) h.tick
    · exact hbody
  rw [lexemeEnd, hraw, hstring, hchar]
  rfl

theorem slash_notMem_word (s : Text) : '/' ∉ s.take (wordLength s) := by
  have hparts : ∀ rest : Text,
      '/' ∉ rest.take (rest.takeWhile Text.isWordPart).length := by
    intro rest hmem
    rw [← List.prefix_iff_eq_take.mp (List.takeWhile_prefix _)] at hmem
    exact absurd (List.mem_takeWhile_imp hmem) (by decide)
  have hstart : ∀ x, Text.isWordStart x = true → '/' ≠ x := by
    rintro x hx rfl
    exact absurd hx (by decide)
  unfold wordLength
  split
  · next x rest =>
    split
    · next hx =>
      rw [Nat.add_comm, List.take_succ_cons, List.take_succ_cons, List.take_succ_cons]
      simp only [List.mem_cons, not_or]
      exact ⟨by decide, by decide, hstart x hx, hparts rest⟩
    · exact List.not_mem_cons_of_ne_of_not_mem (by decide) List.not_mem_nil
  · next x rest _ =>
    split
    · next hx =>
      rw [Nat.add_comm, List.take_succ_cons]
      exact List.not_mem_cons_of_ne_of_not_mem (hstart x hx) (hparts rest)
    · exact List.not_mem_nil
  · exact List.not_mem_nil

theorem wordLength_le {s a t : Text} (h : s = a ++ '/' :: t) : wordLength s ≤ a.length := by
  by_contra hlong
  apply slash_notMem_word s
  rw [h] at hlong ⊢
  rw [List.take_append, List.take_of_length_le (by omega)]
  obtain ⟨n, hn⟩ := Nat.exists_eq_add_of_lt (Nat.lt_of_not_le hlong)
  rw [hn, Nat.add_assoc, Nat.add_sub_cancel_left]
  exact List.mem_append_right a List.mem_cons_self

theorem exists_mark_behind {a b x w : Text} (h : a ++ '/' :: '/' :: b = x ++ w)
    (hw : w.head? = some '\n') (hb : '\n' ∉ b) : ∃ a', w = a' ++ '/' :: '/' :: b := by
  rcases List.append_eq_append_iff.mp h with ⟨u, -, hu⟩ | ⟨u, -, hu⟩
  · have hmem : '\n' ∈ '/' :: '/' :: b := hu ▸ List.mem_append_right u (List.mem_of_head? hw)
    simp only [List.mem_cons, hb, or_false] at hmem
    exact absurd hmem (by decide)
  · exact ⟨u, hu⟩

theorem exists_mark_on_later_line {rest a b tail : Text}
    (h : '/' :: '/' :: rest = a ++ '/' :: '/' :: b ++ tail) (hb : '\n' ∉ b) (hne : tail ≠ [])
    (htail : tail.head? ≠ some '\n') (hlater : tail <:+ rest.dropWhile (· ≠ '\n')) :
    ∃ a', rest.dropWhile (· ≠ '\n') = a' ++ '/' :: '/' :: b ++ tail := by
  obtain ⟨w, hw⟩ := hlater
  have hfeed : (w ++ tail).head? = some '\n' := by
    rcases Text.dropWhile_newline rest with hnil | ⟨more, hmore⟩
    · rw [← hw] at hnil
      exact absurd (List.append_eq_nil_iff.mp hnil).2 hne
    · rw [hw, hmore]
      rfl
  have hfeed' : w.head? = some '\n' := by
    cases w with
    | nil => exact absurd hfeed htail
    | cons y w => exact hfeed
  have hsplit : a ++ '/' :: '/' :: b = '/' :: '/' :: rest.takeWhile (· ≠ '\n') ++ w := by
    rw [← List.append_left_inj tail, ← h, List.append_assoc, hw, List.cons_append,
      List.cons_append, List.takeWhile_append_dropWhile]
  obtain ⟨a', rfl⟩ := exists_mark_behind hsplit hfeed' hb
  exact ⟨a', hw.symm⟩

/-- Behind the mark of a line comment a plain source is in a comment up to the end of the line. -/
theorem exists_covers_of_mark {fuel : Nat} (hfuel : c.rest.length ≤ fuel) (hplain : Plain c.rest)
    {a b tail : Text} (hrest : c.rest = a ++ '/' :: '/' :: b ++ tail) (hb : '\n' ∉ b)
    (hne : tail ≠ []) (htail : tail.head? ≠ some '\n') :
    ∃ k ∈ commentsFrom fuel c, k.Covers tail := by
  -- each lexeme before the mark is passed over, and what is read ahead of it shrinks
  induction fuel generalizing c a with
  | zero =>
    rw [hrest, List.length_append, List.length_append, List.length_cons] at hfuel
    omega
  | succ fuel ih =>
    rw [commentsFrom]
    split
    · next n stop hcomment =>
      obtain ⟨hsuffix, ⟨rest, hfirst, hstop⟩ | ⟨rest, hfirst⟩⟩ := comment?_eq_some hcomment
      · by_cases hlater : tail <:+ stop.rest
        · have hshort : stop.rest.length ≤ fuel := by
            have hlength := (List.dropWhile_suffix (· ≠ '\n') : _ <:+ rest).length_le
            rw [hfirst, List.length_cons, List.length_cons] at hfuel
            rw [hstop]
            omega
          rw [hstop] at hlater
          obtain ⟨a', ha'⟩ :=
            exists_mark_on_later_line (hfirst.symm.trans hrest) hb hne htail hlater
          obtain ⟨k, hk, hcovers⟩ := ih hshort (hplain.of_suffix hsuffix) (hstop.trans ha')
          exact ⟨k, .tail _ hk, hcovers⟩
        · exact ⟨_, List.mem_cons_self, hrest ▸ List.suffix_append _ tail, hlater⟩
      · exact absurd (hfirst ▸ (List.prefix_append ['/', '*'] rest).isInfix) hplain.block
    · next hcomment =>
      have ha : a ≠ [] := by
        rintro rfl
        simp [comment?, hrest] at hcomment
      have hword : max 1 (wordLength c.rest) ≤ a.length := by
        have hle := wordLength_le (hrest.trans (List.append_assoc _ _ _))
        have hpos := List.length_pos_iff.mpr ha
        omega
      have hend := (congrArg Cursor.rest hplain.lexemeEnd_eq).trans (Cursor.rest_skip _ c)
      have hnext : (lexemeEnd c).rest =
          a.drop (max 1 (wordLength c.rest)) ++ '/' :: '/' :: b ++ tail := by
        rw [hend]
        generalize max 1 (wordLength c.rest) = n at hword
        rw [hrest, List.append_assoc, List.drop_append_of_le_length hword, List.append_assoc]
      have hshort : (lexemeEnd c).rest.length ≤ fuel := by
        rw [hend, List.length_drop]
        omega
      exact ih hshort (hplain.of_suffix (suffix_lexemeEnd c)) hnext

end Plain

theorem Plain.commented {source lead tail : Text} (h : Plain source)
    (hsource : source = lead ++ tail) (hmark : BehindMark lead) (hne : tail ≠ [])
    (htail : tail.head? ≠ some '\n') : Commented source tail := by
  obtain ⟨a, b, rfl, hb⟩ := hmark
  exact exists_covers_of_mark (Nat.le_refl source.length) h hsource hb hne htail

end ContractAudit.Rust

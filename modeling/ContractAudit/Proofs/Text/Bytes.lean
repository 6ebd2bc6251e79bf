import ContractAudit.Proofs.Text.Lines

/-! Sizes of texts in bytes against their lengths in characters. A byte offset that is taken as a
position among characters points too far by the drift of the text before it: the bytes that the
text has beyond one for each character. -/

namespace ContractAudit.Text

def size (t : Text) : Nat := (String.ofList t).utf8ByteSize

theorem size_append (a b : Text) : (a ++ b).size = a.size + b.size := by
  rw [size, String.ofList_append, String.utf8ByteSize_append]
  rfl

theorem size_singleton (c : Char) : size [c] = c.utf8Size := by
  simp [size]

theorem size_cons (c : Char) (t : Text) : size (c :: t) = c.utf8Size + t.size := by
  rw [← List.singleton_append, size_append, size_singleton]

theorem length_le_size (t : Text) : t.length ≤ t.size := by
  induction t with
  | nil => exact Nat.zero_le _
  | cons c t ih =>
    have hc := c.utf8Size_pos
    rw [List.length_cons, size_cons]
    omega

def drift (t : Text) : Nat := t.size - t.length

theorem size_eq_length_add_drift (t : Text) : t.size = t.length + t.drift := by
  have h := t.length_le_size
  rw [drift]
  omega

theorem drift_append (a b : Text) : (a ++ b).drift = a.drift + b.drift := by
  have ha := a.length_le_size
  have hb := b.length_le_size
  simp only [drift, size_append, List.length_append]
  omega

theorem drift_eq_zero_iff (t : Text) : t.drift = 0 ↔ ∀ c ∈ t, c.val ≤ 127 := by
  induction t with
  | nil => simp [drift, size]
  | cons c t ih =>
    have hpos := c.utf8Size_pos
    have hlength := length_le_size t
    rw [List.forall_mem_cons, ← ih, ← Char.utf8Size_eq_one_iff]
    simp only [drift, size_cons, List.length_cons]
    omega

def LeadsOnce : Text → Prop
  | [] => False
  | c :: w => c ∉ w

instance : (word : Text) → Decidable word.LeadsOnce
  | [] => inferInstanceAs (Decidable False)
  | c :: w => inferInstanceAs (Decidable (c ∉ w))

/-- Such a word does not overlap itself: in a text that starts with a copy of the word it is found
at the copy or after its end. -/
theorem prefix_drop_append_iff {word : Text} (hword : word.LeadsOnce) (rest : Text) (d : Nat) :
    word <+: (word ++ rest).drop d ↔
      d = 0 ∨ word.length ≤ d ∧ word <+: rest.drop (d - word.length) := by
  rcases Nat.eq_zero_or_pos d with rfl | hpos
  · simp
  · by_cases hd : word.length ≤ d
    · rw [List.drop_append, List.drop_of_length_le hd, List.nil_append]
      simp [hd, Nat.ne_of_gt hpos]
    · constructor
      · intro hstarts
        cases word with
        | nil => exact hword.elim
        | cons c w =>
          -- the text starts inside the copy, behind its first character
          obtain ⟨k, rfl⟩ : ∃ k, d = k + 1 := ⟨d - 1, by omega⟩
          rw [List.length_cons] at hd
          have hk : k < w.length := by omega
          rw [List.cons_append, List.drop_succ_cons,
            List.drop_append_of_le_length (Nat.le_of_lt hk), List.drop_eq_getElem_cons hk,
            List.cons_append, List.cons_prefix_cons] at hstarts
          exact absurd (hstarts.1 ▸ List.getElem_mem hk) hword
      · intro h
        omega

theorem slice_eq_take_drop {t : Text} {start stop : Nat} (h : stop ≤ t.length) :
    t.slice start stop = (t.drop start).take (stop - start) := by
  have hplace : ∀ i : Nat, place t.length i = min i t.length := by
    intro i
    rw [place, if_neg (by omega), Int.toNat_natCast]
  rw [slice, hplace, hplace, Nat.min_eq_left h]
  rcases Nat.le_total start t.length with hstart | hstart
  · rw [Nat.min_eq_left hstart, List.drop_take]
  · rw [Nat.min_eq_right hstart, List.drop_take, List.drop_of_length_le hstart,
      List.drop_length, List.take_nil, List.take_nil]

end ContractAudit.Text

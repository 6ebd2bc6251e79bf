import ContractAudit.Text.Blank
import Mathlib.Data.List.Basic

/-! Rows of a text. A row has no break in it, and a piece without a break stands in one row: what
is before the piece decides which row that is, and what is behind it goes on in the same row. -/

namespace ContractAudit.Text

def Unbroken (t : Text) : Prop := ∀ c ∈ t, isBreak c = false

theorem unbroken_iff (t : Text) : t.Unbroken ↔ t.any isBreak = false := by
  simp only [Unbroken, List.any_eq_false, Bool.not_eq_true]

instance (t : Text) : Decidable t.Unbroken := decidable_of_iff _ (unbroken_iff t).symm

theorem rows_cons_of_not_break {c : Char} (hc : isBreak c = false) (t : Text) :
    rows (c :: t) = (c :: (rows t).headD []) :: (rows t).tail := by
  have hreturn : c ≠ '\r' := by
    rintro rfl
    exact absurd hc (by decide)
  rw [rows.eq_3 c t fun _ h _ => hreturn h, if_neg (by rw [hc]; decide)]
  cases rows t with
  | nil => rfl
  | cons row more => rfl

theorem rows_cons_of_break {c : Char} (hc : isBreak c = true) {t : Text}
    (hpair : c = '\r' → t.head? ≠ some '\n') : rows (c :: t) = [] :: rows t := by
  rw [rows.eq_3 c t, if_pos hc]
  rintro rest hreturn rfl
  exact hpair hreturn rfl

theorem unbroken_of_mem_rows {t row : Text} (h : row ∈ rows t) : row.Unbroken := by
  induction t using rows.induct generalizing row with
  | case1 => cases h
  | case2 rest ih =>
    rw [rows] at h
    rcases List.mem_cons.mp h with rfl | h
    · exact List.forall_mem_nil _
    · exact ih h
  | case3 c rest hpair hc ih =>
    rw [rows.eq_3 c rest hpair, if_pos hc] at h
    rcases List.mem_cons.mp h with rfl | h
    · exact List.forall_mem_nil _
    · exact ih h
  | case4 c rest hpair hc hrows ih =>
    rw [rows_cons_of_not_break (Bool.eq_false_iff.mpr hc), hrows] at h
    obtain rfl := List.mem_singleton.mp h
    exact List.forall_mem_singleton.mpr (Bool.eq_false_iff.mpr hc)
  | case5 c rest hpair hc first more hrows ih =>
    rw [rows_cons_of_not_break (Bool.eq_false_iff.mpr hc), hrows] at h
    rw [hrows] at ih
    rcases List.mem_cons.mp h with rfl | h
    · exact List.forall_mem_cons.mpr ⟨Bool.eq_false_iff.mpr hc, ih List.mem_cons_self⟩
    · exact ih (List.mem_cons_of_mem first h)

theorem rows_unbroken_append {t : Text} (hne : t ≠ []) (ht : t.Unbroken) (rest : Text) :
    rows (t ++ rest) = (t ++ (rows rest).headD []) :: (rows rest).tail := by
  induction t with
  | nil => exact absurd rfl hne
  | cons c t ih =>
    obtain ⟨hc, ht⟩ := List.forall_mem_cons.mp ht
    rw [List.cons_append, rows_cons_of_not_break hc]
    cases t with
    | nil => rfl
    | cons d t =>
      rw [ih (List.cons_ne_nil d t) ht]
      rfl

theorem rows_around_cons {c : Char} (hc : isBreak c = false) {lead piece start : Text}
    {above : List Text}
    (h : ∀ rest, rows (lead ++ piece ++ rest) =
      above ++ (start ++ piece ++ (rows rest).headD []) :: (rows rest).tail) :
    ∃ above start, ∀ rest, rows (c :: lead ++ piece ++ rest) =
      above ++ (start ++ piece ++ (rows rest).headD []) :: (rows rest).tail := by
  cases above with
  | nil =>
    refine ⟨[], c :: start, fun rest => ?_⟩
    rw [List.cons_append, List.cons_append, rows_cons_of_not_break hc, h]
    rfl
  | cons first above =>
    refine ⟨(c :: first) :: above, start, fun rest => ?_⟩
    rw [List.cons_append, List.cons_append, rows_cons_of_not_break hc, h]
    rfl

theorem rows_around {piece : Text} (hne : piece ≠ []) (hpiece : piece.Unbroken) (lead : Text) :
    ∃ above start, ∀ rest, rows (lead ++ piece ++ rest) =
      above ++ (start ++ piece ++ (rows rest).headD []) :: (rows rest).tail := by
  induction lead using rows.induct with
  | case1 => exact ⟨[], [], rows_unbroken_append hne hpiece⟩
  | case2 lead ih =>
    obtain ⟨above, start, hrows⟩ := ih
    refine ⟨[] :: above, start, fun rest => ?_⟩
    rw [List.cons_append, List.cons_append, List.cons_append, List.cons_append, rows, hrows,
      List.cons_append]
  | case3 c lead hpair hc ih =>
    obtain ⟨above, start, hrows⟩ := ih
    refine ⟨[] :: above, start, fun rest => ?_⟩
    have hsplit : c = '\r' → (lead ++ piece ++ rest).head? ≠ some '\n' := by
      intro hreturn hfeed
      cases lead with
      | cons d lead => exact hpair lead hreturn (by rw [Option.some.inj hfeed])
      | nil =>
        -- the piece itself would have to start with the second half of the break
        obtain ⟨d, piece, rfl⟩ := List.exists_cons_of_ne_nil hne
        have hd : isBreak d = false := hpiece d List.mem_cons_self
        rw [Option.some.inj hfeed] at hd
        exact absurd hd (by decide)
    rw [List.cons_append, List.cons_append, rows_cons_of_break hc hsplit, hrows, List.cons_append]
  | case4 c lead hpair hc hnone ih =>
    obtain ⟨above, start, hrows⟩ := ih
    exact rows_around_cons (Bool.eq_false_iff.mpr hc) hrows
  | case5 c lead hpair hc first more hsome ih =>
    obtain ⟨above, start, hrows⟩ := ih
    exact rows_around_cons (Bool.eq_false_iff.mpr hc) hrows

end ContractAudit.Text

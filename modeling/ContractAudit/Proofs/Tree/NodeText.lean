import ContractAudit.Proofs.Text.Bytes
import ContractAudit.Text.Utf8
import ContractAudit.Tree.Node

/-! The two readings of a node. They refuse different extents, and still agree on all that start and
end at offsets from zero on. Up to the first byte that is not ASCII, bytes and characters stand at
the same offsets, and the reading is the decoding of the bytes. -/

namespace ContractAudit

namespace Utf8

theorem toList_loop (bytes : ByteArray) (i : Nat) (done : Bytes) :
    ByteArray.toList.loop bytes i done = done.reverse ++ bytes.data.toList.drop i := by
  fun_induction ByteArray.toList.loop bytes i done with
  | case1 i done hi ih =>
    have hlength : i < bytes.data.toList.length := hi
    have hbyte : bytes.get! i = bytes.data.toList[i] := by
      rw [ByteArray.get!, Array.getElem_toList]
      exact getElem!_pos bytes.data i hi
    rw [ih, List.drop_eq_getElem_cons hlength, hbyte, List.reverse_cons, List.append_assoc,
      List.singleton_append]
  | case2 i done hi =>
    have hlength : bytes.data.toList.length ≤ i := Nat.le_of_not_lt hi
    rw [List.drop_of_length_le hlength, List.append_nil]

theorem encode_ofList (t : Text) : encode (String.ofList t) = t.flatMap String.utf8EncodeChar := by
  rw [encode, String.toUTF8_eq_toByteArray, String.toByteArray_ofList, ByteArray.toList,
    toList_loop, List.utf8Encode, List.toList_data_toByteArray]
  rfl

theorem utf8Size_of_encodeChar {c : Char} {b : UInt8} {more : Bytes}
    (h : String.utf8EncodeChar c = b :: more) (hb : b < 0x80) : c.utf8Size = 1 := by
  have hnat : b.toNat < 128 := hb
  have hlead : ∀ k m low : Nat, 128 ≤ low → low + m ≤ 256 → 0 < m →
      b ≠ UInt8.ofNat (k % m + low) := by
    rintro k m low hlow hhigh hm rfl
    have hmod := Nat.mod_lt k hm
    rw [UInt8.toNat_ofNat', Nat.mod_eq_of_lt (by omega)] at hnat
    omega
  unfold String.utf8EncodeChar at h
  dsimp only at h
  split at h
  · next hc => exact Char.utf8Size_eq_one_iff.mpr hc
  · split at h
    · exact absurd (List.cons.inj h).1.symm (hlead _ 32 192 (by omega) (by omega) (by omega))
    · split at h
      · exact absurd (List.cons.inj h).1.symm (hlead _ 16 224 (by omega) (by omega) (by omega))
      · exact absurd (List.cons.inj h).1.symm (hlead _ 8 240 (by omega) (by omega) (by omega))

theorem take_encode {t : Text} {stop : Nat} (hstop : stop ≤ (encode (String.ofList t)).length)
    (hascii : ∀ b ∈ (encode (String.ofList t)).take stop, b < 0x80) :
    stop ≤ t.length ∧ (∀ c ∈ t.take stop, c.utf8Size = 1) ∧
      (encode (String.ofList t)).take stop = (t.take stop).map (·.val.toUInt8) := by
  rw [encode_ofList] at hstop hascii ⊢
  induction t generalizing stop with
  | nil =>
    obtain rfl := Nat.le_zero.mp hstop
    exact ⟨Nat.le_refl 0, by simp, rfl⟩
  | cons c t ih =>
    cases stop with
    | zero => exact ⟨Nat.zero_le _, by simp, rfl⟩
    | succ stop =>
      obtain ⟨b, more, hbytes⟩ := List.exists_cons_of_ne_nil (String.utf8EncodeChar_ne_nil (c := c))
      have hb : b < 0x80 := by
        apply hascii
        rw [List.flatMap_cons, hbytes]
        exact List.mem_cons_self
      have hc : c.utf8Size = 1 := utf8Size_of_encodeChar hbytes hb
      rw [List.flatMap_cons, String.utf8EncodeChar_eq_singleton hc, List.singleton_append]
        at hstop hascii ⊢
      rw [List.take_succ_cons, List.forall_mem_cons] at hascii
      obtain ⟨hlength, hall, htake⟩ := ih (Nat.le_of_succ_le_succ hstop) hascii.2
      refine ⟨Nat.succ_le_succ hlength, ?_, ?_⟩
      · rw [List.take_succ_cons, List.forall_mem_cons]
        exact ⟨hc, hall⟩
      · rw [List.take_succ_cons, List.take_succ_cons, List.map_cons, htake]

theorem toNat_toUInt8 {c : Char} (hc : c.utf8Size = 1) : c.val.toUInt8.toNat = c.toNat := by
  have hval : c.val.toNat ≤ 127 := Char.utf8Size_eq_one_iff.mp hc
  rw [UInt32.toNat_toUInt8, Nat.mod_eq_of_lt (by omega)]
  rfl

theorem decodeFrom_ascii {t : Text} (h : ∀ c ∈ t, c.utf8Size = 1) (position : Nat) :
    decodeFrom position t.length (t.map (·.val.toUInt8)) = (t, none) := by
  induction t generalizing position with
  | nil => rfl
  | cons c t ih =>
    rw [List.forall_mem_cons] at h
    have hnat := toNat_toUInt8 h.1
    have hlt : c.toNat < 0x80 := Nat.lt_succ_of_le (Char.utf8Size_eq_one_iff.mp h.1)
    have hlead : lead? c.val.toUInt8.toNat = some ⟨0, c.toNat, 0x80, 0xBF⟩ := by
      rw [hnat, lead?, if_pos hlt]
    rw [List.length_cons, List.map_cons, decodeFrom, hlead]
    dsimp only [continue?]
    rw [ih h.2, Char.ofNat_toNat]

theorem decode_ascii {t : Text} (h : ∀ c ∈ t, c.utf8Size = 1) :
    decode (t.map (·.val.toUInt8)) = .ok t := by
  rw [decode, decodeUpTo, List.length_map, decodeFrom_ascii h]

end Utf8

theorem Text.slice_eq_nil {t : Text} {i j : Int} (hj : 0 ≤ j) (hji : j ≤ i) : t.slice i j = [] := by
  apply List.drop_of_length_le
  rw [List.length_take, place, place, if_neg (by omega), if_neg (by omega)]
  omega

/-- A guard that refuses what ends past the text, and else only what is empty, is as good as any
other. -/
theorem Text.guarded_slice {t : Text} {i j : Int} {guard : Prop} [Decidable guard] (hj : 0 ≤ j)
    (hpast : j > t.length → guard) (hempty : guard → j ≤ t.length → j ≤ i) :
    (if guard then [] else t.slice i j) = if j ≤ t.length then t.slice i j else [] := by
  by_cases hfits : j ≤ t.length
  · rw [if_pos hfits]
    split
    · next hrefused => exact (slice_eq_nil hj (hempty hrefused hfits)).symm
    · rfl
  · rw [if_neg hfits, if_pos (hpast (by omega))]

namespace Node

variable {n : Node}

theorem text_eq_slice (hend : 0 ≤ n.extent.endByte) (code : Text) :
    n.text code = if n.extent.endByte ≤ code.length then
      code.slice n.extent.startByte n.extent.endByte else [] :=
  Text.guarded_slice hend .inr (by omega)

theorem forwardText_eq_slice (hstart : 0 ≤ n.extent.startByte) (hend : 0 ≤ n.extent.endByte)
    (code : Text) : n.forwardText code = if n.extent.endByte ≤ code.length then
      code.slice n.extent.startByte n.extent.endByte else [] :=
  Text.guarded_slice hend (fun hpast => .inr (.inl hpast)) (by omega)

/-- At offsets from zero on, in any order and of any size, the two readings of a node are the same.
If the node ends in the source and the bytes before its end are ASCII, they are the decoding of the
bytes of the node, whatever stands behind it. -/
theorem text_agrees_and_decodes {s e : Nat} (hs : n.extent.startByte = s)
    (he : n.extent.endByte = e) (code : Text) :
    let bytes := Utf8.encode (String.ofList code)
    n.forwardText code = n.text code ∧
      (s ≤ e → e ≤ bytes.length → (∀ b ∈ bytes.take e, b < 0x80) →
        Utf8.decode ((bytes.take e).drop s) = .ok (n.text code)) := by
  intro bytes
  have hstart : 0 ≤ n.extent.startByte := by omega
  have hend : 0 ≤ n.extent.endByte := by omega
  refine ⟨?_, fun hse hebytes hascii => ?_⟩
  · rw [forwardText_eq_slice hstart hend, text_eq_slice hend]
  · obtain ⟨hlength, hsizes, htake⟩ := Utf8.take_encode hebytes hascii
    have htext : n.text code = (code.take e).drop s := by
      rw [text_eq_slice hend, if_pos (by omega), hs, he, Text.slice_eq_take_drop hlength,
        List.drop_take]
    rw [htake, ← List.map_drop, htext]
    exact Utf8.decode_ascii fun c hc => hsizes c (List.mem_of_mem_drop hc)

/-- A node in front of a character of two bytes, and one that ends before it starts. -/
theorem text_agrees_and_decodes_accent :
    let node (s e : Nat) := Node.mk "identifier" ⟨s, e, 0, 0⟩ []
    let code := "a.bé".toList
    let bytes := Utf8.encode (String.ofList code)
    bytes.drop 3 = [0xC3, 0xA9] ∧
      Utf8.decode ((bytes.take 3).drop 2) = .ok ((node 2 3).text code) ∧
      (node 2 3).text code = ['b'] ∧
      (node 9 2).forwardText code = (node 9 2).text code := by
  intro node code bytes
  have hbytes : bytes = [97, 46, 98, 0xC3, 0xA9] := Utf8.encode_ofList code
  have hascii : ∀ b ∈ bytes.take 3, b < 0x80 := by
    simp [hbytes]
  have hfits : 3 ≤ bytes.length := by
    rw [hbytes]
    decide
  have hread := (text_agrees_and_decodes (n := node 2 3) rfl rfl code).2 (by decide) hfits hascii
  refine ⟨?_, hread, rfl, (text_agrees_and_decodes (n := node 9 2) rfl rfl code).1⟩
  rw [hbytes]
  decide

end Node
end ContractAudit

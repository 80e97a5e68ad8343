import Stencil.Proofs.Text.LineEnds

/-!
# Reading and writing bytes

A text that was read from bytes is written as the same bytes: every sequence that
is read is the one that its code point is written as.  A text that can be written
is read back from its bytes.
-/

namespace Stencil.Text

theorem toNat_ofNat {code : Nat} (hcode : code < 0x110000)
    (hvalid : code < 0xD800 ∨ 0xE000 ≤ code) :
    (CodePoint.ofNat code).toNat = code ∧ (CodePoint.ofNat code).isSurrogate = false := by
  have hnone : ¬ (0xD800 ≤ code ∧ code < 0xE000) := by omega
  exact ⟨CodePoint.toNat_ofNat_of_lt hcode, by
    simp [CodePoint.ofNat, CodePoint.ofNat?, hnone, hcode, CodePoint.isSurrogate]⟩

/-- A sequence that stands for a code point is what the code point is written as. -/
def Writes (c : CodePoint) (bytes : Bytes) : Prop :=
  c.utf8 = bytes ∧ c.isSurrogate = false

theorem writes_one {a : UInt8} (ha : a < 0x80) : Writes (.ofNat a.toNat) [a] := by
  have hsmall : a.toNat < 0x80 := by simpa [UInt8.lt_iff_toNat_lt] using ha
  obtain ⟨hcode, hplain⟩ := toNat_ofNat (show a.toNat < 0x110000 by omega) (.inl (by omega))
  exact ⟨by simp [CodePoint.utf8, hcode, hsmall], hplain⟩

theorem writes_of_toNat {code : Nat} {bytes : Bytes} (hcode : code < 0x110000)
    (hvalid : code < 0xD800 ∨ 0xE000 ≤ code)
    (h : (0x80 ≤ code ∧ code < 0x800 ∧ ∃ a b : UInt8, bytes = [a, b] ∧
        a.toNat = 0xC0 + code / 0x40 ∧ b.toNat = 0x80 + code % 0x40) ∨
      (0x800 ≤ code ∧ code < 0x10000 ∧ ∃ a b c : UInt8, bytes = [a, b, c] ∧
        a.toNat = 0xE0 + code / 0x1000 ∧ b.toNat = 0x80 + code / 0x40 % 0x40 ∧
        c.toNat = 0x80 + code % 0x40) ∨
      (0x10000 ≤ code ∧ ∃ a b c d : UInt8, bytes = [a, b, c, d] ∧
        a.toNat = 0xF0 + code / 0x40000 ∧ b.toNat = 0x80 + code / 0x1000 % 0x40 ∧
        c.toNat = 0x80 + code / 0x40 % 0x40 ∧ d.toNat = 0x80 + code % 0x40)) :
    Writes (.ofNat code) bytes := by
  obtain ⟨htoNat, hplain⟩ := toNat_ofNat hcode hvalid
  refine ⟨?_, hplain⟩
  simp only [CodePoint.utf8, htoNat, Nat.shiftRight_eq_div_pow, Nat.reducePow, Nat.div_one]
  rcases h with ⟨hlow, hhigh, a, b, rfl, ha, hb⟩ | ⟨hlow, hhigh, a, b, c, rfl, ha, hb, hc⟩ |
    ⟨hlow, a, b, c, d, rfl, ha, hb, hc, hd⟩
  · rw [if_neg (Nat.not_lt.2 hlow), if_pos hhigh, ← ha, ← hb, UInt8.ofNat_toNat,
      UInt8.ofNat_toNat]
  · have hpast : ¬ code < 0x80 := by omega
    rw [if_neg hpast, if_neg (Nat.not_lt.2 hlow), if_pos hhigh, ← ha, ← hb, ← hc,
      UInt8.ofNat_toNat, UInt8.ofNat_toNat, UInt8.ofNat_toNat]
  · have hpast : ¬ code < 0x80 ∧ ¬ code < 0x800 := by omega
    rw [if_neg hpast.1, if_neg hpast.2, if_neg (Nat.not_lt.2 hlow), ← ha, ← hb, ← hc, ← hd,
      UInt8.ofNat_toNat, UInt8.ofNat_toNat, UInt8.ofNat_toNat, UInt8.ofNat_toNat]

theorem writes_two {a b : UInt8} (ha : 0xC2 ≤ a ∧ a < 0xE0)
    (hb : secondFits a b = true) : Writes (joined (a.toNat - 0xC0) [b]) [a, b] := by
  simp only [secondFits, isTail, UInt8.le_iff_toNat_le, UInt8.lt_iff_toNat_lt, Bool.and_eq_true,
    decide_eq_true_eq, UInt8.reduceToNat] at ha hb
  simp only [joined, List.foldl_cons, List.foldl_nil]
  exact writes_of_toNat (by omega) (by omega)
    (.inl ⟨by omega, by omega, a, b, rfl, by omega, by omega⟩)

theorem writes_three {a b c : UInt8} (ha : 0xE0 ≤ a ∧ a < 0xF0)
    (hb : secondFits a b = true) (hc : isTail c = true) :
    Writes (joined (a.toNat - 0xE0) [b, c]) [a, b, c] := by
  simp only [secondFits, isTail, UInt8.le_iff_toNat_le, UInt8.lt_iff_toNat_lt, Bool.and_eq_true,
    decide_eq_true_eq, UInt8.reduceToNat, Bool.not_eq_true', Bool.and_eq_false_iff,
    decide_eq_false_iff_not, ← UInt8.toNat_inj] at ha hb hc
  simp only [joined, List.foldl_cons, List.foldl_nil]
  exact writes_of_toNat (by omega) (by omega)
    (.inr (.inl ⟨by omega, by omega, a, b, c, rfl, by omega, by omega, by omega⟩))

theorem writes_four {a b c d : UInt8} (ha : 0xF0 ≤ a ∧ a < 0xF5)
    (hb : secondFits a b = true) (hc : isTail c = true) (hd : isTail d = true) :
    Writes (joined (a.toNat - 0xF0) [b, c, d]) [a, b, c, d] := by
  simp only [secondFits, isTail, UInt8.le_iff_toNat_le, UInt8.lt_iff_toNat_lt, Bool.and_eq_true,
    decide_eq_true_eq, UInt8.reduceToNat, Bool.not_eq_true', Bool.and_eq_false_iff,
    decide_eq_false_iff_not, ← UInt8.toNat_inj] at ha hb hc hd
  simp only [joined, List.foldl_cons, List.foldl_nil]
  exact writes_of_toNat (by omega) (by omega)
    (.inr (.inr ⟨by omega, a, b, c, d, rfl, by omega, by omega, by omega, by omega⟩))

theorem encode_append {c : CodePoint} {text : Text} {front rest : Bytes}
    (hc : Writes c front) (htext : encode text = .ok rest) :
    encode (c :: text) = .ok (front ++ rest) := by
  obtain ⟨hbytes, hplain⟩ := hc
  unfold encode at htext ⊢
  rw [List.dropWhile_cons_of_pos (by simp [hplain])]
  split at htext
  · rw [List.flatMap_cons, hbytes, ← Except.ok.inj htext]
  · cases htext

theorem encode_of_map {c : CodePoint} {position : Nat} {text : Text} {front rest : Bytes}
    (hc : Writes c front) (h : (c :: ·) <$> decodeFrom position rest = .ok text)
    (ih : ∀ text, decodeFrom position rest = .ok text → encode text = .ok rest) :
    encode text = .ok (front ++ rest) := by
  cases hrest : decodeFrom position rest with
  | error error =>
      rw [hrest] at h
      cases h
  | ok more =>
      rw [hrest] at h
      cases h
      exact encode_append hc (ih more hrest)

theorem encode_of_decodeFrom (position : Nat) (bytes : Bytes) :
    ∀ text, decodeFrom position bytes = .ok text → encode text = .ok bytes := by
  fun_induction decodeFrom position bytes with
  | case1 =>
      intro text h
      cases h
      rfl
  | case2 position a rest hone ih =>
      intro text h
      exact encode_of_map (writes_one hone) h ih
  | case3 position a _ ha b after hb ih =>
      intro text h
      exact encode_of_map (writes_two ha hb) h ih
  | case6 position a _ _ ha b c after hfits ih =>
      intro text h
      obtain ⟨hb, hc⟩ := Bool.and_eq_true_iff.1 hfits
      exact encode_of_map (writes_three ha hb hc) h ih
  | case9 position a _ _ _ ha b c d after hfits ih =>
      intro text h
      obtain ⟨hfits, hd⟩ := Bool.and_eq_true_iff.1 hfits
      obtain ⟨hb, hc⟩ := Bool.and_eq_true_iff.1 hfits
      exact encode_of_map (writes_four ha hb hc hd) h ih
  | case4 | case5 | case7 | case8 | case10 | case11 | case12 =>
      -- what is no sequence stops the reading
      intro text h
      cases h

/-- Writing a text that was read gives the bytes that it was read from. -/
theorem encode_of_decode {bytes : Bytes} {text : Text} (h : decode bytes = .ok text) :
    encode text = .ok bytes :=
  encode_of_decodeFrom 0 bytes text h

/-! ## Reading what was written -/

theorem toNat_valid {point : CodePoint} (h : point.isSurrogate = false) :
    point.toNat < 0xD800 ∨ 0xE000 ≤ point.toNat := by
  cases point with
  | surrogate offset => cases h
  | scalar char =>
      have hvalid : char.toNat < 0xD800 ∨ 0xDFFF < char.toNat ∧ char.toNat < 0x110000 := char.valid
      simp only [CodePoint.toNat]
      omega

theorem ofNat_toNat {c : CodePoint} (h : c.isSurrogate = false) : CodePoint.ofNat c.toNat = c :=
  CodePoint.toNat_injective (toNat_ofNat c.toNat_lt (toNat_valid h)).1

variable {a b c d : UInt8} {position : Nat} {rest : Bytes}

theorem isTail_iff : isTail a = true ↔ 0x80 ≤ a.toNat ∧ a.toNat < 0xC0 := by
  simp only [isTail, UInt8.le_iff_toNat_le, UInt8.lt_iff_toNat_lt, Bool.and_eq_true,
    decide_eq_true_eq, UInt8.reduceToNat]

theorem secondFits_iff :
    secondFits a b = true ↔ (0x80 ≤ b.toNat ∧ b.toNat < 0xC0) ∧
      (a.toNat = 0xE0 → 0xA0 ≤ b.toNat) ∧ (a.toNat = 0xED → b.toNat < 0xA0) ∧
      (a.toNat = 0xF0 → 0x90 ≤ b.toNat) ∧ (a.toNat = 0xF4 → b.toNat < 0x90) := by
  simp only [secondFits, isTail, UInt8.le_iff_toNat_le, UInt8.lt_iff_toNat_lt, Bool.and_eq_true,
    decide_eq_true_eq, UInt8.reduceToNat, Bool.not_eq_true', Bool.and_eq_false_iff,
    decide_eq_false_iff_not, ← UInt8.toNat_inj]
  omega

theorem toNat_byte {n : Nat} (h : n < 0x100) : (UInt8.ofNat n).toNat = n := by
  rw [UInt8.toNat_ofNat', Nat.mod_eq_of_lt h]

section Forms

variable {point : CodePoint} (hplain : point.isSurrogate = false)

include hplain

theorem joined_eq {first : Nat} {tails : List UInt8}
    (h : tails.foldl (fun code byte => code * 0x40 + (byte.toNat - 0x80)) first = point.toNat) :
    joined first tails = point := by
  rw [joined, h, ofNat_toNat hplain]

theorem decodeFrom_one (hcode : point.toNat < 0x80) (ha : a.toNat = point.toNat) :
    decodeFrom position (a :: rest) = (point :: ·) <$> decodeFrom (position + 1) rest := by
  have hfirst : a < 0x80 := by
    simp only [UInt8.lt_iff_toNat_lt, UInt8.reduceToNat]
    omega
  rw [decodeFrom, if_pos hfirst, ha, ofNat_toNat hplain]

theorem decodeFrom_two (hcode : 0x80 ≤ point.toNat ∧ point.toNat < 0x800)
    (ha : a.toNat = 0xC0 + point.toNat / 0x40) (hb : b.toNat = 0x80 + point.toNat % 0x40) :
    decodeFrom position (a :: b :: rest) = (point :: ·) <$> decodeFrom (position + 2) rest := by
  have hfirst : ¬ a < 0x80 ∧ 0xC2 ≤ a ∧ a < 0xE0 := by
    simp only [UInt8.le_iff_toNat_le, UInt8.lt_iff_toNat_lt, UInt8.reduceToNat]
    omega
  have hjoined : joined (a.toNat - 0xC0) [b] = point := joined_eq hplain (by
    simp only [List.foldl_cons, List.foldl_nil]
    omega)
  rw [decodeFrom, if_neg hfirst.1, if_pos hfirst.2, ← hjoined]
  exact if_pos (secondFits_iff.2 (by omega))

theorem decodeFrom_three (hcode : 0x800 ≤ point.toNat ∧ point.toNat < 0x10000)
    (ha : a.toNat = 0xE0 + point.toNat / 0x1000) (hb : b.toNat = 0x80 + point.toNat / 0x40 % 0x40)
    (hc : c.toNat = 0x80 + point.toNat % 0x40) :
    decodeFrom position (a :: b :: c :: rest) =
      (point :: ·) <$> decodeFrom (position + 3) rest := by
  have hvalid := toNat_valid hplain
  have hfirst : ¬ a < 0x80 ∧ ¬ (0xC2 ≤ a ∧ a < 0xE0) ∧ 0xE0 ≤ a ∧ a < 0xF0 := by
    simp only [UInt8.le_iff_toNat_le, UInt8.lt_iff_toNat_lt, UInt8.reduceToNat]
    omega
  have hjoined : joined (a.toNat - 0xE0) [b, c] = point := joined_eq hplain (by
    simp only [List.foldl_cons, List.foldl_nil]
    omega)
  rw [decodeFrom, if_neg hfirst.1, if_neg hfirst.2.1, if_pos hfirst.2.2, ← hjoined]
  exact if_pos (Bool.and_eq_true_iff.2 ⟨secondFits_iff.2 (by omega), isTail_iff.2 (by omega)⟩)

theorem decodeFrom_four (hcode : 0x10000 ≤ point.toNat)
    (ha : a.toNat = 0xF0 + point.toNat / 0x40000)
    (hb : b.toNat = 0x80 + point.toNat / 0x1000 % 0x40)
    (hc : c.toNat = 0x80 + point.toNat / 0x40 % 0x40) (hd : d.toNat = 0x80 + point.toNat % 0x40) :
    decodeFrom position (a :: b :: c :: d :: rest) =
      (point :: ·) <$> decodeFrom (position + 4) rest := by
  have hlast := point.toNat_lt
  have hfirst : ¬ a < 0x80 ∧ ¬ (0xC2 ≤ a ∧ a < 0xE0) ∧ ¬ (0xE0 ≤ a ∧ a < 0xF0) ∧
      0xF0 ≤ a ∧ a < 0xF5 := by
    simp only [UInt8.le_iff_toNat_le, UInt8.lt_iff_toNat_lt, UInt8.reduceToNat]
    omega
  have hjoined : joined (a.toNat - 0xF0) [b, c, d] = point := joined_eq hplain (by
    simp only [List.foldl_cons, List.foldl_nil]
    omega)
  rw [decodeFrom, if_neg hfirst.1, if_neg hfirst.2.1, if_neg hfirst.2.2.1, if_pos hfirst.2.2.2,
    ← hjoined]
  exact if_pos (Bool.and_eq_true_iff.2 ⟨Bool.and_eq_true_iff.2
    ⟨secondFits_iff.2 (by omega), isTail_iff.2 (by omega)⟩, isTail_iff.2 (by omega)⟩)

/-- A code point is read back, whatever comes after it. -/
theorem decodeFrom_utf8 :
    decodeFrom position (point.utf8 ++ rest) =
      (point :: ·) <$> decodeFrom (position + point.utf8.length) rest := by
  have hlast := point.toNat_lt
  unfold CodePoint.utf8
  simp only [Nat.shiftRight_eq_div_pow, Nat.reducePow, Nat.div_one]
  split_ifs with hone htwo hthree
  · exact decodeFrom_one hplain hone (toNat_byte (by omega))
  · exact decodeFrom_two hplain ⟨by omega, htwo⟩ (toNat_byte (by omega)) (toNat_byte (by omega))
  · exact decodeFrom_three hplain ⟨by omega, hthree⟩ (toNat_byte (by omega))
      (toNat_byte (by omega)) (toNat_byte (by omega))
  · exact decodeFrom_four hplain (by omega) (toNat_byte (by omega)) (toNat_byte (by omega))
      (toNat_byte (by omega)) (toNat_byte (by omega))

end Forms

theorem decodeFrom_flatMap (text : Text) (htext : ∀ point ∈ text, point.isSurrogate = false) :
    decodeFrom position (text.flatMap CodePoint.utf8) = .ok text := by
  induction text generalizing position with
  | nil => rfl
  | cons point text ih =>
      obtain ⟨hpoint, hrest⟩ := List.forall_mem_cons.1 htext
      rw [List.flatMap_cons, decodeFrom_utf8 hpoint, ih hrest]
      rfl

/-- A text that can be written is read back from its bytes. -/
theorem decode_of_encode {text : Text} {bytes : Bytes} (h : encode text = .ok bytes) :
    decode bytes = .ok text := by
  obtain ⟨hplain, rfl⟩ := encode_eq_ok_iff.1 h
  exact decodeFrom_flatMap text hplain

end Stencil.Text

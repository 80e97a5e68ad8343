import Mathlib.Data.List.TakeWhile
import Stencil.Proofs.Text.Order
import Stencil.Text.Utf8

/-!
# Line ends

A text with unified line ends holds no carriage return, and a text is left as it
is exactly if it held none.  The bytes of a text show whether there is one.
-/

namespace Stencil

namespace CodePoint

theorem toNat_lt (c : CodePoint) : c.toNat < 0x110000 := by
  cases c with
  | scalar char =>
      have hvalid : char.toNat < 0xD800 ∨ 0xDFFF < char.toNat ∧ char.toNat < 0x110000 := char.valid
      simp only [toNat]
      omega
  | surrogate offset =>
      have := offset.isLt
      simp only [toNat]
      omega

theorem toNat_ofNat_of_lt {code : Nat} (h : code < 0x110000) : (ofNat code).toNat = code := by
  unfold ofNat ofNat?
  split
  · rename_i hsurrogate
    simp only [Option.getD_some, toNat]
    omega
  · rename_i hscalar
    have hvalid : code.isValidChar := by
      unfold Nat.isValidChar
      omega
    change (Char.ofNat code).toNat = code
    rw [Char.ofNat, dif_pos hvalid]
    rfl

/-- A byte below 128 is written for the code point with its number only. -/
theorem mem_utf8_iff {c : CodePoint} {byte : UInt8} (hsmall : byte.toNat < 0x80) :
    byte ∈ c.utf8 ↔ c.toNat = byte.toNat := by
  have hlarge (n : Nat) (hn : 0x80 ≤ n) (hn' : n < 0x100) : byte ≠ UInt8.ofNat n := by
    intro h
    rw [h, UInt8.toNat_ofNat'] at hsmall
    omega
  have hlast := c.toNat_lt
  unfold utf8
  simp only [Nat.shiftRight_eq_div_pow]
  split_ifs with hone htwo hthree
  · rw [List.mem_singleton, ← UInt8.toNat_inj, UInt8.toNat_ofNat', Nat.mod_eq_of_lt (by omega),
      eq_comm]
  all_goals
    refine iff_of_false ?_ (by omega)
    simp only [List.mem_cons, List.not_mem_nil, or_false, not_or]
    refine ⟨hlarge _ (by omega) (by omega), ?_⟩
  · exact hlarge _ (by omega) (by omega)
  · exact ⟨hlarge _ (by omega) (by omega), hlarge _ (by omega) (by omega)⟩
  · exact ⟨hlarge _ (by omega) (by omega), hlarge _ (by omega) (by omega),
      hlarge _ (by omega) (by omega)⟩

end CodePoint

namespace Text

variable {text : Text} {bytes : Bytes}

def carriageReturn : CodePoint := .scalar '\r'

/-- The byte that carriage returns are written as. -/
def returnByte : UInt8 := 13

theorem encode_eq_ok_iff :
    encode text = .ok bytes ↔ (∀ c ∈ text, c.isSurrogate = false) ∧
      bytes = text.flatMap CodePoint.utf8 := by
  unfold encode
  split
  · rename_i hdrop
    rw [List.dropWhile_eq_nil_iff] at hdrop
    simp only [Except.ok.injEq, eq_comm (a := bytes), iff_and_self]
    exact fun _ c hc => by simpa using hdrop c hc
  · rename_i first rest hdrop
    simp only [reduceCtorEq, false_iff, not_and]
    intro hplain
    have hnil : text.dropWhile (!·.isSurrogate) = [] := by
      rw [List.dropWhile_eq_nil_iff]
      exact fun c hc => by simp [hplain c hc]
    rw [hnil] at hdrop
    cases hdrop

theorem returnByte_mem_iff (hencode : encode text = .ok bytes) :
    returnByte ∈ bytes ↔ carriageReturn ∈ text := by
  obtain ⟨-, rfl⟩ := encode_eq_ok_iff.1 hencode
  rw [List.mem_flatMap]
  constructor
  · rintro ⟨c, hc, hbyte⟩
    have hcode : c.toNat = carriageReturn.toNat := (CodePoint.mem_utf8_iff (by decide)).1 hbyte
    rwa [← CodePoint.toNat_injective hcode]
  · exact fun hc => ⟨carriageReturn, hc, by decide⟩

/-! ## Unified line ends -/

theorem carriageReturn_not_mem_unifyLineEnds (text : Text) :
    carriageReturn ∉ unifyLineEnds text := by
  fun_induction unifyLineEnds text with
  | case1 => exact List.not_mem_nil
  | case2 text ih | case3 text _ ih =>
      rw [List.mem_cons, not_or]
      exact ⟨by decide, ih⟩
  | case4 c text _ hc ih =>
      rw [List.mem_cons, not_or]
      exact ⟨fun heq => hc heq.symm, ih⟩

theorem unifyLineEnds_eq_self_iff : unifyLineEnds text = text ↔ carriageReturn ∉ text := by
  constructor
  · intro h
    rw [← h]
    exact carriageReturn_not_mem_unifyLineEnds text
  · intro h
    fun_induction unifyLineEnds text with
    | case1 => rfl
    | case2 | case3 => exact absurd List.mem_cons_self h
    | case4 c text _ _ ih =>
        rw [ih fun hmem => h (List.mem_cons_of_mem c hmem)]

theorem mem_of_mem_unifyLineEnds {c : CodePoint} (h : c ∈ unifyLineEnds text) :
    c ∈ text ∨ c = .scalar '\n' := by
  fun_induction unifyLineEnds text with
  | case1 => cases h
  | case2 text ih =>
      rcases List.mem_cons.1 h with rfl | h
      · exact .inr rfl
      · exact (ih h).imp (fun hmem => by simp [hmem]) id
  | case3 text _ ih =>
      rcases List.mem_cons.1 h with rfl | h
      · exact .inr rfl
      · exact (ih h).imp (List.mem_cons_of_mem _) id
  | case4 first text _ _ ih =>
      rcases List.mem_cons.1 h with rfl | h
      · exact .inl List.mem_cons_self
      · exact (ih h).imp (List.mem_cons_of_mem _) id

/-- What can be written can be written with unified line ends too. -/
theorem exists_encode_unifyLineEnds (hencode : encode text = .ok bytes) :
    ∃ later, encode (unifyLineEnds text) = .ok later ∧
      (later = bytes ↔ returnByte ∉ bytes) := by
  obtain ⟨hplain, -⟩ := encode_eq_ok_iff.1 hencode
  have hlater : encode (unifyLineEnds text) = .ok ((unifyLineEnds text).flatMap CodePoint.utf8) :=
    encode_eq_ok_iff.2 ⟨fun c hc => by
      rcases mem_of_mem_unifyLineEnds hc with hc | rfl
      · exact hplain c hc
      · rfl, rfl⟩
  refine ⟨_, hlater, fun h => ?_, fun h => ?_⟩
  · rw [← h, returnByte_mem_iff hlater]
    exact carriageReturn_not_mem_unifyLineEnds text
  · rw [returnByte_mem_iff hencode] at h
    rw [unifyLineEnds_eq_self_iff.2 h] at hlater ⊢
    exact Except.ok.inj (hlater.symm.trans hencode)

end Text

end Stencil

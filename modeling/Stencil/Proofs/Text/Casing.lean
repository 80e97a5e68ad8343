import Stencil.Proofs.Text.CaseTable
import Stencil.Proofs.Text.LineEnds
import Stencil.Proofs.Text.Order
import Stencil.Text.Blank
import Stencil.Text.Casing

/-!
# Case mappings of texts

The mappings of all scripts, code point by code point: what they lead to stays
as it is, and the only plain characters among it are letters of the other case.
A capital sigma has two lowercase forms, and nothing here turns on which of
them it takes.
-/

namespace Stencil

namespace CodePoint

variable {c d : CodePoint} {before after : Text} {code : Nat}

theorem ofNat_toNat_self (c : CodePoint) : ofNat c.toNat = c :=
  toNat_injective (toNat_ofNat_of_lt c.toNat_lt)

theorem isBetween_iff {first last : Char} :
    c.isBetween first last = true ↔ first.toNat ≤ c.toNat ∧ c.toNat ≤ last.toNat := by
  rw [isBetween, Bool.and_eq_true, decide_eq_true_eq, decide_eq_true_eq]

/-! ## The tables -/

theorem getD_image? {runs : List CaseRun} {long : List (Nat × List Nat)} (c : CodePoint) :
    (image? runs long c.toNat).getD [c] = (CaseTable.imagesOf runs long c.toNat).map ofNat := by
  rw [image?, CaseTable.imagesOf]
  cases long.lookup c.toNat with
  | some codes => rfl
  | none =>
      cases CaseRun.find? runs c.toNat with
      | some image => rfl
      | none => simp [ofNat_toNat_self]

theorem uppercase_eq (c : CodePoint) : c.uppercase = (CaseTable.upper c.toNat).map ofNat := by
  rw [uppercase]
  split
  · rename_i hascii
    rw [CaseTable.tested.upper_of_lt hascii]
    simp only [isLowerLatin, isBetween, Bool.and_eq_true, decide_eq_true_eq, Char.reduceToNat,
      CaseRun.find?, Nat.mod_one, and_true]
    split
    · rename_i hsmall
      rw [Option.getD_some, List.map_singleton,
        show 65 + (c.toNat - 97) = c.toNat - 32 by omega]
    · rw [Option.getD_none, List.map_singleton, ofNat_toNat_self]
  · exact getD_image? c

theorem lowercase_eq (hsigma : c.toNat ≠ 0x3A3) :
    c.lowercase before after = (CaseTable.lower c.toNat).map ofNat := by
  rw [lowercase]
  split
  · rename_i hascii
    rw [CaseTable.tested.lower_of_lt hascii, lowerLatin]
    simp only [isUpperLatin, isBetween, Bool.and_eq_true, decide_eq_true_eq, Char.reduceToNat,
      CaseRun.find?, Nat.mod_one, and_true]
    split
    · rename_i hcapital
      rw [Option.getD_some, List.map_singleton,
        show 97 + (c.toNat - 65) = c.toNat + 32 by omega]
    · rw [Option.getD_none, List.map_singleton, ofNat_toNat_self]
  · exact getD_image? c

theorem lowercase_sigma (hsigma : c.toNat = 0x3A3) (before after : Text) :
    c.lowercase before after = [ofNat 0x3C2] ∨ c.lowercase before after = [ofNat 0x3C3] := by
  rw [lowercase, hsigma, if_neg (by decide), if_pos rfl]
  split
  · exact .inl rfl
  · exact .inr rfl

theorem upper_lt {image : Nat} (h : image ∈ CaseTable.upper c.toNat) : image < 0x110000 :=
  CaseTable.tested.upper.image_lt h c.toNat_lt

theorem lower_lt {image : Nat} (h : image ∈ CaseTable.lower c.toNat) : image < 0x110000 :=
  CaseTable.tested.lower.image_lt h c.toNat_lt

theorem toNat_mem_upper (h : d ∈ c.uppercase) : d.toNat ∈ CaseTable.upper c.toNat := by
  rw [uppercase_eq] at h
  obtain ⟨image, himage, rfl⟩ := List.mem_map.1 h
  rwa [toNat_ofNat_of_lt (upper_lt himage)]

/-- Either form of a sigma counts as what the table has for one of the small sigmas. -/
theorem toNat_mem_lower (h : d ∈ c.lowercase before after) :
    d.toNat ∈ CaseTable.lower c.toNat ∨ c.toNat = 0x3A3 ∧ d.toNat = 0x3C2 := by
  by_cases hsigma : c.toNat = 0x3A3
  · rcases lowercase_sigma hsigma before after with heq | heq
    · rw [heq] at h
      obtain rfl := List.mem_singleton.1 h
      exact .inr ⟨hsigma, rfl⟩
    · rw [heq] at h
      obtain rfl := List.mem_singleton.1 h
      rw [hsigma, CaseTable.tested.sigmas.1]
      exact .inl List.mem_cons_self
  · rw [lowercase_eq hsigma] at h
    obtain ⟨image, himage, rfl⟩ := List.mem_map.1 h
    rw [toNat_ofNat_of_lt (lower_lt himage)]
    exact .inl himage

/-! ## What stays as it is -/

theorem uppercase_of_mem (h : d ∈ c.uppercase) : d.uppercase = [d] := by
  rw [uppercase_eq, CaseTable.tested.upper_image (toNat_mem_upper h), List.map_singleton,
    ofNat_toNat_self]

theorem lower_of_mem (h : d ∈ c.lowercase before after) :
    CaseTable.lower d.toNat = [d.toNat] := by
  rcases toNat_mem_lower h with hmem | ⟨-, hfinal⟩
  · exact CaseTable.tested.lower_image hmem
  · rw [hfinal]
    exact CaseTable.tested.sigmas.2.1

theorem lowercase_of_lower {before after : Text} (h : CaseTable.lower d.toNat = [d.toNat]) :
    d.lowercase before after = [d] := by
  have hsigma : d.toNat ≠ 0x3A3 := by
    intro heq
    rw [heq, CaseTable.tested.sigmas.1] at h
    cases h
  rw [lowercase_eq hsigma, h, List.map_singleton, ofNat_toNat_self]

theorem toUpper_map_ofNat {codes : List Nat} (h : ∀ code ∈ codes, code < 0x110000) :
    Text.toUpper (codes.map ofNat) = (codes.flatMap CaseTable.upper).map ofNat := by
  induction codes with
  | nil => rfl
  | cons code codes ih =>
      obtain ⟨hcode, hcodes⟩ := List.forall_mem_cons.1 h
      rw [List.map_cons, Text.toUpper, List.flatMap_cons, uppercase_eq, toNat_ofNat_of_lt hcode,
        ← Text.toUpper, ih hcodes, List.flatMap_cons, List.map_append]

theorem toUpper_of_upper {code image : Nat} (hcode : code < 0x110000)
    (h : CaseTable.upper code = [image]) : Text.toUpper [ofNat code] = [ofNat image] := by
  rw [Text.toUpper, List.flatMap_singleton, uppercase_eq, toNat_ofNat_of_lt hcode, h,
    List.map_singleton]

/-- Both forms of a small sigma have the same uppercase. -/
theorem toUpper_sigmas : Text.toUpper [ofNat 0x3C2] = [ofNat 0x3A3] ∧
    Text.toUpper [ofNat 0x3C3] = [ofNat 0x3A3] :=
  ⟨toUpper_of_upper (by decide) CaseTable.tested.sigmas.2.2.1,
    toUpper_of_upper (by decide) CaseTable.tested.sigmas.2.2.2⟩

theorem toUpper_lowercase (c : CodePoint) (before after before' after' : Text) :
    Text.toUpper (c.lowercase before after) = Text.toUpper (c.lowercase before' after') := by
  by_cases hsigma : c.toNat = 0x3A3
  · rcases lowercase_sigma hsigma before after with h | h <;>
      rcases lowercase_sigma hsigma before' after' with h' | h' <;>
      simp only [h, h', toUpper_sigmas]
  · rw [lowercase_eq hsigma, lowercase_eq hsigma]

theorem toUpper_lowercase_of_mem (hfixed : CaseTable.lower c.toNat = [c.toNat])
    (h : d ∈ c.uppercase) : Text.toUpper (d.lowercase before after) = [d] := by
  by_cases hsigma : d.toNat = 0x3A3
  · have hcapital : d = ofNat 0x3A3 := by rw [← hsigma, ofNat_toNat_self]
    rcases lowercase_sigma hsigma before after with heq | heq
    · rw [heq, toUpper_sigmas.1, hcapital]
    · rw [heq, toUpper_sigmas.2, hcapital]
  · have hreturns := CaseTable.tested.returns_image hfixed (toNat_mem_upper h)
    rw [CaseTable.Returns] at hreturns
    rw [lowercase_eq hsigma, toUpper_map_ofNat fun code => lower_lt, hreturns, List.map_singleton,
      ofNat_toNat_self]

theorem uppercase_ne_nil (c : CodePoint) : c.uppercase ≠ [] := by
  rw [uppercase_eq, Ne, List.map_eq_nil_iff]
  exact CaseTable.tested.upper.imagesOf_ne_nil _

/-! ## Plain characters -/

section Plain

variable {codes : List Nat}

theorem eq_of_mem_uppercase
    (hapart :
      CodeSet.apart (CaseTable.reached CaseTable.upperRuns CaseTable.upperLong) codes = true)
    (h : d ∈ c.uppercase) (hd : d.toNat ∈ codes) : d = c :=
  toNat_injective (CaseTable.eq_of_apart hapart (toNat_mem_upper h) hd).1

theorem eq_of_mem_lowercase
    (hapart :
      CodeSet.apart (CaseTable.reached CaseTable.lowerRuns CaseTable.lowerLong) codes = true)
    (hfinal : 0x3C2 ∉ codes) (h : d ∈ c.lowercase before after) (hd : d.toNat ∈ codes) :
    d = c := by
  rcases toNat_mem_lower h with hmem | ⟨-, hsigma⟩
  · exact toNat_injective (CaseTable.eq_of_apart hapart hmem hd).1
  · exact absurd (hsigma ▸ hd) hfinal

end Plain

theorem not_isLowerLatin_of_mem (h : d ∈ c.uppercase) : d.isLowerLatin = false := by
  rw [Bool.eq_false_iff]
  intro hlower
  obtain ⟨hfirst, hlast⟩ := isBetween_iff.1 hlower
  simp only [Char.reduceToNat] at hfirst hlast
  have hletter : d.toNat ∈ List.range' 97 26 := List.mem_range'_1.2 ⟨hfirst, by omega⟩
  obtain ⟨heq, hself⟩ := CaseTable.eq_of_apart CaseTable.tested.small (toNat_mem_upper h)
    hletter
  -- a small letter leads to a capital one and not to itself
  change CaseTable.upper c.toNat = _ at hself
  rw [← heq, CaseTable.tested.upper_of_lt (by omega), CaseRun.find?,
    if_pos ⟨hfirst, hlast, Nat.mod_one _⟩, Option.getD_some, List.singleton_inj] at hself
  dsimp only at hself
  omega

theorem not_isUpperLatin_of_mem (h : d ∈ c.lowercase before after) : d.isUpperLatin = false := by
  rw [Bool.eq_false_iff]
  intro hupper
  obtain ⟨hfirst, hlast⟩ := isBetween_iff.1 hupper
  simp only [Char.reduceToNat] at hfirst hlast
  rcases toNat_mem_lower h with hmem | ⟨-, hfinal⟩
  · have hletter : d.toNat ∈ List.range' 65 26 := List.mem_range'_1.2 ⟨hfirst, by omega⟩
    obtain ⟨heq, hself⟩ := CaseTable.eq_of_apart CaseTable.tested.capital hmem hletter
    change CaseTable.lower c.toNat = _ at hself
    rw [← heq, CaseTable.tested.lower_of_lt (by omega), CaseRun.find?,
      if_pos ⟨hfirst, hlast, Nat.mod_one _⟩, Option.getD_some, List.singleton_inj] at hself
    dsimp only at hself
    omega
  · omega

/-! ## ASCII -/

/-- The uppercase letter of a lowercase Latin letter, any other code point itself. -/
def upperLatin (c : CodePoint) : CodePoint :=
  if c.isLowerLatin then ofNat (c.toNat - 32) else c

theorem uppercase_ascii (h : c.toNat < 128) : c.uppercase = [c.upperLatin] := by
  rw [uppercase, if_pos h, upperLatin]
  split <;> rfl

theorem lowercase_ascii (h : c.toNat < 128) : c.lowercase before after = [c.lowerLatin] := by
  rw [lowercase, if_pos h]

theorem toNat_lowerLatin (c : CodePoint) :
    c.lowerLatin.toNat = if 65 ≤ c.toNat ∧ c.toNat ≤ 90 then c.toNat + 32 else c.toNat := by
  rw [lowerLatin]
  simp only [isUpperLatin, isBetween, Bool.and_eq_true, decide_eq_true_eq, Char.reduceToNat]
  split
  · exact toNat_ofNat_of_lt (by omega)
  · rfl

theorem exists_range_of_has {ranges : CodeRanges} {code : Nat} (h : ranges.has code = true) :
    ∃ range ∈ ranges, range.1 ≤ code ∧ code ≤ range.2 := by
  induction ranges with
  | nil => cases h
  | cons range ranges ih =>
      rw [CodeRanges.has] at h
      split at h
      · cases h
      · split at h
        · rename_i hfirst hlast
          exact ⟨range, List.mem_cons_self, Nat.not_lt.1 hfirst, hlast⟩
        · obtain ⟨other, hmem, hbounds⟩ := ih h
          exact ⟨other, List.mem_cons_of_mem _ hmem, hbounds⟩

end CodePoint

/-! ## Texts -/

namespace Text

open CodePoint

variable {text first second before after : Text} {c d : CodePoint}

theorem toUpper_append (first second : Text) :
    toUpper (first ++ second) = toUpper first ++ toUpper second :=
  List.flatMap_append

theorem toUpper_singleton (c : CodePoint) : toUpper [c] = c.uppercase :=
  List.flatMap_singleton _ _

theorem flatMap_eq_self {f : CodePoint → Text} (h : ∀ c ∈ text, f c = [c]) :
    text.flatMap f = text := by
  rw [List.flatMap_congr h, List.flatMap_singleton']

theorem forall_mem_lowerFrom {P : CodePoint → Prop}
    (h : ∀ c ∈ text, ∀ before after, ∀ d ∈ c.lowercase before after, P d) (before : Text) :
    ∀ d ∈ lowerFrom before text, P d := by
  induction text generalizing before with
  | nil => exact List.forall_mem_nil _
  | cons c text ih =>
      obtain ⟨hc, htext⟩ := List.forall_mem_cons.1 h
      exact List.forall_mem_append.2 ⟨hc before text, ih htext (c :: before)⟩

theorem lowerFrom_of_fixed (h : ∀ c ∈ text, CaseTable.lower c.toNat = [c.toNat]) (before : Text) :
    lowerFrom before text = text := by
  induction text generalizing before with
  | nil => rfl
  | cons c text ih =>
      obtain ⟨hc, htext⟩ := List.forall_mem_cons.1 h
      rw [lowerFrom, lowercase_of_lower hc, ih htext, List.singleton_append]

theorem toUpper_lowerFrom (text before : Text) :
    toUpper (lowerFrom before text) = text.flatMap fun c => toUpper (c.lowercase [] []) := by
  induction text generalizing before with
  | nil => rfl
  | cons c text ih =>
      rw [lowerFrom, toUpper_append, ih, List.flatMap_cons, toUpper_lowercase c before text [] []]

theorem toLower_toLower (text : Text) : toLower (toLower text) = toLower text :=
  lowerFrom_of_fixed (forall_mem_lowerFrom (fun _ _ _ _ _ => lower_of_mem) []) []

/-- Uppercase of a lowercase text is found again through lowercase. -/
theorem toUpper_toLower_toUpper (text : Text) :
    toUpper (toLower (toUpper (toLower text))) = toUpper (toLower text) := by
  have hsmall : ∀ c ∈ toLower text, CaseTable.lower c.toNat = [c.toNat] :=
    forall_mem_lowerFrom (fun _ _ _ _ _ => lower_of_mem) []
  rw [toLower, toUpper_lowerFrom]
  refine flatMap_eq_self fun d hd => ?_
  obtain ⟨c, hc, hd⟩ := List.mem_flatMap.1 hd
  exact toUpper_lowercase_of_mem (hsmall c hc) hd

def IsAscii (text : Text) : Prop := ∀ c ∈ text, c.toNat < 128

theorem lowerFrom_ascii (h : text.IsAscii) (before : Text) :
    lowerFrom before text = text.map lowerLatin := by
  induction text generalizing before with
  | nil => rfl
  | cons c text ih =>
      obtain ⟨hc, htext⟩ := List.forall_mem_cons.1 h
      rw [lowerFrom, lowercase_ascii hc, ih htext, List.map_cons, List.singleton_append]

theorem map_lowerLatin_eq_self (h : ∀ c ∈ text, c.isUpperLatin = false) :
    text.map CodePoint.lowerLatin = text := by
  have hself : ∀ c ∈ text, c.lowerLatin = id c := fun c hc => by
    rw [CodePoint.lowerLatin, h c hc]
    rfl
  rw [List.map_congr_left hself, List.map_id]

end Text

end Stencil

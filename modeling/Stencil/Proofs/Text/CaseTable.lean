import Mathlib.Data.List.Chain
import Mathlib.Data.List.Dedup
import Stencil.Text.CaseTable

/-!
# The case tables

Nothing that a case mapping leads to is changed by the same mapping again, and
what uppercase leads to comes back from lowercase.  The tables are compared as
sets of numbers, and run by run where it matters what a number comes from.
-/

namespace Stencil

/-! ## Runs -/

namespace CaseRun

variable {run other : CaseRun} {runs : List CaseRun} {code image : Nat}

/-- The run maps one number to another. -/
structure Maps (run : CaseRun) (code image : Nat) : Prop where
  first_le : run.first ≤ code
  le_last : code ≤ run.last
  on_step : (code - run.first) % run.step = 0
  image_eq : image = run.image + (code - run.first)

theorem exists_maps_of_find? (h : find? runs code = some image) :
    ∃ run ∈ runs, run.Maps code image := by
  induction runs with
  | nil => cases h
  | cons run runs ih =>
      rw [find?] at h
      split at h
      · rename_i hcovers
        cases h
        exact ⟨run, List.mem_cons_self, hcovers.1, hcovers.2.1, hcovers.2.2, rfl⟩
      · obtain ⟨other, hmem, hmaps⟩ := ih h
        exact ⟨other, List.mem_cons_of_mem _ hmem, hmaps⟩

theorem find?_eq_none (h : ∀ run ∈ runs, ∀ image, ¬ run.Maps code image) :
    find? runs code = none := by
  refine Option.eq_none_iff_forall_ne_some.2 fun image hfind => ?_
  obtain ⟨run, hrun, hmaps⟩ := exists_maps_of_find? hfind
  exact h run hrun image hmaps

/-- One run ends before the other starts. -/
def Precedes (run other : CaseRun) : Prop := run.last < other.first ∧ other.first ≤ other.last

instance : DecidableRel Precedes := fun _ _ => instDecidableAnd

instance : Trans Precedes Precedes Precedes where
  trans h h' := ⟨by have := h.1; have := h.2; have := h'.1; omega, h'.2⟩

/-- The runs stand in ascending order and do not overlap. -/
def Ascend (runs : List CaseRun) : Prop := runs.IsChain Precedes

instance : DecidablePred Ascend := fun runs => inferInstanceAs (Decidable (runs.IsChain Precedes))

theorem find?_of_maps (hruns : Ascend runs) (hrun : run ∈ runs) (h : run.Maps code image) :
    find? runs code = some image := by
  have hpairs := List.isChain_iff_pairwise.1 hruns
  clear hruns
  induction runs with
  | nil => cases hrun
  | cons head runs ih =>
      obtain ⟨hhead, hpairs⟩ := List.pairwise_cons.1 hpairs
      rw [find?]
      rcases List.mem_cons.1 hrun with rfl | hrun
      · rw [if_pos ⟨h.first_le, h.le_last, h.on_step⟩, h.image_eq]
      · have hbehind := (hhead run hrun).1
        have hfirst := h.first_le
        rw [if_neg (by omega), ih hrun hpairs]

/-! ### Comparing runs -/

def codes (run : CaseRun) : List Nat :=
  List.range' run.first ((run.last - run.first) / run.step + 1) run.step

def images (run : CaseRun) : List Nat :=
  List.range' run.image ((run.last - run.first) / run.step + 1) run.step

theorem Maps.exists_index (h : run.Maps code image) :
    ∃ i < (run.last - run.first) / run.step + 1,
      code = run.first + run.step * i ∧ image = run.image + run.step * i := by
  obtain ⟨hfirst, hlast, hstep, rfl⟩ := h
  have hindex := Nat.mul_div_cancel' (Nat.dvd_of_mod_eq_zero hstep)
  refine ⟨(code - run.first) / run.step, ?_, by omega, by rw [hindex]⟩
  exact Nat.lt_succ_of_le (Nat.div_le_div_right (by omega))

theorem Maps.mem_codes (h : run.Maps code image) : code ∈ run.codes := by
  obtain ⟨i, hi, hcode, -⟩ := h.exists_index
  exact List.mem_range'.2 ⟨i, hi, hcode⟩

theorem Maps.mem_images (h : run.Maps code image) : image ∈ run.images := by
  obtain ⟨i, hi, -, himage⟩ := h.exists_index
  exact List.mem_range'.2 ⟨i, hi, himage⟩

theorem exists_maps_of_mem_images (hrun : run.first ≤ run.last) (h : image ∈ run.images) :
    ∃ code, run.Maps code image := by
  obtain ⟨i, hi, rfl⟩ := List.mem_range'.1 h
  have hle : run.step * i ≤ run.last - run.first :=
    (Nat.mul_le_mul_left _ (Nat.lt_succ_iff.1 hi)).trans (Nat.mul_div_le _ _)
  refine ⟨run.first + run.step * i, by omega, by omega, ?_, by omega⟩
  rw [Nat.add_sub_cancel_left, Nat.mul_mod_right]

/-- Every image of the other run is mapped back to where it came from. -/
def inverts (run other : CaseRun) : Bool :=
  Nat.ble run.first other.image && (Nat.ble (other.image + (other.last - other.first)) run.last &&
    (Nat.beq ((other.image - run.first) % run.step) 0 &&
      ((Nat.beq other.first other.last || Nat.beq (other.step % run.step) 0) &&
        Nat.beq (run.image + (other.image - run.first)) other.first)))

theorem Maps.inverted (h : other.Maps code image) (hinverts : run.inverts other = true) :
    run.Maps image code := by
  simp only [inverts, Bool.and_eq_true, Bool.or_eq_true, Nat.ble_eq, Nat.beq_eq] at hinverts
  obtain ⟨hfirst, hlast, hon, hstep, hback⟩ := hinverts
  obtain ⟨hcode, hcodeLast, hcodeOn, rfl⟩ := h
  have hdistance : other.image + (code - other.first) - run.first =
      (other.image - run.first) + (code - other.first) := by omega
  have hmultiple : (code - other.first) % run.step = 0 := by
    rcases hstep with hsingle | hstep
    · rw [show code - other.first = 0 by omega, Nat.zero_mod]
    · exact Nat.mod_eq_zero_of_dvd
        (Nat.dvd_trans (Nat.dvd_of_mod_eq_zero hstep) (Nat.dvd_of_mod_eq_zero hcodeOn))
  refine ⟨by omega, by omega, ?_, by omega⟩
  rw [hdistance, Nat.add_mod, hon, hmultiple, Nat.zero_mod]

end CaseRun

/-! ## Sets of numbers

There are thousands of numbers in a table.  A set of them is written as the number whose bits they
are, so that sets are compared in one step. -/

namespace CodeSet

variable {first second third : List Nat} {code : Nat}

def bits (codes : List Nat) : Nat :=
  codes.foldr (fun code bits => Nat.lor bits (Nat.shiftLeft 1 code)) 0

theorem testBit_bits {codes : List Nat} : (bits codes).testBit code = true ↔ code ∈ codes := by
  induction codes with
  | nil => simp [bits]
  | cons head codes ih =>
      change (bits codes ||| 1 <<< head).testBit code = true ↔ _
      rw [Nat.testBit_or, Bool.or_eq_true, ih, Nat.shiftLeft_eq, Nat.one_mul, Nat.testBit_two_pow,
        decide_eq_true_eq, List.mem_cons, or_comm, eq_comm]

/-- No number is in both sets. -/
def apart (first second : List Nat) : Bool := Nat.beq (Nat.land (bits first) (bits second)) 0

theorem not_mem_of_apart (h : apart first second = true) (hfirst : code ∈ first) :
    code ∉ second := by
  intro hsecond
  have hbit : (bits first &&& bits second).testBit code = true := by
    rw [Nat.testBit_and, testBit_bits.2 hfirst, testBit_bits.2 hsecond]
    rfl
  rw [show bits first &&& bits second = 0 from Nat.eq_of_beq_eq_true h, Nat.zero_testBit] at hbit
  cases hbit

/-- What is in two sets is in a third one. -/
def meetWithin (first second third : List Nat) : Bool :=
  Nat.beq (Nat.land (Nat.land (bits first) (bits second)) (bits third))
    (Nat.land (bits first) (bits second))

theorem mem_of_meetWithin (h : meetWithin first second third = true) (hfirst : code ∈ first)
    (hsecond : code ∈ second) : code ∈ third := by
  have hbit : (bits first &&& bits second &&& bits third).testBit code = true := by
    rw [show bits first &&& bits second &&& bits third = bits first &&& bits second from
      Nat.eq_of_beq_eq_true h, Nat.testBit_and, testBit_bits.2 hfirst, testBit_bits.2 hsecond]
    rfl
  rw [Nat.testBit_and, Bool.and_eq_true] at hbit
  exact testBit_bits.1 hbit.2

end CodeSet

/-! ## Tables -/

namespace CaseTable

variable {runs : List CaseRun} {long : List (Nat × List Nat)} {code image : Nat}

/-- What a table leads to from a number. -/
def imagesOf (runs : List CaseRun) (long : List (Nat × List Nat)) (code : Nat) : List Nat :=
  (long.lookup code).getD [(CaseRun.find? runs code).getD code]

/-- The numbers that a table maps. -/
def mapped (runs : List CaseRun) (long : List (Nat × List Nat)) : List Nat :=
  runs.flatMap CaseRun.codes ++ long.map (·.1)

/-- The numbers that a table maps others to. -/
def reached (runs : List CaseRun) (long : List (Nat × List Nat)) : List Nat :=
  runs.flatMap CaseRun.images ++ long.flatMap (·.2)

theorem lookup_eq_none (h : code ∉ long.map (·.1)) : long.lookup code = none :=
  List.lookup_eq_none_iff.2 fun entry hentry => by
    simpa using fun heq => h (List.mem_map.2 ⟨entry, hentry, Eq.symm heq⟩)

theorem find?_eq_none_of_not_mem (h : code ∉ runs.flatMap CaseRun.codes) :
    CaseRun.find? runs code = none :=
  CaseRun.find?_eq_none fun run hrun _ hmaps =>
    h (List.mem_flatMap.2 ⟨run, hrun, hmaps.mem_codes⟩)

theorem imagesOf_of_unmapped (h : code ∉ mapped runs long) : imagesOf runs long code = [code] := by
  obtain ⟨hruns, hlong⟩ := not_or.1 (mt List.mem_append.2 h)
  rw [imagesOf, lookup_eq_none hlong, find?_eq_none_of_not_mem hruns]
  rfl

theorem mem_reached_or_self (h : image ∈ imagesOf runs long code) :
    image ∈ reached runs long ∨ image = code ∧ imagesOf runs long code = [code] := by
  rw [imagesOf] at h ⊢
  cases hlong : long.lookup code with
  | some images =>
      obtain ⟨front, back, rfl, -⟩ := List.lookup_eq_some_iff.1 hlong
      rw [hlong] at h
      exact .inl (List.mem_append_right _ (List.mem_flatMap.2 ⟨(code, images), by simp, h⟩))
  | none =>
      rw [hlong] at h
      cases hfind : CaseRun.find? runs code with
      | some next =>
          rw [hfind] at h
          obtain rfl := List.mem_singleton.1 h
          obtain ⟨run, hrun, hmaps⟩ := CaseRun.exists_maps_of_find? hfind
          exact .inl (List.mem_append_left _ (List.mem_flatMap.2 ⟨run, hrun, hmaps.mem_images⟩))
      | none =>
          rw [hfind] at h
          exact .inr ⟨List.mem_singleton.1 h, rfl⟩

/-- A number that is not reached from others is its own image at most. -/
theorem eq_of_apart {others : List Nat} (hapart : CodeSet.apart (reached runs long) others = true)
    (h : image ∈ imagesOf runs long code) (hother : image ∈ others) :
    image = code ∧ imagesOf runs long code = [code] :=
  (mem_reached_or_self h).resolve_left fun hreached =>
    CodeSet.not_mem_of_apart hapart hreached hother

/-! ### Sound tables -/

/-- What tables are tested for: their parts do not overlap, nothing that they lead to is mapped by
them, all images are code points, none is empty, and only the first run is about ASCII. -/
structure IsSound (runs : List CaseRun) (long : List (Nat × List Nat)) : Prop where
  ascend : CaseRun.Ascend runs
  single : CodeSet.apart (runs.flatMap CaseRun.codes) (long.map (·.1)) = true
  settles : CodeSet.apart (reached runs long) (mapped runs long) = true
  bounded : (reached runs long).all (Nat.blt · 0x110000) = true
  filled : (long.all fun entry => !entry.2.isEmpty) = true
  plain : (mapped runs.tail long).all (Nat.ble 128) = true

instance : Decidable (IsSound runs long) :=
  decidable_of_iff
    (CaseRun.Ascend runs ∧ CodeSet.apart (runs.flatMap CaseRun.codes) (long.map (·.1)) = true ∧
      CodeSet.apart (reached runs long) (mapped runs long) = true ∧
      (reached runs long).all (Nat.blt · 0x110000) = true ∧
      (long.all fun entry => !entry.2.isEmpty) = true ∧
      (mapped runs.tail long).all (Nat.ble 128) = true)
    ⟨fun ⟨ascend, single, settles, bounded, filled, plain⟩ =>
      ⟨ascend, single, settles, bounded, filled, plain⟩,
    fun h => ⟨h.ascend, h.single, h.settles, h.bounded, h.filled, h.plain⟩⟩

namespace IsSound

variable (hsound : IsSound runs long)

include hsound

theorem imagesOf_of_maps {run : CaseRun} (hrun : run ∈ runs) (h : run.Maps code image) :
    imagesOf runs long code = [image] := by
  have hcode : code ∈ runs.flatMap CaseRun.codes := List.mem_flatMap.2 ⟨run, hrun, h.mem_codes⟩
  have hnone := lookup_eq_none (CodeSet.not_mem_of_apart hsound.single hcode)
  rw [imagesOf, hnone, CaseRun.find?_of_maps hsound.ascend hrun h]
  rfl

theorem imagesOf_of_reached (h : code ∈ reached runs long) : imagesOf runs long code = [code] :=
  imagesOf_of_unmapped (CodeSet.not_mem_of_apart hsound.settles h)

theorem imagesOf_image (h : image ∈ imagesOf runs long code) :
    imagesOf runs long image = [image] := by
  rcases mem_reached_or_self h with hreached | ⟨rfl, hall⟩
  · exact hsound.imagesOf_of_reached hreached
  · exact hall

theorem image_lt (h : image ∈ imagesOf runs long code) (hcode : code < 0x110000) :
    image < 0x110000 := by
  rcases mem_reached_or_self h with hreached | ⟨rfl, -⟩
  · exact Nat.le_of_ble_eq_true (List.all_eq_true.1 hsound.bounded image hreached)
  · exact hcode

theorem imagesOf_ne_nil (code : Nat) : imagesOf runs long code ≠ [] := by
  rw [imagesOf]
  cases hlookup : long.lookup code with
  | none => exact List.cons_ne_nil _ _
  | some images =>
      obtain ⟨front, back, rfl, -⟩ := List.lookup_eq_some_iff.1 hlookup
      simpa using List.all_eq_true.1 hsound.filled (code, images) (by simp)

theorem imagesOf_of_lt {run : CaseRun} {rest : List CaseRun} (hruns : runs = run :: rest)
    (hcode : code < 128) :
    imagesOf runs long code = [(CaseRun.find? [run] code).getD code] := by
  subst hruns
  have hfree : code ∉ mapped rest long := fun hmem =>
    absurd (Nat.le_of_ble_eq_true (List.all_eq_true.1 hsound.plain code hmem)) (by omega)
  obtain ⟨hrest, hlong⟩ := not_or.1 (mt List.mem_append.2 hfree)
  rw [imagesOf, lookup_eq_none hlong, CaseRun.find?, find?_eq_none_of_not_mem hrest]
  rfl

end IsSound

/-! ### Both tables -/

def upper : Nat → List Nat := imagesOf upperRuns upperLong

def lower : Nat → List Nat := imagesOf lowerRuns lowerLong

/-- The runs of the uppercase whose images come back by one run of the lowercase. -/
def invertedRuns : List CaseRun :=
  upperRuns.filter fun run => Nat.ble run.first run.last && lowerRuns.any (·.inverts run)

/-- The tests that the tables pass, all at once. -/
structure Tested : Prop where
  upper : IsSound upperRuns upperLong
  lower : IsSound lowerRuns lowerLong
  /-- What uppercase leads to is mapped by lowercase only if a run of it comes back. -/
  back : CodeSet.meetWithin (reached upperRuns upperLong) (mapped lowerRuns lowerLong)
    (invertedRuns.flatMap CaseRun.images) = true
  small : CodeSet.apart (reached upperRuns upperLong) (List.range' 97 26) = true
  capital : CodeSet.apart (reached lowerRuns lowerLong) (List.range' 65 26) = true
  /-- The capital sigma and the two small ones. -/
  sigmas : CaseTable.lower 0x3A3 = [0x3C3] ∧ CaseTable.lower 0x3C2 = [0x3C2] ∧
    CaseTable.upper 0x3C2 = [0x3A3] ∧ CaseTable.upper 0x3C3 = [0x3A3]

/-! ### What the tests give -/

/-- Lowercase and then uppercase give a number back. -/
def Returns (code : Nat) : Prop := (lower code).flatMap upper = [code]

namespace Tested

variable (htested : Tested)

include htested

theorem upper_image (h : image ∈ CaseTable.upper code) : CaseTable.upper image = [image] :=
  htested.upper.imagesOf_image h

theorem lower_image (h : image ∈ CaseTable.lower code) : CaseTable.lower image = [image] :=
  htested.lower.imagesOf_image h

/-- In ASCII only the small letters have another uppercase. -/
theorem upper_of_lt (h : code < 128) :
    CaseTable.upper code = [(CaseRun.find? [⟨97, 122, 1, 65⟩] code).getD code] :=
  htested.upper.imagesOf_of_lt rfl h

theorem lower_of_lt (h : code < 128) :
    CaseTable.lower code = [(CaseRun.find? [⟨65, 90, 1, 97⟩] code).getD code] :=
  htested.lower.imagesOf_of_lt rfl h

theorem returns_of_maps {run : CaseRun} (hrun : run ∈ invertedRuns) (h : run.Maps code image) :
    Returns image := by
  obtain ⟨hupper, hinverted⟩ := List.mem_filter.1 hrun
  obtain ⟨other, hlower, hinverts⟩ := List.any_eq_true.1 (Bool.and_eq_true_iff.1 hinverted).2
  have hback : CaseTable.lower image = [code] :=
    htested.lower.imagesOf_of_maps hlower (h.inverted hinverts)
  have hforth : CaseTable.upper code = [image] := htested.upper.imagesOf_of_maps hupper h
  rw [Returns, hback, List.flatMap_singleton, hforth]

/-- What uppercase leads to is not changed by lowercase, or it comes back. -/
theorem returns_of_mem_reached (h : image ∈ reached upperRuns upperLong) : Returns image := by
  have hupper : CaseTable.upper image = [image] := htested.upper.imagesOf_of_reached h
  by_cases hmapped : image ∈ mapped lowerRuns lowerLong
  · have hinverted := CodeSet.mem_of_meetWithin htested.back h hmapped
    obtain ⟨run, hrun, himage⟩ := List.mem_flatMap.1 hinverted
    have hordered := Nat.le_of_ble_eq_true (Bool.and_eq_true_iff.1 (List.mem_filter.1 hrun).2).1
    obtain ⟨code, hmaps⟩ := CaseRun.exists_maps_of_mem_images hordered himage
    exact htested.returns_of_maps hrun hmaps
  · have hlower : CaseTable.lower image = [image] := imagesOf_of_unmapped hmapped
    rw [Returns, hlower, List.flatMap_singleton, hupper]

theorem returns_image (hfixed : CaseTable.lower code = [code]) (h : image ∈ CaseTable.upper code) :
    Returns image := by
  rcases mem_reached_or_self h with hreached | ⟨rfl, hall⟩
  · exact htested.returns_of_mem_reached hreached
  · rw [Returns, hfixed, List.flatMap_singleton, CaseTable.upper, hall]

end Tested

/-- Each test is made on its own, so that no more than its own sets are built for it. -/
theorem tested : Tested where
  upper := by decide +kernel
  lower := by decide +kernel
  back := by decide +kernel
  small := by decide +kernel
  capital := by decide +kernel
  sigmas := by decide +kernel

end CaseTable

end Stencil

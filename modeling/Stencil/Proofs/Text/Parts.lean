import Mathlib.Data.List.DropRight
import Stencil.Proofs.Text.LineEnds
import Stencil.Text.Blank

/-!
# Parts of texts

What a text ends in, what cutting it at a part comes to, what is left when its ends
are trimmed, and which parts a text keeps when its line ends are unified.
-/

namespace Stencil.Text

variable {drop : CodePoint → Bool} {lead ending text rest part before after : Text}

theorem dropLeading?_eq_some_iff : dropLeading? lead text = some rest ↔ text = lead ++ rest := by
  induction lead generalizing text with
  | nil => simp [dropLeading?]
  | cons first lead ih =>
      cases text with
      | nil => simp [dropLeading?]
      | cons c text =>
          rw [dropLeading?, List.cons_append, List.cons.injEq]
          by_cases hfirst : first = c
          · simp [hfirst, ih]
          · simp [hfirst, Ne.symm hfirst]

theorem dropLeading?_suffix (h : dropLeading? lead text = some rest) : rest <:+ text :=
  ⟨lead, (dropLeading?_eq_some_iff.1 h).symm⟩

theorem isInfix_of_dropLeading? (h : dropLeading? lead text = some rest) : lead <:+: text :=
  ⟨[], rest, (dropLeading?_eq_some_iff.1 h).symm⟩

theorem startsWith_iff_isPrefix : startsWith lead text = true ↔ lead <+: text := by
  rw [startsWith, Option.isSome_iff_exists]
  simp only [dropLeading?_eq_some_iff, List.IsPrefix, eq_comm (a := text)]

/-! ## Endings -/

theorem endsWith_iff_isSuffix : endsWith ending text = true ↔ ending <:+ text := by
  rw [endsWith, startsWith_iff_isPrefix, List.reverse_prefix]

theorem endsWith_iff (c : CodePoint) (text : Text) :
    endsWith [c] text = true ↔ text.getLast? = some c :=
  endsWith_iff_isSuffix.trans List.singleton_suffix_iff_getLast?_eq_some

theorem endsWith_append (text ending : Text) : endsWith ending (text ++ ending) = true :=
  endsWith_iff_isSuffix.2 (List.suffix_append text ending)

theorem endsWith_append_append (text ending rest : Text) :
    endsWith (ending ++ rest) (text ++ rest) = endsWith ending text := by
  rw [Bool.eq_iff_iff, endsWith_iff_isSuffix, endsWith_iff_isSuffix, List.suffix_append_self_iff]

/-! ## Cutting -/

theorem eq_of_cut (h : cut part text = some (before, after)) : text = before ++ part ++ after := by
  induction text generalizing before with
  | nil =>
      rw [cut] at h
      split at h
      · rename_i hempty
        cases h
        simpa using hempty
      · cases h
  | cons c text ih =>
      rw [cut] at h
      split at h
      · rename_i rest hlead
        cases h
        exact dropLeading?_eq_some_iff.1 hlead
      · obtain ⟨⟨front, rest⟩, hcut, heq⟩ := Option.map_eq_some_iff.1 h
        cases heq
        rw [ih hcut]
        rfl

/-- A text is cut at the first place where the part is. -/
theorem exists_cut (part before after : Text) :
    ∃ front rest, cut part (before ++ part ++ after) = some (front, rest) ∧ after <:+ rest := by
  induction before with
  | nil =>
      rw [List.nil_append]
      cases htext : part ++ after with
      | nil =>
          obtain ⟨rfl, rfl⟩ := List.append_eq_nil_iff.1 htext
          exact ⟨[], [], rfl, List.suffix_rfl⟩
      | cons c text =>
          rw [cut, dropLeading?_eq_some_iff.2 htext.symm]
          exact ⟨[], after, rfl, List.suffix_rfl⟩
  | cons c before ih =>
      obtain ⟨front, rest, hcut, hsuffix⟩ := ih
      rw [List.cons_append, List.cons_append, cut]
      split
      · rename_i found hlead
        refine ⟨[], found, rfl, ?_⟩
        -- the part is here already, and what follows it is longer
        have heq := dropLeading?_eq_some_iff.1 hlead
        have hlater : after <:+ c :: (before ++ part ++ after) := ⟨c :: (before ++ part), by simp⟩
        refine List.suffix_of_suffix_length_le hlater ⟨part, heq.symm⟩ ?_
        have hlength := congrArg List.length heq
        simp only [List.length_cons, List.length_append] at hlength
        omega
      · exact ⟨c :: front, rest, by rw [hcut]; rfl, hsuffix⟩

theorem contains_iff : contains part text = true ↔ part <:+: text := by
  rw [contains, Option.isSome_iff_exists]
  constructor
  · rintro ⟨⟨before, after⟩, hcut⟩
    exact ⟨before, after, (eq_of_cut hcut).symm⟩
  · rintro ⟨before, after, rfl⟩
    obtain ⟨front, rest, hcut, -⟩ := exists_cut part before after
    exact ⟨_, hcut⟩

/-- A text is cut at a part that begins nowhere before. -/
theorem cut_append (hpart : part ≠ [])
    (hfirst : ∀ rest, rest ≠ [] → rest <:+ before → ¬ part <+: rest ++ part ++ after) :
    cut part (before ++ part ++ after) = some (before, after) := by
  induction before with
  | nil =>
      obtain ⟨c, others, rfl⟩ := List.exists_cons_of_ne_nil hpart
      rw [List.nil_append, List.cons_append, cut, ← List.cons_append,
        dropLeading?_eq_some_iff.2 rfl]
  | cons c before ih =>
      have hnone : dropLeading? part (c :: (before ++ part ++ after)) = none := by
        refine Option.eq_none_iff_forall_ne_some.2 fun rest hrest => ?_
        exact hfirst (c :: before) (List.cons_ne_nil _ _) List.suffix_rfl
          ⟨rest, (dropLeading?_eq_some_iff.1 hrest).symm⟩
      have hcut := ih fun rest hrest hsuffix =>
        hfirst rest hrest (hsuffix.trans (List.suffix_cons _ _))
      rw [List.cons_append, List.cons_append, cut, hnone, hcut]
      rfl

theorem cut_singleton_append {c : CodePoint} (h : c ∉ before) (after : Text) :
    cut [c] (before ++ c :: after) = some (before, after) := by
  rw [show before ++ c :: after = before ++ [c] ++ after by simp]
  refine cut_append (List.cons_ne_nil _ _) fun rest hrest hsuffix hlead => h ?_
  obtain ⟨first, others, rfl⟩ := List.exists_cons_of_ne_nil hrest
  obtain rfl : c = first := (List.cons_prefix_cons.1 hlead).1
  exact hsuffix.subset List.mem_cons_self

theorem cut_eq_none_iff : cut part text = none ↔ ¬ part <:+: text := by
  rw [← contains_iff, contains]
  simp

/-- Nothing in front of the cut holds the part. -/
theorem not_isInfix_of_cut (hpart : part ≠ []) (h : cut part text = some (before, after)) :
    ¬ part <:+: before := by
  induction text generalizing before with
  | nil =>
      rw [cut, if_neg (by simpa using hpart)] at h
      cases h
  | cons c text ih =>
      rw [cut] at h
      split at h
      · cases h
        simpa using hpart
      · rename_i hnone
        obtain ⟨⟨front, rest⟩, hcut, heq⟩ := Option.map_eq_some_iff.1 h
        cases heq
        rw [List.infix_cons_iff, not_or]
        refine ⟨fun ⟨others, hothers⟩ => ?_, ih hcut⟩
        have hlead : dropLeading? part (c :: text) = some (others ++ part ++ after) := by
          rw [dropLeading?_eq_some_iff, eq_of_cut hcut, ← List.append_assoc, ← List.append_assoc,
            hothers]
          rfl
        rw [hlead] at hnone
        cases hnone

/-! ## Trimming -/

theorem trim_eq : trim drop text = (text.dropWhile drop).rdropWhile drop := rfl

theorem trim_isInfix : trim drop text <:+: text :=
  (List.rdropWhile_prefix drop (text.dropWhile drop)).isInfix.trans
    (text.dropWhile_suffix drop).isInfix

/-- What is left of a text has nothing at its ends that is dropped. -/
theorem trim_trim : trim drop (trim drop text) = trim drop text := by
  have hstart : (trim drop text).dropWhile drop = trim drop text := by
    cases htrim : trim drop text with
    | nil => rfl
    | cons c rest =>
        obtain ⟨others, hothers⟩ := List.rdropWhile_prefix drop (text.dropWhile drop)
        rw [← trim_eq, htrim] at hothers
        have hfirst := List.head?_dropWhile_not drop text
        rw [← hothers] at hfirst
        exact List.dropWhile_cons_of_neg (by simpa using hfirst)
  rw [trim_eq, hstart, trim_eq]
  exact List.rdropWhile_idempotent drop _

/-- What is trimmed at the end of a text is a run of the trimmed code point. -/
theorem trimEnd_append (c : CodePoint) (text : Text) :
    ∃ count, text = trimEnd (· = c) text ++ List.replicate count c := by
  refine ⟨(text.reverse.takeWhile (· = c)).length, ?_⟩
  have hrun : text.reverse.takeWhile (· = c) =
      List.replicate (text.reverse.takeWhile (· = c)).length c :=
    List.eq_replicate_of_mem fun other hother => by simpa using List.mem_takeWhile_imp hother
  rw [trimEnd, ← List.reverse_replicate, ← hrun, ← List.reverse_append,
    List.takeWhile_append_dropWhile, List.reverse_reverse]

theorem strip_strip : strip (strip text) = strip text := trim_trim

theorem strip_isInfix : strip text <:+: text := trim_isInfix

/-! ## Unified line ends -/

/-- What a text with unified line ends is split into comes from parts of the text. -/
theorem exists_of_unifyLineEnds_eq_append (h : unifyLineEnds text = before ++ after) :
    ∃ front rest, text = front ++ rest ∧ unifyLineEnds rest = after ∧
      (.scalar '\n' ∉ before → front = before) := by
  fun_induction unifyLineEnds text generalizing before with
  | case1 =>
      obtain ⟨rfl, rfl⟩ := List.append_eq_nil_iff.1 h.symm
      exact ⟨[], [], rfl, rfl, fun _ => rfl⟩
  | case2 text ih =>
      cases before with
      | nil => exact ⟨[], _, rfl, by rw [unifyLineEnds, h]; rfl, fun _ => rfl⟩
      | cons c before =>
          obtain ⟨rfl, htext⟩ := List.cons.inj h
          obtain ⟨front, rest, rfl, hrest, -⟩ := ih htext
          exact ⟨_ :: _ :: front, rest, rfl, hrest, fun hnone => absurd List.mem_cons_self hnone⟩
  | case3 text hnext ih =>
      cases before with
      | nil => exact ⟨[], _, rfl, by rw [unifyLineEnds, h]; exacts [rfl, hnext], fun _ => rfl⟩
      | cons c before =>
          obtain ⟨rfl, htext⟩ := List.cons.inj h
          obtain ⟨front, rest, rfl, hrest, -⟩ := ih htext
          exact ⟨_ :: front, rest, rfl, hrest, fun hnone => absurd List.mem_cons_self hnone⟩
  | case4 c text hpair hreturn ih =>
      cases before with
      | nil =>
          exact ⟨[], _, rfl, by rw [unifyLineEnds, h]; exacts [rfl, hpair, hreturn], fun _ => rfl⟩
      | cons first before =>
          obtain ⟨rfl, htext⟩ := List.cons.inj h
          obtain ⟨front, rest, rfl, hrest, hfront⟩ := ih htext
          exact ⟨c :: front, rest, rfl, hrest, fun hnone =>
            congrArg _ (hfront fun hmem => hnone (List.mem_cons_of_mem c hmem))⟩

end Stencil.Text

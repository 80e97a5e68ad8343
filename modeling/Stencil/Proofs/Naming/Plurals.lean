import Stencil.Naming
import Stencil.Proofs.Text.Parts

/-!
# Plurals

A word that ends in `ie`, or in an `e` behind a sibilant, has its plural in common
with another word: `movie` with `movy`, `size` with `siz`.  The singular of such a
plural is the other word.  Every other word is the singular of its plural, so that
a plural is always the plural of its singular.
-/

namespace Stencil.Naming

variable {ending tail word : Text} {endings others : List Text}

/-! ## Endings -/

theorem endsWithAny_iff :
    endsWithAny endings word = true ↔ ∃ ending ∈ endings, ending <:+ word := by
  simp only [endsWithAny, List.any_eq_true, Text.endsWith_iff_isSuffix]

theorem endsWithAny_eq_false_iff :
    endsWithAny endings word = false ↔ ∀ ending ∈ endings, ¬ ending <:+ word := by
  rw [← Bool.not_eq_true, endsWithAny_iff]
  simp only [not_exists, not_and]

theorem endsWithAny_singleton (ending word : Text) :
    endsWithAny [ending] word = Text.endsWith ending word := by
  rw [Bool.eq_iff_iff, endsWithAny_iff, Text.endsWith_iff_isSuffix]
  simp only [List.mem_singleton, exists_eq_left]

theorem endsWithAny_map_append (endings : List Text) (word tail : Text) :
    endsWithAny (endings.map (· ++ tail)) (word ++ tail) = endsWithAny endings word := by
  rw [Bool.eq_iff_iff, endsWithAny_iff, endsWithAny_iff]
  simp only [List.mem_map, exists_exists_and_eq_and, List.suffix_append_self_iff]

theorem exists_append_of_endsWithAny_map (h : endsWithAny (endings.map (· ++ tail)) word = true) :
    ∃ base, word = base ++ tail ∧ endsWithAny endings base = true := by
  obtain ⟨_, hmem, front, rfl⟩ := endsWithAny_iff.1 h
  obtain ⟨ending, hending, rfl⟩ := List.mem_map.1 hmem
  refine ⟨front ++ ending, (List.append_assoc front ending tail).symm, ?_⟩
  exact endsWithAny_iff.2 ⟨ending, hending, List.suffix_append front ending⟩

/-- No text of one list is the end of a text of the other. -/
def AreApart (endings others : List Text) : Prop :=
  ∀ ending ∈ endings, ∀ other ∈ others, ¬ ending <:+ other ∧ ¬ other <:+ ending

instance : Decidable (AreApart endings others) :=
  inferInstanceAs (Decidable (∀ ending ∈ endings, ∀ other ∈ others, _))

/-- Of two ends of a word one is the end of the other. -/
theorem AreApart.endsWithAny_eq_false (hapart : AreApart endings others)
    (h : endsWithAny endings word = true) : endsWithAny others word = false := by
  rw [endsWithAny_eq_false_iff]
  intro other hother hsuffix
  obtain ⟨ending, hending, hword⟩ := endsWithAny_iff.1 h
  obtain ⟨hfirst, hsecond⟩ := hapart ending hending other hother
  rcases List.suffix_or_suffix_of_suffix hword hsuffix with hends | hends
  · exact hfirst hends
  · exact hsecond hends

theorem AreApart.endsWith_eq_false (hapart : AreApart endings [ending])
    (h : endsWithAny endings word = true) : Text.endsWith ending word = false := by
  rw [← endsWithAny_singleton, hapart.endsWithAny_eq_false h]

/-- The endings of the words that have their plurals in common with others. -/
def sharedEndings : List Text := "ie" :: sibilants.map (· ++ ("e" : Text))

theorem endsWithAny_sharedEndings (word : Text) :
    endsWithAny sharedEndings word =
      (Text.endsWith "ie" word || endsWithAny (sibilants.map (· ++ ("e" : Text))) word) := rfl

/-! ## Forming plurals -/

theorem pluralize_append_y (stem : Text) :
    pluralize (stem ++ ("y" : Text)) = stem ++ ("ies" : Text) := by
  rw [pluralize, if_pos (Text.endsWith_append stem "y")]
  congr 1
  exact List.dropLast_concat

theorem pluralize_of_sibilant (h : endsWithAny sibilants word = true) :
    pluralize word = word ++ ("es" : Text) := by
  have hy : Text.endsWith "y" word = false := AreApart.endsWith_eq_false (by decide) h
  rw [pluralize, hy, if_neg Bool.false_ne_true, if_pos h]

theorem pluralize_of_plain (hy : Text.endsWith "y" word = false)
    (hsibilant : endsWithAny sibilants word = false) :
    pluralize word = word ++ ("s" : Text) := by
  rw [pluralize, hy, hsibilant, if_neg Bool.false_ne_true, if_neg Bool.false_ne_true]

theorem pluralize_append_e (base : Text) :
    pluralize (base ++ ("e" : Text)) = base ++ ("es" : Text) := by
  have he : endsWithAny ["e"] (base ++ ("e" : Text)) = true := by
    rw [endsWithAny_singleton, Text.endsWith_append]
  rw [pluralize_of_plain (AreApart.endsWith_eq_false (by decide) he)
    (AreApart.endsWithAny_eq_false (by decide) he), List.append_assoc]
  rfl

theorem pluralize_append_ie (stem : Text) :
    pluralize (stem ++ ("ie" : Text)) = stem ++ ("ies" : Text) := by
  have h := pluralize_append_e (stem ++ ("i" : Text))
  rwa [List.append_assoc, List.append_assoc] at h

/-! ## Finding singulars -/

theorem singularize_append_ies (stem : Text) :
    singularize (stem ++ ("ies" : Text)) = stem ++ ("y" : Text) := by
  rw [singularize, if_pos (Text.endsWith_append stem "ies"), List.length_append]
  congr 1
  exact List.take_left' rfl

-- The longer endings are the shorter ones with the last letters of the plural behind them, so
-- that whether the plural ends in them is read off the word.

theorem singularize_append_es (h : endsWithAny sibilants word = true) :
    singularize (word ++ ("es" : Text)) = word := by
  have hies : Text.endsWith "ies" (word ++ ("es" : Text)) = false :=
    (Text.endsWith_append_append word "i" "es").trans (AreApart.endsWith_eq_false (by decide) h)
  have hes : endsWithAny ["ses", "shes", "ches", "xes", "zes"] (word ++ ("es" : Text)) = true :=
    (endsWithAny_map_append sibilants word "es").trans h
  rw [singularize, hies, if_neg Bool.false_ne_true, if_pos hes, List.length_append]
  exact List.take_left' rfl

theorem singularize_append_s (hsibilant : endsWithAny sibilants word = false)
    (hshared : endsWithAny sharedEndings word = false) :
    singularize (word ++ ("s" : Text)) = word := by
  rw [endsWithAny_sharedEndings, Bool.or_eq_false_iff] at hshared
  have hies : Text.endsWith "ies" (word ++ ("s" : Text)) = false :=
    (Text.endsWith_append_append word "ie" "s").trans hshared.1
  have hes : endsWithAny ["ses", "shes", "ches", "xes", "zes"] (word ++ ("s" : Text)) = false :=
    (endsWithAny_map_append (sibilants.map (· ++ ("e" : Text))) word "s").trans hshared.2
  have hs : Text.endsWith "s" word = false :=
    Bool.eq_false_iff.2 (List.any_eq_false.1 hsibilant "s" List.mem_cons_self)
  have hss : Text.endsWith "ss" (word ++ ("s" : Text)) = false :=
    (Text.endsWith_append_append word "s" "s").trans hs
  rw [singularize, hies, hes, hss, Text.endsWith_append]
  exact List.dropLast_concat

/-! ## Singulars of plurals -/

theorem singularize_pluralize_append_ie (stem : Text) :
    singularize (pluralize (stem ++ ("ie" : Text))) = stem ++ ("y" : Text) := by
  rw [pluralize_append_ie, singularize_append_ies]

theorem singularize_pluralize_append_e (h : endsWithAny sibilants word = true) :
    singularize (pluralize (word ++ ("e" : Text))) = word := by
  rw [pluralize_append_e, singularize_append_es h]

theorem singularize_pluralize_of_not_shared (h : endsWithAny sharedEndings word = false) :
    singularize (pluralize word) = word := by
  cases hsibilant : endsWithAny sibilants word with
  | true => rw [pluralize_of_sibilant hsibilant, singularize_append_es hsibilant]
  | false =>
      cases hy : Text.endsWith "y" word with
      | true =>
          obtain ⟨stem, rfl⟩ := Text.endsWith_iff_isSuffix.1 hy
          rw [pluralize_append_y, singularize_append_ies]
      | false => rw [pluralize_of_plain hy hsibilant, singularize_append_s hsibilant h]

theorem eq_append_of_shared (h : endsWithAny sharedEndings word = true) :
    (∃ stem, word = stem ++ ("ie" : Text)) ∨
      ∃ base, word = base ++ ("e" : Text) ∧ endsWithAny sibilants base = true := by
  rw [endsWithAny_sharedEndings, Bool.or_eq_true, Text.endsWith_iff_isSuffix] at h
  rcases h with ⟨stem, rfl⟩ | h
  · exact .inl ⟨stem, rfl⟩
  · exact .inr (exists_append_of_endsWithAny_map h)

theorem singularize_pluralize_ne_of_shared (h : endsWithAny sharedEndings word = true) :
    singularize (pluralize word) ≠ word := by
  -- the word that comes back is shorter
  intro heq
  have hlength := congrArg List.length heq
  rcases eq_append_of_shared h with ⟨stem, rfl⟩ | ⟨base, rfl, hbase⟩
  · rw [singularize_pluralize_append_ie, List.length_append, List.length_append] at hlength
    cases Nat.add_left_cancel hlength
  · rw [singularize_pluralize_append_e hbase, List.length_append] at hlength
    cases Nat.left_eq_add.1 hlength

theorem pluralize_singularize_pluralize (word : Text) :
    pluralize (singularize (pluralize word)) = pluralize word := by
  cases h : endsWithAny sharedEndings word with
  | false => rw [singularize_pluralize_of_not_shared h]
  | true =>
      rcases eq_append_of_shared h with ⟨stem, rfl⟩ | ⟨base, rfl, hbase⟩
      · rw [singularize_pluralize_append_ie, pluralize_append_y, pluralize_append_ie]
      · rw [singularize_pluralize_append_e hbase, pluralize_of_sibilant hbase, pluralize_append_e]

/--
A word is the singular of its plural unless it ends in `ie` or in an `e` behind a sibilant.  The
singular of any plural has this plural, so that a word is lost only to another one.
-/
theorem plurals_return (word : Text) :
    (singularize (pluralize word) = word ↔
      ∀ ending ∈ (["ie", "se", "she", "che", "xe", "ze"] : List Text), ¬ ending <:+ word) ∧
      pluralize (singularize (pluralize word)) = pluralize word := by
  refine ⟨?_, pluralize_singularize_pluralize word⟩
  have hendings : endsWithAny sharedEndings word = false ↔
      ∀ ending ∈ (["ie", "se", "she", "che", "xe", "ze"] : List Text), ¬ ending <:+ word :=
    endsWithAny_eq_false_iff
  rw [← hendings]
  constructor
  · intro hreturn
    rw [← Bool.not_eq_true]
    exact fun hshared => singularize_pluralize_ne_of_shared hshared hreturn
  · exact singularize_pluralize_of_not_shared

example : singularize (pluralize "movie") = "movy" := by decide

end Stencil.Naming

import Stencil.Naming
import Stencil.Proofs.Text.Casing
import Stencil.Proofs.Text.Splitting

/-!
# Spellings settle

A spelling of a spelled name is the name as it stands.  The joined spellings
leave no separators, the separated ones only their own mark, and a slug is made
of groups of small letters and digits with single hyphens between them.  All this
needs a case mapping that is regular: it makes no separators, leaves no letters of
the wrong case, settles after one application and acts on the characters of ASCII
as expected.  The mapping of all scripts is.
-/

namespace Stencil

open CodePoint (scalar)

/-! ## Regular case mappings -/

namespace Casing

open Naming

structure IsRegular (casing : Casing) : Prop where
  /-- What a code point begins with in uppercase stays as it is. -/
  upper_head (c : CodePoint) :
    ∃ d rest, casing.upper [c] = d :: rest ∧ casing.upper [d] = [d]
  mem_of_mem_upper {text : Text} {d : CodePoint} :
    d ∈ casing.upper text → isSeparator d = true → d ∈ text
  mem_of_mem_lower {text : Text} {d : CodePoint} :
    d ∈ casing.lower text → isSeparator d = true → d ∈ text
  upper_isLowerLatin {text : Text} {d : CodePoint} :
    d ∈ casing.upper text → d.isLowerLatin = false
  lower_isUpperLatin {text : Text} {d : CodePoint} :
    d ∈ casing.lower text → d.isUpperLatin = false
  lower_lower (text : Text) : casing.lower (casing.lower text) = casing.lower text
  upper_lower_upper (text : Text) :
    casing.upper (casing.lower (casing.upper (casing.lower text))) =
      casing.upper (casing.lower text)
  upper_ascii {text : Text} : text.IsAscii → casing.upper text = text.map CodePoint.upperLatin
  lower_ascii {text : Text} : text.IsAscii → casing.lower text = text.map CodePoint.lowerLatin

end Casing

/-! ## The mapping of all scripts -/

namespace CodePoint

open Naming

variable {c d : CodePoint} {before after : Text}

/-- The numbers of the separators. -/
def separatorCodes : List Nat :=
  45 :: 95 :: blankRanges.flatMap fun range => List.range' range.1 (range.2 + 1 - range.1)

theorem toNat_mem_separatorCodes (h : isSeparator c = true) : c.toNat ∈ separatorCodes := by
  simp only [isSeparator, isHyphen, isUnderscore, Bool.or_eq_true, decide_eq_true_eq] at h
  rcases h with (rfl | rfl) | hblank
  · exact List.mem_cons_self
  · exact List.mem_cons_of_mem _ List.mem_cons_self
  · obtain ⟨range, hrange, hfirst, hlast⟩ := exists_range_of_has hblank
    refine List.mem_cons_of_mem _ (List.mem_cons_of_mem _ (List.mem_flatMap.2 ⟨range, hrange, ?_⟩))
    exact List.mem_range'_1.2 ⟨hfirst, by omega⟩

/-- Case mappings lead to no separators. -/
theorem separators_unreached :
    CodeSet.apart (CaseTable.reached CaseTable.upperRuns CaseTable.upperLong) separatorCodes =
        true ∧
      CodeSet.apart (CaseTable.reached CaseTable.lowerRuns CaseTable.lowerLong) separatorCodes =
        true ∧ 0x3C2 ∉ separatorCodes := by
  decide +kernel

theorem eq_of_isSeparator_mem_uppercase (h : d ∈ c.uppercase) (hd : isSeparator d = true) :
    d = c :=
  eq_of_mem_uppercase separators_unreached.1 h (toNat_mem_separatorCodes hd)

theorem eq_of_isSeparator_mem_lowercase (h : d ∈ c.lowercase before after)
    (hd : isSeparator d = true) : d = c :=
  eq_of_mem_lowercase separators_unreached.2.1 separators_unreached.2.2 h
    (toNat_mem_separatorCodes hd)

end CodePoint

namespace Casing

open CodePoint Naming

theorem isRegular_unicode : unicode.IsRegular where
  upper_head c := by
    obtain ⟨d, rest, h⟩ := List.exists_cons_of_ne_nil (uppercase_ne_nil c)
    refine ⟨d, rest, (Text.toUpper_singleton c).trans h, ?_⟩
    exact (Text.toUpper_singleton d).trans (uppercase_of_mem (h ▸ List.mem_cons_self))
  mem_of_mem_upper h hd := by
    obtain ⟨c, hc, hmem⟩ := List.mem_flatMap.1 h
    rwa [eq_of_isSeparator_mem_uppercase hmem hd]
  mem_of_mem_lower {text d} h hd := by
    refine Text.forall_mem_lowerFrom (P := fun d => isSeparator d = true → d ∈ text)
      (fun c hc before after d hmem hd => ?_) [] d h hd
    rwa [eq_of_isSeparator_mem_lowercase hmem hd]
  upper_isLowerLatin h := by
    obtain ⟨c, -, hmem⟩ := List.mem_flatMap.1 h
    exact not_isLowerLatin_of_mem hmem
  lower_isUpperLatin {text d} h :=
    Text.forall_mem_lowerFrom (P := fun d => d.isUpperLatin = false)
      (fun _ _ _ _ _ => not_isUpperLatin_of_mem) [] d h
  lower_lower := Text.toLower_toLower
  upper_lower_upper := Text.toUpper_toLower_toUpper
  upper_ascii h := by
    show List.flatMap uppercase _ = _
    rw [List.flatMap_congr fun c hc => uppercase_ascii (h c hc), List.map_eq_flatMap]
  lower_ascii h := Text.lowerFrom_ascii h []

end Casing

namespace Naming

variable {casing : Casing} {text first rest : Text} {c d mark : CodePoint}
  {isMember : CodePoint → Bool} {capital inRun : Bool} {groups : List Text}

/-! ## Joined spellings -/

theorem camelFrom_eq_self (h : ∀ c ∈ text, isSeparator c = false) :
    camelFrom casing false text = text := by
  induction text with
  | nil => rfl
  | cons c text ih =>
      obtain ⟨hc, htext⟩ := List.forall_mem_cons.1 h
      simp [camelFrom, hc, ih htext]

theorem not_isSeparator_of_mem_upper (hcasing : casing.IsRegular) (hc : isSeparator c = false)
    (h : d ∈ casing.upper [c]) : isSeparator d = false := by
  rw [Bool.eq_false_iff]
  intro hd
  rw [List.mem_singleton.1 (hcasing.mem_of_mem_upper h hd), hc] at hd
  cases hd

theorem not_isSeparator_of_mem_camelFrom (hcasing : casing.IsRegular) :
    ∀ d ∈ camelFrom casing capital text, isSeparator d = false := by
  induction text generalizing capital with
  | nil => exact List.forall_mem_nil _
  | cons c text ih =>
      rw [camelFrom]
      split
      · exact ih
      · rename_i hc
        rw [Bool.not_eq_true] at hc
        refine List.forall_mem_append.2 ⟨fun d hd => ?_, ih⟩
        cases capital with
        | true => exact not_isSeparator_of_mem_upper hcasing hc hd
        | false => rwa [List.mem_singleton.1 hd]

theorem camel_camel (hcasing : casing.IsRegular) :
    camel casing (camel casing text) = camel casing text :=
  camelFrom_eq_self (not_isSeparator_of_mem_camelFrom hcasing)

theorem pascal_of_cons (h : camel casing text = c :: rest) :
    pascal casing text = casing.upper [c] ++ rest := by
  rw [pascal, h]

theorem pascal_pascal (hcasing : casing.IsRegular) :
    pascal casing (pascal casing text) = pascal casing text := by
  cases htext : camel casing text with
  | nil =>
      have hnil : pascal casing text = [] := by rw [pascal, htext]
      rw [hnil]
      rfl
  | cons c rest =>
      have hjoined : ∀ d ∈ camel casing text, isSeparator d = false :=
        not_isSeparator_of_mem_camelFrom hcasing
      rw [htext] at hjoined
      obtain ⟨hc, hrest⟩ := List.forall_mem_cons.1 hjoined
      obtain ⟨d, others, hupper, hd⟩ := hcasing.upper_head c
      have hplain : ∀ d ∈ casing.upper [c] ++ rest, isSeparator d = false :=
        List.forall_mem_append.2 ⟨fun d => not_isSeparator_of_mem_upper hcasing hc, hrest⟩
      rw [pascal_of_cons htext]
      rw [hupper, List.cons_append] at hplain
      rw [hupper, List.cons_append, pascal_of_cons (camelFrom_eq_self hplain), hd,
        List.singleton_append]

/-! ## Separated spellings -/

theorem markHumps_eq_self
    (h : ∀ a ∈ text, ∀ b ∈ text, (a.isLowerLatin && b.isUpperLatin) = false) :
    markHumps mark text = text := by
  induction text with
  | nil => rfl
  | cons a text ih =>
      cases text with
      | nil => rfl
      | cons b text =>
          have htail := ih fun a ha b hb =>
            h a (List.mem_cons_of_mem _ ha) b (List.mem_cons_of_mem _ hb)
          rw [markHumps, h a (by simp) b (by simp), htail]
          rfl

theorem collapse_go_append (hfirst : ∀ c ∈ first, isMember c = false) (hne : first ≠ [])
    (rest : Text) :
    collapse.go mark isMember inRun (first ++ rest) =
      first ++ collapse.go mark isMember false rest := by
  induction first generalizing inRun with
  | nil => exact absurd rfl hne
  | cons c first ih =>
      obtain ⟨hc, hfirst⟩ := List.forall_mem_cons.1 hfirst
      cases first with
      | nil => simp [collapse.go, hc]
      | cons d first =>
          have htail : collapse.go mark isMember false (d :: first ++ rest) =
              d :: first ++ collapse.go mark isMember false rest :=
            ih hfirst (List.cons_ne_nil _ _)
          simp only [List.cons_append] at htail ⊢
          rw [collapse.go, hc, htail]
          rfl

theorem collapse_eq_self (h : ∀ c ∈ text, isMember c = false) :
    collapse mark isMember text = text := by
  cases text with
  | nil => rfl
  | cons c text =>
      have happend : collapse.go mark isMember false (c :: text ++ []) =
          c :: text ++ collapse.go mark isMember false [] :=
        collapse_go_append h (List.cons_ne_nil _ _) []
      rwa [List.append_nil, collapse.go, List.append_nil] at happend

theorem mem_collapse_go (h : d ∈ collapse.go mark isMember inRun text) :
    d = mark ∨ d ∈ text ∧ isMember d = false := by
  induction text generalizing inRun with
  | nil => cases h
  | cons c text ih =>
      rw [collapse.go] at h
      split at h
      · split at h
        · exact (ih h).imp_right (.imp_left (List.mem_cons_of_mem _))
        · rcases List.mem_cons.1 h with rfl | h
          · exact .inl rfl
          · exact (ih h).imp_right (.imp_left (List.mem_cons_of_mem _))
      · rename_i hc
        rcases List.mem_cons.1 h with rfl | h
        · exact .inr ⟨List.mem_cons_self, Bool.not_eq_true _ ▸ hc⟩
        · exact (ih h).imp_right (.imp_left (List.mem_cons_of_mem _))

theorem separated_eq_lower
    (hhumps : ∀ a ∈ text, ∀ b ∈ text, (a.isLowerLatin && b.isUpperLatin) = false)
    (hruns : ∀ c ∈ text, isMember c = false) :
    separated casing mark isMember text = casing.lower text := by
  rw [separated, markHumps_eq_self hhumps, collapse_eq_self hruns]

section Separated

variable (hcasing : casing.IsRegular) (hmark : isMember mark = false)
  (hmember : ∀ c, isMember c = true → isSeparator c = true)

include hcasing hmark hmember

/-- Only the mark is left of the separators. -/
theorem not_isMember_of_mem_separated (h : d ∈ separated casing mark isMember text) :
    isMember d = false := by
  rw [Bool.eq_false_iff]
  intro hd
  rcases mem_collapse_go (hcasing.mem_of_mem_lower h (hmember d hd)) with rfl | ⟨-, hnot⟩
  · rw [hmark] at hd
    cases hd
  · rw [hnot] at hd
    cases hd

theorem separated_separated :
    separated casing mark isMember (separated casing mark isMember text) =
      separated casing mark isMember text := by
  have hlower : separated casing mark isMember (separated casing mark isMember text) =
      casing.lower (separated casing mark isMember text) := separated_eq_lower
    (fun a _ b hb => by rw [hcasing.lower_isUpperLatin hb, Bool.and_false])
    fun c => not_isMember_of_mem_separated hcasing hmark hmember
  rw [hlower, separated, hcasing.lower_lower]

theorem upper_separated_upper :
    casing.upper (separated casing mark isMember
        (casing.upper (separated casing mark isMember text))) =
      casing.upper (separated casing mark isMember text) := by
  have hlower : separated casing mark isMember
        (casing.upper (separated casing mark isMember text)) =
      casing.lower (casing.upper (separated casing mark isMember text)) := separated_eq_lower
    (fun a ha b _ => by rw [hcasing.upper_isLowerLatin ha, Bool.false_and])
    fun c hc => by
      rw [Bool.eq_false_iff]
      intro hmem
      have hnot := not_isMember_of_mem_separated hcasing hmark hmember
        (hcasing.mem_of_mem_upper hc (hmember c hmem))
      rw [hnot] at hmem
      cases hmem
  rw [hlower, separated, hcasing.upper_lower_upper]

end Separated

theorem isSeparator_of_isBlank_or_isUnderscore (h : (c.isBlank || isUnderscore c) = true) :
    isSeparator c = true := by
  rw [isSeparator, Bool.or_assoc, Bool.or_comm (isUnderscore c), h, Bool.or_true]

theorem isSeparator_of_isBlank_or_isHyphen (h : (c.isBlank || isHyphen c) = true) :
    isSeparator c = true := by
  rw [isSeparator, Bool.or_right_comm, Bool.or_comm (isHyphen c), h, Bool.true_or]

theorem kebab_kebab (hcasing : casing.IsRegular) :
    kebab casing (kebab casing text) = kebab casing text :=
  separated_separated hcasing (by decide) fun _ => isSeparator_of_isBlank_or_isUnderscore

theorem snake_snake (hcasing : casing.IsRegular) :
    snake casing (snake casing text) = snake casing text :=
  separated_separated hcasing (by decide) fun _ => isSeparator_of_isBlank_or_isHyphen

theorem upperSnake_upperSnake (hcasing : casing.IsRegular) :
    upperSnake casing (upperSnake casing text) = upperSnake casing text :=
  upper_separated_upper hcasing (by decide) fun _ => isSeparator_of_isBlank_or_isHyphen

theorem of_mem_kebab (hcasing : casing.IsRegular) (h : c ∈ kebab casing text) :
    isUnderscore c = false ∧ c.isBlank = false ∧ c.isUpperLatin = false := by
  have hmember := not_isMember_of_mem_separated hcasing (by decide)
    (fun _ => isSeparator_of_isBlank_or_isUnderscore) h
  rw [Bool.or_eq_false_iff] at hmember
  exact ⟨hmember.2, hmember.1, hcasing.lower_isUpperLatin h⟩

theorem of_mem_snake (hcasing : casing.IsRegular) (h : c ∈ snake casing text) :
    isHyphen c = false ∧ c.isBlank = false ∧ c.isUpperLatin = false := by
  have hmember := not_isMember_of_mem_separated hcasing (by decide)
    (fun _ => isSeparator_of_isBlank_or_isHyphen) h
  rw [Bool.or_eq_false_iff] at hmember
  exact ⟨hmember.2, hmember.1, hcasing.lower_isUpperLatin h⟩

/-! ## Slugs -/

/-- Groups of code points that are no members. -/
def AreGroups (isMember : CodePoint → Bool) (groups : List Text) : Prop :=
  ∀ group ∈ groups, group ≠ [] ∧ ∀ c ∈ group, isMember c = false

theorem AreGroups.cons_char (hgroups : AreGroups isMember (first :: groups))
    (hc : isMember c = false) : AreGroups isMember ((c :: first) :: groups) := by
  obtain ⟨⟨-, hfirst⟩, hgroups⟩ := List.forall_mem_cons.1 hgroups
  exact List.forall_mem_cons.2
    ⟨⟨List.cons_ne_nil _ _, List.forall_mem_cons.2 ⟨hc, hfirst⟩⟩, hgroups⟩

theorem AreGroups.cons_single (hgroups : AreGroups isMember groups) (hc : isMember c = false) :
    AreGroups isMember ([c] :: groups) :=
  List.forall_mem_cons.2
    ⟨⟨List.cons_ne_nil _ _, List.forall_mem_singleton.2 hc⟩, hgroups⟩

theorem joinWith_cons_char (separator : Text) (c : CodePoint) (first : Text) (groups : List Text) :
    Text.joinWith separator ((c :: first) :: groups) =
      c :: Text.joinWith separator (first :: groups) := by
  cases groups with
  | nil => rw [Text.joinWith_singleton, Text.joinWith_singleton]
  | cons second groups =>
      rw [Text.joinWith_cons_cons, Text.joinWith_cons_cons, List.cons_append]

/--
What is left of a text are its groups with single marks between them.  There is a mark in front
only if the text starts with members that follow no others, and one behind only if it ends with
members that follow a group.
-/
theorem exists_groups (mark : CodePoint) (isMember : CodePoint → Bool) (inRun : Bool)
    (text : Text) :
    ∃ lead groups trail,
      collapse.go mark isMember inRun text = lead ++ Text.joinWith [mark] groups ++ trail ∧
        AreGroups isMember groups ∧ (lead = [] ∨ lead = [mark] ∧ inRun = false) ∧
        (trail = [] ∨ trail = [mark] ∧ groups ≠ []) := by
  induction text generalizing inRun with
  | nil => exact ⟨[], [], [], rfl, List.forall_mem_nil _, .inl rfl, .inl rfl⟩
  | cons c text ih =>
      by_cases hc : isMember c = true
      · obtain ⟨lead, groups, trail, hgo, hgroups, hlead, htrail⟩ := ih true
        obtain rfl : lead = [] := hlead.resolve_right fun h => Bool.noConfusion h.2
        cases inRun with
        | true =>
            exact ⟨[], groups, trail, by simp [collapse.go, hc, hgo], hgroups, .inl rfl, htrail⟩
        | false =>
            exact ⟨[mark], groups, trail, by simp [collapse.go, hc, hgo], hgroups, .inr ⟨rfl, rfl⟩,
              htrail⟩
      · rw [Bool.not_eq_true] at hc
        obtain ⟨lead, groups, trail, hgo, hgroups, hlead, htrail⟩ := ih false
        have hgo' : collapse.go mark isMember inRun (c :: text) =
            c :: (lead ++ Text.joinWith [mark] groups ++ trail) := by
          rw [collapse.go, hc, hgo]
          rfl
        rw [hgo']
        cases groups with
        | nil =>
            -- nothing but members follows
            obtain rfl : trail = [] := htrail.resolve_right fun h => h.2 rfl
            refine ⟨[], [[c]], lead, by simp [Text.joinWith], hgroups.cons_single hc, .inl rfl, ?_⟩
            exact hlead.imp_right fun h => ⟨h.1, List.cons_ne_nil _ _⟩
        | cons group groups =>
            have htrail' : ∀ other : List Text, other ≠ [] →
                trail = [] ∨ trail = [mark] ∧ other ≠ [] :=
              fun _ hother => htrail.imp_right fun h => ⟨h.1, hother⟩
            rcases hlead with rfl | ⟨rfl, -⟩
            · exact ⟨[], (c :: group) :: groups, trail, by simp [joinWith_cons_char],
                hgroups.cons_char hc, .inl rfl, htrail' _ (List.cons_ne_nil _ _)⟩
            · exact ⟨[], [c] :: group :: groups, trail, by simp, hgroups.cons_single hc, .inl rfl,
                htrail' _ (List.cons_ne_nil _ _)⟩

theorem AreGroups.collapse_go (hgroups : AreGroups isMember groups)
    (hmark : isMember mark = true) (inRun : Bool) :
    collapse.go mark isMember inRun (Text.joinWith [mark] groups) =
      Text.joinWith [mark] groups := by
  induction groups generalizing inRun with
  | nil => rfl
  | cons group groups ih =>
      obtain ⟨⟨hne, hgroup⟩, hgroups⟩ := List.forall_mem_cons.1 hgroups
      cases groups with
      | nil =>
          rw [Text.joinWith_singleton, ← List.append_nil group, collapse_go_append hgroup hne]
          rfl
      | cons next groups =>
          rw [Text.joinWith_cons_cons, collapse_go_append hgroup hne, List.singleton_append,
            collapse.go, hmark, ih hgroups true]
          rfl

theorem dropWhile_append {drop : CodePoint → Bool} {lead rest : Text}
    (hlead : ∀ c ∈ lead, drop c = true) (hrest : ∀ c ∈ rest.head?, drop c = false) :
    (lead ++ rest).dropWhile drop = rest := by
  rw [List.dropWhile_append_of_pos hlead]
  cases rest with
  | nil => rfl
  | cons c rest => exact List.dropWhile_cons_of_neg (by simpa using hrest c rfl)

theorem trim_append {drop : CodePoint → Bool} {lead middle trail : Text}
    (hlead : ∀ c ∈ lead, drop c = true) (htrail : ∀ c ∈ trail, drop c = true)
    (hhead : ∀ c ∈ middle.head?, drop c = false) (hlast : ∀ c ∈ middle.getLast?, drop c = false) :
    Text.trim drop (lead ++ middle ++ trail) = middle := by
  rw [Text.trim, Text.trimStart, Text.trimEnd, List.append_assoc]
  cases middle with
  | nil =>
      have hall : (lead ++ trail ++ []).dropWhile drop = [] :=
        dropWhile_append (List.forall_mem_append.2 ⟨hlead, htrail⟩) (fun _ h => by cases h)
      rw [List.append_nil] at hall
      rw [List.nil_append, hall]
      rfl
  | cons c middle =>
      rw [dropWhile_append hlead (by simpa using hhead), List.reverse_append,
        dropWhile_append (by simpa using htrail) (by rwa [List.head?_reverse]),
        List.reverse_reverse]

theorem trim_eq_self {drop : CodePoint → Bool} (h : ∀ c ∈ text, drop c = false) :
    Text.trim drop text = text := by
  have htrim : Text.trim drop ([] ++ text ++ []) = text := trim_append (List.forall_mem_nil _)
    (List.forall_mem_nil _) (fun c hc => h c (List.mem_of_head? hc))
    fun c hc => h c (List.mem_of_getLast? hc)
  rwa [List.nil_append, List.append_nil] at htrim

theorem AreGroups.head? (hgroups : AreGroups isMember groups) :
    ∀ c ∈ (Text.joinWith [mark] groups).head?, isMember c = false := by
  cases groups with
  | nil => exact fun _ h => by cases h
  | cons group groups =>
      obtain ⟨hne, hgroup⟩ := hgroups group List.mem_cons_self
      obtain ⟨c, group, rfl⟩ := List.exists_cons_of_ne_nil hne
      rw [joinWith_cons_char]
      intro d hd
      cases hd
      exact hgroup c List.mem_cons_self

theorem AreGroups.joinWith_ne_nil (hgroups : AreGroups isMember groups) (hne : groups ≠ []) :
    Text.joinWith [mark] groups ≠ [] := by
  obtain ⟨group, groups, rfl⟩ := List.exists_cons_of_ne_nil hne
  obtain ⟨c, group, rfl⟩ := List.exists_cons_of_ne_nil (hgroups group List.mem_cons_self).1
  rw [joinWith_cons_char]
  exact List.cons_ne_nil _ _

theorem AreGroups.getLast? (hgroups : AreGroups isMember groups) :
    ∀ c ∈ (Text.joinWith [mark] groups).getLast?, isMember c = false := by
  induction groups with
  | nil => exact fun _ h => by cases h
  | cons group groups ih =>
      obtain ⟨⟨-, hgroup⟩, hgroups⟩ := List.forall_mem_cons.1 hgroups
      cases groups with
      | nil =>
          rw [Text.joinWith_singleton]
          exact fun c hc => hgroup c (List.mem_of_getLast? hc)
      | cons next groups =>
          have hne : Text.joinWith [mark] (next :: groups) ≠ [] :=
            AreGroups.joinWith_ne_nil hgroups (List.cons_ne_nil _ _)
          rw [Text.joinWith_cons_cons, List.getLast?_append_of_ne_nil _ (by simp),
            List.getLast?_append_of_ne_nil _ hne]
          exact ih hgroups

/-! ### The groups of a slug -/

def isSlugMark (c : CodePoint) : Bool := !(c.isLowerLatin || c.isDigit)

theorem isSlugMark_eq_false_iff :
    isSlugMark c = false ↔ c.isLowerLatin = true ∨ c.isDigit = true := by
  rw [isSlugMark, Bool.not_eq_false', Bool.or_eq_true]

theorem not_isHyphen_of_not_isSlugMark (h : isSlugMark c = false) : isHyphen c = false := by
  rw [Bool.eq_false_iff]
  intro hhyphen
  rw [isHyphen, decide_eq_true_eq] at hhyphen
  rw [hhyphen] at h
  exact absurd h (by decide)

theorem trim_groups {lead trail : Text} (hgroups : AreGroups isSlugMark groups)
    (hlead : ∀ c ∈ lead, isHyphen c = true) (htrail : ∀ c ∈ trail, isHyphen c = true) :
    Text.trim isHyphen (lead ++ Text.joinWith [scalar '-'] groups ++ trail) =
      Text.joinWith [scalar '-'] groups :=
  trim_append hlead htrail (fun c hc => not_isHyphen_of_not_isSlugMark (hgroups.head? c hc))
    fun c hc => not_isHyphen_of_not_isSlugMark (hgroups.getLast? c hc)

theorem exists_slug_eq (casing : Casing) (text : Text) :
    ∃ groups, AreGroups isSlugMark groups ∧
      slug casing text = Text.joinWith [scalar '-'] groups := by
  obtain ⟨lead, groups, trail, hgo, hgroups, hlead, htrail⟩ :=
    exists_groups (scalar '-') isSlugMark false (Text.strip (casing.lower text))
  refine ⟨groups, hgroups, ?_⟩
  show Text.trim isHyphen (collapse.go (scalar '-') isSlugMark false _) = _
  rw [hgo]
  refine trim_groups hgroups ?_ ?_
  · rcases hlead with rfl | ⟨rfl, -⟩ <;> simp [isHyphen]
  · rcases htrail with rfl | ⟨rfl, -⟩ <;> simp [isHyphen]

theorem plain_of_not_isSlugMark (h : isSlugMark c = false) :
    c.toNat < 128 ∧ c.isUpperLatin = false ∧ c.isBlank = false := by
  rw [isSlugMark_eq_false_iff, CodePoint.isLowerLatin, CodePoint.isDigit,
    CodePoint.isBetween_iff, CodePoint.isBetween_iff] at h
  simp only [Char.reduceToNat] at h
  have hsmall : c.toNat < 128 := by omega
  have hblank : ∀ code < 128, 48 ≤ code → CodePoint.blankRanges.has code = false := by decide
  refine ⟨hsmall, ?_, hblank _ hsmall (by omega)⟩
  rw [Bool.eq_false_iff, CodePoint.isUpperLatin, Ne, CodePoint.isBetween_iff]
  simp only [Char.reduceToNat]
  omega

theorem plain_of_mem_groups (hgroups : AreGroups isSlugMark groups)
    (h : c ∈ Text.joinWith [scalar '-'] groups) :
    c.toNat < 128 ∧ c.isUpperLatin = false ∧ c.isBlank = false := by
  rcases Text.eq_or_mem_of_mem_joinWith h with rfl | ⟨group, hgroup, hc⟩
  · decide
  · exact plain_of_not_isSlugMark ((hgroups group hgroup).2 c hc)

theorem slug_slug (hcasing : casing.IsRegular) :
    slug casing (slug casing text) = slug casing text := by
  obtain ⟨groups, hgroups, heq⟩ := exists_slug_eq casing text
  have hplain := fun c => plain_of_mem_groups (c := c) hgroups
  have hlower : casing.lower (Text.joinWith [scalar '-'] groups) =
      Text.joinWith [scalar '-'] groups := by
    rw [hcasing.lower_ascii fun c hc => (hplain c hc).1,
      Text.map_lowerLatin_eq_self fun c hc => (hplain c hc).2.1]
  have hstrip : Text.strip (Text.joinWith [scalar '-'] groups) =
      Text.joinWith [scalar '-'] groups := trim_eq_self fun c hc => (hplain c hc).2.2
  have hcollapse : collapse (scalar '-') isSlugMark (Text.joinWith [scalar '-'] groups) =
      Text.joinWith [scalar '-'] groups := hgroups.collapse_go (by decide) false
  have htrim : Text.trim isHyphen ([] ++ Text.joinWith [scalar '-'] groups ++ []) =
      Text.joinWith [scalar '-'] groups :=
    trim_groups hgroups (List.forall_mem_nil _) (List.forall_mem_nil _)
  rw [List.nil_append, List.append_nil] at htrim
  show Text.trim isHyphen (collapse (scalar '-') isSlugMark (Text.strip (casing.lower _))) = _
  rw [heq, hlower, hstrip, hcollapse, htrim]

/-! ## All spellings -/

open Casing (unicode isRegular_unicode)

/--
Each spelling of a text is its own spelling, and none leaves what it is there to remove.  A slug
is made of groups of small letters and digits with single hyphens between them.
-/
theorem spellings_settle (text : Text) :
    camel unicode (camel unicode text) = camel unicode text ∧
      pascal unicode (pascal unicode text) = pascal unicode text ∧
      kebab unicode (kebab unicode text) = kebab unicode text ∧
      snake unicode (snake unicode text) = snake unicode text ∧
      upperSnake unicode (upperSnake unicode text) = upperSnake unicode text ∧
      slug unicode (slug unicode text) = slug unicode text ∧
      (∀ c ∈ camel unicode text, c ≠ scalar '-' ∧ c ≠ scalar '_' ∧ c.isBlank = false) ∧
      (∀ c ∈ kebab unicode text,
        c ≠ scalar '_' ∧ c.isBlank = false ∧ c.isUpperLatin = false) ∧
      (∀ c ∈ snake unicode text,
        c ≠ scalar '-' ∧ c.isBlank = false ∧ c.isUpperLatin = false) ∧
      ∃ groups : List Text,
        (∀ group ∈ groups, group ≠ [] ∧
          ∀ c ∈ group, c.isLowerLatin = true ∨ c.isDigit = true) ∧
        slug unicode text = Text.joinWith "-" groups := by
  obtain ⟨groups, hgroups, hslug⟩ := exists_slug_eq unicode text
  refine ⟨camel_camel isRegular_unicode, pascal_pascal isRegular_unicode,
    kebab_kebab isRegular_unicode, snake_snake isRegular_unicode,
    upperSnake_upperSnake isRegular_unicode, slug_slug isRegular_unicode, fun c hc => ?_,
    fun c hc => ?_, fun c hc => ?_, groups, fun group hgroup => ?_, hslug⟩
  · have hplain := not_isSeparator_of_mem_camelFrom isRegular_unicode c hc
    simpa [isSeparator, isHyphen, isUnderscore, and_assoc] using hplain
  · simpa [isUnderscore] using of_mem_kebab isRegular_unicode hc
  · simpa [isHyphen] using of_mem_snake isRegular_unicode hc
  · exact (hgroups group hgroup).imp_right fun h c hc => isSlugMark_eq_false_iff.1 (h c hc)

end Naming

end Stencil

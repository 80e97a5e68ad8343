import Stencil.Proofs.Naming.Settling

/-!
# Spellings of words

A list of words of two or more small letters is written with hyphens,
underscores or spaces between the words, or with capitals at their starts.
Whichever way a name is written, every spelling of it is the spelling of its
words, and the words can be told from it.
-/

namespace Stencil.Naming

open CodePoint (scalar)

structure IsWord (word : Text) : Prop where
  small : ∀ c ∈ word, c.isLowerLatin = true
  long : 2 ≤ word.length

/-- The ways to write a list of words. -/
inductive Style where
  | kebab
  | snake
  | spaced
  | camel
  | pascal
  deriving DecidableEq

def capitalized : Text → Text
  | [] => []
  | c :: rest => c.upperLatin :: rest

def Style.write : Style → List Text → Text
  | .kebab, words => Text.joinWith "-" words
  | .snake, words => Text.joinWith "_" words
  | .spaced, words => Text.joinWith " " words
  | .camel, [] => []
  | .camel, word :: words => word ++ words.flatMap capitalized
  | .pascal, words => words.flatMap capitalized

def writeUpperSnake (words : List Text) : Text :=
  Text.joinWith "_" (words.map fun word => word.map CodePoint.upperLatin)

variable {casing : Casing} {c mark separator : CodePoint} {isMember : CodePoint → Bool}
  {text word body first : Text} {words : List Text}

/-! ## Letters -/

theorem isLowerLatin_iff : c.isLowerLatin = true ↔ 97 ≤ c.toNat ∧ c.toNat ≤ 122 :=
  CodePoint.isBetween_iff

theorem isUpperLatin_iff : c.isUpperLatin = true ↔ 65 ≤ c.toNat ∧ c.toNat ≤ 90 :=
  CodePoint.isBetween_iff

theorem toNat_upperLatin (h : c.isLowerLatin = true) : c.upperLatin.toNat = c.toNat - 32 := by
  have hbounds := isLowerLatin_iff.1 h
  rw [CodePoint.upperLatin, if_pos h, CodePoint.toNat_ofNat_of_lt (by omega)]

theorem isUpperLatin_upperLatin (h : c.isLowerLatin = true) : c.upperLatin.isUpperLatin = true := by
  have hbounds := isLowerLatin_iff.1 h
  rw [isUpperLatin_iff, toNat_upperLatin h]
  omega

theorem not_isUpperLatin_of_isLowerLatin (h : c.isLowerLatin = true) : c.isUpperLatin = false := by
  have hbounds := isLowerLatin_iff.1 h
  rw [Bool.eq_false_iff, Ne, isUpperLatin_iff]
  omega

theorem not_isLowerLatin_of_isUpperLatin (h : c.isUpperLatin = true) : c.isLowerLatin = false := by
  have hbounds := isUpperLatin_iff.1 h
  rw [Bool.eq_false_iff, Ne, isLowerLatin_iff]
  omega

theorem lowerLatin_upperLatin (h : c.isLowerLatin = true) : c.upperLatin.lowerLatin = c := by
  have hbounds := isLowerLatin_iff.1 h
  rw [CodePoint.lowerLatin, if_pos (isUpperLatin_upperLatin h), toNat_upperLatin h,
    Nat.sub_add_cancel (by omega), CodePoint.ofNat_toNat_self]

theorem not_isSeparator_of_isLatin (h : c.isLatin = true) : isSeparator c = false := by
  have hletters : ∀ code < 128, 65 ≤ code → CodePoint.blankRanges.has code = false := by decide
  rw [CodePoint.isLatin, Bool.or_eq_true, isLowerLatin_iff, isUpperLatin_iff] at h
  have hblank : c.isBlank = false := hletters _ (by omega) (by omega)
  have hne : c ≠ scalar '-' ∧ c ≠ scalar '_' := by
    constructor <;> rintro rfl <;> exact absurd h (by decide)
  rw [isSeparator, isHyphen, isUnderscore, hblank, decide_eq_false hne.1, decide_eq_false hne.2]
  rfl

theorem toNat_lt_of_isLatin (h : c.isLatin = true) : c.toNat < 128 := by
  rw [CodePoint.isLatin, Bool.or_eq_true, isLowerLatin_iff, isUpperLatin_iff] at h
  omega

theorem isLatin_of_isLowerLatin (h : c.isLowerLatin = true) : c.isLatin = true := by
  rw [CodePoint.isLatin, h, Bool.true_or]

theorem isLatin_upperLatin (h : c.isLowerLatin = true) : c.upperLatin.isLatin = true := by
  rw [CodePoint.isLatin, isUpperLatin_upperLatin h, Bool.or_true]

/-! ## Words -/

namespace IsWord

theorem exists_cons (h : IsWord word) :
    ∃ c body, word = c :: body ∧ c.isLowerLatin = true ∧ body ≠ [] ∧
      ∀ d ∈ body, d.isLowerLatin = true := by
  obtain ⟨hsmall, hlong⟩ := h
  match word, hsmall, hlong with
  | c :: d :: rest, hsmall, _ =>
      obtain ⟨hc, hrest⟩ := List.forall_mem_cons.1 hsmall
      exact ⟨c, d :: rest, rfl, hc, List.cons_ne_nil _ _, hrest⟩

theorem ne_nil (h : IsWord word) : word ≠ [] := by
  obtain ⟨c, body, rfl, -⟩ := h.exists_cons
  exact List.cons_ne_nil _ _

theorem isLatin (h : IsWord word) : ∀ c ∈ word, c.isLatin = true :=
  fun c hc => isLatin_of_isLowerLatin (h.small c hc)

theorem isLatin_capitalized (h : IsWord word) : ∀ c ∈ capitalized word, c.isLatin = true := by
  obtain ⟨c, body, rfl, hc, -, hbody⟩ := h.exists_cons
  exact List.forall_mem_cons.2
    ⟨isLatin_upperLatin hc, fun d hd => isLatin_of_isLowerLatin (hbody d hd)⟩

theorem map_lowerLatin (h : IsWord word) : word.map CodePoint.lowerLatin = word :=
  Text.map_lowerLatin_eq_self fun c hc => not_isUpperLatin_of_isLowerLatin (h.small c hc)

theorem map_lowerLatin_capitalized (h : IsWord word) :
    (capitalized word).map CodePoint.lowerLatin = word := by
  obtain ⟨c, body, rfl, hc, -, hbody⟩ := h.exists_cons
  rw [capitalized, List.map_cons, lowerLatin_upperLatin hc, Text.map_lowerLatin_eq_self fun d hd =>
    not_isUpperLatin_of_isLowerLatin (hbody d hd)]

end IsWord

/-- All words but the first follow a separator. -/
theorem joinWith_cons (separator : CodePoint) (word : Text) (words : List Text) :
    Text.joinWith [separator] (word :: words) = word ++ words.flatMap (separator :: ·) := by
  induction words generalizing word with
  | nil => simp
  | cons next words ih => simp [ih]

/-! ## Joined spellings -/

theorem camelFrom_append (h : ∀ c ∈ first, isSeparator c = false) (rest : Text) :
    camelFrom casing false (first ++ rest) = first ++ camelFrom casing false rest := by
  induction first with
  | nil => rfl
  | cons c first ih =>
      obtain ⟨hc, hfirst⟩ := List.forall_mem_cons.1 h
      simp [camelFrom, hc, ih hfirst]

theorem camelFrom_flatMap (hcasing : casing.IsRegular) (hseparator : isSeparator separator = true)
    (hwords : ∀ word ∈ words, IsWord word) :
    camelFrom casing false (words.flatMap (separator :: ·)) = words.flatMap capitalized := by
  induction words with
  | nil => rfl
  | cons word words ih =>
      obtain ⟨hword, hothers⟩ := List.forall_mem_cons.1 hwords
      obtain ⟨c, body, rfl, hc, -, hbody⟩ := hword.exists_cons
      have hplain := not_isSeparator_of_isLatin (isLatin_of_isLowerLatin hc)
      have hupper : casing.upper [c] = [c.upperLatin] :=
        hcasing.upper_ascii (List.forall_mem_singleton.2
          (toNat_lt_of_isLatin (isLatin_of_isLowerLatin hc)))
      simp only [List.flatMap_cons, List.cons_append, camelFrom, hseparator, hplain, if_true,
        Bool.false_eq_true, if_false, hupper, capitalized, List.nil_append]
      rw [camelFrom_append fun d hd =>
        not_isSeparator_of_isLatin (isLatin_of_isLowerLatin (hbody d hd)), ih hothers]

theorem camel_joinWith (hcasing : casing.IsRegular) (hseparator : isSeparator separator = true)
    (hwords : ∀ word ∈ words, IsWord word) :
    camel casing (Text.joinWith [separator] words) = Style.camel.write words := by
  cases words with
  | nil => rfl
  | cons word words =>
      obtain ⟨hword, hwords⟩ := List.forall_mem_cons.1 hwords
      rw [camel, joinWith_cons, camelFrom_append fun c hc => not_isSeparator_of_isLatin
        (hword.isLatin c hc), camelFrom_flatMap hcasing hseparator hwords]
      rfl

theorem isLatin_flatMap_capitalized (hwords : ∀ word ∈ words, IsWord word) :
    ∀ c ∈ words.flatMap capitalized, c.isLatin = true := by
  intro c hc
  obtain ⟨word, hword, hc⟩ := List.mem_flatMap.1 hc
  exact (hwords word hword).isLatin_capitalized c hc

/-! ## Separated spellings -/

theorem markHumps_cons (h : ∀ d ∈ text.head?, d.isUpperLatin = false) :
    markHumps mark (c :: text) = c :: markHumps mark text := by
  cases text with
  | nil => rfl
  | cons d text => rw [markHumps, h d rfl, Bool.and_false]; rfl

theorem markHumps_before_capital {rest : Text} (hne : body ≠ [])
    (hbody : ∀ d ∈ body, d.isLowerLatin = true) (hc : c.isUpperLatin = true) :
    markHumps mark (body ++ c :: rest) = body ++ mark :: markHumps mark (c :: rest) := by
  induction body with
  | nil => exact absurd rfl hne
  | cons d body ih =>
      obtain ⟨hd, hbody⟩ := List.forall_mem_cons.1 hbody
      cases body with
      | nil => simp [markHumps, hd, hc]
      | cons e body =>
          have he := not_isUpperLatin_of_isLowerLatin (hbody e List.mem_cons_self)
          rw [List.cons_append, markHumps_cons (by simpa using he),
            ih (List.cons_ne_nil _ _) hbody]
          rfl

/-- The start of every further word is a hump. -/
theorem markHumps_append (hwords : ∀ word ∈ words, IsWord word) (hne : body ≠ [])
    (hbody : ∀ c ∈ body, c.isLowerLatin = true) :
    markHumps mark (body ++ words.flatMap capitalized) =
      body ++ words.flatMap fun word => mark :: capitalized word := by
  induction words generalizing body with
  | nil =>
      rw [List.flatMap_nil, List.flatMap_nil, List.append_nil]
      exact markHumps_eq_self fun a _ b hb => by
        rw [not_isUpperLatin_of_isLowerLatin (hbody b hb), Bool.and_false]
  | cons word words ih =>
      obtain ⟨hword, hothers⟩ := List.forall_mem_cons.1 hwords
      obtain ⟨c, rest, rfl, hc, hrest, hsmall⟩ := hword.exists_cons
      have hhead : ∀ d ∈ (rest ++ words.flatMap capitalized).head?, d.isUpperLatin = false := by
        obtain ⟨d, rest, rfl⟩ := List.exists_cons_of_ne_nil hrest
        intro e he
        cases he
        exact not_isUpperLatin_of_isLowerLatin (hsmall d List.mem_cons_self)
      rw [List.flatMap_cons, capitalized, List.cons_append,
        markHumps_before_capital hne hbody (isUpperLatin_upperLatin hc), markHumps_cons hhead,
        ih hothers hrest hsmall, List.flatMap_cons, capitalized, List.cons_append, List.cons_append]

theorem markHumps_first (hwords : ∀ word ∈ words, IsWord word) (hword : IsWord word)
    (hfirst : first = word ∨ first = capitalized word) :
    markHumps mark (first ++ words.flatMap capitalized) =
      first ++ words.flatMap fun word => mark :: capitalized word := by
  obtain ⟨c, d, body, rfl, hsmall⟩ : ∃ c d body, first = c :: d :: body ∧
      ∀ e ∈ d :: body, e.isLowerLatin = true := by
    obtain ⟨c, body, rfl, -, hne, hbody⟩ := hword.exists_cons
    obtain ⟨d, body, rfl⟩ := List.exists_cons_of_ne_nil hne
    rcases hfirst with rfl | rfl
    · exact ⟨c, d, body, rfl, hbody⟩
    · exact ⟨c.upperLatin, d, body, rfl, hbody⟩
  have hd := not_isUpperLatin_of_isLowerLatin (hsmall d List.mem_cons_self)
  rw [List.cons_append, markHumps_cons (by simpa using hd),
    markHumps_append hwords (List.cons_ne_nil _ _) hsmall]
  rfl

theorem collapse_go_flatMap (hseparator : isMember separator = true)
    (hwords : ∀ word ∈ words, word ≠ [] ∧ ∀ c ∈ word, isMember c = false) :
    collapse.go mark isMember false (words.flatMap (separator :: ·)) =
      words.flatMap (mark :: ·) := by
  induction words with
  | nil => rfl
  | cons word words ih =>
      obtain ⟨⟨hne, hword⟩, hothers⟩ := List.forall_mem_cons.1 hwords
      rw [List.flatMap_cons, List.cons_append, collapse.go, if_pos hseparator,
        if_neg Bool.false_ne_true, collapse_go_append hword hne, ih hothers, List.flatMap_cons,
        List.cons_append]

theorem not_isUpperLatin_of_isSeparator (h : isSeparator c = true) : c.isUpperLatin = false := by
  rw [Bool.eq_false_iff]
  intro hc
  have hlatin : c.isLatin = true := by rw [CodePoint.isLatin, hc, Bool.or_true]
  rw [not_isSeparator_of_isLatin hlatin] at h
  cases h

theorem not_isUpperLatin_of_mem_joinWith (hseparator : isSeparator separator = true)
    (hwords : ∀ word ∈ words, IsWord word) (h : c ∈ Text.joinWith [separator] words) :
    c.isUpperLatin = false := by
  rcases Text.eq_or_mem_of_mem_joinWith h with rfl | ⟨word, hword, hc⟩
  · exact not_isUpperLatin_of_isSeparator hseparator
  · exact not_isUpperLatin_of_isLowerLatin ((hwords word hword).small c hc)

theorem isAscii_joinWith (hascii : separator.toNat < 128) (hwords : ∀ word ∈ words, IsWord word) :
    (Text.joinWith [separator] words).IsAscii := by
  intro c hc
  rcases Text.eq_or_mem_of_mem_joinWith hc with rfl | ⟨word, hword, hc⟩
  · exact hascii
  · exact toNat_lt_of_isLatin ((hwords word hword).isLatin c hc)

section Separated

variable (hcasing : casing.IsRegular) (hwords : ∀ word ∈ words, IsWord word)
  (hmember : ∀ c, isMember c = true → isSeparator c = true)

include hmember in
theorem not_isMember_of_isLatin (h : c.isLatin = true) : isMember c = false := by
  rw [Bool.eq_false_iff]
  intro hc
  have hplain := hmember c hc
  rw [not_isSeparator_of_isLatin h] at hplain
  cases hplain

include hcasing hwords hmember

/-- A separator is the mark already, or it becomes one. -/
theorem separated_joinWith (hmark : isSeparator mark = true) (hascii : mark.toNat < 128)
    (hseparator : isSeparator separator = true)
    (hmarks : separator = mark ∧ isMember mark = false ∨ isMember separator = true) :
    separated casing mark isMember (Text.joinWith [separator] words) =
      Text.joinWith [mark] words := by
  have hhumps : markHumps mark (Text.joinWith [separator] words) =
      Text.joinWith [separator] words := markHumps_eq_self fun a _ b hb => by
    rw [not_isUpperLatin_of_mem_joinWith hseparator hwords hb, Bool.and_false]
  have hcollapse : collapse mark isMember (Text.joinWith [separator] words) =
      Text.joinWith [mark] words := by
    have hplain : ∀ word ∈ words, word ≠ [] ∧ ∀ c ∈ word, isMember c = false := fun word hword =>
      ⟨(hwords word hword).ne_nil, fun c hc =>
        not_isMember_of_isLatin hmember ((hwords word hword).isLatin c hc)⟩
    rcases hmarks with ⟨rfl, hmarkPlain⟩ | hmarkMember
    · refine collapse_eq_self fun c hc => ?_
      rcases Text.eq_or_mem_of_mem_joinWith hc with rfl | ⟨word, hword, hc⟩
      · exact hmarkPlain
      · exact (hplain word hword).2 c hc
    · cases words with
      | nil => rfl
      | cons word words =>
          obtain ⟨⟨hne, hword⟩, hothers⟩ := List.forall_mem_cons.1 hplain
          rw [joinWith_cons, joinWith_cons, collapse, collapse_go_append hword hne,
            collapse_go_flatMap hmarkMember hothers]
  have hlower : casing.lower (Text.joinWith [mark] words) = Text.joinWith [mark] words := by
    rw [hcasing.lower_ascii (isAscii_joinWith hascii hwords),
      Text.map_lowerLatin_eq_self fun c hc => not_isUpperLatin_of_mem_joinWith hmark hwords hc]
  rw [separated, hhumps, hcollapse, hlower]

theorem separated_humps (hmark : isSeparator mark = true) (hascii : mark.toNat < 128)
    (hmarkPlain : isMember mark = false) (hword : IsWord word)
    (hfirst : first = word ∨ first = capitalized word) :
    separated casing mark isMember (first ++ words.flatMap capitalized) =
      Text.joinWith [mark] (word :: words) := by
  have hhumps : markHumps mark (first ++ words.flatMap capitalized) =
      first ++ words.flatMap fun word => mark :: capitalized word :=
    markHumps_first hwords hword hfirst
  have hfirstLatin : ∀ c ∈ first, c.isLatin = true := by
    rcases hfirst with rfl | rfl
    · exact hword.isLatin
    · exact hword.isLatin_capitalized
  have hletters : ∀ c ∈ first ++ words.flatMap fun word => mark :: capitalized word,
      c.isLatin = true ∨ c = mark := by
    refine List.forall_mem_append.2 ⟨fun c hc => .inl (hfirstLatin c hc), fun c hc => ?_⟩
    obtain ⟨other, hother, hc⟩ := List.mem_flatMap.1 hc
    rcases List.mem_cons.1 hc with rfl | hc
    · exact .inr rfl
    · exact .inl ((hwords other hother).isLatin_capitalized c hc)
  have hcollapse : collapse mark isMember
      (first ++ words.flatMap fun word => mark :: capitalized word) =
        first ++ words.flatMap fun word => mark :: capitalized word := by
    refine collapse_eq_self fun c hc => ?_
    rcases hletters c hc with hlatin | rfl
    · exact not_isMember_of_isLatin hmember hlatin
    · exact hmarkPlain
  have hlower := hcasing.lower_ascii fun c hc => by
    rcases hletters c hc with hlatin | rfl
    · exact toNat_lt_of_isLatin hlatin
    · exact hascii
  have hmarkLower : mark.lowerLatin = mark := by
    rw [CodePoint.lowerLatin, not_isUpperLatin_of_isSeparator hmark]
    rfl
  have hfirstLower : first.map CodePoint.lowerLatin = word := by
    rcases hfirst with rfl | rfl
    · exact hword.map_lowerLatin
    · exact hword.map_lowerLatin_capitalized
  have hothers : (words.flatMap fun word => mark :: capitalized word).map CodePoint.lowerLatin =
      words.flatMap (mark :: ·) := by
    rw [List.map_flatMap]
    refine List.flatMap_congr fun other hother => ?_
    rw [List.map_cons, hmarkLower, (hwords other hother).map_lowerLatin_capitalized]
  rw [separated, hhumps, hcollapse, hlower, List.map_append, hfirstLower, hothers, joinWith_cons]

/-- However words are written, they are separated by the mark alone. -/
theorem separated_write (hne : words ≠ []) (hmark : isSeparator mark = true)
    (hascii : mark.toNat < 128) (hmarkPlain : isMember mark = false)
    (hmarks : ∀ separator ∈ [scalar '-', scalar '_', scalar ' '],
      separator = mark ∨ isMember separator = true) (style : Style) :
    separated casing mark isMember (style.write words) = Text.joinWith [mark] words := by
  have hjoined : ∀ separator ∈ [scalar '-', scalar '_', scalar ' '],
      separated casing mark isMember (Text.joinWith [separator] words) =
        Text.joinWith [mark] words := fun separator hseparator => by
    refine separated_joinWith hcasing hwords hmember hmark hascii ?_
      ((hmarks separator hseparator).imp_left fun h => ⟨h, hmarkPlain⟩)
    revert separator
    decide
  obtain ⟨word, others, rfl⟩ := List.exists_cons_of_ne_nil hne
  obtain ⟨hword, hothers⟩ := List.forall_mem_cons.1 hwords
  cases style with
  | kebab => exact hjoined (scalar '-') (by decide)
  | snake => exact hjoined (scalar '_') (by decide)
  | spaced => exact hjoined (scalar ' ') (by decide)
  | camel =>
      exact separated_humps hcasing hothers hmember hmark hascii hmarkPlain hword (.inl rfl)
  | pascal =>
      exact separated_humps hcasing hothers hmember hmark hascii hmarkPlain hword (.inr rfl)

end Separated

/-! ## Spellings of written words -/

section Written

variable {others : List Text} {style other : Style}

theorem camel_write_pascal (hwords : ∀ word ∈ words, IsWord word) :
    camel casing (Style.pascal.write words) = Style.pascal.write words :=
  camelFrom_eq_self fun c hc =>
    not_isSeparator_of_isLatin (isLatin_flatMap_capitalized hwords c hc)

variable (hcasing : casing.IsRegular) (hne : words ≠ []) (hwords : ∀ word ∈ words, IsWord word)

include hcasing hne hwords

theorem kebab_write (style : Style) :
    kebab casing (style.write words) = Style.kebab.write words :=
  separated_write hcasing hwords (fun _ => isSeparator_of_isBlank_or_isUnderscore) hne (by decide)
    (by decide) (by decide) (by decide) style

theorem snake_write (style : Style) :
    snake casing (style.write words) = Style.snake.write words :=
  separated_write hcasing hwords (fun _ => isSeparator_of_isBlank_or_isHyphen) hne (by decide)
    (by decide) (by decide) (by decide) style

theorem upperSnake_write (style : Style) :
    upperSnake casing (style.write words) = writeUpperSnake words := by
  obtain ⟨word, others, rfl⟩ := List.exists_cons_of_ne_nil hne
  have hascii : (Text.joinWith [scalar '_'] (word :: others)).IsAscii :=
    isAscii_joinWith (by decide) hwords
  rw [upperSnake, snake_write hcasing hne hwords, writeUpperSnake]
  show casing.upper (Text.joinWith [scalar '_'] _) = Text.joinWith [scalar '_'] _
  rw [hcasing.upper_ascii hascii, joinWith_cons, List.map_cons, joinWith_cons, List.map_append,
    List.map_flatMap, List.flatMap_map]
  rfl

theorem camel_write (hstyle : style ≠ .pascal) :
    camel casing (style.write words) = Style.camel.write words := by
  cases style with
  | kebab => exact camel_joinWith hcasing (by decide) hwords
  | snake => exact camel_joinWith hcasing (by decide) hwords
  | spaced => exact camel_joinWith hcasing (by decide) hwords
  | camel =>
      obtain ⟨word, others, rfl⟩ := List.exists_cons_of_ne_nil hne
      obtain ⟨hword, hothers⟩ := List.forall_mem_cons.1 hwords
      exact camelFrom_eq_self (List.forall_mem_append.2
        ⟨fun c hc => not_isSeparator_of_isLatin (hword.isLatin c hc), fun c hc =>
          not_isSeparator_of_isLatin (isLatin_flatMap_capitalized hothers c hc)⟩)
  | pascal => exact absurd rfl hstyle

theorem pascal_write (style : Style) :
    pascal casing (style.write words) = Style.pascal.write words := by
  obtain ⟨word, others, rfl⟩ := List.exists_cons_of_ne_nil hne
  obtain ⟨c, body, rfl, hc, -, -⟩ := (hwords word List.mem_cons_self).exists_cons
  have hupper : ∀ d : CodePoint, d.isLatin = true → casing.upper [d] = [d.upperLatin] :=
    fun d hd => hcasing.upper_ascii (List.forall_mem_singleton.2 (toNat_lt_of_isLatin hd))
  by_cases hstyle : style = .pascal
  · rw [hstyle]
    have hcamel : camel casing (Style.pascal.write ((c :: body) :: others)) =
        Style.pascal.write ((c :: body) :: others) := camel_write_pascal hwords
    have hself : c.upperLatin.upperLatin = c.upperLatin := by
      rw [CodePoint.upperLatin,
        not_isLowerLatin_of_isUpperLatin (isUpperLatin_upperLatin hc)]
      rfl
    rw [pascal_of_cons hcamel, hupper _ (isLatin_upperLatin hc), hself]
    rfl
  · rw [pascal_of_cons (camel_write hcasing hne hwords hstyle),
      hupper c (isLatin_of_isLowerLatin hc)]
    rfl

/-- No two lists of words have a spelling in common. -/
theorem words_of_write (hother : others ≠ []) (hothers : ∀ word ∈ others, IsWord word)
    (h : other.write others = style.write words) : others = words := by
  have hhyphen : ∀ words : List Text, (∀ word ∈ words, IsWord word) →
      ∀ word ∈ words, scalar '-' ∉ word := fun words hwords word hword hmem =>
    absurd ((hwords word hword).small _ hmem) (by decide)
  have hkebab := kebab_write hcasing hother hothers other
  rw [h, kebab_write hcasing hne hwords style] at hkebab
  have hsplit := congrArg (Text.splitOn (scalar '-')) hkebab
  have hsplitWords := Text.splitOn_joinWith hne (hhyphen words hwords)
  have hsplitOthers := Text.splitOn_joinWith hother (hhyphen others hothers)
  exact (hsplitWords.symm.trans (hsplit.trans hsplitOthers)).symm

/-- What a conversion gives is written in a style again. -/
theorem exists_style (style : Style) :
    ∀ convert ∈ [kebab, snake, camel, pascal],
      ∃ other : Style, convert casing (style.write words) = other.write words := by
  simp only [List.forall_mem_cons]
  refine ⟨⟨.kebab, kebab_write hcasing hne hwords style⟩,
    ⟨.snake, snake_write hcasing hne hwords style⟩, ?_,
    ⟨.pascal, pascal_write hcasing hne hwords style⟩, List.forall_mem_nil _⟩
  by_cases hstyle : style = .pascal
  · rw [hstyle]
    exact ⟨.pascal, camel_write_pascal hwords⟩
  · exact ⟨.camel, camel_write hcasing hne hwords hstyle⟩

end Written

open Casing (unicode isRegular_unicode)

/--
Whichever way a list of words is written, each spelling of the text is the spelling of the words;
only a name that starts with a capital stays as it is in camel case.  Nothing is lost on the way:
the words can be told from the text, and a conversion in between makes no difference.
-/
theorem spellings_of_words (words : List Text) (hne : words ≠ [])
    (hwords : ∀ word ∈ words, (∀ c ∈ word, c.isLowerLatin = true) ∧ 2 ≤ word.length)
    (style : Style) :
    kebab unicode (style.write words) = Style.kebab.write words ∧
      snake unicode (style.write words) = Style.snake.write words ∧
      upperSnake unicode (style.write words) = writeUpperSnake words ∧
      pascal unicode (style.write words) = Style.pascal.write words ∧
      (style.write words ≠ Style.pascal.write words →
        camel unicode (style.write words) = Style.camel.write words) ∧
      camel unicode (Style.pascal.write words) = Style.pascal.write words ∧
      (∀ (others : List Text) (other : Style), others ≠ [] →
        (∀ word ∈ others, (∀ c ∈ word, c.isLowerLatin = true) ∧ 2 ≤ word.length) →
        other.write others = style.write words → others = words) ∧
      ∀ first ∈ [kebab, snake, camel, pascal], ∀ second ∈ [kebab, snake, upperSnake, pascal],
        second unicode (first unicode (style.write words)) =
          second unicode (style.write words) := by
  have hall : ∀ words : List Text,
      (∀ word ∈ words, (∀ c ∈ word, c.isLowerLatin = true) ∧ 2 ≤ word.length) →
      ∀ word ∈ words, IsWord word := fun words hwords word hword =>
    ⟨(hwords word hword).1, (hwords word hword).2⟩
  have hwords := hall words hwords
  refine ⟨kebab_write isRegular_unicode hne hwords style,
    snake_write isRegular_unicode hne hwords style,
    upperSnake_write isRegular_unicode hne hwords style,
    pascal_write isRegular_unicode hne hwords style, fun hdiffers => ?_,
    camel_write_pascal hwords, fun others other hother hothers h => ?_,
    fun first hfirst => ?_⟩
  · exact camel_write isRegular_unicode hne hwords fun hstyle => hdiffers (hstyle ▸ rfl)
  · exact words_of_write isRegular_unicode hne hwords hother (hall others hothers) h
  · obtain ⟨other, heq⟩ := exists_style isRegular_unicode hne hwords style first hfirst
    rw [heq]
    simp only [List.forall_mem_cons]
    exact ⟨by rw [kebab_write isRegular_unicode hne hwords,
        kebab_write isRegular_unicode hne hwords],
      by rw [snake_write isRegular_unicode hne hwords, snake_write isRegular_unicode hne hwords],
      by rw [upperSnake_write isRegular_unicode hne hwords,
        upperSnake_write isRegular_unicode hne hwords],
      by rw [pascal_write isRegular_unicode hne hwords,
        pascal_write isRegular_unicode hne hwords], List.forall_mem_nil _⟩

theorem spellings_of_words_capitals :
    (["some", "name"] : List Text) ≠ [] ∧
      (∀ word ∈ (["some", "name"] : List Text),
        (∀ c ∈ word, c.isLowerLatin = true) ∧ 2 ≤ word.length) ∧
      kebab unicode "SomeName" = "some-name" ∧ upperSnake unicode "SomeName" = "SOME_NAME" := by
  have hwords : ∀ word ∈ (["some", "name"] : List Text),
      (∀ c ∈ word, c.isLowerLatin = true) ∧ 2 ≤ word.length := by decide
  obtain ⟨hkebab, -, hupper, -⟩ := spellings_of_words ["some", "name"] (by decide) hwords .pascal
  have hwritten : Style.pascal.write ["some", "name"] = ("SomeName" : Text) := by decide
  rw [hwritten] at hkebab hupper
  exact ⟨by decide, hwords, hkebab.trans (by decide), hupper.trans (by decide)⟩

end Stencil.Naming

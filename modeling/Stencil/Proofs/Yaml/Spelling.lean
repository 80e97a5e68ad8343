import Mathlib.Data.List.Infix
import Stencil.Proofs.Text.Casing
import Stencil.Proofs.Text.Digits
import Stencil.Proofs.Text.Parts
import Stencil.Proofs.Text.Splitting
import Stencil.Proofs.Yaml.Cursors
import Stencil.Yaml.Reader

/-!
# What plain scalars spell

A plain scalar gets its tag from what it looks like, and it nearly always spells
a value of that tag.  What can go wrong is a date or a time that there is not,
a number of too many digits, and a mark of a base without digits after it.
-/

namespace Stencil

open CodePoint (scalar)

/-! ## Digits in a base -/

namespace CodePoint

variable {c : CodePoint} {base : Nat}

/-- A letter or digit that has a value in a base, whatever its case. -/
def IsDigitIn (base : Nat) (c : CodePoint) : Prop := ((c.lowerLatin).digitValueIn? base).isSome

theorem digitValueIn?_isSome_iff :
    (c.digitValueIn? base).isSome ↔
      (48 ≤ c.toNat ∧ c.toNat ≤ 57 ∧ c.toNat - 48 < base) ∨
        (97 ≤ c.toNat ∧ c.toNat ≤ 122 ∧ c.toNat - 97 + 10 < base) ∨
        (65 ≤ c.toNat ∧ c.toNat ≤ 90 ∧ c.toNat - 65 + 10 < base) := by
  have hsome (value : Nat) : (if value < base then some value else none).isSome ↔ value < base := by
    split <;> simp_all
  rw [digitValueIn?, letterDigitValue?]
  simp only [isDigit, isLowerLatin, isUpperLatin, isBetween, Bool.and_eq_true, decide_eq_true_eq,
    Char.reduceToNat]
  by_cases hdigit : 48 ≤ c.toNat ∧ c.toNat ≤ 57
  · rw [if_pos hdigit, hsome]
    omega
  by_cases hlower : 97 ≤ c.toNat ∧ c.toNat ≤ 122
  · rw [if_neg hdigit, if_pos hlower, hsome]
    omega
  by_cases hupper : 65 ≤ c.toNat ∧ c.toNat ≤ 90
  · rw [if_neg hdigit, if_neg hlower, if_pos hupper, hsome]
    omega
  · rw [if_neg hdigit, if_neg hlower, if_neg hupper]
    simp only [Option.isSome_none, Bool.false_eq_true, false_iff]
    omega

/-- The values of digits and letters by their numbers. -/
theorem isDigitIn_iff (hbase : base ≤ 16) :
    c.IsDigitIn base ↔
      (48 ≤ c.toNat ∧ c.toNat ≤ 57 ∧ c.toNat - 48 < base) ∨
        (65 ≤ c.toNat ∧ c.toNat ≤ 70 ∧ c.toNat - 55 < base) ∨
        (97 ≤ c.toNat ∧ c.toNat ≤ 102 ∧ c.toNat - 87 < base) := by
  rw [IsDigitIn, digitValueIn?_isSome_iff, toNat_lowerLatin]
  split <;> omega

theorem isDigitIn_ten (h : c.isDigit = true) : c.IsDigitIn 10 := by
  rw [isDigit_iff] at h
  rw [isDigitIn_iff (by decide)]
  omega

theorem isDigit_of_isBetween {first last : Char} (h : c.isBetween first last = true)
    (hfirst : 48 ≤ first.toNat) (hlast : last.toNat ≤ 57) : c.isDigit = true := by
  rw [isBetween_iff] at h
  rw [isDigit_iff]
  omega

theorem isDigitIn_of_isBetween {last : Char} (h : c.isBetween '0' last = true)
    (hlast : last.toNat - 48 < base) (hbase : base ≤ 10) : c.IsDigitIn base := by
  rw [isBetween_iff] at h
  rw [isDigitIn_iff (by omega)]
  simp only [Char.reduceToNat] at h
  omega

theorem isDigitIn_of_isHexDigit (h : c.isHexDigit = true) : c.IsDigitIn 16 := by
  rw [isHexDigit, digitValueIn?_isSome_iff] at h
  rw [isDigitIn_iff (by decide)]
  omega

theorem IsDigitIn.ne (h : c.IsDigitIn base) (hbase : base ≤ 16) {char : Char}
    (hchar : (char.toNat < 48 ∨ 57 < char.toNat) ∧ (char.toNat < 65 ∨ 70 < char.toNat) ∧
      (char.toNat < 97 ∨ 102 < char.toNat)) : c ≠ scalar char := by
  rintro rfl
  have hcode : (scalar char).toNat = char.toNat := rfl
  rw [isDigitIn_iff hbase, hcode] at h
  omega

theorem IsDigitIn.not_isBlank (h : c.IsDigitIn base) (hbase : base ≤ 16) : c.isBlank = false := by
  rw [isDigitIn_iff hbase] at h
  refine Bool.eq_false_iff.2 fun hblank => ?_
  obtain ⟨range, hrange, hfirst, hlast⟩ := exists_range_of_has hblank
  have hranges : ∀ range ∈ blankRanges, range.2 < 48 ∨ 102 < range.1 := by decide
  have := hranges range hrange
  omega

end CodePoint

namespace Spelled

variable {text : Text} {base : Nat}

theorem dropUnderscores?_eq_some (h : scalar '_' ∉ text) : dropUnderscores? text = some text := by
  fun_induction dropUnderscores? text with
  | case1 => rfl
  | case2 => exact absurd List.mem_cons_self h
  | case3 => simp at h
  | case4 => simp at h
  | case5 c text _ _ ih => rw [ih fun hmem => h (List.mem_cons_of_mem _ hmem)]; rfl

theorem strip_eq_self (h : ∀ c ∈ text, c.isBlank = false) : text.strip = text := by
  have hdrop {text : Text} (h : ∀ c ∈ text, c.isBlank = false) :
      text.dropWhile CodePoint.isBlank = text := by
    cases text with
    | nil => rfl
    | cons c text =>
        exact List.dropWhile_cons_of_neg (by rw [h c List.mem_cons_self]; exact Bool.false_ne_true)
  have hreverse : ∀ c ∈ text.reverse, c.isBlank = false := fun c hc => h c (List.mem_reverse.1 hc)
  rw [Text.strip, Text.trim, Text.trimStart, hdrop h, Text.trimEnd, hdrop hreverse,
    List.reverse_reverse]

theorem cutSign_of_isDigitIn {c : CodePoint} (h : c.IsDigitIn base) (hbase : base ≤ 16) :
    Binary64.cutSign (c :: text) = (false, c :: text) := by
  unfold Binary64.cutSign
  split
  · rename_i heq
    cases heq
    exact absurd rfl (h.ne hbase (by decide))
  · rename_i heq
    cases heq
    exact absurd rfl (h.ne hbase (by decide))
  · rfl

theorem toNatIn?_isSome (h : ∀ c ∈ text, (c.digitValueIn? base).isSome) (hne : text ≠ []) :
    (Text.toNatIn? base text).isSome := by
  have hfold : ∀ (text : Text), (∀ c ∈ text, (c.digitValueIn? base).isSome) → ∀ start : Nat,
      (text.foldlM (fun value (c : CodePoint) => (c.digitValueIn? base).map (value * base + ·))
        start).isSome := by
    intro text htext
    induction text with
    | nil => exact fun start => rfl
    | cons c text ih =>
        obtain ⟨hc, hrest⟩ := List.forall_mem_cons.1 htext
        obtain ⟨digit, hdigit⟩ := Option.isSome_iff_exists.1 hc
        intro start
        rw [List.foldlM_cons, hdigit]
        exact ih hrest _
  cases text with
  | nil => exact absurd rfl hne
  | cons c text => exact hfold _ h 0

/-- Digits of a base are read in that base. -/
theorem integer?_isSome (hbase : base = 2 ∨ base = 8 ∨ base = 10 ∨ base = 16)
    (h : ∀ c ∈ text, c.IsDigitIn base) (hne : text ≠ []) : (integer? base text).isSome := by
  have hle : base ≤ 16 := by omega
  have hlower : ∀ d ∈ text.map CodePoint.lowerLatin, (d.digitValueIn? base).isSome :=
    List.forall_mem_map.2 h
  have hsign : Binary64.cutSign text = (false, text) := by
    obtain ⟨c, rest, rfl⟩ := List.exists_cons_of_ne_nil hne
    exact cutSign_of_isDigitIn (h c List.mem_cons_self) hle
  -- the letter of a mark is no digit in its base
  have hmark {first letter : Char} (hletter : ((scalar letter).digitValueIn? base).isSome = false) :
      Text.dropLeading? [scalar first, scalar letter] (text.map CodePoint.lowerLatin) = none := by
    refine Option.eq_none_iff_forall_ne_some.2 fun rest hrest => ?_
    have hmem : scalar letter ∈ text.map CodePoint.lowerLatin := by
      rw [Text.dropLeading?_eq_some_iff.1 hrest]
      simp
    rw [hlower _ hmem] at hletter
    cases hletter
  have hunderscore : scalar '_' ∉ text.map CodePoint.lowerLatin := fun hmem => by
    have hdigit := hlower _ hmem
    rw [CodePoint.digitValueIn?_isSome_iff] at hdigit
    simp [CodePoint.toNat] at hdigit
  have hstrip := strip_eq_self fun c hc => (h c hc).not_isBlank hle
  have hread := toNatIn?_isSome hlower (by simpa using hne)
  have hmarked : ∀ known ∈ [(2, ("0b" : Text)), (8, "0o"), (16, "0x")], base = known.1 →
      Text.dropLeading? known.2 (text.map CodePoint.lowerLatin) = none := by
    rintro ⟨markBase, mark⟩ hmem rfl
    simp only [List.mem_cons, Prod.mk.injEq, List.not_mem_nil, or_false] at hmem
    rcases hmem with ⟨rfl, rfl⟩ | ⟨rfl, rfl⟩ | ⟨rfl, rfl⟩
    · exact hmark (by decide)
    · exact hmark (by decide)
    · exact hmark (by decide)
  have hzero : base ≠ 0 := by omega
  rw [integer?, hstrip, hsign]
  dsimp only
  rw [List.findSome?_eq_none_iff.2 fun known hknown => by
    simp only [hzero, or_false]
    split
    · rw [hmarked known hknown ‹_›]
      rfl
    · rfl]
  obtain ⟨n, hn⟩ := Option.isSome_iff_exists.1 hread
  simp only [Option.getD_none, hzero, if_false, dropUnderscores?_eq_some hunderscore, hn]
  rfl

/-! ## Decimals -/

/-- The power of ten at the end of a decimal. -/
inductive IsPower : Text → Prop
  | none : IsPower []
  | some {sign : CodePoint} {digits : Text} (signed : sign.isIn "+-" = true)
      (all : Text.AreDigits digits) (ne : digits ≠ []) : IsPower (scalar 'e' :: sign :: digits)

/-- Digits, with a point among them and a power behind them if there is one. -/
inductive IsDecimal : Text → Prop
  | whole {digits : Text} (all : Text.AreDigits digits) (ne : digits ≠ []) : IsDecimal digits
  | point {whole fraction power : Text} (hwhole : Text.AreDigits whole)
      (hfraction : Text.AreDigits fraction) (ne : whole ≠ [] ∨ fraction ≠ [])
      (hpower : IsPower power) : IsDecimal (whole ++ scalar '.' :: (fraction ++ power))

/-- The characters of decimals. -/
def IsDecimalMark (c : CodePoint) : Prop :=
  c.isDigit = true ∨ c = scalar '.' ∨ c = scalar 'e' ∨ c.isIn "+-" = true

theorem IsPower.marks (h : IsPower text) : ∀ c ∈ text, IsDecimalMark c := by
  cases h with
  | none => exact List.forall_mem_nil _
  | some signed all =>
      exact List.forall_mem_cons.2 ⟨.inr (.inr (.inl rfl)), List.forall_mem_cons.2
        ⟨.inr (.inr (.inr signed)), fun c hc => .inl (all c hc)⟩⟩

theorem IsDecimal.marks (h : IsDecimal text) : ∀ c ∈ text, IsDecimalMark c := by
  cases h with
  | whole all => exact fun c hc => .inl (all c hc)
  | point hwhole hfraction _ hpower =>
      exact List.forall_mem_append.2 ⟨fun c hc => .inl (hwhole c hc), List.forall_mem_cons.2
        ⟨.inr (.inl rfl), List.forall_mem_append.2
          ⟨fun c hc => .inl (hfraction c hc), hpower.marks⟩⟩⟩

theorem eq_of_isIn_signs {c : CodePoint} (h : c.isIn "+-" = true) :
    c = scalar '+' ∨ c = scalar '-' := by
  cases c with
  | surrogate offset => cases h
  | scalar char => simpa [CodePoint.isIn] using h

theorem IsDecimalMark.not_isBlank {c : CodePoint} (h : IsDecimalMark c) : c.isBlank = false := by
  rcases h with h | rfl | rfl | h
  · exact (CodePoint.isDigitIn_ten h).not_isBlank (by decide)
  · decide
  · decide
  · rcases eq_of_isIn_signs h with rfl | rfl <;> decide

theorem IsDecimalMark.ne {c : CodePoint} (h : IsDecimalMark c) {char : Char}
    (hchar : (scalar char).isDigit = false ∧ char ≠ '.' ∧ char ≠ 'e' ∧ char ≠ '+' ∧ char ≠ '-') :
    c ≠ scalar char := by
  rintro rfl
  obtain ⟨hdigit, hpoint, he, hplus, hminus⟩ := hchar
  rcases h with h | h | h | h
  · rw [hdigit] at h
    cases h
  · exact hpoint (CodePoint.scalar.inj h)
  · exact he (CodePoint.scalar.inj h)
  · rcases eq_of_isIn_signs h with h | h
    · exact hplus (CodePoint.scalar.inj h)
    · exact hminus (CodePoint.scalar.inj h)

theorem exponentOf?_isSome (h : IsPower text) : (Binary64.exponentOf? text).isSome := by
  cases h with
  | none => rfl
  | @some sign digits signed all ne =>
      have hcut : (Binary64.cutSign (sign :: digits)).2 = digits := by
        rcases eq_of_isIn_signs signed with rfl | rfl <;> rfl
      have hlower : (scalar 'e').lowerLatin = scalar 'e' := by decide
      rw [Binary64.exponentOf?, if_pos hlower]
      dsimp only
      rw [hcut, Text.toNat?_eq all ne]
      rfl

theorem cutSign_of_isDecimal (h : IsDecimal text) : Binary64.cutSign text = (false, text) := by
  have hdigits {digits tail : Text} (hdigits : Text.AreDigits digits) (hne : digits ≠ []) :
      Binary64.cutSign (digits ++ tail) = (false, digits ++ tail) := by
    obtain ⟨c, rest, rfl⟩ := List.exists_cons_of_ne_nil hne
    exact cutSign_of_isDigitIn (CodePoint.isDigitIn_ten (hdigits c List.mem_cons_self)) (by decide)
  cases h with
  | whole all ne =>
      have hcut := @hdigits _ [] all ne
      rwa [List.append_nil] at hcut
  | @point whole fraction power hwhole =>
      by_cases hnil : whole = []
      · rw [hnil]
        rfl
      · exact hdigits hwhole hnil

theorem read?_isSome (h : IsDecimal text) : (Binary64.read? text).isSome := by
  rw [Binary64.read?, cutSign_of_isDecimal h]
  cases h with
  | whole all ne =>
      have htake : text.takeWhile CodePoint.isDigit = text := List.takeWhile_eq_self_iff.2 all
      have hdrop : text.dropWhile CodePoint.isDigit = [] := List.dropWhile_eq_nil_iff.2 all
      simp only [htake, hdrop, List.isEmpty_eq_false_iff.2 ne, Bool.false_and]
      rfl
  | @point whole fraction power hwhole hfraction ne hpower =>
      have hend : power.takeWhile CodePoint.isDigit = [] ∧
          power.dropWhile CodePoint.isDigit = power := by
        cases hpower <;> exact ⟨rfl, rfl⟩
      have hnone : (whole.isEmpty && fraction.isEmpty) = false := by
        rw [Bool.and_eq_false_iff, List.isEmpty_eq_false_iff, List.isEmpty_eq_false_iff]
        exact ne
      have htake (tail : Text) : (scalar '.' :: tail).takeWhile CodePoint.isDigit = [] := rfl
      have hdrop (tail : Text) :
          (scalar '.' :: tail).dropWhile CodePoint.isDigit = scalar '.' :: tail := rfl
      simp only [List.takeWhile_append_of_pos hwhole, List.dropWhile_append_of_pos hwhole,
        List.takeWhile_append_of_pos hfraction, List.dropWhile_append_of_pos hfraction, htake,
        hdrop, hend, List.append_nil, hnone, Bool.false_eq_true, if_false, Option.isSome_map]
      exact exponentOf?_isSome hpower

/-- Decimals are read as numbers. -/
theorem float?_isSome (h : IsDecimal text) : (float? text).isSome := by
  have hstrip := strip_eq_self fun c hc => (h.marks c hc).not_isBlank
  have hunderscore : scalar '_' ∉ text := fun hmem => (h.marks _ hmem).ne (by decide) rfl
  obtain ⟨x, hx⟩ := Option.isSome_iff_exists.1 (read?_isSome h)
  rw [float?, hstrip, dropUnderscores?_eq_some hunderscore]
  simp only [Binary64.readAny?, hx, Option.isSome_some]

end Spelled

namespace Yaml

/-- Faults of plain scalars that spell no value of their tag. -/
inductive Fault.IsOfSpelling : Fault → Prop
  | digitless {base : Nat} (marked : base = 2 ∨ base = 16) : IsOfSpelling (.integer base [])
  | huge {digits : Nat} (many : 4300 < digits) : IsOfSpelling (.hugeInteger digits)
  | calendar (error : CalendarError) : IsOfSpelling (.calendar error)

namespace Scalar

/-- What a plain text can spell: every scalar but bytes. -/
def IsSpelled : Stencil.Scalar → Prop
  | .bytes _ => False
  | _ => True

open Tag (unsigned)

variable {c : CodePoint} {text body : Text} {base : Nat}

/-! ## Signs and underscores -/

theorem plainDigits_cons (hc : c ≠ scalar '_') :
    plainDigits (c :: text) = c :: plainDigits text := by
  simp [plainDigits, hc]

theorem cutSign_of_unsigned (h : unsigned text = c :: body) :
    ∃ negative, cutSign text = .ok (negative, c :: body) := by
  cases text with
  | nil => cases h
  | cons first rest => exact ⟨_, by rw [cutSign, ← h, unsigned]⟩

theorem unsigned_plainDigits (h : unsigned text = c :: body) (hc : c ≠ scalar '_') :
    unsigned (plainDigits text) = c :: plainDigits body := by
  cases text with
  | nil => cases h
  | cons first rest =>
      rw [unsigned] at h
      split at h
      · rename_i hsign
        have hfirst : first ≠ scalar '_' := by
          rintro rfl
          cases hsign
        rw [plainDigits_cons hfirst, unsigned, if_pos hsign, h, plainDigits_cons hc]
      · rename_i hsign
        cases h
        rw [plainDigits_cons hc, unsigned, if_neg hsign]

theorem isIn_signs_iff : c.isIn "+-" = true ↔ c = scalar '+' ∨ c = scalar '-' :=
  ⟨Spelled.eq_of_isIn_signs, fun h => by rcases h with rfl | rfl <;> rfl⟩

theorem lowerLatin_eq_iff {char : Char} (hchar : char.toNat < 65 ∨ 122 < char.toNat) :
    c.lowerLatin = scalar char ↔ c = scalar char := by
  have hcode (d : CodePoint) : d = scalar char ↔ d.toNat = char.toNat :=
    ⟨fun h => h ▸ rfl, fun h => CodePoint.toNat_injective h⟩
  rw [hcode, hcode, CodePoint.toNat_lowerLatin]
  split <;> omega

theorem unsigned_map_lowerLatin :
    unsigned (text.map CodePoint.lowerLatin) = (unsigned text).map CodePoint.lowerLatin := by
  have hsigns (c : CodePoint) : c.lowerLatin.isIn "+-" = c.isIn "+-" := by
    rw [Bool.eq_iff_iff, isIn_signs_iff, isIn_signs_iff, lowerLatin_eq_iff (by decide),
      lowerLatin_eq_iff (by decide)]
  cases text with
  | nil => rfl
  | cons c rest =>
      rw [List.map_cons, unsigned, hsigns, unsigned]
      split <;> rfl

/-! ## Numbers of base sixty -/

/-- A number with colons is read piece by piece, and any other one at once. -/
theorem sixties_yields {α β : Type} {piece : Text → Except Fault α} {sum : List α → α}
    {next : α → Except Fault β} {post : β → Prop} {faults : Fault → Prop}
    (h : ∀ part ∈ Text.splitOn (scalar ':') text, Yields (fun _ => True) faults (piece part))
    (hnext : ∀ a, Yields post faults (next a)) :
    Yields post faults
      (if Text.contains ":" text then
        sum <$> (Text.splitOn (scalar ':') text).mapM piece >>= next
      else piece text >>= next) := by
  split
  · have hall : Yields (fun _ => True) faults
        (sum <$> (Text.splitOn (scalar ':') text).mapM piece) :=
      Yields.map ((Yields.mapM h).mono fun _ _ => trivial)
    exact hall.bind fun a _ => hnext a
  · rename_i hcolon
    rw [Text.contains_iff] at hcolon
    have hnone : scalar ':' ∉ text := fun hmem => hcolon ((List.singleton_infix_iff _ _).2 hmem)
    refine (h text ?_).bind fun a _ => hnext a
    rw [Text.splitOn_of_not_mem hnone]
    exact List.mem_singleton_self _

/-! ## Integers -/

theorem integer_yields (hbase : base = 2 ∨ base = 8 ∨ base = 10 ∨ base = 16)
    (h : ∀ c ∈ text, c.IsDigitIn base) (hne : text ≠ []) :
    Yields (fun _ => True) Fault.IsOfSpelling (integer base text) := by
  obtain ⟨n, hn⟩ := Option.isSome_iff_exists.1 (Spelled.integer?_isSome hbase h hne)
  rw [integer, hn]
  dsimp only
  split
  · rename_i hmany
    exact .huge hmany.2
  · trivial

/-- Digits with their underscores dropped, as integers are read. -/
inductive IsIntBody : Text → Prop
  | zero : IsIntBody "0"
  | binary {digits : Text} (all : ∀ c ∈ digits, c.IsDigitIn 2) :
      IsIntBody (scalar '0' :: scalar 'b' :: digits)
  | hex {digits : Text} (all : ∀ c ∈ digits, c.IsDigitIn 16) :
      IsIntBody (scalar '0' :: scalar 'x' :: digits)
  | octal {c : CodePoint} {digits : Text} (all : ∀ d ∈ c :: digits, d.IsDigitIn 8) :
      IsIntBody (scalar '0' :: c :: digits)
  | decimal {c : CodePoint} {rest : Text} (first : c ≠ scalar '0')
      (all : ∀ piece ∈ Text.splitOn (scalar ':') (c :: rest), Text.AreDigits piece)
      (ne : ∀ piece ∈ Text.splitOn (scalar ':') (c :: rest), piece ≠ []) : IsIntBody (c :: rest)

/-- A mark of a base may have nothing behind it. -/
theorem markedInteger_yields (hbase : base = 2 ∨ base = 16) (h : ∀ c ∈ text, c.IsDigitIn base) :
    Yields (fun _ => True) Fault.IsOfSpelling (integer base text) := by
  by_cases hnil : text = []
  · subst hnil
    have hnone : Spelled.integer? base [] = none := by rcases hbase with rfl | rfl <;> rfl
    rw [integer, hnone]
    exact .digitless hbase
  · exact integer_yields (by omega) h hnil

theorem readInt_of_isIntBody {negative : Bool}
    (hcut : cutSign (plainDigits text) = .ok (negative, body)) (h : IsIntBody body) :
    Yields (fun _ => True) Fault.IsOfSpelling (readInt text) := by
  have hsigned {read : Except Fault Int} (hread : Yields (fun _ => True) Fault.IsOfSpelling read) :
      Yields (fun _ => True) Fault.IsOfSpelling
        (read >>= fun n => pure (if negative then -n else n)) :=
    hread.bind fun _ _ => trivial
  rw [readInt, hcut]
  cases h with
  | zero => trivial
  | binary all => exact hsigned (markedInteger_yields (.inl rfl) all)
  | hex all => exact hsigned (markedInteger_yields (.inr rfl) all)
  | @octal c digits all =>
      obtain ⟨hc, -⟩ := List.forall_mem_cons.1 all
      have hmark {letter : Char} (hletter : ¬ (scalar letter).IsDigitIn 8) :
          Text.startsWith [scalar '0', scalar letter] (scalar '0' :: c :: digits) = false := by
        have hne : scalar letter ≠ c := fun heq => hletter (heq ▸ hc)
        simp [Bool.eq_false_iff, Text.startsWith_iff_isPrefix, hne]
      have hb : Text.startsWith "0b" (scalar '0' :: c :: digits) = false :=
        hmark (by unfold CodePoint.IsDigitIn; decide)
      have hx : Text.startsWith "0x" (scalar '0' :: c :: digits) = false :=
        hmark (by unfold CodePoint.IsDigitIn; decide)
      have hzero : (scalar '0').IsDigitIn 8 := by unfold CodePoint.IsDigitIn; decide
      change Yields _ _ (if _ then _ else if _ then _ else if _ then _ else _)
      rw [hb, if_neg Bool.false_ne_true, hx, if_neg Bool.false_ne_true]
      exact hsigned (integer_yields (.inr (.inl rfl)) (List.forall_mem_cons.2 ⟨hzero, all⟩)
        (List.cons_ne_nil _ _))
  | @decimal c rest first all ne =>
      have hmark (letter : Char) :
          Text.startsWith [scalar '0', scalar letter] (c :: rest) = false := by
        simp [Bool.eq_false_iff, Text.startsWith_iff_isPrefix, Ne.symm first]
      have hzero : (c :: rest : Text) ≠ "0" := fun heq => first (List.cons.inj heq).1
      have hb : Text.startsWith "0b" (c :: rest) = false := hmark 'b'
      have hx : Text.startsWith "0x" (c :: rest) = false := hmark 'x'
      have hpiece {piece : Text} (hpiece : piece ∈ Text.splitOn (scalar ':') (c :: rest)) :
          Yields (fun _ => True) Fault.IsOfSpelling (integer 10 piece) :=
        integer_yields (.inr (.inr (.inl rfl)))
          (fun d hd => CodePoint.isDigitIn_ten (all piece hpiece d hd)) (ne piece hpiece)
      change Yields _ _ (if _ then _ else if _ then _ else if _ then _ else if _ then _ else _)
      rw [if_neg hzero, hb, if_neg Bool.false_ne_true, hx, if_neg Bool.false_ne_true, if_neg first]
      exact sixties_yields (fun piece hmem => hpiece hmem) fun _ => trivial

/-- What is left of a run of digits without its underscores. -/
theorem forall_mem_plainDigits {other : CodePoint → Bool}
    (h : text.all (fun c => other c || c = scalar '_') = true) :
    ∀ c ∈ plainDigits text, other c = true := by
  intro c hc
  obtain ⟨hmem, hne⟩ := List.mem_filter.1 hc
  have hother := List.all_eq_true.1 h c hmem
  simp only [ne_eq, decide_not, Bool.not_eq_true', decide_eq_false_iff_not] at hne
  simpa [hne] using hother

theorem exists_cons_of_isRun {first other : CodePoint → Bool}
    (h : Tag.isRun first other text = true) :
    ∃ c rest, text = c :: rest ∧ first c = true ∧
      rest.all (fun c => other c || c = scalar '_') = true := by
  cases text with
  | nil => cases h
  | cons c rest => exact ⟨c, rest, rfl, (Bool.and_eq_true_iff.1 h).1, (Bool.and_eq_true_iff.1 h).2⟩

theorem exists_first_of_isRun {first other : CodePoint → Bool} (text : Text)
    (h : Tag.isRun first other text = true) : ∃ c rest, text = c :: rest ∧ first c = true := by
  obtain ⟨c, rest, htext, hc, -⟩ := exists_cons_of_isRun h
  exact ⟨c, rest, htext, hc⟩

/-- A run of digits, with its underscores dropped. -/
theorem plainDigits_of_isDigits (h : Tag.isDigits text = true) :
    Text.AreDigits (plainDigits text) ∧ plainDigits text ≠ [] := by
  obtain ⟨c, rest, rfl, hc, hrest⟩ := exists_cons_of_isRun h
  rw [plainDigits_cons (CodePoint.ne_scalar_of_isDigit hc rfl)]
  exact ⟨List.forall_mem_cons.2 ⟨hc, forall_mem_plainDigits hrest⟩, List.cons_ne_nil _ _⟩

theorem isDigits_of_isCounting (h : Tag.isCounting text = true) : Tag.isDigits text = true := by
  obtain ⟨c, rest, rfl, hc, hrest⟩ := exists_cons_of_isRun h
  exact Bool.and_eq_true_iff.2 ⟨CodePoint.isDigit_of_isBetween hc (by decide) (by decide), hrest⟩

theorem isDigits_of_isSixtieth (h : Tag.isSixtieth text = true) : Tag.isDigits text = true := by
  unfold Tag.isSixtieth at h
  split at h
  · simpa [Tag.isDigits, Tag.isRun] using h
  · rename_i c d
    obtain ⟨hc, hd⟩ := Bool.and_eq_true_iff.1 h
    have hdigit := CodePoint.isDigit_of_isBetween hc (by decide) (by decide)
    simp [Tag.isDigits, Tag.isRun, hdigit, hd]
  · cases h

theorem exists_of_isMarked {mark : Text} {digit : CodePoint → Bool}
    (h : Tag.isMarked text mark digit = true) :
    ∃ rest, text = mark ++ rest ∧ rest.all (fun c => digit c || c = scalar '_') = true := by
  rw [Tag.isMarked] at h
  split at h
  · rename_i rest hrest
    exact ⟨rest, Text.dropLeading?_eq_some_iff.1 hrest, (Bool.and_eq_true_iff.1 h).2⟩
  · cases h

/-- The pieces of a number of base sixty, and the digit that it starts with. -/
theorem exists_cons_of_isSexagesimal {first : Text → Bool} {begins : CodePoint → Bool}
    (hfirst : ∀ head, first head = true → ∃ c rest, head = c :: rest ∧ begins c = true)
    (hdigits : ∀ head, first head = true → Tag.isDigits head = true)
    (h : Tag.isSexagesimal first text = true) :
    (∃ c rest, text = c :: rest ∧ begins c = true) ∧
      ∀ piece ∈ Text.splitOn (scalar ':') text, Tag.isDigits piece = true := by
  rw [Tag.isSexagesimal] at h
  split at h
  · rename_i head next others hsplit
    obtain ⟨hhead, hothers⟩ := Bool.and_eq_true_iff.1 h
    refine ⟨?_, hsplit ▸ List.forall_mem_cons.2 ⟨hdigits head hhead, fun piece hpiece =>
      isDigits_of_isSixtieth (List.all_eq_true.1 hothers piece hpiece)⟩⟩
    obtain ⟨c, rest, rfl, hc⟩ := hfirst head hhead
    cases text with
    | nil => cases hsplit
    | cons d text =>
        rw [Text.splitOn] at hsplit
        split at hsplit
        · cases hsplit
        · split at hsplit
          · cases hsplit
          · cases hsplit
            exact ⟨_, _, rfl, hc⟩
  · cases h

/-- What stands behind the sign of an integer. -/
def LooksInt (body : Text) : Prop :=
  ∃ c rest, body = c :: rest ∧ c ≠ scalar '_' ∧ IsIntBody (c :: plainDigits rest)

theorem readInt_of_looksInt (h : LooksInt (unsigned text)) :
    Yields (fun _ => True) Fault.IsOfSpelling (readInt text) := by
  obtain ⟨c, rest, hunsigned, hc, hbody⟩ := h
  obtain ⟨negative, hcut⟩ := cutSign_of_unsigned (unsigned_plainDigits hunsigned hc)
  exact readInt_of_isIntBody hcut hbody

theorem looksInt_of_pieces {rest : Text} (hc : c.isBetween '1' '9' = true)
    (hpieces : ∀ piece ∈ Text.splitOn (scalar ':') (c :: rest), Tag.isDigits piece = true) :
    LooksInt (c :: rest) := by
  have hdigit := CodePoint.isDigit_of_isBetween hc (by decide) (by decide)
  have hne : c ≠ scalar '_' := CodePoint.ne_scalar_of_isDigit hdigit rfl
  have hsplit : Text.splitOn (scalar ':') (c :: plainDigits rest) =
      (Text.splitOn (scalar ':') (c :: rest)).map plainDigits := by
    rw [← plainDigits_cons hne]
    exact Text.splitOn_filter rfl
  refine ⟨c, rest, rfl, hne, .decimal ?_ ?_ ?_⟩
  · rintro rfl
    cases hc
  · rw [hsplit]
    exact List.forall_mem_map.2 fun piece hpiece =>
      (plainDigits_of_isDigits (hpieces piece hpiece)).1
  · rw [hsplit]
    exact List.forall_mem_map.2 fun piece hpiece =>
      (plainDigits_of_isDigits (hpieces piece hpiece)).2

theorem looksInt_of_isCounting (h : Tag.isCounting text = true) : LooksInt text := by
  have hdigits := isDigits_of_isCounting h
  obtain ⟨c, rest, rfl, hc, hrest⟩ := exists_cons_of_isRun h
  have hcolon : scalar ':' ∉ c :: rest := by
    intro hmem
    rcases List.mem_cons.1 hmem with rfl | hmem
    · cases hc
    · exact absurd (List.all_eq_true.1 hrest _ hmem) (by decide)
  refine looksInt_of_pieces hc ?_
  rw [Text.splitOn_of_not_mem hcolon]
  exact List.forall_mem_singleton.2 hdigits

/-- The digits of an octal number may all be underscores. -/
theorem looksInt_of_octal {rest : Text}
    (h : rest.all (fun c => c.isBetween '0' '7' || c = scalar '_') = true) :
    LooksInt (scalar '0' :: rest) := by
  refine ⟨scalar '0', rest, rfl, by decide, ?_⟩
  have hdigits : ∀ c ∈ plainDigits rest, c.IsDigitIn 8 := fun c hc =>
    CodePoint.isDigitIn_of_isBetween (forall_mem_plainDigits h c hc) (by decide) (by decide)
  generalize plainDigits rest = digits at hdigits ⊢
  cases digits with
  | nil => exact .zero
  | cons c digits => exact .octal hdigits

theorem looksInt_of_isSexagesimal (h : Tag.isSexagesimal Tag.isCounting text = true) :
    LooksInt text := by
  obtain ⟨⟨c, rest, rfl, hc⟩, hpieces⟩ :=
    exists_cons_of_isSexagesimal exists_first_of_isRun (fun _ => isDigits_of_isCounting) h
  exact looksInt_of_pieces hc hpieces

theorem readInt_yields (h : Tag.isInt text = true) :
    Yields (fun _ => True) Fault.IsOfSpelling (readInt text) := by
  refine readInt_of_looksInt ?_
  rw [Tag.isInt] at h
  generalize unsigned text = body at h
  simp only [Bool.or_eq_true, decide_eq_true_eq] at h
  rcases h with ((((rfl | hcounting) | hbinary) | hhex) | hoctal) | hsixties
  · exact ⟨scalar '0', [], rfl, by decide, .zero⟩
  · exact looksInt_of_isCounting hcounting
  · obtain ⟨rest, rfl, hrest⟩ := exists_of_isMarked hbinary
    exact ⟨scalar '0', scalar 'b' :: rest, rfl, by decide, .binary fun c hc =>
      CodePoint.isDigitIn_of_isBetween (forall_mem_plainDigits hrest c hc) (by decide)
        (by decide)⟩
  · obtain ⟨rest, rfl, hrest⟩ := exists_of_isMarked hhex
    exact ⟨scalar '0', scalar 'x' :: rest, rfl, by decide, .hex fun c hc =>
      CodePoint.isDigitIn_of_isHexDigit (forall_mem_plainDigits hrest c hc)⟩
  · obtain ⟨rest, rfl, hrest⟩ := exists_of_isMarked hoctal
    exact looksInt_of_octal hrest
  · exact looksInt_of_isSexagesimal hsixties

/-! ## Floating-point numbers -/

/-- Digits and marks as numbers are read: without underscores, in lowercase. -/
def lowered (text : Text) : Text := (plainDigits text).map CodePoint.lowerLatin

theorem lowered_append (front back : Text) :
    lowered (front ++ back) = lowered front ++ lowered back := by
  rw [lowered, plainDigits, List.filter_append, List.map_append]
  rfl

theorem lowered_cons (hc : c ≠ scalar '_') :
    lowered (c :: text) = c.lowerLatin :: lowered text := by
  rw [lowered, plainDigits_cons hc]
  rfl

theorem lowered_of_areDigits (h : Text.AreDigits (plainDigits text)) :
    lowered text = plainDigits text := by
  refine Text.map_lowerLatin_eq_self fun c hc => ?_
  have hdigit := CodePoint.isDigit_iff.1 (h c hc)
  rw [CodePoint.isUpperLatin, Bool.eq_false_iff, ne_eq, CodePoint.isBetween_iff]
  simp only [Char.reduceToNat]
  omega

theorem areDigits_lowered (h : Tag.isLooseDigits text = true) : Text.AreDigits (lowered text) := by
  have hdigits : Text.AreDigits (plainDigits text) := forall_mem_plainDigits h
  rwa [lowered_of_areDigits hdigits]

theorem lowered_of_isDigits (h : Tag.isDigits text = true) :
    Text.AreDigits (lowered text) ∧ lowered text ≠ [] := by
  obtain ⟨hdigits, hne⟩ := plainDigits_of_isDigits h
  rw [lowered_of_areDigits hdigits]
  exact ⟨hdigits, hne⟩

theorem toNat_lt_of_isDigit (h : c.isDigit = true) : c.toNat < 128 := by
  rw [CodePoint.isDigit_iff] at h
  omega

theorem isAscii_of_all (h : text.all (fun c => c.isDigit || c = scalar '_') = true) :
    text.IsAscii := fun c hc => by
  rcases Bool.or_eq_true_iff.1 (List.all_eq_true.1 h c hc) with hdigit | hunderscore
  · exact toNat_lt_of_isDigit hdigit
  · obtain rfl := of_decide_eq_true hunderscore
    decide

theorem isAscii_of_isDigits (h : Tag.isDigits text = true) : text.IsAscii := by
  obtain ⟨c, rest, rfl, hc, hrest⟩ := exists_cons_of_isRun h
  exact List.forall_mem_cons.2 ⟨toNat_lt_of_isDigit hc, isAscii_of_all hrest⟩

theorem isAscii_of_pieces
    (h : ∀ piece ∈ Text.splitOn (scalar ':') text, Tag.isDigits piece = true) : text.IsAscii := by
  intro c hc
  by_cases hcolon : c = scalar ':'
  · rw [hcolon]
    decide
  · obtain ⟨piece, hpiece, hmem⟩ := Text.exists_mem_splitOn hc hcolon
    exact isAscii_of_isDigits (h piece hpiece) c hmem

/-- Nothing stands before a point that a text starts with. -/
theorem whole_eq_nil_of_point {whole rest : Text} (h : text.head? = some (scalar '.'))
    (hcut : Text.cut "." (unsigned text) = some (whole, rest)) : whole = [] := by
  cases text with
  | nil => cases h
  | cons c text =>
      cases h
      cases hcut
      rfl

/-- Digits after a point, and the power behind them. -/
theorem exists_of_isTail {digits : Text → Bool} (h : Tag.isTail digits text = true) :
    ∃ front back, text = front ++ back ∧ digits front = true ∧ Spelled.IsPower (lowered back) ∧
      back.IsAscii := by
  rw [Tag.isTail] at h
  obtain ⟨hfront, hback⟩ := Bool.and_eq_true_iff.1 h
  refine ⟨_, _, List.takeWhile_append_dropWhile.symm, hfront, ?_⟩
  have hhead := List.head?_dropWhile_not (fun c : CodePoint => !c.isIn "eE") text
  generalize text.dropWhile _ = back at hback hhead ⊢
  match back with
  | [] => exact ⟨.none, List.forall_mem_nil _⟩
  | mark :: sign :: power =>
      simp only [Bool.and_eq_true, Bool.not_eq_true', List.isEmpty_eq_false_iff,
        List.all_eq_true] at hback
      obtain ⟨⟨hsign, hne⟩, hpower⟩ := hback
      have hmark : mark = scalar 'e' ∨ mark = scalar 'E' := by
        cases mark with
        | surrogate offset => cases hhead
        | scalar char => exact or_iff_not_imp_left.2 (by simpa [CodePoint.isIn] using hhead)
      have hsigns := Spelled.eq_of_isIn_signs hsign
      have hlowered : lowered (mark :: sign :: power) = scalar 'e' :: sign :: power := by
        have hplain : plainDigits power = power := List.filter_eq_self.2 fun c hc => by
          refine decide_eq_true ?_
          rintro rfl
          exact absurd (hpower _ hc) (by decide)
        have hdigits : lowered power = power := by
          rw [lowered_of_areDigits (by rwa [hplain]), hplain]
        rcases hmark with rfl | rfl <;> rcases hsigns with rfl | rfl <;>
          rw [lowered_cons (by decide), lowered_cons (by decide), hdigits] <;> rfl
      rw [hlowered]
      refine ⟨.some hsign hpower hne, List.forall_mem_cons.2 ⟨?_, List.forall_mem_cons.2 ⟨?_, ?_⟩⟩⟩
      · rcases hmark with rfl | rfl <;> decide
      · rcases hsigns with rfl | rfl <;> decide
      · exact fun c hc => toNat_lt_of_isDigit (hpower c hc)

/-- What floating-point numbers are read from. -/
inductive IsFloatBody : Text → Prop
  | infinity : IsFloatBody ".inf"
  | nan : IsFloatBody ".nan"
  | decimal {text : Text}
      (all : ∀ piece ∈ Text.splitOn (scalar ':') text, Spelled.IsDecimal piece) : IsFloatBody text

/-- What stands behind the sign of a floating-point number. -/
structure LooksFloat (body : Text) : Prop where
  first : ∃ c rest, body = c :: rest ∧ c ≠ scalar '_'
  ascii : body.IsAscii
  float : IsFloatBody (lowered body)

theorem isAscii_of_unsigned (h : (unsigned text).IsAscii) : text.IsAscii := by
  cases text with
  | nil => exact h
  | cons first rest =>
      rw [unsigned] at h
      split at h
      · rename_i hsign
        refine List.forall_mem_cons.2 ⟨?_, h⟩
        rcases Spelled.eq_of_isIn_signs hsign with rfl | rfl <;> decide
      · exact h

/-- Lowercase letters and dropped underscores leave the sign where it is. -/
theorem LooksFloat.cutSign_eq (h : LooksFloat (unsigned text)) :
    ∃ negative, cutSign (plainDigits text).toLower = .ok (negative, lowered (unsigned text)) := by
  obtain ⟨c, rest, hunsigned, hc⟩ := h.first
  have hall := isAscii_of_unsigned h.ascii
  have hlower : (plainDigits text).toLower = (plainDigits text).map CodePoint.lowerLatin :=
    Text.lowerFrom_ascii (fun d hd => hall d (List.mem_of_mem_filter hd)) []
  rw [hlower, hunsigned, lowered_cons hc]
  refine cutSign_of_unsigned ?_
  rw [unsigned_map_lowerLatin, unsigned_plainDigits hunsigned hc, List.map_cons]
  rfl

theorem number_yields (h : Spelled.IsDecimal text) :
    Yields (fun _ => True) Fault.IsOfSpelling (number text) := by
  obtain ⟨x, hx⟩ := Option.isSome_iff_exists.1 (Spelled.float?_isSome h)
  rw [number, hx]
  trivial

theorem readFloat_of_looksFloat (h : LooksFloat (unsigned text)) :
    Yields (fun _ => True) Fault.IsOfSpelling (readFloat text) := by
  obtain ⟨negative, hcut⟩ := h.cutSign_eq
  have hfloat := h.float
  rw [readFloat, hcut]
  generalize lowered (unsigned text) = read at hfloat
  cases hfloat with
  | infinity => trivial
  | nan => trivial
  | decimal all =>
      change Yields _ _ (if _ then _ else if _ then _ else if _ then _ else _)
      split
      · trivial
      split
      · trivial
      exact sixties_yields (fun piece hmem => number_yields (all piece hmem)) fun _ => trivial

theorem splitOn_lowered :
    Text.splitOn (scalar ':') (lowered text) = (Text.splitOn (scalar ':') text).map lowered := by
  rw [lowered, Text.splitOn_map fun c => lowerLatin_eq_iff (by decide), plainDigits,
    Text.splitOn_filter rfl, List.map_map]
  rfl

theorem isFloatBody_of_isDecimal (h : Spelled.IsDecimal text) : IsFloatBody text := by
  have hcolon : scalar ':' ∉ text := fun hmem => (h.marks _ hmem).ne (by decide) rfl
  refine .decimal ?_
  rw [Text.splitOn_of_not_mem hcolon]
  exact List.forall_mem_singleton.2 h

/-- A decimal from its parts. -/
theorem isDecimal_lowered {whole front back : Text}
    (hwhole : Text.AreDigits (lowered whole)) (hfront : Text.AreDigits (lowered front))
    (ne : lowered whole ≠ [] ∨ lowered front ≠ []) (hback : Spelled.IsPower (lowered back)) :
    Spelled.IsDecimal (lowered (whole ++ scalar '.' :: (front ++ back))) := by
  rw [lowered_append, lowered_cons (by decide), lowered_append]
  exact .point hwhole hfront ne hback

/-- Digits in parts of sixty, with a point in the last of them. -/
theorem isFloatBody_of_pieces {whole rest : Text}
    (hpieces : ∀ piece ∈ Text.splitOn (scalar ':') whole, Tag.isDigits piece = true)
    (hrest : Tag.isLooseDigits rest = true) :
    IsFloatBody (lowered (whole ++ scalar '.' :: rest)) := by
  obtain ⟨pieces, last, hwhole, hall⟩ := Text.splitOn_append (scalar ':') whole (scalar '.' :: rest)
  rw [hwhole] at hpieces
  obtain ⟨hpieces, hlast⟩ := List.forall_mem_append.1 hpieces
  have hlast := List.forall_mem_singleton.1 hlast
  have hcolon : scalar ':' ∉ last ++ scalar '.' :: rest := by
    intro hmem
    rcases List.mem_append.1 hmem with hmem | hmem
    · have hin : last ∈ Text.splitOn (scalar ':') whole := by rw [hwhole]; simp
      exact (Text.mem_of_mem_splitOn hin hmem).2 rfl
    · rcases List.mem_cons.1 hmem with heq | hmem
      · cases heq
      · exact absurd (List.all_eq_true.1 hrest _ hmem) (by decide)
  refine .decimal ?_
  rw [splitOn_lowered, hall, Text.splitOn_of_not_mem hcolon, List.map_append]
  refine List.forall_mem_append.2 ⟨List.forall_mem_map.2 fun piece hpiece => ?_,
    List.forall_mem_singleton.2 ?_⟩
  · obtain ⟨hdigits, hne⟩ := lowered_of_isDigits (hpieces piece hpiece)
    exact .whole hdigits hne
  · obtain ⟨hdigits, hne⟩ := lowered_of_isDigits hlast
    have hdecimal := isDecimal_lowered hdigits (areDigits_lowered hrest) (.inl hne)
      (show Spelled.IsPower (lowered []) from .none)
    rwa [List.append_nil] at hdecimal

/-- Digits with a point behind them. -/
theorem looksFloat_of_digits_point {whole rest : Text} (hwhole : Tag.isDigits whole = true)
    (hrest : Tag.isTail Tag.isLooseDigits rest = true) :
    LooksFloat (whole ++ scalar '.' :: rest) := by
  obtain ⟨front, back, rfl, hfront, hpower, hback⟩ := exists_of_isTail hrest
  obtain ⟨hdigits, hne⟩ := lowered_of_isDigits hwhole
  refine ⟨?_, ?_, isFloatBody_of_isDecimal
    (isDecimal_lowered hdigits (areDigits_lowered hfront) (.inl hne) hpower)⟩
  · obtain ⟨c, others, rfl, hc⟩ := exists_first_of_isRun whole hwhole
    exact ⟨c, _, rfl, CodePoint.ne_scalar_of_isDigit hc rfl⟩
  · exact List.forall_mem_append.2 ⟨isAscii_of_isDigits hwhole, List.forall_mem_cons.2
      ⟨by decide, List.forall_mem_append.2 ⟨isAscii_of_all hfront, hback⟩⟩⟩

/-- A point with digits behind it. -/
theorem looksFloat_of_point_digits {rest : Text}
    (hrest : Tag.isTail Tag.isDigits rest = true) : LooksFloat (scalar '.' :: rest) := by
  obtain ⟨front, back, rfl, hfront, hpower, hback⟩ := exists_of_isTail hrest
  obtain ⟨hdigits, hne⟩ := lowered_of_isDigits hfront
  have hnone : Text.AreDigits (lowered []) := List.forall_mem_nil _
  refine ⟨⟨_, _, rfl, by decide⟩, ?_, isFloatBody_of_isDecimal
    (isDecimal_lowered hnone hdigits (.inr hne) hpower)⟩
  exact List.forall_mem_cons.2
    ⟨by decide, List.forall_mem_append.2 ⟨isAscii_of_isDigits hfront, hback⟩⟩

theorem looksFloat_of_isSexagesimal {whole rest : Text}
    (hwhole : Tag.isSexagesimal Tag.isDigits whole = true)
    (hrest : Tag.isLooseDigits rest = true) : LooksFloat (whole ++ scalar '.' :: rest) := by
  obtain ⟨⟨c, others, rfl, hc⟩, hpieces⟩ :=
    exists_cons_of_isSexagesimal exists_first_of_isRun (fun _ => id) hwhole
  refine ⟨⟨c, _, rfl, CodePoint.ne_scalar_of_isDigit hc rfl⟩, ?_,
    isFloatBody_of_pieces hpieces hrest⟩
  exact List.forall_mem_append.2 ⟨isAscii_of_pieces hpieces, List.forall_mem_cons.2
    ⟨by decide, isAscii_of_all hrest⟩⟩

theorem readFloat_yields (h : Tag.isFloat text = true) :
    Yields (fun _ => True) Fault.IsOfSpelling (readFloat text) := by
  refine readFloat_of_looksFloat ?_
  rw [Tag.isFloat] at h
  simp only [Bool.or_eq_true] at h
  rcases h with (hinf | hnan) | hpoint
  · obtain ⟨word, hword, hspelled⟩ := List.any_eq_true.1 hinf
    rw [of_decide_eq_true hspelled]
    simp only [List.mem_cons, List.not_mem_nil, or_false] at hword
    rcases hword with rfl | rfl | rfl <;>
      exact ⟨⟨_, _, rfl, by decide⟩, by unfold Text.IsAscii; decide, .infinity⟩
  · obtain ⟨word, hword, hspelled⟩ := List.any_eq_true.1 hnan
    rw [of_decide_eq_true hspelled]
    simp only [List.mem_cons, List.not_mem_nil, or_false] at hword
    rcases hword with rfl | rfl | rfl <;>
      exact ⟨⟨_, _, rfl, by decide⟩, by unfold Text.IsAscii; decide, .nan⟩
  · split at hpoint
    · cases hpoint
    rename_i whole rest hcut
    have htext : unsigned text = whole ++ scalar '.' :: rest := by
      rw [Text.eq_of_cut hcut, List.append_assoc]
      rfl
    simp only [Bool.or_eq_true, Bool.and_eq_true, decide_eq_true_eq] at hpoint
    rw [htext]
    rcases hpoint with (⟨hwhole, hrest⟩ | ⟨hhead, hrest⟩) | ⟨hwhole, hrest⟩
    · exact looksFloat_of_digits_point hwhole hrest
    · rw [whole_eq_nil_of_point hhead hcut]
      exact looksFloat_of_point_digits hrest
    · exact looksFloat_of_isSexagesimal hwhole hrest

/-! ## Truth values and times -/

theorem readBool_isOk (h : Tag.isOneOf (Tag.boolWords.map (·.1)) text = true) :
    ∃ truth, readBool text = .ok truth := by
  have hwords : ∀ word ∈ Tag.boolWords.map (·.1), Text.IsAscii (Text.ofString word) ∧
      (Tag.boolWords.find? fun entry =>
        (Text.ofString word).map CodePoint.lowerLatin = Text.ofString entry.1).isSome := by
    unfold Text.IsAscii
    decide
  obtain ⟨word, hword, hspelled⟩ := List.any_eq_true.1 h
  obtain rfl := of_decide_eq_true hspelled
  obtain ⟨hascii, hknown⟩ := hwords word hword
  obtain ⟨⟨known, truth⟩, hfind⟩ := Option.isSome_iff_exists.1 hknown
  have hlower : (Text.ofString word).toLower = (Text.ofString word).map CodePoint.lowerLatin :=
    Text.lowerFrom_ascii hascii []
  exact ⟨truth, by rw [readBool, hlower]; dsimp only; rw [hfind]⟩

theorem beforeLastBreak_eq_self (h : Cursor.EndsInLine text) (hne : text ≠ []) :
    Tag.beforeLastBreak text = text := by
  unfold Tag.beforeLastBreak
  split
  · rename_i c hlast
    refine if_neg ?_
    rintro rfl
    cases h _ hlast
  · rename_i hlast
    exact absurd (List.getLast?_eq_none_iff.1 hlast) hne

/-- A timestamp that is none is so for the calendar's sake. -/
theorem readTime_yields {kind : Timestamp → Bool} (h : Cursor.EndsInLine text) (hne : text ≠ [])
    (hread : (Timestamp.read? text).any kind = true) :
    Yields IsSpelled Fault.IsOfSpelling (readTime text) := by
  cases ht : Timestamp.read? text with
  | none =>
      rw [ht] at hread
      cases hread
  | some t =>
      rw [readTime, beforeLastBreak_eq_self h hne, ht]
      dsimp only
      have hscalar : Yields IsSpelled (fun _ => True) t.scalar := by
        unfold Timestamp.scalar
        split
        · exact Yields.bind (Yields.trivial _) fun _ _ => trivial
        · refine Yields.bind (Yields.trivial _) fun _ _ => ?_
          refine Yields.bind (Yields.trivial _) fun _ _ => ?_
          exact Yields.bind (Yields.trivial _) fun _ _ => trivial
      cases hresult : t.scalar with
      | error error => exact .calendar error
      | ok value => exact hscalar.of_ok hresult

/-! ## Plain scalars -/

/-- What a plain scalar gives by its looks. -/
theorem read_plain (h : Cursor.EndsInLine text) :
    Yields IsSpelled (fun fault => fault = .construction ∨ fault.IsOfSpelling)
      (read (.ofPlain text) text) := by
  have hwiden {result : Except Fault Stencil.Scalar}
      (hresult : Yields IsSpelled Fault.IsOfSpelling result) :
      Yields IsSpelled (fun fault => fault = .construction ∨ fault.IsOfSpelling) result :=
    hresult.weaken fun _ => .inr
  unfold Tag.ofPlain
  split
  · trivial
  rename_i hempty
  have hne : text ≠ [] := by simpa using hempty
  rw [beforeLastBreak_eq_self h hne]
  dsimp only
  split
  · trivial
  split
  · rename_i hbool
    obtain ⟨truth, htruth⟩ := readBool_isOk hbool
    rw [read, htruth]
    trivial
  split
  · rename_i hfloat
    exact hwiden (Yields.map ((readFloat_yields hfloat).mono fun _ _ => trivial))
  split
  · rename_i hint
    exact hwiden (Yields.map ((readInt_yields hint).mono fun _ _ => trivial))
  split
  · exact .inl rfl
  split
  · trivial
  split
  · rename_i htime
    exact hwiden (readTime_yields h hne htime)
  split
  · exact .inl rfl
  split
  · exact .inl rfl
  · trivial

end Scalar

end Yaml

end Stencil

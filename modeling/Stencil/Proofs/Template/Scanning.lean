import Mathlib.Data.List.DropRight
import Stencil.Proofs.Text.Parts
import Stencil.Template.Render

/-!
# Scanning texts without tags that end

Scanning goes forward, and the end of a tag is found only where its mark is.  In
a text without a tag that ends, the tokens are data, and at most a fault or a tag
that goes on to the end.  Nothing but comments is left out of the data.
-/

namespace Stencil.Template

/-! ## Marks -/

namespace TagKind

def opening : TagKind → Text
  | .print => "\x7b\x7b"
  | .block => "\x7b%"

def closing : TagKind → Text
  | .print => "\x7d\x7d"
  | .block => "%\x7d"

/-- The token for the mark that begins a tag. -/
def first : TagKind → Token
  | .print => .printBegin
  | .block => .blockBegin

/-- The token for the mark that ends a tag. -/
def last : TagKind → Token
  | .print => .printEnd
  | .block => .blockEnd

end TagKind

def commentMark : Text := "\x7b#"

/-- Somewhere the mark that begins a tag stands in front of the one that ends it. -/
def HoldsTag (kind : TagKind) (text : Text) : Prop :=
  ∃ before inner after, text = before ++ (kind.opening ++ (inner ++ (kind.closing ++ after)))

variable {kind : TagKind} {text rest before after : Text}

theorem holdsTag_of_closing (before : Text) (hrest : kind.closing <:+: rest)
    (hinner : rest <:+ after) : HoldsTag kind (before ++ (kind.opening ++ after)) := by
  obtain ⟨front, back, rfl⟩ := hrest
  obtain ⟨skipped, rfl⟩ := hinner
  exact ⟨before, skipped ++ front, back, by simp⟩

theorem HoldsTag.of_suffix (h : HoldsTag kind rest) (hrest : rest <:+ text) :
    HoldsTag kind text := by
  obtain ⟨before, inner, after, rfl⟩ := h
  obtain ⟨skipped, rfl⟩ := hrest
  exact ⟨skipped ++ before, inner, after, by simp⟩

theorem between_iff {opening closing : Text} : hasPlaceholder.between text opening closing = true ↔
    ∃ before inner after, text = before ++ (opening ++ (inner ++ (closing ++ after))) := by
  unfold hasPlaceholder.between
  constructor
  · intro h
    split at h
    · rename_i before rest hcut
      obtain ⟨inner, after, rfl⟩ := Text.contains_iff.1 h
      exact ⟨before, inner, after, by simp [Text.eq_of_cut hcut]⟩
    · cases h
  · rintro ⟨before, inner, after, rfl⟩
    obtain ⟨front, rest, hcut, skipped, rfl⟩ :=
      Text.exists_cut opening before (inner ++ (closing ++ after))
    rw [List.append_assoc] at hcut
    rw [hcut]
    exact Text.contains_iff.2 ⟨skipped ++ inner, after, by simp⟩

theorem hasPlaceholder_iff : hasPlaceholder text = true ↔ ∃ kind, HoldsTag kind text := by
  rw [hasPlaceholder, Bool.or_eq_true, between_iff, between_iff]
  constructor
  · rintro (h | h)
    · exact ⟨.print, h⟩
    · exact ⟨.block, h⟩
  · rintro ⟨_ | _, h⟩
    · exact .inl h
    · exact .inr h

/-- Unifying line ends makes no tag. -/
theorem HoldsTag.of_unifyLineEnds (h : HoldsTag kind (Text.unifyLineEnds text)) :
    HoldsTag kind text := by
  obtain ⟨before, inner, after, heq⟩ := h
  obtain ⟨front, rest, rfl, hrest, -⟩ := Text.exists_of_unifyLineEnds_eq_append heq
  obtain ⟨opening, rest, rfl, hrest, hopening⟩ := Text.exists_of_unifyLineEnds_eq_append hrest
  obtain ⟨middle, rest, rfl, hrest, -⟩ := Text.exists_of_unifyLineEnds_eq_append hrest
  obtain ⟨closing, rest, rfl, -, hclosing⟩ := Text.exists_of_unifyLineEnds_eq_append hrest
  rw [hopening (by cases kind <;> decide), hclosing (by cases kind <;> decide)]
  exact ⟨front, middle, rest, rfl⟩

/-! ## Tokens inside tags -/

theorem skipBlanks_suffix (text : Text) : skipBlanks text <:+ text := List.dropWhile_suffix _

theorem digitRun_suffix (isMember : CodePoint → Bool) (text : Text) :
    (digitRun isMember text).2 <:+ text := by
  fun_induction digitRun isMember text with
  | case1 => exact List.suffix_rfl
  | case2 c text _ digits rest heq ih =>
      rw [heq] at ih
      exact ih.trans (List.suffix_cons c text)
  | case3 next rest _ _ ih => exact ih.trans (List.suffix_cons _ _)
  | case4 | case5 => exact List.suffix_rfl

theorem digitsFrom?_suffix {digits : Text} (h : digitsFrom? text = some (digits, rest)) :
    rest <:+ text := by
  unfold digitsFrom? at h
  split at h
  · split at h
    · obtain rfl : _ = rest := congrArg Prod.snd (Option.some.inj h)
      exact digitRun_suffix _ _
    · cases h
  · cases h

theorem cutSign_suffix (text : Text) : (Binary64.cutSign text).2 <:+ text := by
  unfold Binary64.cutSign
  split
  · exact List.suffix_cons _ _
  · exact List.suffix_cons _ _
  · exact List.suffix_rfl

theorem exponent?_suffix {negative : Bool} {digits : Text}
    (h : exponent? text = some (negative, digits, rest)) : rest <:+ text := by
  unfold exponent? at h
  split at h
  · rename_i c more
    split at h
    · obtain ⟨⟨found, left⟩, hdigits, heq⟩ := Option.map_eq_some_iff.1 h
      cases heq
      exact ((digitsFrom?_suffix hdigits).trans (cutSign_suffix more)).trans (List.suffix_cons c more)
    · cases h
  · cases h

theorem fraction?_suffix {digits : Text} (h : fraction? text = some (digits, rest)) :
    rest <:+ text := by
  unfold fraction? at h
  split at h
  · exact (digitsFrom?_suffix h).trans (List.suffix_cons _ _)
  · cases h

theorem float?_suffix {value : Binary64} (h : float? text = some (value, rest)) :
    rest <:+ text := by
  unfold float? at h
  split at h
  · cases h
  rename_i whole more hwhole
  have hmore := digitsFrom?_suffix hwhole
  dsimp only at h
  split at h
  · rename_i fraction left hfraction
    have hleft := (fraction?_suffix hfraction).trans hmore
    cases hexponent : exponent? left with
    | none =>
        rw [hexponent] at h
        cases h
        exact hleft
    | some found =>
        obtain ⟨negative, digits, final⟩ := found
        rw [hexponent] at h
        cases h
        exact (exponent?_suffix hexponent).trans hleft
  · obtain ⟨⟨negative, digits, final⟩, hexponent, heq⟩ := Option.map_eq_some_iff.1 h
    cases heq
    exact (exponent?_suffix hexponent).trans hmore

theorem based?_suffix {base value : Nat} (h : based? base text = some (value, rest)) :
    rest <:+ text := by
  unfold based? at h
  dsimp only at h
  split at h
  · split at h
    · obtain rfl : _ = rest := congrArg Prod.snd (Option.some.inj h)
      refine (digitRun_suffix _ _).trans ?_
      split
      · exact List.suffix_cons _ _
      · exact List.suffix_rfl
    · cases h
  · cases h

theorem getD_suffix {found : Option (Nat × Text)} {other : Nat × Text}
    (hfound : ∀ value rest, found = some (value, rest) → rest <:+ text)
    (hother : other.2 <:+ text) : (found.getD other).2 <:+ text := by
  cases found with
  | none => exact hother
  | some pair => exact hfound pair.1 pair.2 rfl

theorem integer?_suffix {value : Nat} (h : integer? text = some (value, rest)) :
    rest <:+ text := by
  unfold integer? at h
  split at h
  · rename_i more
    obtain rfl : _ = rest := congrArg Prod.snd (Option.some.inj h)
    refine getD_suffix (fun value rest hmarked => ?_) (digitRun_suffix _ _)
    refine List.IsSuffix.trans ?_ (List.suffix_cons _ _)
    split at hmarked
    · refine List.IsSuffix.trans ?_ (List.suffix_cons _ _)
      split at hmarked
      · exact based?_suffix hmarked
      split at hmarked
      · exact based?_suffix hmarked
      split at hmarked
      · exact based?_suffix hmarked
      · cases hmarked
    · cases hmarked
  · obtain ⟨⟨digits, left⟩, hdigits, heq⟩ := Option.map_eq_some_iff.1 h
    cases heq
    exact digitsFrom?_suffix hdigits

theorem stringBody_suffix {quote : CodePoint} {body : Text}
    (h : stringBody quote text = some (body, rest)) : rest <:+ text := by
  fun_induction stringBody quote text generalizing body with
  | case1 => cases h
  | case2 c text ih =>
      obtain ⟨⟨inner, left⟩, hinner, heq⟩ := Option.map_eq_some_iff.1 h
      cases heq
      exact (ih hinner).trans ⟨[_, c], rfl⟩
  | case3 =>
      cases h
      exact List.suffix_cons _ _
  | case4 => cases h
  | case5 c text _ _ _ ih =>
      obtain ⟨⟨inner, left⟩, hinner, heq⟩ := Option.map_eq_some_iff.1 h
      cases heq
      exact (ih hinner).trans (List.suffix_cons c text)

theorem operator?_suffix {symbol : String} (h : operator? text = some (symbol, rest)) :
    rest <:+ text := by
  obtain ⟨found, -, hfound⟩ := List.exists_of_findSome?_eq_some h
  obtain ⟨left, hlead, heq⟩ := Option.map_eq_some_iff.1 hfound
  cases heq
  exact Text.dropLeading?_suffix hlead

/-- A token inside a tag is no end of a tag, and what is behind it is left. -/
theorem tokenAt?_eq_some {afterDot : Bool} {token : Token}
    (h : tokenAt? afterDot text = some (token, rest)) :
    rest <:+ text ∧ ∀ kind : TagKind, token ≠ kind.last := by
  unfold tokenAt? at h
  split at h
  · rename_i value left hfloat
    cases h
    split at hfloat
    · cases hfloat
    · exact ⟨float?_suffix hfloat, by rintro (_ | _) <;> nofun⟩
  split at h
  · rename_i value left hinteger
    cases h
    exact ⟨integer?_suffix hinteger, by rintro (_ | _) <;> nofun⟩
  dsimp only at h
  split at h
  · cases h
    refine ⟨List.drop_suffix _ _, ?_⟩
    split <;> rintro (_ | _) <;> nofun
  split at h
  · rename_i body left hquoted
    cases h
    constructor
    · split at hquoted
      · split at hquoted
        · exact (stringBody_suffix hquoted).trans (List.suffix_cons _ _)
        · cases hquoted
      · cases hquoted
    · split <;> rintro (_ | _) <;> nofun
  · obtain ⟨⟨symbol, left⟩, hoperator, heq⟩ := Option.map_eq_some_iff.1 h
    cases heq
    exact ⟨operator?_suffix hoperator, by rintro (_ | _) <;> nofun⟩

/-! ## Marks at the front -/

/-- The end of a tag is found only where its mark is. -/
theorem closing_of_tagEnd? (h : tagEnd? kind text = some rest) : kind.closing <:+: text := by
  unfold tagEnd? at h
  dsimp only at h
  split at h
  · split at h
    · rename_i more _ left hdrop
      have hmark : Text.dropLeading? kind.closing more = some left := by cases kind <;> exact hdrop
      exact (Text.isInfix_of_dropLeading? hmark).trans (List.suffix_cons _ _).isInfix
    · cases h
  · rename_i more
    split at h
    · have hmark : Text.dropLeading? kind.closing more = some rest := by cases kind <;> exact h
      exact (Text.isInfix_of_dropLeading? hmark).trans (List.suffix_cons _ _).isInfix
    · cases h
  · have hmark : Text.dropLeading? kind.closing text = some rest := by
      clear * - h
      cases kind <;> exact h
    exact Text.isInfix_of_dropLeading? hmark

theorem cutControl_suffix (text : Text) : (cutControl text).2 <:+ text := by
  unfold cutControl
  split
  · exact List.suffix_cons _ _
  · exact List.suffix_cons _ _
  · exact List.suffix_rfl

theorem commentEnd?_suffix (h : commentEnd? text = some rest) : rest <:+ text := by
  unfold commentEnd? at h
  split at h
  · exact (Text.dropLeading?_suffix h).trans (List.suffix_cons _ _)
  · obtain ⟨left, hdrop, rfl⟩ := Option.map_eq_some_iff.1 h
    exact ((skipBlanks_suffix left).trans (Text.dropLeading?_suffix hdrop)).trans
      (List.suffix_cons _ _)
  · exact Text.dropLeading?_suffix h

/-- A raw part begins with a whole tag. -/
theorem rawBegin?_holdsTag (h : rawBegin? text = some rest) : HoldsTag .block text := by
  unfold rawBegin? at h
  split at h
  · cases h
  rename_i inner hopening
  have hinner := skipBlanks_suffix (cutControl inner).2
  split at h
  · cases h
  rename_i more hraw
  have hmore : more <:+ inner :=
    (Text.dropLeading?_suffix hraw).trans (hinner.trans (cutControl_suffix inner))
  have hclosing : TagKind.block.closing <:+: skipBlanks more := by
    split at h
    · cases h
    · exact closing_of_tagEnd? h
  have hholds := holdsTag_of_closing [] hclosing ((skipBlanks_suffix more).trans hmore)
  rwa [List.nil_append, show TagKind.block.opening ++ inner = text from
    (Text.dropLeading?_eq_some_iff.1 hopening).symm] at hholds

theorem tagMark?_eq_some {mark : TagMark} {strips : Bool}
    (h : tagMark? text = some (mark, strips, rest)) :
    (∃ inner, mark = .comment ∧ text = commentMark ++ inner ∧ rest <:+ inner) ∨
      (∃ kind inner, mark = .tag kind ∧ text = kind.opening ++ inner ∧ rest <:+ inner) ∨
      mark = .raw ∧ HoldsTag .block text := by
  unfold tagMark? at h
  split at h
  · rename_i second inner
    dsimp only at h
    split at h
    · cases h
      exact .inr (.inl ⟨.print, inner, rfl, rfl, cutControl_suffix inner⟩)
    · cases h
      exact .inl ⟨inner, rfl, rfl, cutControl_suffix inner⟩
    · split at h
      · rename_i hraw
        cases h
        exact .inr (.inr ⟨rfl, rawBegin?_holdsTag hraw⟩)
      · cases h
        exact .inr (.inl ⟨.block, inner, rfl, rfl, cutControl_suffix inner⟩)
    · cases h
  · cases h

theorem tagMark?_comment (inner : Text) : (tagMark? (commentMark ++ inner)).isSome := rfl

/-! ## Scanning -/

theorem cutAt_eq_some {α : Type} {mark? : Text → Option α} {found : α}
    (h : cutAt mark? text = some (before, found)) :
    ∃ after, text = before ++ after ∧ mark? after = some found := by
  induction text generalizing before with
  | nil => cases h
  | cons c text ih =>
      rw [cutAt] at h
      split at h
      · rename_i hfound
        cases h
        exact ⟨_, rfl, hfound⟩
      · obtain ⟨⟨front, other⟩, hcut, heq⟩ := Option.map_eq_some_iff.1 h
        cases heq
        obtain ⟨after, rfl, hfound⟩ := ih hcut
        exact ⟨after, rfl, hfound⟩

theorem mark?_of_cutAt_eq_none {α : Type} {mark? : Text → Option α} (h : cutAt mark? text = none)
    (hrest : rest <:+ text) (hne : rest ≠ []) : mark? rest = none := by
  induction text with
  | nil => exact absurd (List.suffix_nil.1 hrest) hne
  | cons c text ih =>
      rw [cutAt] at h
      split at h
      · cases h
      · rename_i hnone
        rcases List.suffix_cons_iff.1 hrest with rfl | hrest
        · exact hnone
        · exact ih (Option.map_eq_none_iff.1 h) hrest

/-- Where the mark is missing, a tag has no end. -/
theorem scanTag_lacks (fuel : Nat) {opened : List String} {afterDot : Bool} {place : Place}
    (h : ¬ kind.closing <:+: text) :
    ∀ lexeme ∈ scanTag fuel kind opened afterDot place text, lexeme.token ≠ kind.last := by
  have hfault : ∀ {cause : SyntaxFault} {line : Nat},
      ∀ lexeme ∈ [Lexeme.mk (.fault cause) line], lexeme.token ≠ kind.last := by
    intro cause line lexeme hlexeme
    rw [List.mem_singleton.1 hlexeme]
    cases kind <;> nofun
  induction fuel generalizing opened afterDot place text with
  | zero => simp [scanTag]
  | succ fuel ih =>
      have hend : (if opened.isEmpty then tagEnd? kind text else none) = none := by
        split
        · rw [Option.eq_none_iff_forall_ne_some]
          exact fun rest hrest => h (closing_of_tagEnd? hrest)
        · rfl
      unfold scanTag
      rw [hend]
      dsimp only
      have hlater : ∀ {rest : Text}, rest <:+ text → ¬ kind.closing <:+: rest :=
        fun hrest hclosing => h (hclosing.trans hrest.isInfix)
      split
      · simp
      split
      · exact ih (hlater (skipBlanks_suffix _))
      split
      · exact hfault
      rename_i token rest htoken
      obtain ⟨hrest, hlast⟩ := tokenAt?_eq_some htoken
      have hnext : ∀ {line : Nat} {opened : List String} {afterDot : Bool} {place : Place},
          ∀ lexeme ∈ ⟨token, line⟩ :: scanTag fuel kind opened afterDot place rest,
            lexeme.token ≠ kind.last :=
        List.forall_mem_cons.2 ⟨hlast kind, ih (hlater hrest)⟩
      split
      · exact hfault
      · split
        · exact hfault
        · exact hnext
      · exact hnext

/-- Pieces of text, each with the line on which it starts. -/
abbrev Pieces := List (Text × Nat)

namespace Pieces

def lexemes (pieces : Pieces) : List Lexeme := pieces.map fun (text, line) => ⟨.data text, line⟩

def joined (pieces : Pieces) : Text := pieces.flatMap Prod.fst

theorem lexemes_append (pieces more : Pieces) :
    (pieces ++ more).lexemes = pieces.lexemes ++ more.lexemes :=
  List.map_append

theorem joined_append (pieces more : Pieces) :
    (pieces ++ more).joined = pieces.joined ++ more.joined :=
  List.flatMap_append

end Pieces

/-- Tokens that no statement can be read from: a fault, or a tag without its end. -/
inductive IsStuck : List Lexeme → Prop where
  | fault (cause : SyntaxFault) (line : Nat) : IsStuck [⟨.fault cause, line⟩]
  | tag {lexemes : List Lexeme} (kind : TagKind) (line : Nat) :
      (∀ lexeme ∈ lexemes, lexeme.token ≠ kind.last) → IsStuck (⟨kind.first, line⟩ :: lexemes)

theorem exists_dataTokens (line : Nat) (text : Text) :
    ∃ pieces : Pieces, dataTokens line text = pieces.lexemes ∧ pieces.joined = text := by
  unfold dataTokens
  split
  · rename_i hempty
    exact ⟨[], rfl, (List.isEmpty_iff.1 hempty).symm⟩
  · exact ⟨[(text, line)], rfl, by simp [Pieces.joined]⟩

theorem stripIf_sublist (strips : Bool) (text : Text) : (stripIf strips text).Sublist text := by
  unfold stripIf
  split
  · exact (List.rdropWhile_prefix CodePoint.isBlank text).sublist
  · exact List.Sublist.refl _

/-- What scanning a text without tags that end comes to. -/
inductive ScansPlainly (text : Text) (lexemes : List Lexeme) : Prop where
  | data (pieces : Pieces) : lexemes = pieces.lexemes → pieces.joined.Sublist text →
      (pieces.joined = text ↔ ¬ commentMark <:+: text) → ScansPlainly text lexemes
  | stuck (pieces : Pieces) (rest : List Lexeme) : lexemes = pieces.lexemes ++ rest →
      IsStuck rest → ScansPlainly text lexemes

/-- What is left without a comment is not the whole text. -/
theorem ScansPlainly.of_comment {inner : Text} {lexemes : List Lexeme} (pieces : Pieces)
    (hlexemes : lexemes = pieces.lexemes) (hpieces : pieces.joined.Sublist (before ++ inner)) :
    ScansPlainly (before ++ (commentMark ++ inner)) lexemes := by
  refine .data pieces hlexemes (hpieces.trans ?_) (iff_of_false (fun heq => ?_) (not_not.2 ?_))
  · exact (List.Sublist.refl before).append (List.sublist_append_right commentMark inner)
  · have hlength := hpieces.length_le
    simp only [heq, List.length_append, show commentMark.length = 2 from rfl] at hlength
    omega
  · exact ⟨before, inner, by simp⟩

/-- What is scanned behind a comment follows what stands before it. -/
theorem ScansPlainly.behind_comment {inner left : Text} {lexemes : List Lexeme}
    (h : ScansPlainly left lexemes) (hleft : left <:+ inner) {pieces : Pieces}
    (hpieces : pieces.joined.Sublist before) :
    ScansPlainly (before ++ (commentMark ++ inner)) (pieces.lexemes ++ lexemes) := by
  cases h with
  | data more hmore hsublist _ =>
      refine .of_comment (pieces ++ more) ?_ ?_
      · rw [hmore, Pieces.lexemes_append]
      · rw [Pieces.joined_append]
        exact hpieces.append (hsublist.trans hleft.sublist)
  | stuck more rest hmore hstuck =>
      refine .stuck (pieces ++ more) rest ?_ hstuck
      rw [hmore, Pieces.lexemes_append, List.append_assoc]

theorem scanText_plainly (fuel : Nat) {place : Place} (hfuel : text.length < fuel)
    (h : ∀ kind, ¬ HoldsTag kind text) : ScansPlainly text (scanText fuel place text) := by
  induction fuel generalizing place text with
  | zero => cases hfuel
  | succ fuel ih =>
      unfold scanText
      split
      · rename_i hnone
        obtain ⟨pieces, hpieces, rfl⟩ := exists_dataTokens place.line text
        refine .data pieces hpieces (List.Sublist.refl _) (iff_of_true rfl ?_)
        rintro ⟨front, back, heq⟩
        have hsuffix : commentMark ++ back <:+ pieces.joined := ⟨front, by rw [← heq]; simp⟩
        have hmark := mark?_of_cutAt_eq_none hnone hsuffix (by simp [commentMark, Text.ofString])
        have hsome := tagMark?_comment back
        rw [hmark] at hsome
        cases hsome
      rename_i before mark strips rest hcut
      obtain ⟨after, rfl, hmark⟩ := cutAt_eq_some hcut
      obtain ⟨pieces, hpieces, hjoined⟩ := exists_dataTokens place.line (stripIf strips before)
      have hbefore : pieces.joined.Sublist before := hjoined ▸ stripIf_sublist strips before
      rcases tagMark?_eq_some hmark with ⟨inner, rfl, rfl, hinner⟩ | ⟨kind, inner, rfl, rfl, hinner⟩ |
        ⟨rfl, hholds⟩
      · dsimp only
        split
        · rename_i body left hend
          obtain ⟨tail, rfl, htail⟩ := cutAt_eq_some hend
          have hleft : left <:+ inner :=
            (commentEnd?_suffix htail).trans ((List.suffix_append body tail).trans hinner)
          have hfuel' : left.length < fuel := by
            have hlength := hleft.length_le
            simp only [List.length_append, show commentMark.length = 2 from rfl] at hfuel
            omega
          have hsuffix : left <:+ before ++ (commentMark ++ inner) :=
            hleft.trans ⟨before ++ commentMark, by simp⟩
          rw [hpieces]
          exact (ih hfuel' fun kind hholds => h kind (hholds.of_suffix hsuffix)).behind_comment
            hleft hbefore
        · -- a comment without its end is a fault, unless the text ends with its mark
          split
          · refine .of_comment pieces ?_ (hbefore.trans (List.sublist_append_left _ _))
            rw [hpieces, List.append_nil]
          · exact .stuck pieces _ (by rw [hpieces]) (.fault _ _)
      · -- a tag that ended would be one of the text
        have hclosing : ¬ kind.closing <:+: rest := fun hclosing =>
          h kind (holdsTag_of_closing before hclosing hinner)
        dsimp only
        rw [hpieces]
        cases kind with
        | print => exact .stuck pieces _ rfl (.tag .print _ (scanTag_lacks fuel hclosing))
        | block => exact .stuck pieces _ rfl (.tag .block _ (scanTag_lacks fuel hclosing))
      · exact absurd (hholds.of_suffix (List.suffix_append before after)) (h .block)

end Stencil.Template

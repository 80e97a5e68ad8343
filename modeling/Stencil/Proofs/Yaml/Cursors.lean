import Stencil.Proofs.Results
import Stencil.Yaml.Token.Property
import Stencil.Yaml.Token.Scalar

/-!
# Moving forward in a document

Whatever is read at a place of a document ends at a later place, so what is
left is a part of what was left before.  Reading fails for the form of what is
there or for the number of a character that there is not.
-/

namespace Stencil

namespace Yaml

/-! ## Places -/

/-- Faults of tokens: their form, and escapes of numbers that are no code point. -/
inductive Fault.IsOfToken : Fault → Prop
  | token : IsOfToken .token
  | codePoint {code : Nat} (large : CodePoint.ofNat? code = none) : IsOfToken (.codePoint code)

namespace Cursor

/-- Whether a place is as far in the document as another one, or further. -/
def IsPast (later earlier : Cursor) : Prop := later.rest <:+ earlier.rest

variable {a b c cursor : Cursor}

theorem IsPast.refl (cursor : Cursor) : cursor.IsPast cursor := List.suffix_rfl

theorem IsPast.trans (h : a.IsPast b) (hb : b.IsPast c) : a.IsPast c := List.IsSuffix.trans h hb

theorem forward_isPast (cursor : Cursor) : cursor.forward.IsPast cursor := by
  obtain ⟨rest, index, line, column⟩ := cursor
  cases rest with
  | nil => exact .refl _
  | cons c rest =>
      have hrest : (forward ⟨c :: rest, index, line, column⟩).rest = rest := by
        rw [forward]
        split
        · rfl
        · split <;> rfl
      rw [IsPast, hrest]
      exact List.suffix_cons c rest

theorem skip_isPast (n : Nat) (cursor : Cursor) : (cursor.skip n).IsPast cursor := by
  induction n generalizing cursor with
  | zero => exact .refl _
  | succ n ih => exact (ih cursor.forward).trans (forward_isPast cursor)

variable (test : CodePoint → Bool)

theorem span_isPast (cursor : Cursor) : (cursor.span test).2.IsPast cursor := skip_isPast _ _

theorem skipWhile_isPast (cursor : Cursor) : (cursor.skipWhile test).IsPast cursor :=
  skip_isPast _ _

theorem skipSpaces_isPast (cursor : Cursor) : cursor.skipSpaces.IsPast cursor := skip_isPast _ _

theorem skipComment_isPast (cursor : Cursor) : cursor.skipComment.IsPast cursor := by
  rw [skipComment]
  split
  · exact skip_isPast _ _
  · exact .refl _

theorem lineBreak_isPast (cursor : Cursor) : cursor.lineBreak.2.IsPast cursor := by
  rw [lineBreak]
  split
  · exact skip_isPast _ _
  · split
    · exact forward_isPast _
    · split
      · exact forward_isPast _
      · exact .refl _
  · exact .refl _

/-- What a reader gives that goes on from a place. -/
abbrev Advances {α : Type} (cursor : Cursor) (result : Except Fault (α × Cursor)) : Prop :=
  Yields (fun (_, last) => last.IsPast cursor) Fault.IsOfToken result

theorem restOfLine_yields (cursor : Cursor) :
    Yields (fun last => last.IsPast cursor) Fault.IsOfToken cursor.restOfLine := by
  rw [restOfLine]
  split
  · exact (lineBreak_isPast _).trans ((skipComment_isPast _).trans (skipSpaces_isPast _))
  · exact .token

/-! ## Properties and directives -/

theorem anchorName_advances (cursor : Cursor) : cursor.Advances cursor.anchorName := by
  rw [anchorName]
  dsimp only
  split
  · exact .token
  · exact (span_isPast _ _).trans (forward_isPast _)

theorem percentBytes_advances (fuel : Nat) (cursor : Cursor) :
    cursor.Advances (percentBytes fuel cursor) := by
  induction fuel generalizing cursor with
  | zero => exact .refl _
  | succ fuel ih =>
      rw [percentBytes]
      split
      · dsimp only
        split
        · exact .token
        · exact (ih _).bind fun (_, last) hlast => IsPast.trans hlast (skip_isPast _ _)
      · exact .refl _

theorem uriParts_advances (fuel : Nat) (cursor : Cursor) :
    cursor.Advances (uriParts fuel cursor) := by
  induction fuel generalizing cursor with
  | zero => exact .refl _
  | succ fuel ih =>
      rw [uriParts]
      have hspan := span_isPast (fun c => isUriMark c && !c.isIn "%") cursor
      dsimp only
      split
      · refine (percentBytes_advances _ _).bind fun (bytes, next) hnext => ?_
        dsimp only
        split
        · exact .token
        · exact (ih next).bind fun (_, last) hlast =>
            IsPast.trans hlast (IsPast.trans hnext hspan)
      · exact hspan

theorem uri_advances (cursor : Cursor) : cursor.Advances cursor.uri := by
  rw [uri]
  split
  · exact .token
  · exact uriParts_advances _ _

theorem handle_advances (cursor : Cursor) : cursor.Advances cursor.handle := by
  rw [handle]
  split
  · exact .token
  · split
    · exact forward_isPast _
    · dsimp only
      split
      · exact (forward_isPast _).trans ((span_isPast _ _).trans (forward_isPast _))
      · exact .token

theorem natural_advances (cursor : Cursor) : cursor.Advances cursor.natural := by
  rw [natural]
  dsimp only
  split
  · exact span_isPast _ _
  · exact .token

theorem version_advances (cursor : Cursor) : cursor.Advances cursor.version := by
  rw [version]
  refine (natural_advances _).bind fun (major, after) hafter => ?_
  dsimp only
  split
  · exact .token
  · refine (natural_advances _).bind fun (minor, last) hlast => ?_
    dsimp only
    split
    · exact .token
    · exact IsPast.trans hlast ((forward_isPast _).trans
        (IsPast.trans hafter (skipSpaces_isPast _)))

theorem tagHandle_advances (cursor : Cursor) : cursor.Advances cursor.tagHandle := by
  rw [tagHandle]
  refine (handle_advances _).bind fun (name, after) hafter => ?_
  dsimp only
  split
  · exact .token
  · refine (uri_advances _).bind fun (lead, last) hlast => ?_
    dsimp only
    split
    · exact .token
    · exact IsPast.trans hlast ((skipSpaces_isPast _).trans
        (IsPast.trans hafter (skipSpaces_isPast _)))

theorem setting_advances (cursor : Cursor) : cursor.Advances cursor.setting := by
  rw [setting]
  have hname := (span_isPast CodePoint.isWordMark cursor.forward).trans (forward_isPast cursor)
  generalize cursor.forward.span CodePoint.isWordMark = named at hname ⊢
  obtain ⟨name, after⟩ := named
  dsimp only
  split
  · exact .token
  · have hrest (found : Setting) (last : Cursor) (hlast : last.IsPast after) :
        cursor.Advances (do return (found, ← last.restOfLine)) :=
      (restOfLine_yields last).bind fun next hnext =>
        IsPast.trans hnext (IsPast.trans hlast hname)
    split
    · exact (version_advances after).bind fun (found, last) hlast => hrest found last hlast
    · split
      · exact (tagHandle_advances after).bind fun (found, last) hlast => hrest found last hlast
      · exact hrest _ _ (skipWhile_isPast _ _)

/-! ## Scalars in quotes -/

theorem quotedBreaks_advances (fuel : Nat) (cursor : Cursor) :
    cursor.Advances (quotedBreaks fuel cursor) := by
  induction fuel generalizing cursor with
  | zero => exact .refl _
  | succ fuel ih =>
      rw [quotedBreaks]
      split
      · exact .token
      · dsimp only
        split
        · exact (ih _).bind fun (_, last) hlast =>
            IsPast.trans hlast ((lineBreak_isPast _).trans (skipWhile_isPast _ _))
        · exact skipWhile_isPast _ _

theorem breaks_advances (cursor : Cursor) : cursor.Advances cursor.breaks :=
  quotedBreaks_advances _ _

theorem hexEscape_advances (count : Nat) (cursor : Cursor) :
    cursor.Advances (cursor.hexEscape count) := by
  rw [hexEscape]
  split
  · exact .token
  · split
    · exact skip_isPast _ _
    · exact .codePoint ‹_›

theorem escape_advances (cursor : Cursor) : cursor.Advances cursor.escape := by
  rw [escape]
  split
  · exact .token
  · split
    · exact forward_isPast _
    · split
      · exact (hexEscape_advances _ _).mono fun (_, last) hlast =>
          IsPast.trans hlast (forward_isPast _)
      · split
        · exact (breaks_advances _).mono fun (_, last) hlast =>
            IsPast.trans hlast (lineBreak_isPast _)
        · exact .token

theorem quotedWord_advances (isDouble : Bool) (fuel : Nat) (cursor : Cursor) :
    cursor.Advances (quotedWord isDouble fuel cursor) := by
  induction fuel generalizing cursor with
  | zero => exact .refl _
  | succ fuel ih =>
      rw [quotedWord]
      have hspan := span_isPast
        (fun c => !(c.isIn "\x27\"\\" || c.isSpaceOrTab || c.isLineEnd)) cursor
      generalize cursor.span _ = taken at hspan ⊢
      obtain ⟨part, after⟩ := taken
      have hrest {next last : Cursor} (hnext : next.IsPast after) (hlast : last.IsPast next) :
          last.IsPast cursor := IsPast.trans hlast (IsPast.trans hnext hspan)
      dsimp only
      split
      · split
        · exact (ih _).bind fun _ hlast => hrest (skip_isPast _ _) hlast
        · split
          · exact (ih _).bind fun _ hlast => hrest (forward_isPast _) hlast
          · split
            · have hescape := escape_advances after.forward
              cases hread : after.forward.escape with
              | error fault => exact hescape.of_error hread
              | ok escaped =>
                  have hnext := IsPast.trans (hescape.of_ok hread) (forward_isPast _)
                  exact (ih _).bind fun _ hlast => hrest hnext hlast
            · exact hspan
      · exact hspan

theorem quotedSpace_advances (cursor : Cursor) : cursor.Advances cursor.quotedSpace := by
  rw [quotedSpace]
  have hspan := span_isPast CodePoint.isSpaceOrTab cursor
  dsimp only
  split
  · exact .token
  · split
    · exact (breaks_advances _).bind fun (_, last) hlast =>
        IsPast.trans hlast ((lineBreak_isPast _).trans hspan)
    · exact hspan

theorem quotedFrom_advances (isDouble : Bool) (quote : CodePoint) (fuel : Nat) (cursor : Cursor) :
    cursor.Advances (quotedFrom isDouble quote fuel cursor) := by
  induction fuel generalizing cursor with
  | zero => exact .token
  | succ fuel ih =>
      rw [quotedFrom]
      refine (quotedWord_advances _ _ _).bind fun (word, after) hafter => ?_
      dsimp only
      split
      · exact (forward_isPast _).trans hafter
      · refine (quotedSpace_advances after).bind fun (space, next) hnext => ?_
        exact (ih next).bind fun (_, last) hlast =>
          IsPast.trans hlast (IsPast.trans hnext hafter)

theorem quotedScalar_advances (isDouble : Bool) (cursor : Cursor) :
    cursor.Advances (cursor.quotedScalar isDouble) :=
  (quotedFrom_advances _ _ _ _).mono fun _ hlast => IsPast.trans hlast (forward_isPast _)

/-! ## Blocks -/

theorem blockHead_yields (cursor : Cursor) :
    Yields (fun (_, _, last) => last.IsPast cursor) Fault.IsOfToken cursor.blockHead := by
  rw [blockHead]
  split
  rename_i chomping increment after heq
  have hafter : after.IsPast cursor := by
    split at heq
    · split at heq <;> cases heq
      · exact skip_isPast _ _
      · exact forward_isPast _
    · split at heq
      · split at heq <;> cases heq
        · exact skip_isPast _ _
        · exact forward_isPast _
      · cases heq
        exact .refl _
  dsimp only
  split
  · exact .token
  · exact hafter

theorem blockLead_isPast (fuel widest : Nat) (cursor : Cursor) :
    (blockLead fuel widest cursor).2.2.IsPast cursor := by
  induction fuel generalizing widest cursor with
  | zero => exact .refl _
  | succ fuel ih =>
      rw [blockLead]
      split
      · exact (ih _ _).trans (forward_isPast _)
      · split
        · exact (ih _ _).trans (lineBreak_isPast _)
        · exact .refl _

theorem blockBreaks_isPast (indent fuel : Nat) (cursor : Cursor) :
    (blockBreaks indent fuel cursor).2.IsPast cursor := by
  induction fuel generalizing cursor with
  | zero => exact .refl _
  | succ fuel ih =>
      have hindent : (indentTo indent cursor).IsPast cursor := skip_isPast _ _
      rw [blockBreaks]
      dsimp only
      split
      · exact (ih _).trans ((lineBreak_isPast _).trans hindent)
      · exact hindent

theorem blockLines_isPast (folded : Bool) (chomping : Chomping) (indent fuel : Nat)
    (cursor : Cursor) : (blockLines folded chomping indent fuel cursor).2.IsPast cursor := by
  induction fuel generalizing cursor with
  | zero => exact .refl _
  | succ fuel ih =>
      have hnext := (blockBreaks_isPast indent
        ((cursor.span (!·.isLineEnd)).2.lineBreak.2.rest.length + 1)
        (cursor.span (!·.isLineEnd)).2.lineBreak.2).trans
          ((lineBreak_isPast _).trans (span_isPast _ cursor))
      rw [blockLines]
      dsimp only
      split
      · exact (ih _).trans hnext
      · exact hnext

theorem block_advances (folded : Bool) (indent : Int) (cursor : Cursor) :
    cursor.Advances (cursor.block folded indent) := by
  rw [block]
  refine (blockHead_yields _).bind fun (chomping, increment, after) hafter => ?_
  refine (restOfLine_yields after).bind fun body hbody => ?_
  have hbody := IsPast.trans hbody (IsPast.trans hafter (forward_isPast cursor))
  have hlines (marks : Text) (indent fuel : Nat) (first : Cursor) (hfirst : first.IsPast body) :
      cursor.Advances (if isInBlock indent first then
          .ok (marks ++ (blockLines folded chomping indent fuel first).1,
            (blockLines folded chomping indent fuel first).2)
        else .ok (chomp chomping [] marks, first)) := by
    split
    · exact (blockLines_isPast _ _ _ _ _).trans (hfirst.trans hbody)
    · exact hfirst.trans hbody
  dsimp only
  split
  · exact hlines _ _ _ _ (blockLead_isPast _ _ _)
  · exact hlines _ _ _ _ (blockBreaks_isPast _ _ _)

/-! ## Plain scalars -/

/-- Whether the last code point of a text, if there is one, ends no line. -/
def EndsInLine (text : Text) : Prop := ∀ c, text.getLast? = some c → c.isLineEnd = false

theorem endsInLine_append {front back : Text} (hfront : EndsInLine front)
    (hback : EndsInLine back) : EndsInLine (front ++ back) := by
  intro c hc
  cases hlast : back.getLast? with
  | none => exact hfront c (by simpa [List.getLast?_append, hlast] using hc)
  | some d => exact hback c (by simpa [List.getLast?_append, hlast] using hc)

theorem plainLength_spec (inFlow : Bool) (cursor : Cursor) (fuel n : Nat) :
    n ≤ plainLength inFlow cursor fuel n ∧
      ∀ i, n ≤ i → i < plainLength inFlow cursor fuel n → cursor.stopsPlain inFlow i = false := by
  induction fuel generalizing n with
  | zero => exact ⟨Nat.le_refl _, fun i hi hlt => absurd hlt (Nat.not_lt.2 hi)⟩
  | succ fuel ih =>
      rw [plainLength]
      split
      · exact ⟨Nat.le_refl _, fun i hi hlt => absurd hlt (Nat.not_lt.2 hi)⟩
      · rename_i hgoes
        obtain ⟨hle, hall⟩ := ih (n + 1)
        refine ⟨Nat.le_of_succ_le hle, fun i hi hlt => ?_⟩
        rcases Nat.eq_or_lt_of_le hi with rfl | hi
        · exact eq_false_of_ne_true hgoes
        · exact hall i hi hlt

/-- A part of a plain scalar ends with a code point that is not blank. -/
theorem endsInLine_take {inFlow : Bool} {cursor : Cursor} {fuel : Nat} (space : Text)
    (hne : plainLength inFlow cursor fuel 0 ≠ 0) :
    EndsInLine (space ++ cursor.rest.take (plainLength inFlow cursor fuel 0)) := by
  obtain ⟨-, hall⟩ := plainLength_spec inFlow cursor fuel 0
  generalize plainLength inFlow cursor fuel 0 = count at hne hall ⊢
  obtain ⟨count, rfl⟩ := Nat.exists_eq_succ_of_ne_zero hne
  have hgoes := hall count (Nat.zero_le _) (Nat.lt_succ_self _)
  have hblank : cursor.isBlankAt count = false := by
    rw [stopsPlain] at hgoes
    simp only [Bool.or_eq_false_iff] at hgoes
    exact hgoes.1.1
  rw [isBlankAt, endsAt, peek?] at hblank
  cases hat : cursor.rest[count]? with
  | none =>
      rw [hat] at hblank
      cases hblank
  | some c =>
      rw [hat] at hblank
      have htake : cursor.rest.take (count + 1) = cursor.rest.take count ++ [c] := by
        rw [List.take_add_one, hat]
        rfl
      intro d hd
      rw [htake, ← List.append_assoc, List.getLast?_concat] at hd
      cases hd
      exact (Bool.or_eq_false_iff.1 hblank).2

theorem plainBreaks_isPast (fuel : Nat) (cursor : Cursor) :
    (plainBreaks fuel cursor).2.IsPast cursor := by
  induction fuel generalizing cursor with
  | zero => exact .refl _
  | succ fuel ih =>
      rw [plainBreaks]
      split
      · exact (ih _).trans (forward_isPast _)
      · split
        · dsimp only
          split
          · exact lineBreak_isPast _
          · exact (ih _).trans (lineBreak_isPast _)
        · exact .refl _

theorem plainSpace_isPast (cursor : Cursor) : cursor.plainSpace.2.2.IsPast cursor := by
  rw [plainSpace]
  have hspan := span_isPast (CodePoint.isIn " ") cursor
  generalize cursor.span _ = spaced at hspan ⊢
  obtain ⟨spaces, after⟩ := spaced
  have hbreak := (lineBreak_isPast after).trans hspan
  have hlast := plainBreaks_isPast (after.lineBreak.2.rest.length + 1) after.lineBreak.2
  dsimp only
  split
  · split
    · exact hbreak
    · split <;> rename_i heq <;> rw [heq] at hlast <;> exact IsPast.trans hlast hbreak
  · exact hspan

theorem plainFrom_spec (inFlow : Bool) (indent : Int) (fuel : Nat) (space : Text) (broke : Bool)
    (cursor : Cursor) :
    (plainFrom inFlow indent fuel space broke cursor).2.2.IsPast cursor ∧
      EndsInLine (plainFrom inFlow indent fuel space broke cursor).1 := by
  have hnil : EndsInLine [] := fun c hc => by cases hc
  induction fuel generalizing space broke cursor with
  | zero => exact ⟨.refl _, hnil⟩
  | succ fuel ih =>
      rw [plainFrom]
      dsimp only
      split
      · exact ⟨.refl _, hnil⟩
      · rename_i hgoes
        have hpart := endsInLine_take space fun hzero => hgoes (.inr hzero)
        have hpast := (plainSpace_isPast _).trans
          (skip_isPast (plainLength inFlow cursor cursor.rest.length 0) cursor)
        split
        · exact ⟨hpast, hpart⟩
        · obtain ⟨hlast, htext⟩ := ih _ _ _
          exact ⟨hlast.trans hpast, endsInLine_append hpart htext⟩

theorem plain_spec (inFlow : Bool) (indent : Int) (cursor : Cursor) :
    (cursor.plain inFlow indent).2.2.IsPast cursor ∧
      EndsInLine (cursor.plain inFlow indent).1 :=
  plainFrom_spec _ _ _ _ _ _

end Cursor

end Yaml

end Stencil

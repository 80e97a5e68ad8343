import Mathlib.Data.List.TakeWhile
import Stencil.Proofs.Session.Ends

/-!
# Showing escaped texts

An escaped text holds no tag that could close a style: every tag in it has an odd
number of backslashes before it.  So a styled text can always be shown, and
printing does not fail.
-/

namespace Stencil.Markup

variable {text after inside : Text} {c : CodePoint}

def isBracket (c : CodePoint) : Bool := c.isIn "[]"

theorem isBracket_backslash : isBracket backslash = false := by decide

/-! ## Tags at the start of a text -/

theorem drop_takeWhile (test : CodePoint → Bool) (text : Text) :
    text.drop (text.takeWhile test).length = text.dropWhile test := by
  induction text with
  | nil => rfl
  | cons c text ih => by_cases hc : test c <;> simp [hc, ih]

theorem find?_eq_head?_dropWhile (test : CodePoint → Bool) (text : Text) :
    text.find? test = (text.dropWhile (!test ·)).head? := by
  induction text with
  | nil => rfl
  | cons c text ih => by_cases hc : test c <;> simp [hc, ih]

theorem tag?_bracketed (hopens : opensTag c = true) (hinside : ∀ d ∈ inside, isBracket d = false) :
    tag? (.scalar '[' :: c :: (inside ++ .scalar ']' :: after)) = some (c :: inside, after) := by
  have htake : (inside ++ CodePoint.scalar ']' :: after).takeWhile (fun c => !c.isIn "[]") =
      inside := by
    rw [List.takeWhile_append_of_pos fun d hd => by simpa [isBracket] using hinside d hd]
    simp [show CodePoint.isIn "[]" (.scalar ']') = true by decide]
  simp [tag?, hopens, htake]

theorem tag?_isSome_iff {rest : Text} :
    (tag? (.scalar '[' :: c :: rest)).isSome = true ↔
      opensTag c = true ∧ rest.find? isBracket = some (.scalar ']') := by
  simp only [tag?, drop_takeWhile]
  rw [find?_eq_head?_dropWhile]
  simp only [isBracket]
  cases hopens : opensTag c with
  | false => simp
  | true =>
      cases rest.dropWhile fun c => !c.isIn "[]" with
      | nil => simp
      | cons first more =>
          by_cases hfirst : first = .scalar ']'
          · simp [hfirst]
          · simp only [if_true, List.head?_cons, Option.some.injEq, hfirst, and_false, iff_false]
            split
            · rename_i heq
              exact absurd (List.cons.inj heq).1 hfirst
            · simp

theorem tag?_eq_some (h : tag? text = some (inside, after)) :
    ∃ c rest, inside = c :: rest ∧ opensTag c = true ∧ (∀ d ∈ rest, isBracket d = false) ∧
      text = .scalar '[' :: (inside ++ .scalar ']' :: after) := by
  unfold tag? at h
  split at h
  · rename_i c rest
    split at h
    · rename_i hopens
      simp only [drop_takeWhile] at h
      split at h
      · rename_i more hmore
        obtain ⟨rfl, rfl⟩ := Prod.mk.inj (Option.some.inj h)
        refine ⟨c, _, rfl, hopens, fun d hd => ?_, ?_⟩
        · simpa [isBracket] using List.mem_takeWhile_imp hd
        · rw [List.cons_append, ← hmore, List.takeWhile_append_dropWhile]
      · cases h
    · cases h
  · cases h

theorem tag?_eq_none_of_ne (h : c ≠ .scalar '[') : tag? (c :: text) = none := by
  unfold tag?
  split
  · rename_i heq
    exact absurd (List.cons.inj heq).1 h
  · rfl

/-! ## Parts -/

theorem partsFrom_eq_drop (skip : Nat) (text : Text) :
    partsFrom skip text = partsFrom 0 (text.drop skip) := by
  induction text generalizing skip with
  | nil => simp [partsFrom]
  | cons c text ih =>
      cases skip with
      | zero => rfl
      | succ skip => simpa [partsFrom] using ih skip

theorem takeWhile_marks (count : Nat) (h : text.head? ≠ some backslash) :
    (marks count ++ text).takeWhile (· = backslash) = marks count := by
  rw [marks, List.takeWhile_append_of_pos fun c hc => by simpa using List.eq_of_mem_replicate hc]
  cases text with
  | nil => simp
  | cons c text =>
      have hc : c ≠ backslash := by simpa using h
      simp [hc]

/-- Backslashes belong to a tag that follows them. -/
theorem partsFrom_tag (count : Nat) (h : tag? text = some (inside, after)) :
    partsFrom 0 (marks count ++ text) = .tag count inside :: partsFrom 0 after := by
  obtain ⟨c, rest, rfl, -, -, rfl⟩ := tag?_eq_some h
  have hhead : (CodePoint.scalar '[' :: (c :: rest ++ .scalar ']' :: after)).head? ≠
      some backslash := by
    simp [backslash]
  have htake := takeWhile_marks count hhead
  obtain ⟨first, more, hcons⟩ : ∃ first more,
      marks count ++ CodePoint.scalar '[' :: (c :: rest ++ .scalar ']' :: after) =
        first :: more := by
    cases count <;> simp [marks, List.replicate_succ]
  have hdrop : (first :: more).drop (marks count).length =
      CodePoint.scalar '[' :: (c :: rest ++ .scalar ']' :: after) := by
    rw [← hcons, List.drop_left]
  have hafter : more.drop ((marks count).length + (c :: rest).length + 1) = after := by
    have := congrArg (List.drop ((c :: rest).length + 2)) hdrop
    rw [List.drop_drop] at this
    have hlength : (marks count).length + ((c :: rest).length + 2) =
        (marks count).length + (c :: rest).length + 1 + 1 := by omega
    rw [hlength, List.drop_succ_cons] at this
    simpa using this
  rw [hcons, partsFrom]
  rw [hcons] at htake
  simp only [htake, hdrop, h]
  rw [partsFrom_eq_drop, hafter]
  simp [marks]

/-- Backslashes before anything else stand for themselves. -/
theorem partsFrom_marks (count : Nat) (hhead : text.head? ≠ some backslash)
    (htag : tag? text = none) :
    partsFrom 0 (marks count ++ text) =
      List.replicate count (.letter backslash) ++ partsFrom 0 text := by
  induction count with
  | zero => rfl
  | succ count ih =>
      have htake := takeWhile_marks (count + 1) hhead
      have hdrop : (marks (count + 1) ++ text).drop (marks (count + 1)).length = text :=
        List.drop_left
      have hcons : marks (count + 1) ++ text = backslash :: (marks count ++ text) := by
        simp [marks, List.replicate_succ]
      rw [hcons] at htake hdrop ⊢
      rw [partsFrom]
      simp only [htake, hdrop, htag, ih]
      simp [List.replicate_succ]

theorem partsFrom_letter (hc : c ≠ backslash) (htag : tag? (c :: text) = none) :
    partsFrom 0 (c :: text) = .letter c :: partsFrom 0 text := by
  rw [partsFrom]
  simp [hc, htag]

/-- A text starts with backslashes that a tag follows, or something else. -/
theorem eq_marks_append (text : Text) :
    ∃ count rest, text = marks count ++ rest ∧ rest.head? ≠ some backslash := by
  refine ⟨(text.takeWhile (· = backslash)).length, text.dropWhile (· = backslash), ?_, ?_⟩
  · have htake : text.takeWhile (· = backslash) =
        marks (text.takeWhile (· = backslash)).length :=
      List.eq_replicate_iff.2 ⟨rfl, fun c hc => by simpa using List.mem_takeWhile_imp hc⟩
    rw [← htake, List.takeWhile_append_dropWhile]
  · intro hhead
    have := List.head?_dropWhile_not (· = backslash) text
    simp [hhead] at this

/-! ## Escaped texts -/

/-- What `escape` makes of the parts of a text, before it looks at the end. -/
def escapedParts (text : Text) : Text := (parts text).flatMap escapePart

theorem escapedParts_tag (count : Nat) (h : tag? text = some (inside, after)) :
    escapedParts (marks count ++ text) =
      marks (2 * count + 1) ++ bracketed inside ++ escapedParts after := by
  simp [escapedParts, parts, partsFrom_tag count h, escapePart]

theorem escapedParts_marks (count : Nat) (hhead : text.head? ≠ some backslash)
    (htag : tag? text = none) :
    escapedParts (marks count ++ text) = marks count ++ escapedParts text := by
  rw [escapedParts, parts, partsFrom_marks count hhead htag, List.flatMap_append]
  congr 1
  simp [escapePart, marks, List.flatMap_replicate]

theorem escapedParts_letter (hc : c ≠ backslash) (htag : tag? (c :: text) = none) :
    escapedParts (c :: text) = c :: escapedParts text := by
  simp [escapedParts, parts, partsFrom_letter hc htag, escapePart]

@[simp] theorem escapedParts_nil : escapedParts [] = [] := rfl

theorem find?_marks_append (count : Nat) (text : Text) :
    (marks count ++ text).find? isBracket = text.find? isBracket := by
  rw [List.find?_append, List.find?_eq_none.2]
  · simp
  · intro c hc
    simp [List.eq_of_mem_replicate hc, isBracket_backslash]

/-- Texts are taken apart into backslashes, and a tag or a letter after them. -/
theorem marked_induction {motive : Text → Prop} (nil : ∀ count, motive (marks count))
    (tag : ∀ count text inside after, tag? text = some (inside, after) → motive after →
      motive (marks count ++ text))
    (letter : ∀ count c text, c ≠ backslash → tag? (c :: text) = none → motive text →
      motive (marks count ++ c :: text))
    (text : Text) : motive text := by
  induction hlength : text.length using Nat.strong_induction_on generalizing text with
  | _ length ih =>
      subst hlength
      obtain ⟨count, rest, rfl, hhead⟩ := eq_marks_append text
      cases htag : tag? rest with
      | some found =>
          obtain ⟨inside, after⟩ := found
          refine tag count rest inside after htag (ih _ ?_ after rfl)
          obtain ⟨c, more, rfl, -, -, rfl⟩ := tag?_eq_some htag
          simp
          omega
      | none =>
          cases rest with
          | nil => simpa using nil count
          | cons c more =>
              refine letter count c more (by simpa using hhead) htag (ih _ ?_ more rfl)
              simp
              omega

theorem find?_escapedParts (text : Text) :
    (escapedParts text).find? isBracket = text.find? isBracket := by
  induction text using marked_induction with
  | nil count =>
      have h : escapedParts (marks count ++ []) = _ := escapedParts_marks count (by simp) rfl
      simp only [List.append_nil, escapedParts_nil] at h
      rw [h]
  | tag count text inside after htag =>
      rw [escapedParts_tag count htag, List.append_assoc, find?_marks_append, find?_marks_append]
      obtain ⟨c, rest, rfl, -, -, rfl⟩ := tag?_eq_some htag
      simp [bracketed, Text.ofString, show isBracket (.scalar '[') = true by decide]
  | letter count c text hc htag ih =>
      rw [escapedParts_marks count (by simpa using hc) htag, find?_marks_append,
        find?_marks_append, escapedParts_letter hc htag, List.find?_cons, List.find?_cons, ih]

/-- What opens a tag at the start of an escaped text is at the start of the text itself. -/
theorem head?_escapedParts (hopens : opensTag c = true)
    (h : (escapedParts text).head? = some c) :
    ∃ rest, text = c :: rest ∧ escapedParts text = c :: escapedParts rest := by
  have hmark : c ≠ backslash := by
    rintro rfl
    exact absurd hopens (by decide)
  obtain ⟨count, rest, rfl, hhead⟩ := eq_marks_append text
  cases htag : tag? rest with
  | some found =>
      rw [escapedParts_tag count htag] at h
      simp [marks, List.replicate_succ, hmark.symm] at h
  | none =>
      rw [escapedParts_marks count hhead htag] at h ⊢
      cases count with
      | succ count => simp [marks, List.replicate_succ, hmark.symm] at h
      | zero =>
          cases rest with
          | nil => simp [marks] at h
          | cons first rest =>
              have hfirst : first ≠ backslash := by simpa using hhead
              have hletter := escapedParts_letter hfirst htag
              simp only [marks, List.replicate_zero, List.nil_append, hletter, List.head?_cons,
                Option.some.injEq] at h ⊢
              subst h
              exact ⟨rest, rfl, rfl⟩

/-- Where a text has no tag, the escaped one has none either, whatever follows it that does not
close a bracket. -/
theorem tag?_escapedParts {last : Text} (hc : c ≠ backslash) (htag : tag? (c :: text) = none)
    (hlast : last.find? isBracket ≠ some (.scalar ']'))
    (hopens : ∀ d, last.head? = some d → opensTag d = false) :
    tag? (c :: (escapedParts text ++ last)) = none := by
  by_cases hbracket : c = .scalar '['
  · subst hbracket
    cases hescaped : escapedParts text ++ last with
    | nil => rfl
    | cons d more =>
        rw [← Option.not_isSome_iff_eq_none, tag?_isSome_iff]
        rintro ⟨hd, hmore⟩
        cases hparts : escapedParts text with
        | nil =>
            rw [hparts, List.nil_append] at hescaped
            rw [hopens d (by simp [hescaped])] at hd
            cases hd
        | cons d' more' =>
            rw [hparts, List.cons_append] at hescaped
            obtain ⟨rfl, rfl⟩ := List.cons.inj hescaped
            obtain ⟨rest, rfl, hrest⟩ := head?_escapedParts hd (by rw [hparts]; rfl)
            rw [hparts] at hrest
            obtain ⟨-, rfl⟩ := List.cons.inj hrest
            have hnone : ¬ (tag? (CodePoint.scalar '[' :: d' :: rest)).isSome = true := by
              simp [htag]
            rw [tag?_isSome_iff] at hnone
            refine hnone ⟨hd, ?_⟩
            rw [List.find?_append, find?_escapedParts] at hmore
            cases hfind : rest.find? isBracket with
            | some found => simpa [hfind] using hmore
            | none => exact absurd (by simpa [hfind] using hmore) hlast
  · exact tag?_eq_none_of_ne hbracket

/-! ## Rendering -/

/-- A part that can be shown whatever is open. -/
def Part.IsPlain : Part → Prop
  | .letter _ => True
  | .tag count _ => count % 2 = 1

/-- The parts of an escaped text are plain, and what follows it keeps its own parts. -/
theorem partsFrom_escapedParts (text : Text) (count : Nat) {last : Text}
    (hlast : last.find? isBracket ≠ some (.scalar ']'))
    (hfirst : ∀ d, last.head? = some d → opensTag d = false) :
    ∃ parts more, partsFrom 0 (escapedParts text ++ (marks count ++ last)) =
      parts ++ partsFrom 0 (marks more ++ last) ∧ ∀ part ∈ parts, part.IsPlain := by
  have hfind : (marks count ++ last).find? isBracket ≠ some (.scalar ']') := by
    rwa [find?_marks_append]
  have hopens : ∀ d, (marks count ++ last).head? = some d → opensTag d = false := by
    intro d hd
    cases count with
    | zero => exact hfirst d hd
    | succ count =>
        obtain rfl : backslash = d := by simpa [marks, List.replicate_succ] using hd
        decide
  induction text using marked_induction with
  | nil more =>
      have hmarks : escapedParts (marks more ++ []) = _ := escapedParts_marks more (by simp) rfl
      simp only [List.append_nil, escapedParts_nil] at hmarks
      have hjoined : marks more ++ (marks count ++ last) = marks (more + count) ++ last := by
        simp [marks, ← List.append_assoc, List.replicate_append_replicate]
      refine ⟨[], more + count, ?_, by simp⟩
      rw [hmarks, hjoined, List.nil_append]
  | tag more text opened after hopened ih =>
      obtain ⟨parts, ending, hparts, hplain⟩ := ih
      refine ⟨.tag (2 * more + 1) opened :: parts, ending, ?_, ?_⟩
      · obtain ⟨c, rest, rfl, hc, hrest, rfl⟩ := tag?_eq_some hopened
        have hagain : tag? (CodePoint.scalar '[' :: c :: (rest ++ .scalar ']' ::
            (escapedParts after ++ (marks count ++ last)))) =
              some (c :: rest, escapedParts after ++ (marks count ++ last)) :=
          tag?_bracketed hc hrest
        rw [escapedParts_tag more hopened, List.cons_append, ← hparts,
          ← partsFrom_tag (2 * more + 1) hagain]
        simp [bracketed, Text.ofString]
      · intro part hpart
        rcases List.mem_cons.1 hpart with rfl | hpart
        · show (2 * more + 1) % 2 = 1
          omega
        · exact hplain part hpart
  | letter more c text hc hnone ih =>
      obtain ⟨parts, ending, hparts, hplain⟩ := ih
      have hlater := tag?_escapedParts hc hnone hfind hopens
      refine ⟨List.replicate more (.letter backslash) ++ .letter c :: parts, ending, ?_, ?_⟩
      · rw [escapedParts_marks more (by simpa using hc) hnone, escapedParts_letter hc hnone,
          List.append_assoc, List.cons_append, partsFrom_marks more (by simpa using hc) hlater,
          partsFrom_letter hc hlater, hparts]
        simp
      · intro part hpart
        rcases List.mem_append.1 hpart with hpart | hpart
        · rw [List.eq_of_mem_replicate hpart]
          trivial
        · rcases List.mem_cons.1 hpart with rfl | hpart
          · trivial
          · exact hplain part hpart

theorem renderFrom_append {rest : List Part} {opened : List Text}
    (hrest : ∀ run position, ∃ shown, renderFrom run opened position rest = .ok shown)
    (parts : List Part) (hparts : ∀ part ∈ parts, part.IsPlain) (run : Text) (position : Nat) :
    ∃ shown, renderFrom run opened position (parts ++ rest) = .ok shown := by
  induction parts generalizing run position with
  | nil => exact hrest run position
  | cons part parts ih =>
      have hothers := fun other h => hparts other (List.mem_cons_of_mem part h)
      cases part with
      | letter c => exact ih hothers _ _
      | tag count inside =>
          have hodd : count % 2 = 1 := hparts _ List.mem_cons_self
          obtain ⟨shown, hshown⟩ := ih hothers [] (position + count + inside.length + 2)
          simp [renderFrom, hodd, hshown, bind, Except.bind, pure, Except.pure]

/-- A style that a tag of its name opens and closes. -/
def IsStyle (style : Text) : Prop :=
  style.head?.any CodePoint.isLowerLatin = true ∧
    style.all (fun c => !isBracket c && c ≠ .scalar '=') = true

instance : DecidablePred IsStyle := fun style =>
  inferInstanceAs (Decidable (style.head?.any CodePoint.isLowerLatin = true ∧
    style.all (fun c => !isBracket c && c ≠ .scalar '=') = true))

theorem IsStyle.not_isBracket {style : Text} (h : IsStyle style) :
    ∀ c ∈ style, isBracket c = false := by
  intro c hc
  have := List.all_eq_true.1 h.2 c hc
  simp only [Bool.and_eq_true, Bool.not_eq_true'] at this
  exact this.1

theorem IsStyle.nameOf_eq {style : Text} (h : IsStyle style) : nameOf style = style := by
  refine List.takeWhile_eq_self_iff.2 fun c hc => ?_
  have := List.all_eq_true.1 h.2 c hc
  simp only [Bool.and_eq_true] at this
  exact this.2

theorem exists_escape_eq (text : Text) : ∃ count, escape text = escapedParts text ++ marks count := by
  unfold escape
  dsimp only
  split
  · exact ⟨1, rfl⟩
  · exact ⟨0, by simp [escapedParts, marks]⟩

/-- The tag that opens a style leaves the style open. -/
theorem renderFrom_opening {style : Text} (hstyle : IsStyle style) {rest : List Part}
    (hrest : ∀ run position, ∃ shown,
      renderFrom run [styleName style] position rest = .ok shown) :
    ∃ shown, renderFrom [] [] 0 (.tag 0 style :: rest) = .ok shown := by
  have hslash : ∀ name, style ≠ .scalar '/' :: name := by
    rintro name rfl
    exact absurd hstyle.1 (by simp [show CodePoint.isLowerLatin (.scalar '/') = false by decide])
  obtain ⟨shown, hshown⟩ := hrest [] (0 + 0 + style.length + 2)
  have heven : ¬ 0 % 2 = 1 := by decide
  rw [renderFrom]
  simp only [heven, if_false, hstyle.nameOf_eq, hshown]
  exact ⟨_, rfl⟩

theorem renderFrom_closing {style : Text} (hstyle : IsStyle style) (count : Nat) (run : Text)
    (position : Nat) :
    ∃ shown, renderFrom run [styleName style] position [.tag count (.scalar '/' :: style)] =
      .ok shown := by
  have hclose : nameOf (.scalar '/' :: style) = .scalar '/' :: style := by
    have : nameOf (.scalar '/' :: style) = .scalar '/' :: nameOf style := rfl
    rw [this, hstyle.nameOf_eq]
  by_cases hodd : count % 2 = 1
  · simp [renderFrom, hodd, bind, Except.bind, pure, Except.pure]
  · by_cases hblank : (Text.strip style).isEmpty
    · simp [renderFrom, hodd, hclose, hblank, bind, Except.bind, pure, Except.pure]
    · simp [renderFrom, hodd, hclose, hblank, withoutFirst, bind, Except.bind, pure, Except.pure]

/-- An escaped text can always be shown. -/
theorem render_escape (message : Text) : ∃ shown, render (escape message) = .ok shown := by
  obtain ⟨count, hescape⟩ := exists_escape_eq message
  obtain ⟨parts, more, hparts, hplain⟩ :=
    @partsFrom_escapedParts message count [] (by simp) (by simp)
  rw [partsFrom_marks more (by simp) rfl] at hparts
  have hall : Markup.parts (escape message) =
      parts ++ List.replicate more (.letter backslash) ++ [] := by
    simpa [Markup.parts, hescape, partsFrom] using hparts
  have hend : ∀ run position, ∃ shown, renderFrom run [] position [] = .ok shown :=
    fun run position => ⟨_, rfl⟩
  obtain ⟨shown, hshown⟩ := renderFrom_append hend (parts ++ List.replicate more (.letter backslash))
    (fun part hpart => (List.mem_append.1 hpart).elim (hplain part)
      fun hmark => List.eq_of_mem_replicate hmark ▸ trivial) [] 0
  rw [render, hall, hshown]
  exact ⟨_, rfl⟩

theorem render_styled {style : Text} (hstyle : IsStyle style) (message : Text) :
    ∃ shown, render (Action.styled style message) = .ok shown := by
  obtain ⟨c, rest, rfl⟩ : ∃ c rest, style = c :: rest := by
    cases style with
    | nil => cases hstyle.1
    | cons c rest => exact ⟨c, rest, rfl⟩
  have hc : opensTag c = true := by
    have : c.isLowerLatin = true := by simpa using hstyle.1
    simp [opensTag, this]
  have hclosing : tag? (CodePoint.scalar '[' :: .scalar '/' :: (c :: rest ++ .scalar ']' :: [])) =
      some (.scalar '/' :: c :: rest, []) :=
    tag?_bracketed (by decide) hstyle.not_isBracket
  obtain ⟨count, hescape⟩ := exists_escape_eq message
  obtain ⟨parts, more, hparts, hplain⟩ := @partsFrom_escapedParts message count
    (.scalar '[' :: .scalar '/' :: (c :: rest ++ .scalar ']' :: []))
    (by simp [show isBracket (.scalar '[') = true by decide]) (by rintro d ⟨⟩; decide)
  rw [partsFrom_tag more hclosing, partsFrom] at hparts
  have hopening (after : Text) :=
    @tag?_bracketed after rest c hc fun d hd => hstyle.not_isBracket d (List.mem_cons_of_mem _ hd)
  have hall : Markup.parts (Action.styled (c :: rest) message) =
      .tag 0 (c :: rest) :: (parts ++ [.tag more (.scalar '/' :: c :: rest)]) := by
    rw [← hparts, ← partsFrom_tag 0 (hopening _)]
    simp [Markup.parts, Action.styled, hescape, Text.ofString, marks]
  obtain ⟨shown, hshown⟩ := renderFrom_opening hstyle (renderFrom_append
    (fun run position => renderFrom_closing hstyle more run position) parts hplain)
  rw [render, hall, hshown]
  exact ⟨_, rfl⟩

end Stencil.Markup

namespace Stencil.Action

variable {s s' : Session} {r : Except Failure Unit}

theorem ends_printMarkup_styled {style : Text} (hstyle : Markup.IsStyle style) (message : Text) :
    (printMarkup (styled style message)).Ends s r s' ↔
      r = .ok () ∧ ∃ lines, Markup.render (styled style message) = .ok lines ∧
        s' = { s with shown := s.shown ++ Lines.ofText lines } := by
  obtain ⟨shown, hshown⟩ := Markup.render_styled hstyle message
  simp only [printMarkup, rendered, showLines, hshown, Except.mapError]
  rw [Ends.bind_iff (ends_lift.2 ⟨rfl, rfl⟩), ends_modify]
  simp

end Stencil.Action

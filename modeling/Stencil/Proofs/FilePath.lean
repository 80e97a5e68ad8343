import Mathlib.Data.List.TakeWhile
import Stencil.Proofs.FileTree.WellFormed
import Stencil.Proofs.Text.Parts
import Stencil.Proofs.Text.Splitting
import Stencil.Session.Copy

/-!
# Paths and their texts

A proper path is read back from its text, and walking its text means walking its
parts.  Paths below a path are the ones with more names at the end.
-/

namespace Stencil

/-! ## Texts that are paths -/

namespace PathText

theorem fault?_eq_none_iff {text : Text} :
    fault? text = none ↔ ∀ c ∈ text, isUnencodable c = false ∧ c.toNat ≠ 0 := by
  unfold fault?
  split
  · rename_i first rest hdrop
    simp only [reduceCtorEq, false_iff]
    intro h
    have hmem : first ∈ text := by
      have : first ∈ text.dropWhile (!isUnencodable ·) := by simp [hdrop]
      exact (List.dropWhile_sublist _).subset this
    have hfirst := List.head?_dropWhile_not (!isUnencodable ·) text
    rw [hdrop] at hfirst
    simp [(h first hmem).1] at hfirst
  · rename_i hdrop
    rw [List.dropWhile_eq_nil_iff] at hdrop
    split
    · rename_i hzero
      obtain ⟨c, hc, hzero⟩ := List.any_eq_true.1 hzero
      simp only [reduceCtorEq, false_iff]
      exact fun h => (h c hc).2 (by simpa using hzero)
    · rename_i hzero
      simp only [true_iff]
      intro c hc
      refine ⟨by simpa using hdrop c hc, fun h => hzero ?_⟩
      exact List.any_eq_true.2 ⟨c, hc, by simpa using h⟩

/-- What a text has to be before anything can be looked for at it. -/
def IsUsable (text : Text) : Prop :=
  fault? text = none ∧ text ≠ [] ∧ text.byteLength < FileTree.longestPath

/-- A name on the way that a path describes. -/
def IsStep (name : Text) : Prop := name ≠ [] ∧ FilePath.slash ∉ name

theorem isStep_of_mem_steps {text name : Text} (h : name ∈ steps text) : IsStep name := by
  rcases List.mem_append.1 h with h | h
  · obtain ⟨hmem, hne⟩ := List.mem_filter.1 h
    exact ⟨by simpa using hne, fun hc => (Text.mem_of_mem_splitOn hmem hc).2 rfl⟩
  · split at h
    · rw [List.mem_singleton.1 h]
      exact ⟨by decide, by decide⟩
    · cases h

theorem fault?_of_mem_steps {text name : Text} (htext : fault? text = none)
    (h : name ∈ steps text) : fault? name = none := by
  rcases List.mem_append.1 h with h | h
  · rw [fault?_eq_none_iff] at htext ⊢
    exact fun c hc => htext c (Text.mem_of_mem_splitOn (List.mem_filter.1 h).1 hc).1
  · split at h
    · rw [List.mem_singleton.1 h]
      rfl
    · cases h

end PathText

/-! ## Proper paths -/

namespace FilePath

/-- A path whose parts are kept by its text. -/
def IsProper (path : FilePath) : Prop :=
  ∀ part ∈ path.parts, part ≠ [] ∧ part ≠ ("." : Text) ∧ slash ∉ part

/-- The path that goes on with more names. -/
def below (path : FilePath) (names : List Text) : FilePath := ⟨path.anchor, path.parts ++ names⟩

variable {path other : FilePath} {names : List Text} {name text : Text}

@[simp] theorem below_nil : path.below [] = path := by
  simp [below]

@[simp] theorem below_below (more : List Text) :
    (path.below names).below more = path.below (names ++ more) := by
  simp [below]

@[simp] theorem parts_below : (path.below names).parts = path.parts ++ names := rfl

@[simp] theorem parent_below : (path.below [name]).parent = path := by
  simp [parent, below]

@[simp] theorem isAbsolute_below : (path.below names).isAbsolute = path.isAbsolute := rfl

theorem isProper_ofText (text : Text) : (ofText text).IsProper := by
  intro part hpart
  obtain ⟨hmem, hname⟩ := List.mem_filter.1 hpart
  simp only [isName, Bool.and_eq_true, Bool.not_eq_true', decide_eq_true_eq] at hname
  exact ⟨by simpa using hname.1, hname.2, fun hc => (Text.mem_of_mem_splitOn hmem hc).2 rfl⟩

theorem IsProper.join (hpath : path.IsProper) (hother : other.IsProper) :
    (path.join other).IsProper := by
  unfold FilePath.join
  split
  · exact hother
  · intro part hpart
    exact (List.mem_append.1 hpart).elim (hpath part) (hother part)

theorem IsProper.child (hpath : path.IsProper) (text : Text) : (path.child text).IsProper :=
  hpath.join (isProper_ofText text)

theorem IsProper.parent (hpath : path.IsProper) : path.parent.IsProper :=
  fun part hpart => hpath part (List.dropLast_subset _ hpart)

theorem IsProper.below (hpath : path.IsProper) (hnames : Location.IsProper names) :
    (path.below names).IsProper := by
  intro part hpart
  rcases List.mem_append.1 hpart with hpart | hpart
  · exact hpath part hpart
  · obtain ⟨hne, hdot, -, hslash, -⟩ := hnames part hpart
    exact ⟨hne, hdot, hslash⟩

theorem isProper_path {place : Location} (h : place.IsProper) :
    place.path.IsProper := by
  intro part hpart
  obtain ⟨hne, hdot, -, hslash, -⟩ := h part hpart
  exact ⟨hne, hdot, hslash⟩

theorem join_assoc (path other last : FilePath) :
    (path.join other).join last = path.join (other.join last) := by
  have hstart : (FilePath.mk other.anchor (other.parts ++ last.parts)).isAbsolute =
      other.isAbsolute := rfl
  by_cases hlast : last.isAbsolute = true
  · simp [join, hlast]
  · by_cases hother : other.isAbsolute = true <;> simp [join, hlast, hother, hstart]

/-! ## Texts of proper paths -/

theorem joinWith_eq_cons (hpath : path.IsProper) (hparts : path.parts ≠ []) :
    ∃ c rest, Text.joinWith [slash] path.parts = c :: rest ∧ c ≠ slash := by
  obtain ⟨part, parts, heq⟩ := List.exists_cons_of_ne_nil hparts
  obtain ⟨hne, -, hslash⟩ := hpath part (by simp [heq])
  obtain ⟨c, rest, rfl⟩ := List.exists_cons_of_ne_nil hne
  have hc : c ≠ slash := fun h => hslash (by simp [h])
  rw [heq]
  cases parts with
  | nil => exact ⟨c, rest, by simp, hc⟩
  | cons other parts => exact ⟨c, _, by rw [Text.joinWith_cons_cons, List.cons_append], hc⟩

theorem getLast?_joinWith (hpath : path.IsProper) (hparts : path.parts ≠ []) :
    ∃ c, (Text.joinWith [slash] path.parts).getLast? = some c ∧ c ≠ slash := by
  obtain ⟨parts, part, heq⟩ := (List.eq_nil_or_concat' path.parts).resolve_left hparts
  obtain ⟨hne, -, hslash⟩ := hpath part (by simp [heq])
  obtain ⟨text, c, rfl⟩ := (List.eq_nil_or_concat' part).resolve_left hne
  have hc : c ≠ slash := fun h => hslash (by simp [h])
  refine ⟨c, ?_, hc⟩
  rw [heq]
  by_cases hnil : parts = []
  · simp [hnil]
  · rw [Text.joinWith_append _ hnil (by simp), Text.joinWith_singleton, List.getLast?_append,
      List.getLast?_append]
    simp

theorem text_eq (hpath : path.IsProper) (hparts : path.parts ≠ []) :
    path.text = anchorText path.anchor ++ Text.joinWith [slash] path.parts := by
  obtain ⟨c, rest, heq, -⟩ := joinWith_eq_cons hpath hparts
  rw [text, show ("/" : Text) = [slash] from rfl]
  split
  · rename_i hnil
    simp [heq] at hnil
  · rfl

theorem IsProper.splitOn_text (hpath : path.IsProper) (hparts : path.parts ≠ []) :
    Text.splitOn slash path.text =
      List.replicate (anchorText path.anchor).length [] ++ path.parts := by
  have hsplit := Text.splitOn_joinWith hparts fun part hpart => (hpath part hpart).2.2
  rw [text_eq hpath hparts]
  cases path.anchor with
  | here => simpa [anchorText] using hsplit
  | root =>
      show Text.splitOn slash (slash :: Text.joinWith [slash] path.parts) = _
      simp [Text.splitOn, hsplit, anchorText, Text.ofString]
  | doubleRoot =>
      show Text.splitOn slash (slash :: slash :: Text.joinWith [slash] path.parts) = _
      simp [Text.splitOn, hsplit, anchorText, Text.ofString, List.replicate_succ]

theorem IsProper.ofText_text (hpath : path.IsProper) : ofText path.text = path := by
  obtain ⟨anchor, parts⟩ := path
  by_cases hparts : parts = []
  · subst hparts
    cases anchor <;> decide
  · have hfilter : parts.filter isName = parts := by
      refine List.filter_eq_self.2 fun part hpart => ?_
      obtain ⟨hne, hdot, -⟩ := hpath part hpart
      simp [isName, hne, hdot]
    have hanchor : anchorOf (FilePath.text ⟨anchor, parts⟩) = anchor := by
      obtain ⟨c, rest, heq, hc⟩ := joinWith_eq_cons hpath hparts
      rw [text_eq hpath hparts]
      simp only at heq ⊢
      rw [heq]
      cases anchor <;>
        simp [anchorText, anchorOf, Text.ofString, hc, show CodePoint.scalar '/' = slash from rfl]
    rw [ofText, hanchor, hpath.splitOn_text hparts]
    simp only [List.filter_append, hfilter, FilePath.mk.injEq, true_and]
    rw [List.filter_eq_nil_iff.2]
    · rfl
    · intro part hpart
      rw [List.eq_of_mem_replicate hpart]
      decide

/-- A text that goes on from the text of a path goes on from its parent. -/
theorem IsProper.ofText_append (hpath : path.IsProper) (hparts : path.parts ≠ []) (suffix : Text) :
    ∃ names, names ≠ [] ∧ ofText (path.text ++ suffix) = path.parent.below names := by
  obtain ⟨anchor, parts⟩ := path
  obtain ⟨front, last, rfl⟩ := (List.eq_nil_or_concat' parts).resolve_left hparts
  obtain ⟨hne, hdot, hslash⟩ := hpath last (by simp)
  have hsplit := hpath.splitOn_text hparts
  obtain ⟨pieces, piece, hpieces, hall⟩ :=
    Text.splitOn_append slash (FilePath.mk anchor (front ++ [last])).text suffix
  rw [hsplit, ← List.append_assoc] at hpieces
  obtain ⟨rfl, heq⟩ := List.append_inj' hpieces rfl
  obtain rfl := List.head_eq_of_cons_eq heq
  obtain ⟨more, rest, hrest⟩ := Text.exists_splitOn_append hslash suffix
  have hname : isName (last ++ more) = true := by
    have hshort : last ++ more ≠ ("." : Text) := by
      intro hsame
      obtain ⟨c, others, rfl⟩ := List.exists_cons_of_ne_nil hne
      obtain ⟨rfl, hnil⟩ := List.cons.inj hsame
      exact hdot (by rw [(List.append_eq_nil_iff.1 hnil).1]; rfl)
    simp [isName, hne, hshort]
  have hfront : front.filter isName = front := by
    refine List.filter_eq_self.2 fun part hpart => ?_
    obtain ⟨hpartNe, hpartDot, -⟩ := hpath part (List.mem_append_left _ hpart)
    simp [isName, hpartNe, hpartDot]
  have hanchor : anchorOf ((FilePath.mk anchor (front ++ [last])).text ++ suffix) = anchor := by
    obtain ⟨c, others, htext, hc⟩ := joinWith_eq_cons hpath hparts
    rw [text_eq hpath hparts]
    simp only at htext ⊢
    rw [htext]
    cases anchor <;>
      simp [anchorText, anchorOf, Text.ofString, hc, show CodePoint.scalar '/' = slash from rfl]
  refine ⟨(last ++ more) :: rest.filter isName, by simp, ?_⟩
  rw [ofText, hanchor, hall, hrest, List.filter_append, List.filter_append, hfront,
    List.filter_cons_of_pos hname, List.filter_eq_nil_iff.2]
  · show _ = FilePath.mk anchor ((front ++ [last]).dropLast ++ _)
    rw [List.dropLast_concat]
    rfl
  · intro part hpart
    rw [List.eq_of_mem_replicate hpart]
    decide

theorem IsProper.steps_text (hpath : path.IsProper) (hparts : path.parts ≠ []) :
    PathText.steps path.text = path.parts := by
  obtain ⟨c, hlast, hc⟩ := getLast?_joinWith hpath hparts
  have hend : path.text.getLast? ≠ some slash := by
    rw [text_eq hpath hparts, List.getLast?_append, hlast]
    simpa using hc
  rw [PathText.steps, hpath.splitOn_text hparts, if_neg hend, List.append_nil,
    List.filter_append, List.filter_eq_nil_iff.2, List.nil_append, List.filter_eq_self.2]
  · exact fun part hpart => by simpa using (hpath part hpart).1
  · intro part hpart
    simp [List.eq_of_mem_replicate hpart]

theorem IsProper.isAbsolute_text (hpath : path.IsProper) :
    PathText.isAbsolute path.text = path.isAbsolute := by
  by_cases hparts : path.parts = []
  · obtain ⟨anchor, parts⟩ := path
    subst hparts
    cases anchor <;> decide
  · obtain ⟨c, rest, heq, hc⟩ := joinWith_eq_cons hpath hparts
    rw [text_eq hpath hparts, heq]
    cases hanchor : path.anchor with
    | here => simp [anchorText, PathText.isAbsolute, isAbsolute, hanchor, hc]
    | root => simp [isAbsolute, hanchor]; rfl
    | doubleRoot => simp [isAbsolute, hanchor]; rfl

/-! ## Texts in their shortest form -/

theorem anchorOf_slash_cons (rest : Text) :
    anchorOf (slash :: rest) =
      if (rest.takeWhile (· = slash)).length = 1 then .doubleRoot else .root := by
  simp only [anchorOf, List.takeWhile_cons, decide_true, if_true, List.length_cons]
  generalize (rest.takeWhile (· = slash)).length = count
  rcases count with _ | _ | count <;> simp

theorem anchorOf_of_ne {text : Text} (h : text.head? ≠ some slash) : anchorOf text = .here := by
  cases text with
  | nil => rfl
  | cons c rest =>
      have hc : c ≠ slash := fun heq => h (by simp [heq])
      simp [anchorOf, hc]

theorem isAbsolute_ofText (text : Text) :
    (ofText text).isAbsolute = PathText.isAbsolute text := by
  by_cases hslash : text.head? = some slash
  · obtain ⟨rest, rfl⟩ := List.head?_eq_some_iff.1 hslash
    simp only [isAbsolute, ofText, anchorOf_slash_cons, PathText.isAbsolute]
    split <;> simp
  · simp [isAbsolute, ofText, anchorOf_of_ne hslash, PathText.isAbsolute, hslash]

theorem parts_ofText (text : Text) :
    (ofText text).parts = (PathText.steps text).filter (· ≠ ("." : Text)) := by
  have hlast : (if text.getLast? = some slash then [("." : Text)] else []).filter
      (· ≠ ("." : Text)) = [] := by
    split <;> simp
  rw [PathText.steps, List.filter_append, hlast, List.append_nil, List.filter_filter]
  exact List.filter_congr fun part _ => Bool.and_comm _ _

/-- A text is its anchor and what the names are read from. -/
theorem exists_anchorText_append (text : Text) :
    ∃ rest, text = anchorText (anchorOf text) ++ rest ∧
      (ofText text).parts = (Text.splitOn slash rest).filter isName := by
  by_cases hslash : text.head? = some slash
  · obtain ⟨rest, rfl⟩ := List.head?_eq_some_iff.1 hslash
    have hsplit (rest : Text) : (Text.splitOn slash (slash :: rest)).filter isName =
        (Text.splitOn slash rest).filter isName := by
      simp [Text.splitOn, isName]
    rw [ofText, anchorOf_slash_cons, hsplit]
    split
    · rename_i hone
      cases rest with
      | nil => simp at hone
      | cons c rest =>
          obtain rfl : c = slash := by
            by_contra hc
            simp [hc] at hone
          exact ⟨rest, rfl, hsplit rest⟩
    · exact ⟨rest, rfl, rfl⟩
  · exact ⟨text, by rw [anchorOf_of_ne hslash]; rfl, rfl⟩

/-- What can be looked for at a text can be looked for at its shortest form. -/
theorem isUsable_text_ofText {text : Text} (h : PathText.IsUsable text) :
    PathText.IsUsable (ofText text).text := by
  obtain ⟨hfault, hne, hlong⟩ := h
  obtain ⟨rest, htext, hparts⟩ := exists_anchorText_append text
  have hdot : PathText.IsUsable ("." : Text) := ⟨rfl, by decide, by decide⟩
  rw [PathText.fault?_eq_none_iff] at hfault
  by_cases hnil : anchorText (ofText text).anchor ++ Text.joinWith "/" (ofText text).parts = []
  · rw [FilePath.text, hnil]
    exact hdot
  have heq : (ofText text).text =
      anchorText (ofText text).anchor ++ Text.joinWith "/" (ofText text).parts := by
    rw [FilePath.text]
    split
    · contradiction
    · rfl
  rw [heq]
  refine ⟨PathText.fault?_eq_none_iff.2 fun c hc => ?_, hnil, ?_⟩
  · rcases List.mem_append.1 hc with hc | hc
    · exact hfault c (htext ▸ List.mem_append_left rest hc)
    · rcases Text.eq_or_mem_of_mem_joinWith hc with rfl | ⟨part, hpart, hc⟩
      · decide
      · exact hfault c (Text.mem_of_mem_splitOn (List.mem_filter.1 hpart).1 hc).1
  · have hslash : slash.utf8.length = 1 := by decide
    have hle := Text.byteLength_joinWith_filter_le hslash isName rest
    rw [hparts]
    have := congrArg Text.byteLength htext
    simp only [Text.byteLength_append] at this ⊢
    exact lt_of_le_of_lt (Nat.add_le_add_left hle _) (this ▸ hlong)

/-! ## Names below a path -/

theorem child_of_isName (hname : IsName name) (path : FilePath) :
    path.child name = path.below [name] := by
  obtain ⟨hne, hdot, -, hslash, -⟩ := hname
  have hproper : IsProper ⟨.here, [name]⟩ := by
    intro part hpart
    rw [List.mem_singleton.1 hpart]
    exact ⟨hne, hdot, hslash⟩
  have htext : (FilePath.mk .here [name]).text = name := by
    rw [text_eq hproper (by simp)]
    simp [anchorText]
  have hofText : ofText name = ⟨.here, [name]⟩ := by
    conv => lhs; rw [← htext]
    exact hproper.ofText_text
  rw [child, hofText]
  rfl

theorem text_below (hpath : path.IsProper) (hparts : path.parts ≠ [])
    (hnames : Location.IsProper names) (hne : names ≠ []) :
    (path.below names).text = path.text ++ (slash :: Text.joinWith [slash] names) := by
  rw [text_eq (hpath.below hnames) (by simp [hparts]), text_eq hpath hparts, parts_below,
    Text.joinWith_append _ hparts hne]
  simp [below]

theorem inside_text (hpath : path.IsProper) (hparts : path.parts ≠ []) (hname : IsName name) :
    Action.inside path.text name = (path.below [name]).text := by
  obtain ⟨c, hlast, hc⟩ := getLast?_joinWith hpath hparts
  have hend : path.text.getLast? = some c := by
    rw [text_eq hpath hparts, List.getLast?_append, hlast]
    rfl
  have hslash : ¬ Text.endsWith "/" path.text = true := by
    show ¬ Text.endsWith [slash] path.text = true
    rw [Text.endsWith_iff, hend]
    simpa using hc
  have hne : path.text ≠ [] := by
    intro hnil
    simp [hnil] at hend
  have hnames : Location.IsProper [name] := by
    intro other hother
    rwa [List.mem_singleton.1 hother]
  rw [Action.inside, if_neg (not_or.2 ⟨by simp [hne], hslash⟩),
    text_below hpath hparts hnames (by simp)]
  simp [Text.ofString, slash]

end FilePath

end Stencil

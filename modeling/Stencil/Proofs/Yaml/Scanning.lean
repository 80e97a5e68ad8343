import Stencil.Proofs.Yaml.Cursors
import Stencil.Yaml.Token.Scan

/-!
# Tokens of untagged documents

Tags are written with an exclamation mark.  A document without that mark has no
tokens for tags, wherever the scanner puts in the tokens that blocks and keys
call for; and cutting it fails only for the form of a token or an escape.
-/

namespace Stencil.Yaml

/-- Tokens but for tags; a plain scalar does not end with a line end. -/
def Token.IsUntagged : Token → Prop
  | .tag _ _ => False
  | .scalar text true => Cursor.EndsInLine text
  | _ => True

namespace Scanner

/-- Nothing tagged was found, and no tag is to come. -/
structure IsUntagged (s : Scanner) : Prop where
  rest : CodePoint.scalar '!' ∉ s.cursor.rest
  tokens : ∀ token ∈ s.tokens, token.IsUntagged

variable {s : Scanner} {token : Token} {cursor : Cursor}

theorem IsUntagged.move (h : s.IsUntagged) (hpast : cursor.IsPast s.cursor) :
    IsUntagged { s with cursor := cursor } :=
  ⟨fun hmem => h.rest (hpast.subset hmem), h.tokens⟩

theorem IsUntagged.push (h : s.IsUntagged) (token : Token) (htoken : token.IsUntagged) :
    (s.push token).IsUntagged := by
  refine ⟨h.rest, fun other hother => ?_⟩
  rcases Array.mem_push.1 hother with hmem | rfl
  · exact h.tokens other hmem
  · exact htoken

theorem IsUntagged.pushMark (h : s.IsUntagged) (token : Token) (htoken : token.IsUntagged) :
    (s.pushMark token).IsUntagged :=
  (h.push token htoken).move (Cursor.forward_isPast _)

theorem IsUntagged.insertAt (h : s.IsUntagged) (place : Nat) (token : Token)
    (htoken : token.IsUntagged) : (s.insertAt place token).IsUntagged := by
  have hextract {first last : Nat} {other : Token} (hother : other ∈ s.tokens.extract first last) :
      other.IsUntagged := by
    rw [← Array.mem_toList_iff, Array.toList_extract] at hother
    exact h.tokens other
      (Array.mem_toList_iff.1 (List.mem_of_mem_drop (List.mem_of_mem_take hother)))
  refine ⟨h.rest, fun other hother => ?_⟩
  rcases Array.mem_append.1 hother with hmem | hmem
  · rcases Array.mem_push.1 hmem with hmem | rfl
    · exact hextract hmem
    · exact htoken
  · exact hextract hmem

/-! ## Candidates and indentation -/

theorem dropCandidate_yields (h : s.IsUntagged) :
    Yields IsUntagged Fault.IsOfToken s.dropCandidate := by
  rw [dropCandidate]
  split
  · split
    · exact .token
    · exact ⟨h.rest, h.tokens⟩
  · exact h

theorem saveCandidate_yields (h : s.IsUntagged) :
    Yields IsUntagged Fault.IsOfToken s.saveCandidate := by
  rw [saveCandidate]
  split
  · exact (dropCandidate_yields h).bind fun later hlater => ⟨hlater.rest, hlater.tokens⟩
  · exact h

theorem dropStale_yields (h : s.IsUntagged) :
    Yields IsUntagged Fault.IsOfToken s.dropStale := by
  rw [dropStale]
  split
  · exact .token
  · exact ⟨h.rest, h.tokens⟩

theorem closeBlocks_untagged (column indent : Int) (outer : List Int) (tokens : Array Token)
    (h : ∀ token ∈ tokens, token.IsUntagged) :
    ∀ token ∈ (closeBlocks column indent outer tokens).2.2, token.IsUntagged := by
  induction outer generalizing indent tokens with
  | nil => exact h
  | cons next outer ih =>
      rw [closeBlocks]
      split
      · refine ih next _ fun token htoken => ?_
        rcases Array.mem_push.1 htoken with hmem | rfl
        · exact h token hmem
        · trivial
      · exact h

theorem unwind_untagged (h : s.IsUntagged) (column : Int) : (s.unwind column).IsUntagged := by
  rw [unwind]
  split
  · exact h
  · exact ⟨h.rest, closeBlocks_untagged column s.indent s.outer s.tokens h.tokens⟩

theorem indentAt?_untagged (h : s.IsUntagged) {column : Int} {later : Scanner}
    (hlater : s.indentAt? column = some later) : later.IsUntagged := by
  rw [indentAt?] at hlater
  split at hlater
  · cases hlater
    exact ⟨h.rest, h.tokens⟩
  · cases hlater

theorem openBlock_yields (h : s.IsUntagged) (token : Token) (htoken : token.IsUntagged) :
    Yields IsUntagged Fault.IsOfToken (s.openBlock token) := by
  rw [openBlock]
  split
  · exact h
  · split
    · exact .token
    · split
      · exact (indentAt?_untagged h ‹_›).push token htoken
      · exact h

/-! ## Single tokens -/

theorem toNextLoop_untagged (fuel : Nat) (h : s.IsUntagged) : (toNextLoop fuel s).IsUntagged := by
  induction fuel generalizing s with
  | zero => exact h
  | succ fuel ih =>
      have hpast := (Cursor.skipComment_isPast s.cursor.skipSpaces).trans
        (Cursor.skipSpaces_isPast s.cursor)
      rw [toNextLoop]
      split
      · have hmoved := h.move ((Cursor.lineBreak_isPast _).trans hpast)
        exact ih ⟨hmoved.rest, hmoved.tokens⟩
      · exact h.move hpast

theorem toNext_untagged (h : s.IsUntagged) : s.toNext.IsUntagged := by
  rw [toNext]
  refine toNextLoop_untagged _ ?_
  split
  · exact h.move (Cursor.forward_isPast _)
  · exact h

theorem finish_yields (h : s.IsUntagged) : Yields IsUntagged Fault.IsOfToken s.finish := by
  rw [finish]
  refine (dropCandidate_yields (unwind_untagged h _)).bind fun later hlater => ?_
  have hpushed := hlater.push .streamEnd trivial
  exact ⟨hpushed.rest, hpushed.tokens⟩

theorem directive_yields (h : s.IsUntagged) : Yields IsUntagged Fault.IsOfToken s.directive := by
  rw [directive]
  refine (dropCandidate_yields (unwind_untagged h _)).bind fun later hlater => ?_
  refine (Cursor.setting_advances later.cursor).bind fun (setting, cursor) hcursor => ?_
  have hpushed := (hlater.push (.setting setting) trivial).move hcursor
  exact ⟨hpushed.rest, hpushed.tokens⟩

theorem documentMarker_yields (h : s.IsUntagged) (token : Token) (htoken : token.IsUntagged) :
    Yields IsUntagged Fault.IsOfToken (s.documentMarker token) := by
  rw [documentMarker]
  refine (dropCandidate_yields (unwind_untagged h _)).bind fun later hlater => ?_
  have hpushed := (hlater.push _ htoken).move (Cursor.skip_isPast 3 _)
  exact ⟨hpushed.rest, hpushed.tokens⟩

theorem openFlow_yields (h : s.IsUntagged) (token : Token) (htoken : token.IsUntagged) :
    Yields IsUntagged Fault.IsOfToken (s.openFlow token) := by
  rw [openFlow]
  refine (saveCandidate_yields h).bind fun later hlater => ?_
  have hpushed := hlater.pushMark _ htoken
  exact ⟨hpushed.rest, hpushed.tokens⟩

theorem closeFlow_yields (h : s.IsUntagged) (token : Token) (htoken : token.IsUntagged) :
    Yields IsUntagged Fault.IsOfToken (s.closeFlow token) := by
  rw [closeFlow]
  refine (dropCandidate_yields h).bind fun later hlater => ?_
  have hpushed := hlater.pushMark _ htoken
  exact ⟨hpushed.rest, hpushed.tokens⟩

theorem flowEntry_yields (h : s.IsUntagged) : Yields IsUntagged Fault.IsOfToken s.flowEntry := by
  rw [flowEntry]
  refine (dropCandidate_yields h).bind fun later hlater => ?_
  have hpushed := hlater.pushMark .flowEntry trivial
  exact ⟨hpushed.rest, hpushed.tokens⟩

theorem blockEntry_yields (h : s.IsUntagged) : Yields IsUntagged Fault.IsOfToken s.blockEntry := by
  rw [blockEntry]
  refine (openBlock_yields h .blockSequenceStart trivial).bind fun opened hopened => ?_
  refine (dropCandidate_yields hopened).bind fun later hlater => ?_
  have hpushed := hlater.pushMark .blockEntry trivial
  exact ⟨hpushed.rest, hpushed.tokens⟩

theorem key_yields (h : s.IsUntagged) : Yields IsUntagged Fault.IsOfToken s.key := by
  rw [key]
  refine (openBlock_yields h .blockMappingStart trivial).bind fun opened hopened => ?_
  refine (dropCandidate_yields hopened).bind fun later hlater => ?_
  have hpushed := hlater.pushMark .key trivial
  exact ⟨hpushed.rest, hpushed.tokens⟩

theorem value_yields (h : s.IsUntagged) : Yields IsUntagged Fault.IsOfToken s.value := by
  rw [value]
  split
  · rename_i candidate _
    have hdropped : IsUntagged { s with candidates := s.without s.flow } := ⟨h.rest, h.tokens⟩
    have hkeyed := hdropped.insertAt candidate.token .key trivial
    generalize insertAt _ _ _ = keyed at hkeyed ⊢
    have hvalue {opened : Scanner} (hopened : opened.IsUntagged) :
        IsUntagged { opened.pushMark .value with mayStartKey := false } := by
      have hpushed := hopened.pushMark .value trivial
      exact ⟨hpushed.rest, hpushed.tokens⟩
    dsimp only
    split
    · rename_i opened hopened
      refine hvalue (IsUntagged.insertAt ?_ _ .blockMappingStart trivial)
      split at hopened
      · cases hopened
      · exact indentAt?_untagged hkeyed hopened
    · exact hvalue hkeyed
  · refine (openBlock_yields h .blockMappingStart trivial).bind fun opened hopened => ?_
    refine (dropCandidate_yields hopened).bind fun later hlater => ?_
    have hpushed := hlater.pushMark .value trivial
    exact ⟨hpushed.rest, hpushed.tokens⟩

theorem property_yields (h : s.IsUntagged) {read : Cursor → Except Fault (Token × Cursor)}
    (hread : ∀ cursor, Yields (fun (token, last) => token.IsUntagged ∧ last.IsPast cursor)
      Fault.IsOfToken (read cursor)) :
    Yields IsUntagged Fault.IsOfToken (s.property read) := by
  rw [property]
  refine (saveCandidate_yields h).bind fun later hlater => ?_
  refine (hread later.cursor).bind fun (token, cursor) ⟨htoken, hcursor⟩ => ?_
  have hpushed := (hlater.push _ htoken).move hcursor
  exact ⟨hpushed.rest, hpushed.tokens⟩

theorem blockScalar_yields (h : s.IsUntagged) (folded : Bool) :
    Yields IsUntagged Fault.IsOfToken (s.blockScalar folded) := by
  rw [blockScalar]
  refine (dropCandidate_yields h).bind fun later hlater => ?_
  refine (Cursor.block_advances folded later.indent later.cursor).bind
    fun (text, cursor) hcursor => ?_
  have hpushed := (hlater.push (.scalar text false) trivial).move hcursor
  exact ⟨hpushed.rest, hpushed.tokens⟩

theorem plainScalar_yields (h : s.IsUntagged) :
    Yields IsUntagged Fault.IsOfToken s.plainScalar := by
  rw [plainScalar]
  refine (saveCandidate_yields h).bind fun later hlater => ?_
  obtain ⟨hpast, htext⟩ := Cursor.plain_spec later.inFlow (later.indent + 1) later.cursor
  have hpushed := (hlater.push (.scalar _ true) htext).move hpast
  exact ⟨hpushed.rest, hpushed.tokens⟩

theorem token_yields (h : s.IsUntagged) {char : Char} (hchar : char ≠ '!') :
    Yields IsUntagged Fault.IsOfToken (s.token char) := by
  unfold Scanner.token
  dsimp only
  split
  · exact openFlow_yields h _ trivial
  · exact openFlow_yields h _ trivial
  · exact closeFlow_yields h _ trivial
  · exact closeFlow_yields h _ trivial
  · exact flowEntry_yields h
  · refine property_yields h fun cursor => Yields.map ?_
    exact (Cursor.anchorName_advances cursor).mono fun _ hlast => ⟨trivial, hlast⟩
  · refine property_yields h fun cursor => Yields.map ?_
    exact (Cursor.anchorName_advances cursor).mono fun _ hlast => ⟨trivial, hlast⟩
  · exact absurd rfl hchar
  · refine property_yields h fun cursor => Yields.map ?_
    exact (Cursor.quotedScalar_advances false cursor).mono fun _ hlast => ⟨trivial, hlast⟩
  · refine property_yields h fun cursor => Yields.map ?_
    exact (Cursor.quotedScalar_advances true cursor).mono fun _ hlast => ⟨trivial, hlast⟩
  · repeat' split
    · exact directive_yields h
    · exact documentMarker_yields h _ trivial
    · exact documentMarker_yields h _ trivial
    · exact blockEntry_yields h
    · exact key_yields h
    · exact value_yields h
    · exact blockScalar_yields h false
    · exact blockScalar_yields h true
    · exact plainScalar_yields h
    · exact .token

theorem next_yields (h : s.IsUntagged) : Yields IsUntagged Fault.IsOfToken s.next := by
  rw [next]
  refine (dropStale_yields (toNext_untagged h)).bind fun later hlater => ?_
  have hlater := unwind_untagged hlater later.column
  dsimp only
  split
  · exact finish_yields hlater
  · rename_i char hpeek
    refine token_yields hlater ?_
    rintro rfl
    exact hlater.rest (List.mem_of_getElem? hpeek)
  · exact plainScalar_yields hlater

/-- Each step keeps the tokens untagged, and so does the run. -/
theorem run_untagged (fuel settled : Nat) (h : s.IsUntagged) :
    (∀ token ∈ (run fuel settled s).1, token.IsUntagged) ∧
      ∀ fault, (run fuel settled s).2 = some fault → fault.IsOfToken := by
  have htake {later : Scanner} (hlater : later.IsUntagged) (count : Nat) :
      ∀ token ∈ later.tokens.toList.take count, token.IsUntagged := fun token htoken =>
    hlater.tokens token (Array.mem_toList_iff.1 (List.mem_of_mem_take htoken))
  induction fuel generalizing settled s with
  | zero => exact ⟨htake h settled, fun fault hfault => by cases hfault; exact .token⟩
  | succ fuel ih =>
      rw [run]
      split
      · exact ⟨fun token htoken => h.tokens token (Array.mem_toList_iff.1 htoken),
          fun fault hfault => by cases hfault⟩
      · have hstale := dropStale_yields h
        split
        · rename_i fault hfault
          refine ⟨htake h settled, fun other hother => ?_⟩
          cases hother
          exact hstale.of_error hfault
        · rename_i later hlater
          have hlater := hstale.of_ok hlater
          have hnext := next_yields hlater
          split
          · rename_i fault hfault
            refine ⟨htake hlater _, fun other hother => ?_⟩
            cases hother
            exact hnext.of_error hfault
          · rename_i last hlast
            exact ih _ (hnext.of_ok hlast)

end Scanner

/-- A text without exclamation marks is cut into tokens none of which is a tag. -/
theorem Token.scan_untagged {text : Text} (h : CodePoint.scalar '!' ∉ text) :
    (∀ token ∈ (Token.scan text).1, token.IsUntagged) ∧
      ∀ fault, (Token.scan text).2 = some fault → fault.IsOfToken :=
  Scanner.run_untagged _ _ ⟨h, fun token htoken => absurd htoken (Array.not_mem_empty token)⟩

end Stencil.Yaml

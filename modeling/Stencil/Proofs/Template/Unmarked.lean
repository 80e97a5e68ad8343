import Stencil.Proofs.Template.Reading
import Stencil.Proofs.Template.Scanning

/-!
# Texts without placeholders

A text without a tag that ends is rendered to itself, but for its comments and
its line ends.  If a tag begins in it, then it is no template and is kept.
-/

namespace Stencil.Template

/-! ## Reading data -/

namespace Parser

variable {α β : Type} {state later : ParseState} {pieces : Pieces} {rest : List Lexeme}

theorem bind_eq_ok_iff {parser : Parser α} {next : α → Parser β} {result : β × ParseState} :
    (parser >>= next) state = .ok result ↔
      ∃ a middle, parser state = .ok (a, middle) ∧ next a middle = .ok result := by
  show (parser state >>= fun found => next found.1 found.2) = .ok result ↔ _
  cases parser state with
  | error cause => simp [bind, Except.bind]
  | ok found => simp [bind, Except.bind, Prod.ext_iff]

theorem bind_of_eq_ok {parser : Parser α} {next : α → Parser β} {a : α}
    (h : parser state = .ok (a, later)) : (parser >>= next) state = next a later := by
  show (parser state >>= fun found => next found.1 found.2) = _
  rw [h]
  rfl

theorem current_eq : current state = .ok (state.lexemes.head?.map Lexeme.token, state) := rfl

theorem settle_of_data (h : state.lexemes = pieces.lexemes) : settle state = .ok ((), state) := by
  obtain ⟨lexemes, openTags, searched⟩ := state
  obtain rfl : lexemes = pieces.lexemes := h
  cases pieces <;> rfl

theorem eq_of_settle {a : Unit} (h : settle state = .ok (a, later)) : later = state := by
  obtain ⟨lexemes, openTags, searched⟩ := state
  rcases lexemes with _ | ⟨⟨token, line⟩, lexemes⟩
  · cases h
    rfl
  · cases token <;> cases h <;> rfl

theorem advance_of_data {piece : Text × Nat} {pieces : Pieces}
    (h : state.lexemes = Pieces.lexemes (piece :: pieces)) :
    advance state = .ok ((), { state with lexemes := pieces.lexemes }) := by
  obtain ⟨lexemes, openTags, searched⟩ := state
  obtain rfl : lexemes = Pieces.lexemes (piece :: pieces) := h
  exact settle_of_data rfl

theorem lexemes_of_advance {a : Unit} (h : advance state = .ok (a, later)) :
    later.lexemes = state.lexemes.tail := by
  have hsettled : settle { state with lexemes := state.lexemes.tail } = .ok (a, later) := h
  rw [eq_of_settle hsettled]

theorem mem_of_expect {token : Token} {a : Unit} (h : expect token state = .ok (a, later)) :
    ∃ lexeme ∈ state.lexemes, lexeme.token = token := by
  by_cases hhead : state.lexemes.head?.map Lexeme.token = some token
  · obtain ⟨lexeme, hlexeme, htoken⟩ := Option.map_eq_some_iff.1 hhead
    exact ⟨lexeme, List.mem_of_head? hlexeme, htoken⟩
  · have hexpected : (expected token.describe : Parser Unit) state = .ok (a, later) := by
      have hat : isAt token state = .ok (false, state) := by
        rw [isAt, bind_of_eq_ok current_eq, decide_eq_false hhead]
        rfl
      rwa [expect, bind_of_eq_ok hat] at h
    rw [expected, bind_of_eq_ok current_eq] at hexpected
    cases hfound : state.lexemes.head?.map Lexeme.token <;> rw [hfound] at hexpected <;>
      cases hexpected

/-- Data is read up to its end. -/
theorem statements_of_data {fuel : Nat} {searched : List Text} (hfuel : pieces.length < fuel)
    (h : state.lexemes = pieces.lexemes) : statements fuel searched state =
      .ok (pieces.map fun piece => .data piece.1, { state with lexemes := [] }) := by
  induction pieces generalizing fuel state with
  | nil =>
      obtain ⟨fuel, rfl⟩ := Nat.exists_eq_add_of_lt hfuel
      rw [statements, bind_of_eq_ok current_eq, h]
      show Except.ok (_, state) = _
      rw [← show state.lexemes = [] from h]
      rfl
  | cons piece pieces ih =>
      obtain ⟨fuel, rfl⟩ := Nat.exists_eq_add_of_lt hfuel
      rw [statements, bind_of_eq_ok current_eq, h]
      show (advance >>= _) state = _
      rw [bind_of_eq_ok (advance_of_data h), bind_of_eq_ok (ih (by rw [List.length_cons]; omega) rfl)]
      rfl

/-- Nothing is read from a fault, or from a tag without its end. -/
theorem statements_of_stuck (hstuck : IsStuck rest) (fuel : Nat)
    {result : List Statement × ParseState} (h : state.lexemes = pieces.lexemes ++ rest) :
    statements fuel [] state ≠ .ok result := by
  intro hrun
  induction pieces generalizing fuel state result with
  | nil =>
      cases fuel with
      | zero => cases hrun
      | succ fuel =>
          rw [statements, bind_of_eq_ok current_eq, h] at hrun
          cases hstuck with
          | fault cause line => cases hrun
          | @tag lexemes kind line hlacks =>
              have hend : ∀ {middle last : ParseState} {a : Unit},
                  middle.lexemes <:+ lexemes → expect kind.last middle ≠ .ok (a, last) := by
                intro middle last a hsuffix hexpect
                obtain ⟨lexeme, hlexeme, htoken⟩ := mem_of_expect hexpect
                exact hlacks lexeme (hsuffix.subset hlexeme) htoken
              cases kind with
              | print =>
                  obtain ⟨_, m, hadvance, hrun⟩ := bind_eq_ok_iff.1 hrun
                  obtain ⟨value, m', htuple, hrun⟩ := bind_eq_ok_iff.1 hrun
                  obtain ⟨_, m'', hexpect, -⟩ := bind_eq_ok_iff.1 hrun
                  have hm : m.lexemes = lexemes := by rw [lexemes_of_advance hadvance, h]; rfl
                  exact hend (hm ▸ tuple_suffix htuple) hexpect
              | block =>
                  obtain ⟨_, m, hadvance, hrun⟩ := bind_eq_ok_iff.1 hrun
                  obtain ⟨isSearched, m', hname, hbody⟩ := bind_eq_ok_iff.1 hrun
                  -- no tag is searched for, so this one is read as a statement
                  obtain ⟨rfl, rfl⟩ : isSearched = false ∧ m = m' := by
                    rw [bind_of_eq_ok current_eq] at hname
                    generalize m.lexemes.head?.map Lexeme.token = token at hname
                    rcases token with _ | token
                    · cases hname
                      exact ⟨rfl, rfl⟩
                    · cases token <;> cases hname <;> exact ⟨rfl, rfl⟩
                  rw [if_neg Bool.false_ne_true] at hbody
                  obtain ⟨found, last, hstatement, hclose⟩ := bind_eq_ok_iff.1 hbody
                  obtain ⟨_, m'', hexpect, -⟩ := bind_eq_ok_iff.1 hclose
                  have hm : m.lexemes = lexemes := by rw [lexemes_of_advance hadvance, h]; rfl
                  exact hend (hm ▸ statement_suffix hstatement) hexpect
  | cons piece pieces ih =>
      cases fuel with
      | zero => cases hrun
      | succ fuel =>
          rw [statements, bind_of_eq_ok current_eq, h] at hrun
          obtain ⟨_, m, hadvance, hrun⟩ := bind_eq_ok_iff.1 hrun
          obtain ⟨found, m', hmore, -⟩ := bind_eq_ok_iff.1 hrun
          exact ih fuel (by rw [lexemes_of_advance hadvance, h]; rfl) hmore

end Parser

/-! ## Rendering data -/

variable {text : Text} {vars : Variables} {pieces : Pieces} {rest : List Lexeme}

def Pieces.statements (pieces : Pieces) : List Statement := pieces.map fun piece => .data piece.1

theorem parse_of_data (pieces : Pieces) :
    Statement.parse pieces.lexemes = .ok pieces.statements := by
  have hfuel : pieces.length < 32 * pieces.lexemes.length + 64 := by
    rw [Pieces.lexemes, List.length_map]
    omega
  have hread : (do Parser.settle; Parser.statements (32 * pieces.lexemes.length + 64) [] :
      Parser (List Statement)) ⟨pieces.lexemes, [], []⟩ = .ok (pieces.statements, ⟨[], [], []⟩) := by
    rw [Parser.bind_of_eq_ok (Parser.settle_of_data rfl)]
    exact Parser.statements_of_data hfuel rfl
  exact congrArg (Except.map Prod.fst) hread

theorem parse_of_stuck (pieces : Pieces) (hstuck : IsStuck rest) :
    ∃ cause, Statement.parse (pieces.lexemes ++ rest) = .error cause := by
  cases hparse : Statement.parse (pieces.lexemes ++ rest) with
  | error cause => exact ⟨cause, rfl⟩
  | ok statements =>
      cases hread : (do
          Parser.settle
          Parser.statements (32 * (pieces.lexemes ++ rest).length + 64) [] :
            Parser (List Statement)) ⟨pieces.lexemes ++ rest, [], []⟩ with
      | error cause =>
          rw [Statement.parse, StateT.run, hread] at hparse
          cases hparse
      | ok result =>
          obtain ⟨_, state, hsettle, hstatements⟩ := Parser.bind_eq_ok_iff.1 hread
          obtain rfl := Parser.eq_of_settle hsettle
          exact absurd hstatements (Parser.statements_of_stuck hstuck _ rfl)

/-- Data has no names that could be unknown. -/
theorem check_data (v : Vocabulary) (pieces : Pieces) : v.check pieces.statements = .ok () := by
  have hblocks : Vocabulary.blocksOfAll pieces.statements = [] := by
    induction pieces with
    | nil => rfl
    | cons piece pieces ih => exact ih
  have hchecked : v.checkStatements true pieces.statements = .ok () := by
    induction pieces with
    | nil => rfl
    | cons piece pieces ih => exact ih hblocks
  rw [Vocabulary.check, hblocks, hchecked]
  rfl

theorem runAll_data (pieces : Pieces) (env : Env) :
    StateT.run (Eval.runAll pieces.statements) env = .ok (pieces.joined, env) := by
  induction pieces with
  | nil => rfl
  | cons piece pieces ih =>
      show (do let found ← StateT.run (Eval.runAll (Pieces.statements pieces)) env
               pure (piece.1 ++ found.1, found.2) : Rendering (Text × Env)) = _
      rw [ih]
      rfl

theorem renderOrKeep_of_data (h : Token.scan text = pieces.lexemes) :
    renderOrKeep text vars = ⟨pieces.joined, none⟩ := by
  have hcompile : compile text = .ok pieces.statements := by
    rw [compile, h, parse_of_data]
    show (do vocabulary.check pieces.statements; .ok pieces.statements) = _
    rw [check_data]
    rfl
  rw [renderOrKeep, render, hcompile]
  dsimp only
  rw [runAll_data]

theorem renderOrKeep_of_stuck (vars : Variables) (h : Token.scan text = pieces.lexemes ++ rest)
    (hstuck : IsStuck rest) : ∃ fault, renderOrKeep text vars = ⟨text, some fault⟩ := by
  obtain ⟨cause, hparse⟩ := parse_of_stuck pieces hstuck
  have hcompile : compile text = .error cause := by
    rw [compile, h, hparse]
    rfl
  exact ⟨.syntactic cause, by rw [renderOrKeep, render, hcompile]⟩

/-! ## Texts without placeholders -/

/-- A text without placeholders is kept as it is if it is no template, or if it has no comments and
no line ends of other systems; and only then. -/
theorem unmarked_text_kept_iff (h : hasPlaceholder text = false) :
    (renderOrKeep text vars).content = text ↔ (renderOrKeep text vars).fault.isSome ∨
      Text.carriageReturn ∉ text ∧ Text.contains commentMark text = false := by
  have hplain : ∀ kind, ¬ HoldsTag kind (Text.unifyLineEnds text) := fun kind hholds => by
    rw [hasPlaceholder_iff.2 ⟨kind, hholds.of_unifyLineEnds⟩] at h
    cases h
  have hscan : ScansPlainly (Text.unifyLineEnds text) (Token.scan text) :=
    scanText_plainly _ (Nat.lt_succ_self _) hplain
  cases hscan with
  | stuck pieces rest hlexemes hstuck =>
      obtain ⟨fault, hkept⟩ := renderOrKeep_of_stuck vars hlexemes hstuck
      simp [hkept]
  | data pieces hlexemes hsublist hwhole =>
      rw [renderOrKeep_of_data hlexemes]
      simp only [Option.isSome_none, Bool.false_eq_true, false_or, ← Bool.not_eq_true,
        Text.contains_iff]
      constructor
      · intro heq
        -- what is left holds no carriage returns
        have hreturn : Text.carriageReturn ∉ text := fun hmem =>
          Text.carriageReturn_not_mem_unifyLineEnds text (hsublist.subset (heq ▸ hmem))
        rw [Text.unifyLineEnds_eq_self_iff.2 hreturn] at hwhole
        exact ⟨hreturn, hwhole.1 heq⟩
      · rintro ⟨hreturn, hcomment⟩
        rw [Text.unifyLineEnds_eq_self_iff.2 hreturn] at hwhole
        exact hwhole.2 hcomment

theorem unmarked_text_kept_iff_unclosed :
    let text : Text := "\x7b\x7b a \x7d"
    hasPlaceholder text = false ∧
      ((renderOrKeep text []).content = text ↔ (renderOrKeep text []).fault.isSome ∨
        Text.carriageReturn ∉ text ∧ Text.contains commentMark text = false) :=
  ⟨by decide, unmarked_text_kept_iff (by decide)⟩

/-- Comments and the line ends of other systems are lost, though no placeholder is there. -/
theorem unmarked_text_changes :
    let comment : Text := "\x7b# c #\x7da"
    let line : Text := "a\r\n"
    hasPlaceholder comment = false ∧ (renderOrKeep comment []).content = ("a" : Text) ∧
      hasPlaceholder line = false ∧ (renderOrKeep line []).content = ("a\n" : Text) := by
  decide +kernel

end Stencil.Template

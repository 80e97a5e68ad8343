import Stencil.Yaml.Token.Property
import Stencil.Yaml.Token.Scalar

/-!
# Cutting documents into tokens

A key is known as a key only when its colon is met.  Until then the place of
its token is remembered, and when the colon comes the missing tokens are put in
there.  `Token.scan` gives the tokens whose place is settled, and the fault that
ended the document early.
-/

namespace Stencil.Yaml

/-- A token that may turn out to be the start of a key. -/
structure Candidate where
  token : Nat
  isRequired : Bool
  index : Nat
  line : Nat
  column : Nat
  deriving Repr

structure Scanner where
  cursor : Cursor
  tokens : Array Token
  flow : Int
  indent : Int
  outer : List Int
  mayStartKey : Bool
  candidates : List (Int × Candidate)

namespace Scanner

def start (text : Text) : Scanner := ⟨.start text, #[], 0, -1, [], true, []⟩

def inFlow (s : Scanner) : Bool := decide (s.flow ≠ 0)

def column (s : Scanner) : Int := s.cursor.column

def push (s : Scanner) (token : Token) : Scanner := { s with tokens := s.tokens.push token }

def insertAt (s : Scanner) (place : Nat) (token : Token) : Scanner :=
  { s with
    tokens := (s.tokens.extract 0 place).push token ++ s.tokens.extract place s.tokens.size }

/-- A one-character token. -/
def pushMark (s : Scanner) (token : Token) : Scanner :=
  { s.push token with cursor := s.cursor.forward }

/-! ## Candidates for keys -/

def candidate? (s : Scanner) : Option Candidate := s.candidates.lookup s.flow

def without (s : Scanner) (level : Int) : List (Int × Candidate) :=
  s.candidates.filter fun (other, _) => other ≠ level

/-- A candidate that has to be a key cannot be given up. -/
def dropCandidate (s : Scanner) : Except Fault Scanner :=
  match s.candidate? with
  | some candidate =>
      if candidate.isRequired then .error .token
      else .ok { s with candidates := s.without s.flow }
  | none => .ok s

def saveCandidate (s : Scanner) : Except Fault Scanner :=
  if s.mayStartKey then do
    let s ← s.dropCandidate
    let isRequired := !s.inFlow && decide (s.indent = s.column)
    let found : Candidate :=
      ⟨s.tokens.size, isRequired, s.cursor.index, s.cursor.line, s.cursor.column⟩
    return { s with candidates := s.candidates ++ [(s.flow, found)] }
  else .ok s

/-- A key ends on its line and within 1024 characters. -/
def isStale (s : Scanner) (candidate : Candidate) : Bool :=
  decide (candidate.line ≠ s.cursor.line) || decide (1024 < s.cursor.index - candidate.index)

def dropStale (s : Scanner) : Except Fault Scanner :=
  if s.candidates.any fun (_, candidate) => candidate.isRequired && s.isStale candidate then
    .error .token
  else .ok { s with candidates := s.candidates.filter fun (_, candidate) => !s.isStale candidate }

/-- How many tokens are settled: those before the first candidate. -/
def settled (s : Scanner) : Nat :=
  s.candidates.foldl (fun least (_, candidate) => min least candidate.token) s.tokens.size

/-! ## Indentation -/

def closeBlocks (column : Int) : Int → List Int → Array Token → Int × List Int × Array Token
  | indent, [], tokens => (indent, [], tokens)
  | indent, next :: outer, tokens =>
      if column < indent then closeBlocks column next outer (tokens.push .blockEnd)
      else (indent, next :: outer, tokens)

/-- Ends the blocks that are indented further than a column. -/
def unwind (s : Scanner) (column : Int) : Scanner :=
  if s.inFlow then s
  else
    let (indent, outer, tokens) := closeBlocks column s.indent s.outer s.tokens
    { s with indent := indent, outer := outer, tokens := tokens }

/-- A deeper column starts a block. -/
def indentAt? (s : Scanner) (column : Int) : Option Scanner :=
  if s.indent < column then some { s with indent := column, outer := s.indent :: s.outer }
  else none

/-- Starts a block at the current column, where a new entry may begin. -/
def openBlock (s : Scanner) (token : Token) : Except Fault Scanner :=
  if s.inFlow then .ok s
  else if !s.mayStartKey then .error .token
  else
    match s.indentAt? s.column with
    | some s => .ok (s.push token)
    | none => .ok s

/-! ## Single tokens -/

def toNextLoop : Nat → Scanner → Scanner
  | 0, s => s
  | fuel + 1, s =>
      let after := s.cursor.skipSpaces.skipComment
      if after.isAt 0 CodePoint.isLineEnd then
        toNextLoop fuel
          { s with
            cursor := after.lineBreak.2
            mayStartKey := s.mayStartKey || !s.inFlow }
      else { s with cursor := after }

/-- Skips spaces, comments and line ends; a mark of the byte order may come first. -/
def toNext (s : Scanner) : Scanner :=
  let isMarked := decide (s.cursor.index = 0) && s.cursor.isAt 0 fun c => decide (c.toNat = 0xFEFF)
  let s := if isMarked then { s with cursor := s.cursor.forward } else s
  toNextLoop (s.cursor.rest.length + 1) s

def finish (s : Scanner) : Except Fault Scanner := do
  let s ← (s.unwind (-1)).dropCandidate
  return { s.push .streamEnd with mayStartKey := false, candidates := [] }

def directive (s : Scanner) : Except Fault Scanner := do
  let s ← (s.unwind (-1)).dropCandidate
  let (setting, cursor) ← s.cursor.setting
  return { s.push (.setting setting) with mayStartKey := false, cursor := cursor }

def documentMarker (s : Scanner) (token : Token) : Except Fault Scanner := do
  let s ← (s.unwind (-1)).dropCandidate
  return { s.push token with mayStartKey := false, cursor := s.cursor.skip 3 }

def openFlow (s : Scanner) (token : Token) : Except Fault Scanner := do
  let s ← s.saveCandidate
  return { s.pushMark token with flow := s.flow + 1, mayStartKey := true }

def closeFlow (s : Scanner) (token : Token) : Except Fault Scanner := do
  let s ← s.dropCandidate
  return { s.pushMark token with flow := s.flow - 1, mayStartKey := false }

def flowEntry (s : Scanner) : Except Fault Scanner := do
  let s ← s.dropCandidate
  return { s.pushMark .flowEntry with mayStartKey := true }

def blockEntry (s : Scanner) : Except Fault Scanner := do
  let s ← (← s.openBlock .blockSequenceStart).dropCandidate
  return { s.pushMark .blockEntry with mayStartKey := true }

def key (s : Scanner) : Except Fault Scanner := do
  let s ← (← s.openBlock .blockMappingStart).dropCandidate
  return { s.pushMark .key with mayStartKey := !s.inFlow }

/-- The colon after a candidate makes it a key. -/
def value (s : Scanner) : Except Fault Scanner :=
  match s.candidate? with
  | some candidate =>
      let s := { s with candidates := s.without s.flow }.insertAt candidate.token .key
      let opened := if s.inFlow then none else s.indentAt? candidate.column
      let s := match opened with
        | some s => s.insertAt candidate.token .blockMappingStart
        | none => s
      .ok { s.pushMark .value with mayStartKey := false }
  | none => do
      let s ← (← s.openBlock .blockMappingStart).dropCandidate
      return { s.pushMark .value with mayStartKey := !s.inFlow }

/-- A token that may start a key. -/
def property (s : Scanner) (read : Cursor → Except Fault (Token × Cursor)) :
    Except Fault Scanner := do
  let s ← s.saveCandidate
  let (token, cursor) ← read s.cursor
  return { s.push token with mayStartKey := false, cursor := cursor }

def blockScalar (s : Scanner) (folded : Bool) : Except Fault Scanner := do
  let s ← s.dropCandidate
  let (text, cursor) ← s.cursor.block folded s.indent
  return { s.push (.scalar text false) with mayStartKey := true, cursor := cursor }

def plainScalar (s : Scanner) : Except Fault Scanner := do
  let s ← s.saveCandidate
  let (text, broke, cursor) := s.cursor.plain s.inFlow (s.indent + 1)
  return { s.push (.scalar text true) with mayStartKey := broke, cursor := cursor }

/-- Whether a plain scalar may start here. -/
def startsPlain (s : Scanner) : Bool :=
  match s.cursor.peek? 0 with
  | none => false
  | some c =>
      !(s.cursor.isBlankAt 0 || c.isIn "-?:,[]\x7b\x7d#&*!|>\x27\"%@\x60") ||
        (!s.cursor.isBlankAt 1 && (c.isIn "-" || (!s.inFlow && c.isIn "?:")))

/-- The token that starts with a character. -/
def token (s : Scanner) (char : Char) : Except Fault Scanner :=
  let atStart := decide (s.cursor.column = 0)
  let stands := s.cursor.isBlankAt 1
  match char with
  | '[' => s.openFlow .flowSequenceStart
  | '\x7b' => s.openFlow .flowMappingStart
  | ']' => s.closeFlow .flowSequenceEnd
  | '\x7d' => s.closeFlow .flowMappingEnd
  | ',' => s.flowEntry
  | '*' => s.property fun cursor => cursor.anchorName.map fun (name, last) => (.alias name, last)
  | '&' => s.property fun cursor => cursor.anchorName.map fun (name, last) => (.anchor name, last)
  | '!' => s.property Cursor.tag
  | '\x27' => s.property fun cursor =>
      (cursor.quotedScalar false).map fun (text, last) => (.scalar text false, last)
  | '"' => s.property fun cursor =>
      (cursor.quotedScalar true).map fun (text, last) => (.scalar text false, last)
  | char =>
      if char = '%' && atStart then s.directive
      else if char = '-' && atStart && s.cursor.isMarkerText "---" then
        s.documentMarker .documentStart
      else if char = '.' && atStart && s.cursor.isMarkerText "..." then
        s.documentMarker .documentEnd
      else if char = '-' && stands then s.blockEntry
      else if char = '?' && (s.inFlow || stands) then s.key
      else if char = ':' && (s.inFlow || stands) then s.value
      else if char = '|' && !s.inFlow then s.blockScalar false
      else if char = '>' && !s.inFlow then s.blockScalar true
      else if s.startsPlain then s.plainScalar
      else .error .token

/-- Reads the next token, and those that the indentation before it stands for. -/
def next (s : Scanner) : Except Fault Scanner := do
  let s ← s.toNext.dropStale
  let s := s.unwind s.column
  match s.cursor.peek? 0 with
  | none => s.finish
  | some (.scalar char) => s.token char
  | some (.surrogate _) => s.plainScalar

def isDone (s : Scanner) : Bool := decide (s.tokens.back? = some .streamEnd)

/-- Runs to the end or to a fault, with the tokens that were settled before it. -/
def run : Nat → Nat → Scanner → List Token × Option Fault
  | 0, settled, s => (s.tokens.toList.take settled, some .token)
  | fuel + 1, settled, s =>
      if s.isDone then (s.tokens.toList, none)
      else
        match s.dropStale with
        | .error fault => (s.tokens.toList.take settled, some fault)
        | .ok s =>
            match s.next with
            | .error fault => (s.tokens.toList.take s.settled, some fault)
            | .ok later => run fuel s.settled later

end Scanner

namespace Token

/-- Every step takes at least one character, except the last. -/
def scan (text : Text) : List Token × Option Fault :=
  (Scanner.start text).run (text.length + 2) 0

end Token

end Stencil.Yaml

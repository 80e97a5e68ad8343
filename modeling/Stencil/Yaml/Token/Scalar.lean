import Stencil.Yaml.Cursor

/-!
# Scalars of YAML documents

The three ways to write a text: plain, in quotes, and as an indented block.
Line ends inside a scalar are folded: one becomes a space, and of several the
first is dropped.
-/

namespace Stencil.Yaml.Cursor

/-- What line ends inside a text stand for. -/
def fold (first others : Text) : Text :=
  if first ≠ [.scalar '\n'] then first ++ others
  else if others.isEmpty then " "
  else others

/-! ## Plain scalars -/

def isFlowMark (c : CodePoint) : Bool := c.isIn ",[]\x7b\x7d"

/-- Whether a plain scalar stops at the place `n`. -/
def stopsPlain (inFlow : Bool) (cursor : Cursor) (n : Nat) : Bool :=
  cursor.isBlankAt n ||
    (cursor.isAt n (·.isIn ":") &&
      (cursor.isBlankAt (n + 1) || (inFlow && cursor.isAt (n + 1) isFlowMark))) ||
    (inFlow && cursor.isAt n fun c => isFlowMark c || c.isIn "?")

def plainLength (inFlow : Bool) (cursor : Cursor) : Nat → Nat → Nat
  | 0, n => n
  | fuel + 1, n =>
      if cursor.stopsPlain inFlow n then n else plainLength inFlow cursor fuel (n + 1)

/-- The line ends after the first one; nothing if a document ends there. -/
def plainBreaks : Nat → Cursor → Option Text × Cursor
  | 0, cursor => (some [], cursor)
  | fuel + 1, cursor =>
      if cursor.isAt 0 (·.isIn " ") then plainBreaks fuel cursor.forward
      else if cursor.isAt 0 CodePoint.isLineEnd then
        let (mark, after) := cursor.lineBreak
        if after.isDocumentMarker then (none, after)
        else
          let (marks, last) := plainBreaks fuel after
          (marks.map (mark ++ ·), last)
      else (some [], cursor)

/-- The text of the space after a part of a plain scalar, and whether a line ended there. -/
def plainSpace (cursor : Cursor) : Text × Bool × Cursor :=
  let (spaces, after) := cursor.span (·.isIn " ")
  if after.isAt 0 CodePoint.isLineEnd then
    let (first, next) := after.lineBreak
    if next.isDocumentMarker then ([], true, next)
    else
      match plainBreaks (next.rest.length + 1) next with
      | (some others, last) => (fold first others, true, last)
      | (none, last) => ([], true, last)
  else (spaces, false, after)

/-- A plain scalar, and whether the last thing in it was a line end. -/
def plainFrom (inFlow : Bool) (indent : Int) :
    Nat → Text → Bool → Cursor → Text × Bool × Cursor
  | 0, _, broke, cursor => ([], broke, cursor)
  | fuel + 1, space, broke, cursor =>
      let count := plainLength inFlow cursor cursor.rest.length 0
      if cursor.isAtChar '#' ∨ count = 0 then ([], broke, cursor)
      else
        let part := space ++ cursor.rest.take count
        let (space, broke, after) := (cursor.skip count).plainSpace
        if space.isEmpty || after.isAtChar '#' || (!inFlow && decide (after.column < indent)) then
          (part, broke, after)
        else
          let (text, broke, last) := plainFrom inFlow indent fuel space broke after
          (part ++ text, broke, last)

def plain (inFlow : Bool) (indent : Int) (cursor : Cursor) : Text × Bool × Cursor :=
  plainFrom inFlow indent (cursor.rest.length + 1) [] false cursor

/-! ## Scalars in quotes -/

def escapes : List (Char × Nat) :=
  [('0', 0), ('a', 7), ('b', 8), ('t', 9), ('\t', 9), ('n', 10), ('v', 11), ('f', 12), ('r', 13),
   ('e', 27), (' ', 32), ('"', 34), ('\\', 92), ('/', 47), ('N', 0x85), ('_', 0xA0),
   ('L', 0x2028), ('P', 0x2029)]

def numericEscapes : List (Char × Nat) := [('x', 2), ('u', 4), ('U', 8)]

/-- Line ends after the first one inside quotes. -/
def quotedBreaks : Nat → Cursor → Except Fault (Text × Cursor)
  | 0, cursor => .ok ([], cursor)
  | fuel + 1, cursor =>
      if cursor.isDocumentMarker then .error .token
      else
        let after := cursor.skipWhile CodePoint.isSpaceOrTab
        if after.isAt 0 CodePoint.isLineEnd then do
          let (mark, next) := after.lineBreak
          let (marks, last) ← quotedBreaks fuel next
          return (mark ++ marks, last)
        else return ([], after)

def breaks (cursor : Cursor) : Except Fault (Text × Cursor) :=
  quotedBreaks (cursor.rest.length + 1) cursor

def hexEscape (count : Nat) (cursor : Cursor) : Except Fault (Text × Cursor) :=
  let digits := cursor.rest.take count
  match if digits.length = count then Text.toNatIn? 16 digits else none with
  | none => .error .token
  | some code =>
      match CodePoint.ofNat? code with
      | some c => .ok ([c], cursor.skip count)
      | none => .error (.codePoint code)

/-- What follows a backslash. -/
def escape (cursor : Cursor) : Except Fault (Text × Cursor) :=
  match cursor.rest with
  | [] => .error .token
  | c :: _ =>
      match escapes.find? fun (char, _) => c = .scalar char with
      | some (_, code) => .ok ([.ofNat code], cursor.forward)
      | none =>
          match numericEscapes.find? fun (char, _) => c = .scalar char with
          | some (_, count) => hexEscape count cursor.forward
          | none => if c.isLineEnd then breaks cursor.lineBreak.2 else .error .token

/-- The text up to a space, a line end or the closing quote. -/
def quotedWord (isDouble : Bool) : Nat → Cursor → Except Fault (Text × Cursor)
  | 0, cursor => .ok ([], cursor)
  | fuel + 1, cursor => do
      let (part, after) := cursor.span fun c =>
        !(c.isIn "\x27\"\\" || c.isSpaceOrTab || c.isLineEnd)
      match after.rest with
      | c :: _ =>
          let taken : Option (Text × Cursor) ←
            if !isDouble && Text.startsWith "\x27\x27" after.rest then
              pure (some (("\x27" : Text), after.skip 2))
            else if (isDouble && c.isIn "\x27") || (!isDouble && c.isIn "\"\\") then
              pure (some ([c], after.forward))
            else if isDouble && c.isIn "\\" then (escape after.forward).map some
            else pure none
          match taken with
          | some (text, next) =>
              let (others, last) ← quotedWord isDouble fuel next
              return (part ++ text ++ others, last)
          | none => return (part, after)
      | [] => return (part, after)

/-- The space between two words in quotes. -/
def quotedSpace (cursor : Cursor) : Except Fault (Text × Cursor) := do
  let (spaces, after) := cursor.span CodePoint.isSpaceOrTab
  if after.rest.isEmpty then throw .token
  if after.isAt 0 CodePoint.isLineEnd then
    let (first, next) := after.lineBreak
    let (others, last) ← breaks next
    return (fold first others, last)
  else return (spaces, after)

def quotedFrom (isDouble : Bool) (quote : CodePoint) :
    Nat → Cursor → Except Fault (Text × Cursor)
  | 0, _ => .error .token
  | fuel + 1, cursor => do
      let (word, after) ← quotedWord isDouble (cursor.rest.length + 1) cursor
      if after.isAt 0 (· = quote) then return (word, after.forward)
      else
        let (space, next) ← quotedSpace after
        let (others, last) ← quotedFrom isDouble quote fuel next
        return (word ++ space ++ others, last)

/-- A scalar in quotes, from the opening quote on. -/
def quotedScalar (isDouble : Bool) (cursor : Cursor) : Except Fault (Text × Cursor) :=
  let quote : CodePoint := .scalar (if isDouble then '"' else '\x27')
  quotedFrom isDouble quote (cursor.rest.length + 1) cursor.forward

/-! ## Blocks -/

/-- What happens to the line ends at the end of a block. -/
inductive Chomping where
  | strip
  | clip
  | keep
  deriving DecidableEq, Repr

def chomping? (cursor : Cursor) : Option Chomping :=
  if cursor.isAtChar '+' then some .keep
  else if cursor.isAtChar '-' then some .strip
  else none

def increment? (cursor : Cursor) : Option Nat := (cursor.peek? 0).bind (·.digitValue?)

/-- The chomping and the indentation in the head of a block, in either order. -/
def blockHead (cursor : Cursor) : Except Fault (Chomping × Option Nat × Cursor) := do
  let (chomping, increment, after) := match chomping? cursor with
    | some chomping =>
        match increment? cursor.forward with
        | some n => (chomping, some n, cursor.skip 2)
        | none => (chomping, none, cursor.forward)
    | none =>
        match increment? cursor with
        | some n =>
            match chomping? cursor.forward with
            | some chomping => (chomping, some n, cursor.skip 2)
            | none => (Chomping.clip, some n, cursor.forward)
        | none => (Chomping.clip, none, cursor)
  if increment = some 0 ∨ !after.isSpacedAt 0 then throw .token
  return (chomping, increment, after)

/-- Blank lines in front of a block, and the widest indentation in them. -/
def blockLead : Nat → Nat → Cursor → Text × Nat × Cursor
  | 0, widest, cursor => ([], widest, cursor)
  | fuel + 1, widest, cursor =>
      if cursor.isAt 0 (·.isIn " ") then
        let after := cursor.forward
        blockLead fuel (max widest after.column) after
      else if cursor.isAt 0 CodePoint.isLineEnd then
        let (mark, after) := cursor.lineBreak
        let (marks, widest, last) := blockLead fuel widest after
        (mark ++ marks, widest, last)
      else ([], widest, cursor)

def indentTo (indent : Nat) (cursor : Cursor) : Cursor :=
  cursor.skip ((cursor.rest.take (indent - cursor.column)).takeWhile (·.isIn " ")).length

/-- Blank lines inside a block, up to the indentation of the next line. -/
def blockBreaks (indent : Nat) : Nat → Cursor → Text × Cursor
  | 0, cursor => ([], cursor)
  | fuel + 1, cursor =>
      let after := indentTo indent cursor
      if after.isAt 0 CodePoint.isLineEnd then
        let (mark, next) := after.lineBreak
        let (marks, last) := blockBreaks indent fuel next
        (mark ++ marks, last)
      else ([], after)

def isInBlock (indent : Nat) (cursor : Cursor) : Bool :=
  decide (cursor.column = indent) && !cursor.rest.isEmpty

/-- What stands between two lines of a block. -/
def between (folded startsBlank : Bool) (mark marks : Text) (next : Cursor) : Text :=
  if folded && mark = [.scalar '\n'] && !startsBlank &&
      !next.isAt 0 CodePoint.isSpaceOrTab then
    (if marks.isEmpty then [.scalar ' '] else []) ++ marks
  else mark ++ marks

def chomp (chomping : Chomping) (mark marks : Text) : Text :=
  match chomping with
  | .strip => []
  | .clip => mark
  | .keep => mark ++ marks

def blockLines (folded : Bool) (chomping : Chomping) (indent : Nat) :
    Nat → Cursor → Text × Cursor
  | 0, cursor => ([], cursor)
  | fuel + 1, cursor =>
      let startsBlank := cursor.isAt 0 CodePoint.isSpaceOrTab
      let (line, after) := cursor.span (!·.isLineEnd)
      let (mark, next) := after.lineBreak
      let (marks, next) := blockBreaks indent (next.rest.length + 1) next
      if isInBlock indent next then
        let (others, last) := blockLines folded chomping indent fuel next
        (line ++ between folded startsBlank mark marks next ++ others, last)
      else (line ++ chomp chomping mark marks, next)

/-- A block, from its mark on; `indent` is the indentation around it. -/
def block (folded : Bool) (indent : Int) (cursor : Cursor) : Except Fault (Text × Cursor) := do
  let (chomping, increment, after) ← blockHead cursor.forward
  let body ← after.restOfLine
  let least := (max (indent + 1) 1).toNat
  let fuel := body.rest.length + 1
  let (marks, indent, first) := match increment with
    | none =>
        let (marks, widest, first) := blockLead fuel 0 body
        (marks, max least widest, first)
    | some n =>
        let indent := least + n - 1
        let (marks, first) := blockBreaks indent fuel body
        (marks, indent, first)
  if isInBlock indent first then
    let (text, last) := blockLines folded chomping indent fuel first
    return (marks ++ text, last)
  else return (chomp chomping [] marks, first)

end Stencil.Yaml.Cursor

import Stencil.Text.Basic
import Stencil.Yaml.Fault

/-!
# Cursors

A place in a document: what is left of it, and where that is.  Indentation is
measured by the column, and keys may not span lines, so both are kept.
-/

namespace Stencil

namespace CodePoint

/-- Line ends, among them the separators of lines and paragraphs. -/
def isLineEnd (c : CodePoint) : Bool :=
  c.isIn "\n\r" || decide (c.toNat = 0x85 ∨ c.toNat = 0x2028 ∨ c.toNat = 0x2029)

def isSpaceOrTab (c : CodePoint) : Bool := c.isIn " \t"

/-- A letter, a digit, a hyphen or an underscore. -/
def isWordMark (c : CodePoint) : Bool := c.isLatin || c.isDigit || c.isIn "-_"

end CodePoint

namespace Yaml

structure Cursor where
  rest : Text
  index : Nat
  line : Nat
  column : Nat
  deriving Repr

namespace Cursor

def start (text : Text) : Cursor := ⟨text, 0, 0, 0⟩

/-- A carriage return before a line feed does not end the line yet. -/
def endsLine (c : CodePoint) (rest : Text) : Bool :=
  c.isLineEnd && !(c = .scalar '\r' && decide (rest.head? = some (.scalar '\n')))

def forward : Cursor → Cursor
  | ⟨[], index, line, column⟩ => ⟨[], index, line, column⟩
  | ⟨c :: rest, index, line, column⟩ =>
      if endsLine c rest then ⟨rest, index + 1, line + 1, 0⟩
      else if c.toNat = 0xFEFF then ⟨rest, index + 1, line, column⟩
      else ⟨rest, index + 1, line, column + 1⟩

def skip : Nat → Cursor → Cursor
  | 0, cursor => cursor
  | n + 1, cursor => skip n cursor.forward

/-- The code points in front that pass a test, and the place after them. -/
def span (test : CodePoint → Bool) (cursor : Cursor) : Text × Cursor :=
  let taken := cursor.rest.takeWhile test
  (taken, cursor.skip taken.length)

def skipWhile (test : CodePoint → Bool) (cursor : Cursor) : Cursor := (cursor.span test).2

def peek? (cursor : Cursor) (n : Nat) : Option CodePoint := cursor.rest[n]?

/-- Whether a code point passes a test, or there is none. -/
def endsAt (cursor : Cursor) (n : Nat) (test : CodePoint → Bool) : Bool :=
  match cursor.peek? n with
  | some c => test c
  | none => true

/-- Whether there is a code point that passes a test. -/
def isAt (cursor : Cursor) (n : Nat) (test : CodePoint → Bool) : Bool :=
  match cursor.peek? n with
  | some c => test c
  | none => false

def isAtChar (cursor : Cursor) (char : Char) : Bool :=
  decide (cursor.peek? 0 = some (.scalar char))

/-- Whether blank space, a line end or the end of the document is at a place. -/
def isBlankAt (cursor : Cursor) (n : Nat) : Bool :=
  cursor.endsAt n fun c => c.isSpaceOrTab || c.isLineEnd

/-- The same without tabs. -/
def isSpacedAt (cursor : Cursor) (n : Nat) : Bool :=
  cursor.endsAt n fun c => c.isIn " " || c.isLineEnd

def isLineDone (cursor : Cursor) : Bool := cursor.endsAt 0 CodePoint.isLineEnd

def skipSpaces (cursor : Cursor) : Cursor := cursor.skipWhile (·.isIn " ")

def skipComment (cursor : Cursor) : Cursor :=
  if cursor.isAtChar '#' then cursor.skipWhile (!·.isLineEnd) else cursor

/-- A line end in its unified form, or nothing where there is none. -/
def lineBreak (cursor : Cursor) : Text × Cursor :=
  match cursor.rest with
  | .scalar '\r' :: .scalar '\n' :: _ => ([.scalar '\n'], cursor.skip 2)
  | c :: _ =>
      if c.toNat = 0x2028 ∨ c.toNat = 0x2029 then ([c], cursor.forward)
      else if c.isLineEnd then ([.scalar '\n'], cursor.forward)
      else ([], cursor)
  | [] => ([], cursor)

/-- Spaces and a comment that fill the rest of a line, and its end. -/
def restOfLine (cursor : Cursor) : Except Fault Cursor :=
  let after := cursor.skipSpaces.skipComment
  if after.isLineDone then .ok after.lineBreak.2 else .error .token

/-- Whether three marks that delimit documents stand here. -/
def isMarkerText (cursor : Cursor) (marker : Text) : Bool :=
  Text.startsWith marker cursor.rest && cursor.isBlankAt 3

def isDocumentMarker (cursor : Cursor) : Bool :=
  cursor.isMarkerText "---" || cursor.isMarkerText "..."

end Cursor

end Yaml

end Stencil

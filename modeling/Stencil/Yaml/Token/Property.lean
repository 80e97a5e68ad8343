import Stencil.Text.Utf8
import Stencil.Yaml.Cursor
import Stencil.Yaml.Token

/-!
# Properties and directives

The words that come before a node, its anchor and its tag, and the directives
that come before a document.
-/

namespace Stencil.Yaml.Cursor

/-! ## Anchors -/

/-- The name of an anchor or alias, from its mark on. -/
def anchorName (cursor : Cursor) : Except Fault (Text × Cursor) :=
  let (name, after) := cursor.forward.span CodePoint.isWordMark
  if name.isEmpty ∨ !(after.isBlankAt 0 || after.isAt 0 (·.isIn "?:,]\x7d%@\x60")) then
    .error .token
  else .ok (name, after)

/-! ## Tags -/

def isUriMark (c : CodePoint) : Bool :=
  c.isLatin || c.isDigit || c.isIn "-;/?:@&=+$,_.!~*\x27()[]%"

/-- Bytes that are written with percent signs. -/
def percentBytes : Nat → Cursor → Except Fault (Bytes × Cursor)
  | 0, cursor => .ok ([], cursor)
  | fuel + 1, cursor =>
      if cursor.isAtChar '%' then
        let digits := cursor.forward.rest.take 2
        match if digits.length = 2 then Text.toNatIn? 16 digits else none with
        | none => .error .token
        | some byte => do
            let (bytes, last) ← percentBytes fuel (cursor.skip 3)
            return (UInt8.ofNat byte :: bytes, last)
      else .ok ([], cursor)

def uriParts : Nat → Cursor → Except Fault (Text × Cursor)
  | 0, cursor => .ok ([], cursor)
  | fuel + 1, cursor => do
      let (part, after) := cursor.span fun c => isUriMark c && !c.isIn "%"
      if after.isAtChar '%' then
        let (bytes, next) ← percentBytes (after.rest.length + 1) after
        match Text.decode bytes with
        | .error _ => throw .token
        | .ok text =>
            let (others, last) ← uriParts fuel next
            return (part ++ text ++ others, last)
      else return (part, after)

/-- A part of a tag; it may not be empty. -/
def uri (cursor : Cursor) : Except Fault (Text × Cursor) := do
  if !cursor.isAt 0 isUriMark then throw .token
  uriParts (cursor.rest.length + 1) cursor

/-- One exclamation mark, or a word between two. -/
def handle (cursor : Cursor) : Except Fault (Text × Cursor) :=
  if !cursor.isAtChar '!' then .error .token
  else if cursor.isAt 1 (·.isIn " ") then .ok ("!", cursor.forward)
  else
    let (word, after) := cursor.forward.span CodePoint.isWordMark
    if after.isAtChar '!' then .ok (("!" : Text) ++ word ++ ("!" : Text), after.forward)
    else .error .token

def tagParts (cursor : Cursor) : Except Fault (Option Text × Text × Cursor) :=
  if cursor.isAt 1 (·.isIn "<") then do
    let (text, after) ← uri (cursor.skip 2)
    if !after.isAtChar '>' then throw .token
    return (none, text, after.forward)
  else if cursor.isBlankAt 1 then .ok (none, "!", cursor.forward)
  else do
    let word := cursor.forward.rest.takeWhile fun c => !(c.isIn " " || c.isLineEnd)
    let (name, after) ←
      if Text.contains "!" word then cursor.handle else pure (("!" : Text), cursor.forward)
    let (text, last) ← uri after
    return (some name, text, last)

def tag (cursor : Cursor) : Except Fault (Token × Cursor) := do
  let (name, text, after) ← tagParts cursor
  if !after.isSpacedAt 0 then throw .token
  return (.tag name text, after)

/-! ## Directives -/

def natural (cursor : Cursor) : Except Fault (Nat × Cursor) :=
  let (digits, after) := cursor.span CodePoint.isDigit
  match Text.toNat? digits with
  | some n => .ok (n, after)
  | none => .error .token

def version (cursor : Cursor) : Except Fault (Setting × Cursor) := do
  let (major, after) ← natural cursor.skipSpaces
  if !after.isAtChar '.' then throw .token
  let (minor, last) ← natural after.forward
  if !last.isSpacedAt 0 then throw .token
  return (.version major minor, last)

def tagHandle (cursor : Cursor) : Except Fault (Setting × Cursor) := do
  let (name, after) ← handle cursor.skipSpaces
  if !after.isAtChar ' ' then throw .token
  let (lead, last) ← uri after.skipSpaces
  if !last.isSpacedAt 0 then throw .token
  return (.handle name lead, last)

/-- A directive, from its mark to the end of its line. -/
def setting (cursor : Cursor) : Except Fault (Setting × Cursor) := do
  let (name, after) := cursor.forward.span CodePoint.isWordMark
  if name.isEmpty ∨ !after.isSpacedAt 0 then throw .token
  let (found, last) ←
    if name = ("YAML" : Text) then version after
    else if name = ("TAG" : Text) then tagHandle after
    else pure (.other, after.skipWhile (!·.isLineEnd))
  return (found, ← last.restOfLine)

end Stencil.Yaml.Cursor

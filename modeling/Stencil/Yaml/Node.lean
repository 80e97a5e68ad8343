import Stencil.Yaml.Tag
import Stencil.Yaml.Token

/-!
# Nodes of YAML documents

A document is a tree of nodes.  Reading it takes the tokens from the front and
resolves tags and anchors on the way; the first fault ends the reading.
-/

namespace Stencil.Yaml

inductive Node where
  | scalar (tag : Tag) (text : Text)
  | sequence (tag : Tag) (items : List Node)
  | mapping (tag : Tag) (entries : List (Node × Node))
  deriving Repr

namespace Node

/-- The state of reading.  An anchor without a node belongs to a node that is not read yet. -/
structure Reading where
  tokens : List Token
  ending : Fault
  handles : List (Text × Text)
  anchors : List (Text × Option Node)

abbrev Reader := StateT Reading (Except Fault)

namespace Reader

def peek : Reader Token := do
  match (← get).tokens with
  | token :: _ => return token
  | [] => throw (← get).ending

def drop : Reader Unit := modify fun s => { s with tokens := s.tokens.tail }

/-- Takes a token if it is next. -/
def take? (token : Token) : Reader Bool := do
  if (← peek) = token then
    drop
    return true
  else return false

/-- Takes the token that has to be next. -/
def expect (token : Token) : Reader Unit := do
  if !(← take? token) then throw .form

def nextIsAny (tokens : List Token) : Reader Bool := do
  return tokens.contains (← peek)

/-! ## Properties -/

def anchor? : Reader (Option Text) := do
  match ← peek with
  | .anchor name =>
      drop
      return some name
  | _ => return none

def tag? : Reader (Option (Option Text × Text)) := do
  match ← peek with
  | .tag handle suffix =>
      drop
      return some (handle, suffix)
  | _ => return none

/-- An anchor and a tag in either order, the tag by its full name. -/
def properties : Reader (Option Text × Option Text) := do
  let first ← anchor?
  let tag ← tag?
  let second ← if first.isNone && tag.isSome then anchor? else pure none
  let name ← match tag with
    | none => pure none
    | some (none, suffix) => pure (some suffix)
    | some (some handle, suffix) =>
        match (← get).handles.lookup handle with
        | some lead => pure (some (lead ++ suffix))
        | none => throw .form
  return (first.or second, name)

def tagOr (tag : Option Text) (otherwise : Tag) : Tag :=
  match tag with
  | some name => if name = ("!" : Text) then otherwise else .ofName name
  | none => otherwise

def scalarTag (tag : Option Text) (text : Text) (isPlain : Bool) : Tag :=
  match tag with
  | none => if isPlain then .ofPlain text else .str
  | some name => if name = ("!" : Text) then .ofPlain text else .ofName name

/-! ## Anchors -/

def declare (anchor : Option Text) : Reader Unit := do
  match anchor with
  | none => return
  | some name =>
      if ((← get).anchors.lookup name).isSome then throw .composition
      modify fun s => { s with anchors := (name, none) :: s.anchors }

def define (anchor : Option Text) (node : Node) : Reader Unit :=
  match anchor with
  | none => return
  | some name => modify fun s => { s with anchors := (name, some node) :: s.anchors }

/-- The node of an alias; it may not be a part of itself. -/
def resolve (name : Text) : Reader Node := do
  match (← get).anchors.lookup name with
  | some (some node) => return node
  | some none => throw .construction
  | none => throw .composition

/-! ## Nodes -/

/-- The node where none is written. -/
def empty : Node := .scalar .null []

mutual

/-- A node; blocks and lists without indentation may not be allowed. -/
def node : Nat → Bool → Bool → Reader Node
  | 0, _, _ => throw .form
  | fuel + 1, inBlock, unindented => do
      if let .alias name := ← peek then
        drop
        return ← resolve name
      let (anchor, tag) ← properties
      let result ← content fuel inBlock unindented anchor tag
      define anchor result
      return result

def content : Nat → Bool → Bool → Option Text → Option Text → Reader Node
  | 0, _, _, _, _ => throw .form
  | fuel + 1, inBlock, unindented, anchor, tag => do
      let listTag := tagOr tag .sequence
      let mapTag := tagOr tag .mapping
      match ← peek with
      | .scalar text isPlain =>
          drop
          declare anchor
          return .scalar (scalarTag tag text isPlain) text
      | .flowSequenceStart =>
          declare anchor
          drop
          return .sequence listTag (← flowItems fuel true)
      | .flowMappingStart =>
          declare anchor
          drop
          return .mapping mapTag (← flowEntries fuel true)
      | .blockEntry =>
          if unindented then
            declare anchor
            return .sequence listTag (← listItems fuel)
          else blank anchor tag
      | .blockSequenceStart =>
          if inBlock then
            declare anchor
            drop
            return .sequence listTag (← blockItems fuel)
          else blank anchor tag
      | .blockMappingStart =>
          if inBlock then
            declare anchor
            drop
            return .mapping mapTag (← blockEntries fuel)
          else blank anchor tag
      | _ => blank anchor tag

/-- Only a node with an anchor or a tag may be left blank. -/
def blank (anchor tag : Option Text) : Reader Node := do
  if anchor.isNone && tag.isNone then throw .form
  declare anchor
  return .scalar (scalarTag tag [] true) []

/-- A node, unless one of some tokens is next. -/
def nodeUnless : Nat → Bool → Bool → List Token → Reader Node
  | 0, _, _, _ => throw .form
  | fuel + 1, inBlock, unindented, tokens => do
      if ← nextIsAny tokens then return empty
      node fuel inBlock unindented

def blockItems : Nat → Reader (List Node)
  | 0 => throw .form
  | fuel + 1 => do
      if ← take? .blockEntry then
        let item ← nodeUnless fuel true false [.blockEntry, .blockEnd]
        return item :: (← blockItems fuel)
      expect .blockEnd
      return []

/-- Items that are indented no further than the key before them. -/
def listItems : Nat → Reader (List Node)
  | 0 => throw .form
  | fuel + 1 => do
      if ← take? .blockEntry then
        let item ← nodeUnless fuel true false [.blockEntry, .key, .value, .blockEnd]
        return item :: (← listItems fuel)
      return []

def blockEntries : Nat → Reader (List (Node × Node))
  | 0 => throw .form
  | fuel + 1 => do
      if ← take? .key then
        let key ← nodeUnless fuel true true [.key, .value, .blockEnd]
        let value ← blockValue fuel
        return (key, value) :: (← blockEntries fuel)
      expect .blockEnd
      return []

def blockValue : Nat → Reader Node
  | 0 => throw .form
  | fuel + 1 => do
      if ← take? .value then nodeUnless fuel true true [.key, .value, .blockEnd]
      else return empty

def flowItems : Nat → Bool → Reader (List Node)
  | 0, _ => throw .form
  | fuel + 1, isFirst => do
      if ← take? .flowSequenceEnd then return []
      if !isFirst then
        expect .flowEntry
      if ← take? .key then
        let key ← nodeUnless fuel false false [.value, .flowEntry, .flowSequenceEnd]
        let value ← flowValue fuel .flowSequenceEnd
        return .mapping .mapping [(key, value)] :: (← flowItems fuel false)
      if ← take? .flowSequenceEnd then return []
      let item ← node fuel false false
      return item :: (← flowItems fuel false)

def flowValue : Nat → Token → Reader Node
  | 0, _ => throw .form
  | fuel + 1, closing => do
      if ← take? .value then nodeUnless fuel false false [.flowEntry, closing]
      else return empty

def flowEntries : Nat → Bool → Reader (List (Node × Node))
  | 0, _ => throw .form
  | fuel + 1, isFirst => do
      if ← take? .flowMappingEnd then return []
      if !isFirst then
        expect .flowEntry
      if ← take? .key then
        let key ← nodeUnless fuel false false [.value, .flowEntry, .flowMappingEnd]
        let value ← flowValue fuel .flowMappingEnd
        return (key, value) :: (← flowEntries fuel false)
      if ← take? .flowMappingEnd then return []
      let key ← node fuel false false
      return (key, empty) :: (← flowEntries fuel false)

end

/-! ## Documents -/

def defaultHandles : List (Text × Text) := [("!", "!"), ("!!", Tag.lead)]

/-- The directives before a document; handles are declared once, and so is the version. -/
def settings : Nat → Bool → List (Text × Text) → Reader (List (Text × Text))
  | 0, _, handles => return handles
  | fuel + 1, hasVersion, handles => do
      match ← peek with
      | .setting (.version major _) =>
          drop
          if hasVersion ∨ major ≠ 1 then throw .form
          settings fuel true handles
      | .setting (.handle name lead) =>
          drop
          if (handles.lookup name).isSome then throw .form
          settings fuel hasVersion ((name, lead) :: handles)
      | .setting .other =>
          drop
          settings fuel hasVersion handles
      | _ => return handles

def isSetting : Token → Bool
  | .setting _ => true
  | _ => false

/-- The start of a document that is marked; `false` at the end of the stream. -/
def documentStart (fuel : Nat) : Reader Bool := do
  modify fun s => { s with tokens := s.tokens.dropWhile (· = .documentEnd) }
  if (← peek) = .streamEnd then return false
  let handles ← settings fuel false []
  expect .documentStart
  modify fun s => { s with handles := handles ++ defaultHandles }
  return true

def documentContent (fuel : Nat) : Reader Node := do
  let next ← peek
  if isSetting next || [Token.documentStart, .documentEnd, .streamEnd].contains next then
    return empty
  node fuel true false

/-- The only document of a stream, if there is one. -/
def document (fuel : Nat) : Reader (Option Node) := do
  let next ← peek
  let isMarked := isSetting next || [Token.documentStart, .streamEnd].contains next
  let hasDocument ← if isMarked then documentStart fuel else pure true
  if !hasDocument then return none
  let result ← if isMarked then documentContent fuel else node fuel true false
  let _ ← take? .documentEnd
  if ← documentStart fuel then throw .composition
  return some result

end Reader

def ofTokens (tokens : List Token) (fault : Option Fault) : Except Fault (Option Node) :=
  let fuel := 4 * tokens.length + 16
  let reading : Reading := ⟨tokens, fault.getD .token, Reader.defaultHandles, []⟩
  (Reader.document fuel reading).map (·.1)

end Node

end Stencil.Yaml

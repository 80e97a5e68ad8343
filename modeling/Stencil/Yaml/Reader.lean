import Stencil.Number.Spelled
import Stencil.Text.Base64
import Stencil.Text.Casing
import Stencil.Value.Basic
import Stencil.Yaml.Node
import Stencil.Yaml.Token.Scan

/-!
# Reading YAML documents

What the nodes of a document stand for.  Nodes are turned into values level by
level, so of two faults the one nearer to the root is told, and of two on one
level the earlier.
-/

namespace Stencil.Yaml

/-! ## Scalars -/

namespace Scalar

def plainDigits (text : Text) : Text := text.filter (· ≠ .scalar '_')

def integer (base : Nat) (text : Text) : Except Fault Int :=
  match Spelled.integer? base text with
  | some n =>
      let digits := (text.filter CodePoint.isDigit).length
      if base = 10 ∧ 4300 < digits then .error (.hugeInteger digits) else .ok n
  | none => .error (.integer base text)

/-- Parts of sixty, the last one first. -/
def sixties (parts : List Int) : Int := parts.foldl (fun n part => n * 60 + part) 0

def cutSign (text : Text) : Except Fault (Bool × Text) :=
  match text with
  | [] => .error .emptyNumber
  | c :: rest => .ok (c = .scalar '-', if c.isIn "+-" then rest else text)

def readInt (text : Text) : Except Fault Int := do
  let (negative, body) ← cutSign (plainDigits text)
  let n ←
    if body = ("0" : Text) then pure 0
    else if Text.startsWith "0b" body then integer 2 (body.drop 2)
    else if Text.startsWith "0x" body then integer 16 (body.drop 2)
    else
      match body with
      | [] => throw .emptyNumber
      | c :: _ =>
          if c = .scalar '0' then integer 8 body
          else if Text.contains ":" body then
            sixties <$> (Text.splitOn (.scalar ':') body).mapM (integer 10)
          else integer 10 body
  return if negative then -n else n

def number (text : Text) : Except Fault Binary64 :=
  match Spelled.float? text with
  | some x => .ok x
  | none => .error (.number text)

def sixtiesOf (parts : List Binary64) : Binary64 :=
  (parts.reverse.foldl (fun (sum, base) part =>
    (Binary64.add sum (Binary64.mul part ((Binary64.ofInt? base).getD .zero)), base * 60))
    (Binary64.zero, (1 : Int))).1

def readFloat (text : Text) : Except Fault Binary64 := do
  let (negative, body) ← cutSign ((plainDigits text).toLower)
  let x ←
    if body = (".inf" : Text) then pure (Binary64.infinity false)
    else if body = (".nan" : Text) then pure Binary64.nan
    else if Text.contains ":" body then
      sixtiesOf <$> (Text.splitOn (.scalar ':') body).mapM number
    else number body
  return if negative && !x.isNaN then x.neg else x

def readBool (text : Text) : Except Fault Bool :=
  let word := text.toLower
  match Tag.boolWords.find? fun (known, _) => word = Text.ofString known with
  | some (_, truth) => .ok truth
  | none => .error (.truth word)

def readBytes (text : Text) : Except Fault Bytes :=
  if text.any fun c => 0x80 ≤ c.toNat then .error .construction
  else
    match Base64.decode? text with
    | some bytes => .ok bytes
    | none => .error .construction

def readTime (text : Text) : Except Fault Stencil.Scalar :=
  match Timestamp.read? (Tag.beforeLastBreak text) with
  | some t => t.scalar.mapError .calendar
  | none => .error .noDate

/-- The scalar that a text spells, by its tag. -/
def read (tag : Tag) (text : Text) : Except Fault Stencil.Scalar :=
  match tag with
  | .null => .ok .null
  | .bool => (readBool text).map .bool
  | .int => (readInt text).map .int
  | .float => (readFloat text).map .float
  | .binary => (readBytes text).map .bytes
  | .timestamp => readTime text
  | .str => .ok (.text text)
  | _ => .error .construction

end Scalar

/-! ## Levels -/

/-- A fault and the level of the node it was found at. -/
abbrev Levelled (α : Type) := Except (Nat × Fault) α

namespace Levelled

variable {α β : Type}

def fail (level : Nat) (fault : Fault) : Levelled α := .error (level, fault)

def at' (level : Nat) (result : Except Fault α) : Levelled α :=
  result.mapError fun fault => (level, fault)

/-- Both results, or the fault that is nearer to the root. -/
def both (first : Levelled α) (second : Levelled β) : Levelled (α × β) :=
  match first, second with
  | .ok a, .ok b => .ok (a, b)
  | .error (m, fault), .error (n, other) =>
      if n < m then .error (n, other) else .error (m, fault)
  | .error fault, .ok _ => .error fault
  | .ok _, .error fault => .error fault

def all : List (Levelled α) → Levelled (List α)
  | [] => .ok []
  | head :: tail => (both head (all tail)).map fun (a, rest) => a :: rest

end Levelled

/-! ## Collections -/

namespace Node

def tag : Node → Tag
  | .scalar tag _ => tag
  | .sequence tag _ => tag
  | .mapping tag _ => tag

mutual

def height : Node → Nat
  | .scalar _ _ => 1
  | .sequence _ items => heightOfItems items + 1
  | .mapping _ entries => heightOfEntries entries + 1

def heightOfItems : List Node → Nat
  | [] => 0
  | item :: items => max item.height (heightOfItems items)

def heightOfEntries : List (Node × Node) → Nat
  | [] => 0
  | (key, value) :: entries => max (max key.height value.height) (heightOfEntries entries)

end

/-- The text of a scalar, or of the entry under `=` of a mapping. -/
def text? : Nat → Node → Option Text
  | _, .scalar _ text => some text
  | 0, _ => none
  | _, .sequence _ _ => none
  | fuel + 1, .mapping _ entries =>
      (entries.find? fun (key, _) => key.tag = .value).bind fun (_, value) => text? fuel value

/-- A key `=` is an ordinary text in a mapping. -/
def asKey : Node → Node
  | .scalar .value text => .scalar .str text
  | key => key

/-- The entries of a mapping, with those it merges in front of its own. -/
def merged : Nat → List (Node × Node) → Except Fault (List (Node × Node))
  | 0, entries => .ok entries
  | fuel + 1, entries => do
      let parts ← entries.mapM fun (key, value) => do
        if key.tag ≠ .merge then return ([], [(asKey key, value)])
        match value with
        | .mapping _ inner => return (← merged fuel inner, [])
        | .sequence _ items =>
            let several ← items.mapM fun
              | .mapping _ inner => merged fuel inner
              | _ => .error .construction
            return (several.reverse.flatten, [])
        | .scalar _ _ => throw .construction
      return parts.flatMap (·.1) ++ parts.flatMap (·.2)

/-- A key has to be a scalar; one that has parts is no key, whatever they are. -/
def keyOf (level : Nat) : Levelled Value → Levelled Stencil.Scalar
  | .ok (.scalar key) => .ok key
  | .ok _ => .fail level .construction
  | .error (depth, fault) =>
      if level < depth then .fail level .construction else .error (depth, fault)

def single? : Node → Option (Node × Node)
  | .mapping _ [entry] => some entry
  | _ => none

/-- The value of a node on a level.  The parts of a collection are one level further down. -/
def value : Nat → Nat → Node → Levelled Value
  | 0, level, _ => .fail level .construction
  | fuel + 1, level, node =>
      let below := level + 1
      let entriesOf (entries : List (Node × Node)) : Levelled (List (Stencil.Scalar × Value)) := do
        let entries ← Levelled.at' below (merged (fuel + 1) entries)
        Levelled.all (entries.map fun (key, item) =>
          Levelled.both (keyOf below (value fuel below key)) (value fuel below item))
      let pairsOf (items : List Node) : Levelled Value := do
        let pairs ← Levelled.all (items.map fun item =>
          match single? item with
          | some (key, item) => Levelled.both (value fuel below key) (value fuel below item)
          | none => .fail below .construction)
        return .list (pairs.map fun (key, item) => .tuple [key, item])
      match node.tag, node with
      | .sequence, .sequence _ items => (Levelled.all (items.map (value fuel below))).map .list
      | .omap, .sequence _ items => pairsOf items
      | .pairs, .sequence _ items => pairsOf items
      | .mapping, .mapping _ entries => do
          return .map (Entries.ofList (← entriesOf entries))
      | .set, .mapping _ entries => do
          return .set ((Entries.ofList (← entriesOf entries)).map (·.1))
      | .sequence, _ => .fail below .construction
      | .omap, _ => .fail below .construction
      | .pairs, _ => .fail below .construction
      | .mapping, _ => .fail below .construction
      | .set, _ => .fail below .construction
      | tag, node =>
          match node.text? fuel with
          | some text => Levelled.at' level ((Scalar.read tag text).map .scalar)
          | none => .fail level .construction

end Node

/-! ## Documents -/

/-- The code points that may be written in a document. -/
def isPrintable (c : CodePoint) : Bool :=
  let n := c.toNat
  c.isIn "\t\n\r" || decide (0x20 ≤ n ∧ n ≤ 0x7E) || decide (n = 0x85) ||
    decide (0xA0 ≤ n ∧ n < 0xD800) || decide (0xE000 ≤ n ∧ n ≤ 0xFFFD) || decide (0x10000 ≤ n)

/-- The value of the only document; an empty stream holds no value. -/
def read (text : Text) : Except Fault Value :=
  if text.any fun c => !isPrintable c then .error .character
  else
    let (tokens, fault) := Token.scan text
    match Node.ofTokens tokens fault with
    | .error fault => .error fault
    | .ok none => .ok .null
    | .ok (some node) => (node.value (node.height + 1) 0).mapError (·.2)

end Stencil.Yaml

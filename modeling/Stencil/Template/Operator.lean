import Stencil.Template.Object
import Stencil.Template.Syntax

/-!
# Operators on objects

Arithmetic, formatting with `%`, membership and slices.  An absent operand is a
fault of its own wherever it would have to be a number or a text.
-/

namespace Stencil

namespace Template

namespace BinaryOp

def symbol : BinaryOp → Text
  | .add => "+"
  | .sub => "-"
  | .mul => "*"
  | .div => "/"
  | .floorDiv => "//"
  | .mod => "%"
  | .pow => "** or pow()"

end BinaryOp

end Template

/-! ## Arithmetic -/

namespace Number

open Template

private def toObject : Number → Object
  | .int n => .int n
  | .float x => .float x

/-- The floating-point number nearest to a number. -/
def toFloat : Number → Rendering Binary64
  | .float x => .ok x
  | .int n =>
      match Binary64.ofInt? n with
      | some x => .ok x
      | none => .error (.invalid "int too large to convert to float")

private def onFloats (m n : Number) (f : Binary64 → Binary64 → Rendering Binary64) :
    Rendering Object := do
  let x ← m.toFloat
  let y ← n.toFloat
  return .float (← f x y)

private def unlessZero (message : Text) (f : Binary64 → Binary64 → Binary64) (x y : Binary64) :
    Rendering Binary64 :=
  if y.isZero then .error (.division message) else .ok (f x y)

private def divide (m n : Int) : Rendering Object :=
  if n = 0 then .error (.division "division by zero")
  else
    let quotient := Binary64.ofRatio (decide (m < 0) != decide (n < 0)) m.natAbs n.natAbs
    if quotient.isFinite then .ok (.float quotient)
    else .error (.invalid "integer division result too large for a float")

private def floatPower (x y : Binary64) : Rendering Binary64 :=
  if x.isZero && y.isNegative && !y.isZero && !y.isNaN then
    .error (.division "0.0 cannot be raised to a negative power")
  else
    let result := Binary64.pow x y
    if result.isInfinite && x.isFinite && y.isFinite then
      .error (.invalid "(34, 'Numerical result out of range')")
    else .ok result

def apply (op : BinaryOp) (m n : Number) : Rendering Object :=
  match op, m, n with
  | .add, .int a, .int b => .ok (.int (a + b))
  | .sub, .int a, .int b => .ok (.int (a - b))
  | .mul, .int a, .int b => .ok (.int (a * b))
  | .div, .int a, .int b => divide a b
  | .floorDiv, .int a, .int b =>
      if b = 0 then .error (.division "integer division or modulo by zero")
      else .ok (.int (Int.fdiv a b))
  | .mod, .int a, .int b =>
      if b = 0 then .error (.division "integer modulo by zero") else .ok (.int (Int.fmod a b))
  | .pow, .int a, .int b =>
      if 0 ≤ b then .ok (.int (Int.pow a b.toNat)) else onFloats (.int a) (.int b) floatPower
  | .add, m, n => onFloats m n fun x y => .ok (x.add y)
  | .sub, m, n => onFloats m n fun x y => .ok (x.sub y)
  | .mul, m, n => onFloats m n fun x y => .ok (x.mul y)
  | .div, m, n => onFloats m n (unlessZero "float division by zero" Binary64.div)
  | .floorDiv, m, n => onFloats m n (unlessZero "float floor division by zero" Binary64.floorDiv)
  | .mod, m, n => onFloats m n (unlessZero "float modulo" Binary64.mod)
  | .pow, m, n => onFloats m n floatPower

def negate : Number → Object
  | .int n => .int (-n)
  | .float x => .float x.neg

end Number

namespace Template

/-! ## Formatting with `%` -/

/-- A conversion in a format: its key in brackets, flags, width, precision and letter. -/
structure Conversion where
  key : Option Text
  flags : Text
  width : Nat
  precision : Option Nat
  letter : CodePoint
  deriving Repr

namespace Conversion

private def has (flag : Char) (c : Conversion) : Bool := List.contains c.flags (.scalar flag)

/-- Reads a conversion behind its percent sign. -/
def read? (text : Text) : Option (Conversion × Text) :=
  let (key, text) : Option Text × Text := match text with
    | .scalar '(' :: rest =>
        match Text.cut ")" rest with
        | some (key, rest) => (some key, rest)
        | none => (none, text)
    | _ => (none, text)
  let flags := text.takeWhile (CodePoint.isIn "-+ #0")
  let text := text.drop flags.length
  let width := text.takeWhile CodePoint.isDigit
  let text := text.drop width.length
  let (precision, text) : Option Nat × Text := match text with
    | .scalar '.' :: rest =>
        let digits := rest.takeWhile CodePoint.isDigit
        (some ((Text.toNat? digits).getD 0), rest.drop digits.length)
    | _ => (none, text)
  match text.dropWhile (CodePoint.isIn "hlL") with
  | [] => none
  | letter :: rest => some (⟨key, flags, (Text.toNat? width).getD 0, precision, letter⟩, rest)

private def pad (c : Conversion) (sign body : Text) : Text :=
  let missing := c.width - (sign.length + body.length)
  if c.has '-' then sign ++ body ++ List.replicate missing (.scalar ' ')
  else List.replicate missing (.scalar ' ') ++ sign ++ body

private def padNumber (c : Conversion) (negative : Bool) (body : Text) : Text :=
  let sign : Text :=
    if negative then "-" else if c.has '+' then "+" else if c.has ' ' then " " else []
  if c.has '0' && !c.has '-' then
    sign ++ List.replicate (c.width - (sign.length + body.length)) (.scalar '0') ++ body
  else c.pad sign body

/-- The decimal digits of the absolute value with a fixed number of places. -/
private def fixed (x : Binary64) (places : Nat) : Text :=
  let (num, den) := x.ratio
  let digits := Text.ofNatIn 10 (places + 1) (Binary64.divRoundEven (num * Nat.pow 10 places) den)
  let whole := digits.length - places
  if places = 0 then digits
  else digits.take whole ++ ("." : Text) ++ digits.drop whole

private def integer (c : Conversion) (argument : Object) : Rendering Int :=
  match argument.number? with
  | some (.int n) => .ok n
  | some (.float x) =>
      if x.isNaN then .error (.invalid "cannot convert float NaN to integer")
      else if x.isInfinite then .error (.invalid "cannot convert float infinity to integer")
      else .ok x.truncate
  | none =>
      .error (.invalid (("%" : Text) ++ [c.letter] ++
        (" format: a real number is required, not " : Text) ++ argument.typeName))

private def inBase (c : Conversion) (base : Nat) (argument : Object) : Rendering Text :=
  match argument.int? with
  | some n => .ok (c.padNumber (decide (n < 0)) (Text.ofNatIn base (c.precision.getD 0) n.natAbs))
  | none =>
      .error (.invalid (("%" : Text) ++ [c.letter] ++
        (" format: an integer is required, not " : Text) ++ argument.typeName))

private def cut (c : Conversion) (text : Text) : Text :=
  match c.precision with
  | some limit => text.take limit
  | none => text

/-- The converted argument; `position` is that of the letter in the format. -/
def apply (c : Conversion) (position : Nat) (argument : Object) : Rendering Text :=
  match c.letter with
  | .scalar 's' => .ok (c.pad [] (c.cut argument.display))
  | .scalar 'r' => .ok (c.pad [] (c.cut argument.quoted))
  | .scalar 'a' => .ok (c.pad [] (c.cut argument.quoted))
  | .scalar 'x' => c.inBase 16 argument
  | .scalar 'X' => (c.inBase 16 argument).map fun text =>
      text.map fun d => if d.isLowerLatin then .ofNat (d.toNat - 32) else d
  | .scalar 'o' => c.inBase 8 argument
  | .scalar 'c' =>
      match argument.text?, argument.int? with
      | some [char], _ => .ok (c.pad [] [char])
      | none, some n => .ok (c.pad [] [.ofNat n.toNat])
      | _, _ => .error (.invalid "%c requires int or char")
  | letter =>
      if letter.isIn "diu" then do
        let n ← c.integer argument
        return c.padNumber (decide (n < 0)) (Text.ofNatIn 10 (c.precision.getD 0) n.natAbs)
      else if letter.isIn "fF" then
        match argument.number? with
        | none =>
            .error (match argument with
              | .undefined origin => .absent origin
              | other => .invalid (("must be real number, not " : Text) ++ other.typeName))
        | some n => do
            let x ← n.toFloat
            let body : Text :=
              if x.isNaN then "nan" else if x.isInfinite then "inf"
              else fixed x (c.precision.getD 6)
            return c.padNumber x.isNegative body
      else
        .error (.invalid (("unsupported format character '" : Text) ++ [letter] ++
          ("' (0x" : Text) ++ Text.ofNatIn 16 0 letter.toNat ++ (") at index " : Text) ++
          Text.ofNat position))

end Conversion

/-- What the conversions of a format take their arguments from. -/
private structure FormatArguments where
  positional : List Object
  mapping : Option Object

private def isMappingLike : Object → Bool
  | .list _ => true
  | .map _ => true
  | .undefined _ => true
  | .range _ _ _ => true
  | _ => false

private def lookUp (mapping : Option Object) (key : Text) : Rendering Object :=
  match mapping with
  | some (.map entries) =>
      match Object.get? entries (.text key) with
      | some value => .ok value
      | none => .error (.invalid key.quoted)
  | some (.undefined origin) => .error (.absent origin)
  | some _ => .error (.invalid "list indices must be integers or slices, not str")
  | none => .error (.invalid "format requires a mapping")

private def formatFrom (length : Nat) (mapping : Option Object) :
    Nat → Text → List Object → Rendering Text
  | 0, _, _ => .ok []
  | fuel + 1, text, arguments =>
      match text with
      | [] =>
          if !arguments.isEmpty && mapping.isNone then
            .error (.invalid "not all arguments converted during string formatting")
          else .ok []
      | .scalar '%' :: .scalar '%' :: rest =>
          (CodePoint.scalar '%' :: ·) <$> formatFrom length mapping fuel rest arguments
      | .scalar '%' :: rest =>
          match Conversion.read? rest with
          | none => .error (.invalid "incomplete format")
          | some (conversion, rest) => do
              let position := length - rest.length - 1
              let (argument, arguments) ← (match conversion.key, arguments with
                | some key, _ => do return (← lookUp mapping key, arguments)
                | none, argument :: arguments => Except.ok (argument, arguments)
                | none, [] => .error (.invalid "not enough arguments for format string"))
              let part ← conversion.apply position argument
              return part ++ (← formatFrom length mapping fuel rest arguments)
      | c :: rest => (c :: ·) <$> formatFrom length mapping fuel rest arguments

/-- A format with its conversions replaced by the arguments. -/
def formatText (format : Text) (arguments : Object) : Rendering Text :=
  let positional : List Object := match arguments with
    | .tuple items => items
    | other => [other]
  let mapping := if isMappingLike arguments then some arguments else none
  formatFrom format.length mapping (format.length + 1) format positional

/-! ## Binary operators -/

namespace Object

def escaped (text : Text) : Text :=
  text.flatMap fun c =>
    match c with
    | .scalar '&' => "&amp;"
    | .scalar '>' => "&gt;"
    | .scalar '<' => "&lt;"
    | .scalar '\x27' => "&#39;"
    | .scalar '\x22' => "&#34;"
    | c => [c]

private def repeated {α : Type} (items : List α) (count : Int) : List α :=
  (List.replicate count.toNat items).flatten

/-- A sequence repeated a number of times, when the object is a sequence. -/
private def times? (count : Int) : Object → Option Object
  | .text value => some (.text (repeated value count))
  | .safe value => some (.safe (repeated value count))
  | .list items => some (.list (repeated items count))
  | .tuple items => some (.tuple (repeated items count))
  | _ => none

private def isSequence (object : Object) : Bool := (times? 0 object).isSome

private def multiply (a b : Object) : Rendering Object :=
  let fault : RenderFault :=
    if isSequence a then .repetition b.typeName
    else if isSequence b then .repetition a.typeName
    else .operands "*" a.typeName b.typeName
  match b.int?, a.int? with
  | some n, _ =>
      match times? n a with
      | some result => .ok result
      | none => .error fault
  | none, some n =>
      match times? n b with
      | some result => .ok result
      | none => .error fault
  | none, none => .error fault

private def join (a b : Object) : Rendering Object :=
  match a, b with
  | .text s, .text t => .ok (.text (s ++ t))
  | .safe s, .text t => .ok (.safe (s ++ escaped t))
  | .text s, .safe t => .ok (.safe (escaped s ++ t))
  | .safe s, .safe t => .ok (.safe (s ++ t))
  | .list s, .list t => .ok (.list (s ++ t))
  | .tuple s, .tuple t => .ok (.tuple (s ++ t))
  | .text _, b => .error (.concatenation "str" b.typeName)
  | .safe _, b => .error (.concatenation "str" b.typeName)
  | .list _, b => .error (.concatenation "list" b.typeName)
  | .tuple _, b => .error (.concatenation "tuple" b.typeName)
  | a, b => .error (.operands "+" a.typeName b.typeName)

def binary (op : BinaryOp) (a b : Object) : Rendering Object :=
  match op, a, b with
  | _, .undefined origin, _ => .error (.absent origin)
  | .mod, .text format, b => Object.text <$> formatText format b
  | .mod, .safe format, b => Object.safe <$> formatText format b
  | _, _, .undefined origin => .error (.absent origin)
  | op, a, b =>
      match a.number?, b.number? with
      | some m, some n => Number.apply op m n
      | _, _ =>
          match op with
          | .add => join a b
          | .mul => multiply a b
          | op => .error (.operands op.symbol a.typeName b.typeName)

def negative (a : Object) : Rendering Object :=
  match a, a.number? with
  | .undefined origin, _ => .error (.absent origin)
  | _, some n => .ok n.negate
  | a, none => .error (.operand "unary -" a.typeName)

def positive (a : Object) : Rendering Object :=
  match a, a.number? with
  | .undefined origin, _ => .error (.absent origin)
  | _, some (.int n) => .ok (.int n)
  | _, some (.float x) => .ok (.float x)
  | a, none => .error (.operand "unary +" a.typeName)

/-! ## Membership and comparison -/

/-- Whether `member` is in `whole`. -/
def isIn (member whole : Object) : Rendering Bool :=
  match whole with
  | .scalar (.text value) =>
      match member.text? with
      | some part => .ok (Text.contains part value)
      | none => .error (.notInText member.typeName)
  | .safe value =>
      match member.text? with
      | some part => .ok (Text.contains part value)
      | none => .error (.notInText member.typeName)
  | .map entries =>
      if member.isHashable then .ok (entries.any fun entry => member.equals entry.1)
      else .error (.unhashable member.typeName)
  | .set items =>
      if member.isHashable then .ok (items.any member.equals)
      else .error (.unhashable member.typeName)
  | whole =>
      match whole.members with
      | .ok items => .ok (items.any member.equals)
      | .error (.notIterable type) => .error (.noMembers type)
      | .error fault => .error fault

def comparison (op : Comparison) (a b : Object) : Rendering Bool :=
  match op with
  | .eq => .ok (a.equals b)
  | .ne => .ok (!a.equals b)
  | .isIn => isIn a b
  | .notIn => (!·) <$> isIn a b
  | op => ordered op a b

/-! ## Slices -/

private def sliceBound : Option Object → Rendering (Option Int)
  | none => .ok none
  | some .null => .ok none
  | some object =>
      match object.int? with
      | some n => .ok (some n)
      | none =>
          .error (.invalid
            "slice indices must be integers or None or have an __index__ method")

private def clamp (length lower upper n : Int) : Int :=
  if n < 0 then max (n + length) lower else min n upper

/-- The positions that a slice of a sequence visits. -/
def slicePositions (length : Nat) (start stop : Option Int) (step : Int) : List Nat :=
  let size : Int := length
  let lower : Int := if step < 0 then -1 else 0
  let upper : Int := if step < 0 then size - 1 else size
  let first := match start with
    | some n => clamp size lower upper n
    | none => if step < 0 then upper else lower
  let last := match stop with
    | some n => clamp size lower upper n
    | none => if step < 0 then lower else upper
  (List.range (rangeLength first last step)).map fun (k : Nat) => (first + k * step).toNat

private def pick {α : Type} (items : List α) (positions : List Nat) : List α :=
  let table := items.toArray
  positions.filterMap fun position => table[position]?

/-- The part of a sequence between two bounds. -/
def slice (base : Object) (start stop step : Option Object) : Rendering Object := do
  let cut {α : Type} (items : List α) (wrap : List α → Object) : Rendering Object := do
    let step := (← sliceBound step).getD 1
    if step = 0 then .error (.invalid "slice step cannot be zero")
    else
      let start ← sliceBound start
      let stop ← sliceBound stop
      return wrap (pick items (slicePositions items.length start stop step))
  match base with
  | .scalar (.text value) => cut value .text
  | .safe value => cut value .safe
  | .list items => cut items .list
  | .tuple items => cut items .tuple
  | .range a b c => cut (rangeItems a b c) .list
  | .undefined origin => .error (.absent origin)
  | .map _ => .error (.unhashable "slice")
  | other => .error (.notSubscriptable other.typeName)

end Object

end Template

end Stencil

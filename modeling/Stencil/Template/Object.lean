import Stencil.Template.Syntax
import Stencil.Value.Basic

/-!
# Objects of templates

What expressions of templates stand for: the values of variables, and besides
them absent values, texts marked as safe, ranges, streams, methods and the
description of a loop.
-/

namespace Stencil.Template

/-- Where an absent value comes from. -/
inductive Origin where
  | variable (name : Text)
  | member (owner name : Text)
  | element (owner index : Text)
  | remark (text : Text)
  deriving DecidableEq, Repr

namespace Origin

def message : Origin → Text
  | .variable name => name.quoted ++ (" is undefined" : Text)
  | .member owner name => owner.quoted ++ (" has no attribute " : Text) ++ name.quoted
  | .element owner index => owner ++ (" has no element " : Text) ++ index
  | .remark text => text

end Origin

/-! ## Faults of evaluation -/

inductive RenderFault where
  | absent (origin : Origin)
  | operands (op left right : Text)
  | operand (op type : Text)
  | concatenation (left right : Text)
  | repetition (type : Text)
  | division (message : Text)
  | order (op left right : Text)
  | notIterable (type : Text)
  | noMembers (type : Text)
  | notInText (type : Text)
  | noLength (type : Text)
  | notCallable (type : Text)
  | notSubscriptable (type : Text)
  | unhashable (type : Text)
  | unpackSingle (type : Text)
  | unpackFew (wanted found : Nat)
  | unpackMany (wanted : Nat)
  | unknownFilter (name : Text)
  | unknownTest (name : Text)
  | noLoader
  | noNamespace
  | invalid (message : Text)
  deriving DecidableEq, Repr

namespace RenderFault

private def within (before type after : Text) : Text := before ++ type ++ after

def message : RenderFault → Text
  | .absent origin => origin.message
  | .operands op left right =>
      ("unsupported operand type(s) for " : Text) ++ op ++ within ": '" left "' and '" ++ right ++
        ("'" : Text)
  | .operand op type => ("bad operand type for " : Text) ++ op ++ within ": '" type "'"
  | .concatenation left right =>
      within "can only concatenate " left " (not \"" ++ right ++ within "\") to " left ""
  | .repetition type => within "can't multiply sequence by non-int of type '" type "'"
  | .division message => message
  | .order op left right =>
      within "'" op "' not supported between instances of '" ++ within left "' and '" right ++
        ("'" : Text)
  | .notIterable type => within "'" type "' object is not iterable"
  | .noMembers type => within "argument of type '" type "' is not iterable"
  | .notInText type => within "'in <string>' requires string as left operand, not " type ""
  | .noLength type => within "object of type '" type "' has no len()"
  | .notCallable type => within "'" type "' object is not callable"
  | .notSubscriptable type => within "'" type "' object is not subscriptable"
  | .unhashable type => within "unhashable type: '" type "'"
  | .unpackSingle type => within "cannot unpack non-iterable " type " object"
  | .unpackFew wanted found =>
      within "not enough values to unpack (expected " (Text.ofNat wanted) ", got " ++
        Text.ofNat found ++ (")" : Text)
  | .unpackMany wanted => within "too many values to unpack (expected " (Text.ofNat wanted) ")"
  | .unknownFilter name => within "No filter named " name.quoted " found."
  | .unknownTest name => within "No test named " name.quoted " found."
  | .noLoader => "no loader for this environment specified"
  | .noNamespace => "cannot assign attribute on non-namespace object"
  | .invalid message => message

end RenderFault

abbrev Rendering := Except RenderFault

/-! ## Objects -/

/-- What a view of a mapping shows. -/
inductive ViewKind where
  | keys
  | values
  | items
  deriving DecidableEq, Repr

inductive Object where
  | scalar (value : Scalar)
  | safe (text : Text)
  | list (items : List Object)
  | tuple (items : List Object)
  | set (items : List Object)
  | map (entries : List (Object × Object))
  | range (start stop step : Int)
  | undefined (origin : Origin)
  | stream (name : Text) (items : List Object) (fault : Option RenderFault)
  | view (kind : ViewKind) (items : List Object)
  | method (receiver : Object) (name : Text)
  | function (name : Text)
  | loop (serial index : Nat) (items : List Object)
  deriving Inhabited

namespace Object

@[match_pattern] abbrev null : Object := .scalar .null

@[match_pattern] abbrev bool (value : Bool) : Object := .scalar (.bool value)

@[match_pattern] abbrev int (value : Int) : Object := .scalar (.int value)

@[match_pattern] abbrev float (value : Binary64) : Object := .scalar (.float value)

@[match_pattern] abbrev text (value : Text) : Object := .scalar (.text value)

def ofNat (n : Nat) : Object := .int n

mutual

def ofValue : Value → Object
  | .scalar value => .scalar value
  | .list items => .list (ofValues items)
  | .tuple items => .tuple (ofValues items)
  | .set items => .set (items.map .scalar)
  | .map entries => .map (ofEntries entries)

def ofValues : List Value → List Object
  | [] => []
  | item :: items => ofValue item :: ofValues items

def ofEntries : List (Scalar × Value) → List (Object × Object)
  | [] => []
  | (key, value) :: entries => (.scalar key, ofValue value) :: ofEntries entries

end

/-! ## Kinds -/

def typeName : Object → Text
  | .scalar value => value.typeName
  | .safe _ => "Markup"
  | .list _ => "list"
  | .tuple _ => "tuple"
  | .set _ => "set"
  | .map _ => "dict"
  | .range _ _ _ => "range"
  | .undefined _ => "Undefined"
  | .stream name _ _ => name
  | .view .keys _ => "dict_keys"
  | .view .values _ => "dict_values"
  | .view .items _ => "dict_items"
  | .method _ _ => "builtin_function_or_method"
  | .function _ => "type"
  | .loop _ _ _ => "LoopContext"

/-- The object as the owner of a missing member. -/
def ownerName : Object → Text
  | .null => "None"
  | .safe _ => "markupsafe.Markup object"
  | .undefined _ => "jinja2.runtime.Undefined object"
  | .loop _ _ _ => "jinja2.runtime.LoopContext object"
  | other => other.typeName ++ (" object" : Text)

/-- The text of an object that is a text, safe or not. -/
def text? : Object → Option Text
  | .text value => some value
  | .safe value => some value
  | _ => none

def number? : Object → Option Number
  | .scalar value => value.number?
  | _ => none

/-- The integer of an object that is one; truth values are. -/
def int? : Object → Option Int
  | .int value => some value
  | .bool value => some (if value then 1 else 0)
  | _ => none

def isUndefined : Object → Bool
  | .undefined _ => true
  | _ => false

/-! ## Ranges -/

def rangeLength (start stop step : Int) : Nat :=
  if 0 < step then (Int.fdiv (stop - start + step - 1) step).toNat
  else if step < 0 then (Int.fdiv (start - stop - step - 1) (-step)).toNat
  else 0

def rangeItems (start stop step : Int) : List Object :=
  (List.range (rangeLength start stop step)).map fun (k : Nat) => .int (start + k * step)

/-! ## Truth, length and members -/

def isTrue : Object → Bool
  | .scalar value => value.isTrue
  | .safe body => !body.isEmpty
  | .list items => !items.isEmpty
  | .tuple items => !items.isEmpty
  | .set items => !items.isEmpty
  | .map entries => !entries.isEmpty
  | .range start stop step => rangeLength start stop step ≠ 0
  | .undefined _ => false
  | .view _ items => !items.isEmpty
  | .loop _ _ items => !items.isEmpty
  | _ => true

def length : Object → Rendering Nat
  | .scalar (.text value) => .ok value.length
  | .scalar (.bytes value) => .ok value.length
  | .safe body => .ok body.length
  | .list items => .ok items.length
  | .tuple items => .ok items.length
  | .set items => .ok items.length
  | .map entries => .ok entries.length
  | .range start stop step => .ok (rangeLength start stop step)
  | .undefined _ => .ok 0
  | .view _ items => .ok items.length
  | .loop _ _ items => .ok items.length
  | other => .error (.noLength other.typeName)

def characters (text : Text) : List Object := text.map fun c => .text [c]

/-- The members that a loop over the object visits. -/
def members : Object → Rendering (List Object)
  | .scalar (.text value) => .ok (characters value)
  | .scalar (.bytes value) => .ok (value.map fun byte => .ofNat byte.toNat)
  | .safe body => .ok (characters body)
  | .list items => .ok items
  | .tuple items => .ok items
  | .set items => .ok items
  | .map entries => .ok (entries.map (·.1))
  | .range start stop step => .ok (rangeItems start stop step)
  | .undefined _ => .ok []
  | .stream _ items none => .ok items
  | .stream _ _ (some fault) => .error fault
  | .view _ items => .ok items
  | other => .error (.notIterable other.typeName)

/-! ## Texts of objects -/

mutual

def quoted : Object → Text
  | .scalar value => value.quoted
  | .safe body => ("Markup(" : Text) ++ body.quoted ++ (")" : Text)
  | .list items => Layout.list (quotedAll items)
  | .tuple items => Layout.tuple (quotedAll items)
  | .set items => Layout.set (quotedAll items)
  | .map entries => Layout.map (quotedEntries entries)
  | .range start stop step =>
      ("range(" : Text) ++ Text.ofInt start ++ (", " : Text) ++ Text.ofInt stop ++
        (if step = 1 then [] else (", " : Text) ++ Text.ofInt step) ++ (")" : Text)
  | .undefined _ => "Undefined"
  | .stream name _ _ => ("<" : Text) ++ name ++ (" object>" : Text)
  | .view .keys items => ("dict_keys(" : Text) ++ Layout.list (quotedAll items) ++ (")" : Text)
  | .view .values items => ("dict_values(" : Text) ++ Layout.list (quotedAll items) ++ (")" : Text)
  | .view .items items => ("dict_items(" : Text) ++ Layout.list (quotedAll items) ++ (")" : Text)
  | .method receiver name =>
      ("<built-in method " : Text) ++ name ++ (" of " : Text) ++ receiver.typeName ++
        (" object>" : Text)
  | .function name => ("<class '" : Text) ++ name ++ ("'>" : Text)
  | .loop _ index items =>
      ("<LoopContext " : Text) ++ Text.ofNat (index + 1) ++ ("/" : Text) ++
        Text.ofNat items.length ++ (">" : Text)

def quotedAll : List Object → List Text
  | [] => []
  | item :: items => item.quoted :: quotedAll items

def quotedEntries : List (Object × Object) → List (Text × Text)
  | [] => []
  | (key, value) :: entries => (key.quoted, value.quoted) :: quotedEntries entries

end

/-- The text that the object prints. -/
def display : Object → Text
  | .scalar value => value.display
  | .safe body => body
  | .undefined _ => []
  | other => other.quoted

/-! ## Equality and order -/

mutual

def equals : Object → Object → Bool
  | .scalar a, .scalar b => a.equals b
  | .safe a, .safe b => decide (a = b)
  | .safe a, .text b => decide (a = b)
  | .text a, .safe b => decide (a = b)
  | .list items, .list others => equalAll items others
  | .tuple items, .tuple others => equalAll items others
  | .set items, .set others => decide (items.length = others.length) && eachIn items others
  | .map entries, .map others =>
      decide (entries.length = others.length) && equalEntries entries others
  | .range a b c, .range d e f => decide (rangeLength a b c = rangeLength d e f) &&
      (decide (rangeLength a b c = 0) || decide (a = d) &&
        (decide (rangeLength a b c = 1) || decide (c = f)))
  | .undefined _, .undefined _ => true
  | .function a, .function b => decide (a = b)
  | .method a name, .method b other => decide (name = other) && equals a b
  | _, _ => false

def equalAll : List Object → List Object → Bool
  | [], [] => true
  | item :: items, other :: others => item.equals other && equalAll items others
  | _, _ => false

def eachIn : List Object → List Object → Bool
  | [], _ => true
  | item :: items, others => others.any item.equals && eachIn items others

/-- Whether every entry has an equal one in `others`. -/
def equalEntries : List (Object × Object) → List (Object × Object) → Bool
  | [], _ => true
  | (key, value) :: entries, others =>
      others.any (fun other => key.equals other.1 && value.equals other.2) &&
        equalEntries entries others

end

end Object

/-- Whether an ordering of two objects fits a comparison. -/
def Comparison.fits : Comparison → Ordering → Bool
  | .lt, order => order = .lt
  | .le, order => order ≠ .gt
  | .gt, order => order = .gt
  | .ge, order => order ≠ .lt
  | _, order => order = .eq

def Comparison.symbol : Comparison → Text
  | .eq => "=="
  | .ne => "!="
  | .lt => "<"
  | .le => "<="
  | .gt => ">"
  | .ge => ">="
  | .isIn => "in"
  | .notIn => "not in"

namespace Object

private def textOrder (a b : Text) : Ordering :=
  if a = b then .eq else if Text.precedes a b then .lt else .gt

private def scalarOrder? : Scalar → Scalar → Option Ordering
  | .text a, .text b => some (textOrder a b)
  | .date a, .date b => some (compare a.ordinal b.ordinal)
  | .moment a, .moment b =>
      if a.offset.isSome = b.offset.isSome then some (compare a.instant b.instant) else none
  | _, _ => none

mutual

/-- Whether `a op b` holds, for the four comparisons of order. -/
def ordered (op : Comparison) : Object → Object → Rendering Bool
  | .undefined origin, _ => .error (.absent origin)
  | .list items, .list others => orderedLists op items others
  | .tuple items, .tuple others => orderedLists op items others
  | _, .undefined origin => .error (.absent origin)
  | a, b =>
      match a.number?, b.number? with
      | some m, some n =>
          .ok (match m.compare n with
            | some order => op.fits order
            | none => false)
      | _, _ =>
          match a.text?, b.text? with
          | some s, some t => .ok (op.fits (textOrder s t))
          | _, _ =>
              let order? : Option Ordering := match a, b with
                | .scalar s, .scalar t => scalarOrder? s t
                | _, _ => none
              match order? with
              | some order => .ok (op.fits order)
              | none => .error (.order op.symbol a.typeName b.typeName)

/-- Lists are ordered by their first difference, or else by their length. -/
def orderedLists (op : Comparison) : List Object → List Object → Rendering Bool
  | [], [] => .ok (op.fits .eq)
  | [], _ :: _ => .ok (op.fits .lt)
  | _ :: _, [] => .ok (op.fits .gt)
  | item :: items, other :: others =>
      if item.equals other then orderedLists op items others else item.ordered op other

end

/-! ## Mappings -/

/-- Whether the object may be a key: lists, sets and mappings may not. -/
def isHashable : Object → Bool
  | .list _ => false
  | .set _ => false
  | .map _ => false
  | _ => true

def get? (entries : List (Object × Object)) (key : Object) : Option Object :=
  (entries.find? fun entry => entry.1.equals key).map (·.2)

/-- A known key keeps its place and its spelling and takes the new value. -/
def insert (entries : List (Object × Object)) (key value : Object) : List (Object × Object) :=
  match entries with
  | [] => [(key, value)]
  | entry :: rest =>
      if entry.1.equals key then (entry.1, value) :: rest else entry :: insert rest key value

end Object

end Stencil.Template

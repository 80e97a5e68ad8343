import Stencil.Text.Blank
import Stencil.Text.Casing
import Stencil.Text.Quoted

/-!
# Markup

Texts for the console may style their parts with tags in square brackets.  Only
the text between the tags is kept here.  `escape` makes a text that shows as it
is, and `render` finds what a text shows.
-/

namespace Stencil.Markup

/-! ## Tags -/

/-- How a tag may start. -/
def opensTag (c : CodePoint) : Bool := c.isLowerLatin || c.isIn "#/@"

def backslash : CodePoint := .scalar '\\'

/-- The inside of a tag that a text starts with, and the text after it. -/
def tag? : Text → Option (Text × Text)
  | .scalar '[' :: c :: rest =>
      if opensTag c then
        let inside := rest.takeWhile fun c => !c.isIn "[]"
        match rest.drop inside.length with
        | .scalar ']' :: after => some (c :: inside, after)
        | _ => none
      else none
  | _ => none

/-- A text in parts: letters that stand for themselves, and tags with the backslashes before them. -/
inductive Part where
  | letter (c : CodePoint)
  | tag (backslashes : Nat) (inside : Text)
  deriving Repr

/-- `skip` letters belong to a tag that was read already. -/
def partsFrom : Nat → Text → List Part
  | _, [] => []
  | skip + 1, _ :: text => partsFrom skip text
  | 0, c :: text =>
      let marks := (c :: text).takeWhile (· = backslash)
      match tag? ((c :: text).drop marks.length) with
      | some (inside, _) => .tag marks.length inside :: partsFrom (marks.length + inside.length + 1) text
      | none => .letter c :: partsFrom 0 text

def parts (text : Text) : List Part := partsFrom 0 text

def marks (count : Nat) : Text := List.replicate count backslash

def bracketed (inside : Text) : Text := ("[" : Text) ++ inside ++ ("]" : Text)

/-! ## Escaping -/

def escapePart : Part → Text
  | .letter c => [c]
  | .tag count inside => marks (2 * count + 1) ++ bracketed inside

/-- A text whose tags are shown.  A single backslash at its end would reach into what follows. -/
def escape (text : Text) : Text :=
  let escaped := (parts text).flatMap escapePart
  if Text.endsWith "\\" escaped && !Text.endsWith "\\\\" escaped then escaped ++ ("\\" : Text)
  else escaped

/-! ## Showing -/

inductive Fault where
  | unopened (tag : Text) (position : Nat)
  | nothingOpen (position : Nat)
  deriving DecidableEq, Repr

namespace Fault

def message : Fault → Text
  | .unopened tag position =>
      ("closing tag '[" : Text) ++ tag ++ ("]' at position " : Text) ++ Text.ofNat position ++
        (" doesn't match any open tag" : Text)
  | .nothingOpen position =>
      ("closing tag '[/]' at position " : Text) ++ Text.ofNat position ++
        (" has nothing to close" : Text)

end Fault

/-- Styles are compared without blanks around them and without case. -/
def styleName (text : Text) : Text := (Text.strip text).toLower

def withoutFirst (name : Text) : List Text → Option (List Text)
  | [] => none
  | other :: rest =>
      if other = name then some rest else (withoutFirst name rest).map (other :: ·)

/-- A run of letters; a backslash before an opening bracket is dropped. -/
def shown (letters : Text) : Text := Text.replaceAll "\\[" "[" letters

def nameOf (inside : Text) : Text := inside.takeWhile (· ≠ .scalar '=')

/-- Reads on with the letters of the current run, the open tags and the position. -/
def renderFrom (run : Text) (opened : List Text) (position : Nat) :
    List Part → Except Fault Text
  | [] => .ok (shown run)
  | .letter c :: rest => renderFrom (run ++ [c]) opened (position + 1) rest
  | .tag count inside :: rest => do
      let after := position + count + inside.length + 2
      let front := shown run ++ marks (count / 2)
      if count % 2 = 1 then
        return front ++ shown (bracketed inside) ++ (← renderFrom [] opened after rest)
      else
        let start := position + count
        match nameOf inside with
        | .scalar '/' :: name =>
            if (Text.strip name).isEmpty then
              match opened with
              | [] => throw (.nothingOpen start)
              | _ :: others => return front ++ (← renderFrom [] others after rest)
            else
              match withoutFirst (styleName name) opened with
              | some others => return front ++ (← renderFrom [] others after rest)
              | none => throw (.unopened inside start)
        | name => return front ++ (← renderFrom [] (styleName name :: opened) after rest)

/-- The controls that a console would act on are never shown. -/
def isControl (c : CodePoint) : Bool := [7, 8, 11, 12, 13].contains c.toNat

def render (text : Text) : Except Fault Text :=
  (renderFrom [] [] 0 (parts text)).map fun shown => shown.filter (!isControl ·)

end Stencil.Markup

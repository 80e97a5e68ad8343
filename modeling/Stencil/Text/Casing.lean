import Stencil.Text.Basic
import Stencil.Text.CaseTable

/-!
# Lowercase and uppercase

`Casing` is a pair of case mappings; the rules that join, split and compare
words take one as a parameter.  `Casing.unicode` is the full mapping of all
scripts, in which one code point can become several and a capital sigma at the
end of a word has a lowercase form of its own.
-/

namespace Stencil

structure Casing where
  lower : Text → Text
  upper : Text → Text

namespace CodePoint

def image? (runs : List CaseRun) (long : List (Nat × List Nat)) (code : Nat) :
    Option Text :=
  match long.lookup code with
  | some codes => some (codes.map ofNat)
  | none => (CaseRun.find? runs code).map fun image => [ofNat image]

def uppercase (c : CodePoint) : Text :=
  if c.toNat < 128 then
    if c.isLowerLatin then [ofNat (c.toNat - 32)] else [c]
  else (image? CaseTable.upperRuns CaseTable.upperLong c.toNat).getD [c]

def titlecase (c : CodePoint) : Text :=
  if c.toNat < 128 then uppercase c
  else (image? CaseTable.titleRuns CaseTable.titleLong c.toNat).getD (uppercase c)

def isCased (c : CodePoint) : Bool :=
  if c.toNat < 128 then c.isLatin else CaseTable.cased.has c.toNat

def isCaseIgnorable (c : CodePoint) : Bool := CaseTable.ignorable.has c.toNat

/-- Whether the nearest code point that is not ignorable has case. -/
def facesCased (neighbours : Text) : Bool :=
  match neighbours.dropWhile isCaseIgnorable with
  | [] => false
  | c :: _ => c.isCased

/--
The lowercase form of a code point between its neighbours: `before` holds the
code points in front of it, the nearest first.
-/
def lowercase (before after : Text) (c : CodePoint) : Text :=
  if c.toNat < 128 then [c.lowerLatin]
  else if c.toNat = 0x3A3 then
    if facesCased before && !facesCased after then [ofNat 0x3C2] else [ofNat 0x3C3]
  else (image? CaseTable.lowerRuns CaseTable.lowerLong c.toNat).getD [c]

end CodePoint

namespace Text

def lowerFrom (before : Text) : Text → Text
  | [] => []
  | c :: after => c.lowercase before after ++ lowerFrom (c :: before) after

def toLower (text : Text) : Text := lowerFrom [] text

def toUpper (text : Text) : Text := text.flatMap CodePoint.uppercase

/-- The first code point in titlecase, the others in lowercase. -/
def capitalize : Text → Text
  | [] => []
  | c :: after => c.titlecase ++ lowerFrom [c] after

private def titleFrom (before : Text) : Text → Text
  | [] => []
  | c :: after =>
      let inWord := match before with
        | [] => false
        | last :: _ => last.isCased
      (if inWord then c.lowercase before after else c.titlecase) ++
        titleFrom (c :: before) after

/-- Every run of letters with case starts in titlecase and goes on in lowercase. -/
def toTitle (text : Text) : Text := titleFrom [] text

end Text

namespace Casing

def unicode : Casing := ⟨Text.toLower, Text.toUpper⟩

/-- The mapping of the plain Latin letters alone. -/
def latin : Casing :=
  ⟨List.map CodePoint.lowerLatin,
   List.map fun c => if c.isLowerLatin then CodePoint.ofNat (c.toNat - 32) else c⟩

end Casing

end Stencil

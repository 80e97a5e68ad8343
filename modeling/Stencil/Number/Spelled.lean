import Stencil.Number.Decimal
import Stencil.Text.Blank

/-!
# Spelled numbers

Numbers as they are typed: with blanks around them, a sign, the mark of a base
and single underscores between digits.
-/

namespace Stencil.Spelled

/-- Underscores are dropped where they stand between digits. -/
def dropUnderscores? : Text → Option Text
  | [] => some []
  | .scalar '_' :: _ => none
  | c :: .scalar '_' :: d :: text =>
      if (c.letterDigitValue?).isSome && (d.letterDigitValue?).isSome then
        (dropUnderscores? (d :: text)).map (c :: ·)
      else none
  | c :: text => (dropUnderscores? text).map (c :: ·)

/-- Reads an integer in a base, with a sign and the mark of the base. -/
def integer? (base : Nat) (text : Text) : Option Int :=
  let (negative, body) := Binary64.cutSign text.strip
  let marks : List (Nat × Text) := [(2, "0b"), (8, "0o"), (16, "0x")]
  let lower := body.map CodePoint.lowerLatin
  let marked := marks.findSome? fun (markBase, mark) =>
    if base = markBase ∨ base = 0 then
      (Text.dropLeading? mark lower).map fun rest =>
        (markBase, match rest with
          | .scalar '_' :: rest => rest
          | rest => rest)
    else none
  let (base, digits) := marked.getD (if base = 0 then 10 else base, lower)
  match dropUnderscores? digits with
  | none => none
  | some digits =>
      (Text.toNatIn? base digits).map fun n => if negative then -(n : Int) else n

/-- Reads a number, with blanks around it and underscores between digits. -/
def float? (text : Text) : Option Binary64 :=
  match dropUnderscores? text.strip with
  | some digits => Binary64.readAny? digits
  | none => none

end Stencil.Spelled

import Stencil.Text.Width

/-!
# Lines

What a console shows of a text: its lines, with tabs widened to the next stop.
-/

namespace Stencil.Lines

def tabWidth : Nat := 8

private def widenFrom (column : Nat) : Text → Text
  | [] => []
  | c :: text =>
      if c = .scalar '\t' then
        let count := tabWidth - column % tabWidth
        List.replicate count (.scalar ' ') ++ widenFrom (column + count) text
      else c :: widenFrom (column + c.width) text

def widen (line : Text) : Text := widenFrom 0 line

def ofText (text : Text) : List Text := (Text.lines text).map widen

/-- A line filled with blanks on the right. -/
def padTo (width : Nat) (line : Text) : Text :=
  line ++ List.replicate (width - line.width) (.scalar ' ')

/-- The width of the widest line. -/
def widest (lines : List Text) : Nat := (lines.map Text.width).foldl max 0

end Stencil.Lines

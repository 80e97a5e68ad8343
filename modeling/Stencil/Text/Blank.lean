import Stencil.Text.Basic

/-!
# Blanks

The code points that count as white space: the space separators of Unicode and
the controls whose direction class is a separator.
-/

namespace Stencil

def CodePoint.blankRanges : CodeRanges :=
  [(9, 13), (28, 32), (133, 133), (160, 160), (5760, 5760), (8192, 8202), (8232, 8233),
   (8239, 8239), (8287, 8287), (12288, 12288)]

def CodePoint.isBlank (c : CodePoint) : Bool := blankRanges.has c.toNat

/-- A text without the blanks at both of its ends. -/
def Text.strip (text : Text) : Text := text.trim CodePoint.isBlank

def Text.stripEnd (text : Text) : Text := text.trimEnd CodePoint.isBlank

/-- The maximal parts without blanks. -/
def Text.words : Text → List Text
  | [] => []
  | c :: text =>
      if c.isBlank then words text
      else
        match text with
        | [] => [[c]]
        | next :: _ =>
            if next.isBlank then [c] :: words text
            else
              match words text with
              | [] => [[c]]
              | word :: others => (c :: word) :: others

end Stencil

import Stencil.Console.Lines

/-!
# Tables

A table is a frame around columns that are as wide as their widest cells.  The
title stands centred above it, on more than one line if it is wider.
-/

namespace Stencil

structure Table where
  title : Text
  header : List Text
  rows : List (List Text)
  deriving Repr

namespace Table

/-- The corners and lines of one rule of a frame. -/
structure Rule where
  left : Char
  fill : Char
  joint : Char
  right : Char

def topRule : Rule := ⟨'┏', '━', '┳', '┓'⟩

def headRule : Rule := ⟨'┡', '━', '╇', '┩'⟩

def bottomRule : Rule := ⟨'└', '─', '┴', '┘'⟩

/-- The widths of columns; an empty row has as many columns as it needs. -/
private def widthsOf (rows : List (List (List Text))) (count : Nat) : List Nat :=
  (List.range count).map fun column =>
    (rows.map fun row => Lines.widest (row.getD column [])).foldl max 0

private def ruleLine (rule : Rule) (widths : List Nat) : Text :=
  let parts := widths.map fun width => List.replicate (width + 2) (CodePoint.scalar rule.fill)
  CodePoint.scalar rule.left :: Text.joinWith [.scalar rule.joint] parts ++ [.scalar rule.right]

/-- A row takes as many lines as its highest cell. -/
private def rowLines (bar : Char) (widths : List Nat) (row : List (List Text)) : List Text :=
  let height := (row.map List.length).foldl max 1
  (List.range height).map fun line =>
    let cells := (row.zip widths).map fun (cell, width) =>
      [CodePoint.scalar ' '] ++ Lines.padTo width (cell.getD line []) ++ [CodePoint.scalar ' ']
    CodePoint.scalar bar :: Text.joinWith [.scalar bar] cells ++ [.scalar bar]

/-! ## Titles -/

/-- Words put on lines of a limited width; a word that is too long stands alone. -/
private def wrapWords (limit : Nat) (line : Text) : List Text → List Text
  | [] => if line.isEmpty then [] else [line]
  | word :: words =>
      let longer := if line.isEmpty then word else line ++ [CodePoint.scalar ' '] ++ word
      if line.isEmpty ∨ longer.width ≤ limit then wrapWords limit longer words
      else line :: wrapWords limit word words

private def titleLines (limit : Nat) (title : Text) : List Text :=
  (Lines.ofText title).flatMap fun line =>
    if line.width ≤ limit then [line]
    else wrapWords limit [] (Text.splitOn (.scalar ' ') line)

private def centred (width : Nat) (line : Text) : Text :=
  List.replicate ((width - line.width) / 2) (.scalar ' ') ++ line

/-! ## The whole table -/

def lines (table : Table) : List Text :=
  let header := table.header.map Lines.ofText
  let rows := table.rows.map (·.map Lines.ofText)
  let widths := widthsOf (header :: rows) header.length
  let width := widths.foldl (fun total width => total + width + 3) 1
  let title := if table.title.isEmpty then [] else (titleLines width table.title).map (centred width)
  title ++ [ruleLine topRule widths] ++ rowLines '┃' widths header ++ [ruleLine headRule widths] ++
    rows.flatMap (rowLines '│' widths) ++ [ruleLine bottomRule widths]

end Table

end Stencil

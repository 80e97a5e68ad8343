import Stencil.Console.Table
import Stencil.Session.Basic

/-!
# Tables of a session

Titles and cells of tables may hold tags.  The table of files tells which ones
were made and which ones were preserved.
-/

namespace Stencil.Action

/-- The columns of rows. -/
def renderedRows (count : Nat) (rows : List (List Text)) : Action (List (List Text)) := do
  let columns ← (List.range count).mapM fun column =>
    rows.mapM fun row => rendered (row.getD column [])
  return (List.range rows.length).map fun row => columns.map fun column => column.getD row []

/-- Shows a table; its cells are rendered column by column, and its title last. -/
def printTable (table : Table) : Action Unit := do
  let rows ← renderedRows table.header.length table.rows
  let title ← rendered table.title
  showLines { table with title := title, rows := rows }.lines

/-! ## Files -/

def filesTitle : Text := "Scaffolded files"

def fileRows (status : Text) (paths : List Text) : List (List Text) :=
  paths.map fun path => [status, Markup.escape path]

def printFileTable (title : Text) (created preserved : List Text) : Action Unit := do
  printTable ⟨title, ["Status", "Path"],
    fileRows "created" created ++ fileRows "preserved" preserved⟩
  showLines [[]]

end Stencil.Action

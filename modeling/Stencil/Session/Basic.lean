import Stencil.Console.Lines
import Stencil.FileTree.Walk
import Stencil.Journal
import Stencil.Manifest.Basic

/-!
# Sessions

What operations work on: a tree of files, the current directory, the manifests
that were read before, the journal of the current operation, what the console
shows, and the failures that were planned for single calls and for whole
operations.  An action keeps what it has changed when it fails.
-/

namespace Stencil

/-- The operations on files that can be made to fail. -/
inductive FileOperation where
  | read
  | write
  | ensure
  | copy
  | list
  | stat
  deriving DecidableEq, Repr

/-- A failure of every call of an operation, or of the calls with one path. -/
structure PlannedFault where
  operation : FileOperation
  path : Option Text
  failure : Failure
  deriving Repr

structure Session where
  tree : FileTree
  here : Location
  faults : List PlannedFault
  /-- What the coming calls are interrupted by, one after the other, if they are. -/
  interruptions : List (Option Failure)
  manifests : List (Location × Manifest)
  journal : Journal
  isVerbose : Bool
  shown : List Text
  deriving Repr

namespace Session

def start (tree : FileTree) (here : Location) : Session :=
  ⟨tree, here, [], [], [], .empty, false, []⟩

end Session

abbrev Action := ExceptT Failure (StateM Session)

namespace Action

variable {α : Type}

def lift (result : Except Failure α) : Action α := ExceptT.mk (pure result)

def setTree (tree : FileTree) : Action Unit := modify fun s => { s with tree := tree }

/-- The result of an action, or the failure that ended it. -/
def attempt (action : Action α) : Action (Except Failure α) :=
  ExceptT.mk do
    let result ← action.run
    return .ok result

/-- Runs another action if the failure is of a kind. -/
def orElseIf (isCaught : Failure → Bool) (action : Action α) (handle : Failure → Action α) :
    Action α := do
  match ← attempt action with
  | .ok value => return value
  | .error failure => if isCaught failure then handle failure else throw failure

/-! ## The journal -/

def updateJournal (update : Journal → Journal) : Action Unit :=
  modify fun s => { s with journal := update s.journal }

/-- Runs an action with a journal of its own. -/
def journaled (action : Action α) : Action (α × Journal) := do
  let outer := (← get).journal
  updateJournal fun _ => .empty
  let result ← attempt action
  let inner := (← get).journal
  updateJournal fun _ => outer
  return (← lift result, inner)

/-! ## The console -/

def showLines (lines : List Text) : Action Unit :=
  modify fun s => { s with shown := s.shown ++ lines }

/-- What a text with tags shows. -/
def rendered (markup : Text) : Action Text :=
  lift ((Markup.render markup).mapError .markup)

def printMarkup (markup : Text) : Action Unit := do
  showLines (Lines.ofText (← rendered markup))

def styled (style message : Text) : Text :=
  ("[" : Text) ++ style ++ ("]" : Text) ++ Markup.escape message ++ ("[/" : Text) ++ style ++
    ("]" : Text)

def printSuccess (message : Text) : Action Unit := printMarkup (styled "bold green" message)

def printError (message : Text) : Action Unit := printMarkup (styled "bold red" message)

def printWarning (message : Text) : Action Unit := printMarkup (styled "bold yellow" message)

/-- Details are shown on request only. -/
def printDetail (message : Text) : Action Unit := do
  if (← get).isVerbose then printMarkup (styled "dim" message)

end Action

end Stencil

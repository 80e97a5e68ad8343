import Stencil.Session.Copy

/-!
# Storage

The operations that templates are read and targets are written with.  Each call
asks for interruptions and planned faults first; one that is made to fail does
nothing.
-/

namespace Stencil

namespace PlannedFault

/-- A fault without a path concerns every call of its operation. -/
def concerns (fault : PlannedFault) (operation : FileOperation) (path : Text) : Bool :=
  decide (fault.operation = operation) && fault.path.all fun planned => planned = path

end PlannedFault

namespace Storage

variable {α : Type}

/-- What interrupts the next call, if anything does; each interruption is for one call. -/
def nextInterruption : Action (Option Failure) := do
  match (← get).interruptions with
  | [] => return none
  | next :: rest =>
      modify fun s => { s with interruptions := rest }
      return next

def interruptible (action : Action α) : Action α := do
  match ← nextInterruption with
  | some failure => throw failure
  | none => action

def guarded (operation : FileOperation) (path : Text) (action : Action α) : Action α :=
  interruptible do
    match (← get).faults.find? (·.concerns operation path) with
    | some fault => throw fault.failure
    | none => action

def plain (path : Text) : Text := (FilePath.ofText path).text

def readText (path : Text) : Action Text :=
  guarded .read path (Action.readText (plain path))

def write (path text : Text) : Action Unit :=
  guarded .write path (Action.writeFile (.ofText path) text)

def ensureDirectory (path : Text) : Action Unit :=
  guarded .ensure path (Action.ensureDirectories (.ofText path))

def copy (source target : Text) : Action Unit :=
  guarded .copy source (Action.copy (.ofText source) (.ofText target))

def names (path : Text) : Action (List Text) :=
  guarded .list path (Action.namesIn path)

/-! ## Looking -/

/-- What is at a path, links followed. -/
def item (path : Text) : Action FileItem :=
  guarded .stat path (Action.look path)

def exists? (path : Text) : Action Bool := interruptible (Action.exists? path)

def isDirectory (path : Text) : Action Bool := interruptible (Action.isDirectory path)

end Storage

end Stencil

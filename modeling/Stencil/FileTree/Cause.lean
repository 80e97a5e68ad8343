import Stencil.Text.Quoted

/-!
# Causes

Why an operation on files can fail, with the numbers and the wordings that
systems give them.
-/

namespace Stencil

inductive Cause where
  | missing
  | exists
  | notDirectory
  | isDirectory
  | longName
  | linkLoop
  deriving DecidableEq, Repr

namespace Cause

def number : Cause → Nat
  | .missing => 2
  | .exists => 17
  | .notDirectory => 20
  | .isDirectory => 21
  | .longName => 36
  | .linkLoop => 40

def wording : Cause → Text
  | .missing => "No such file or directory"
  | .exists => "File exists"
  | .notDirectory => "Not a directory"
  | .isDirectory => "Is a directory"
  | .longName => "File name too long"
  | .linkLoop => "Too many levels of symbolic links"

def text (cause : Cause) : Text :=
  ("[Errno " : Text) ++ Text.ofNat cause.number ++ ("] " : Text) ++ cause.wording

def message (cause : Cause) (path : Text) : Text := cause.text ++ (": " : Text) ++ path.quoted

/-- Whether the cause means that there is nothing at a path. -/
def isAbsence : Cause → Bool
  | .missing | .notDirectory | .linkLoop => true
  | _ => false

end Cause

end Stencil

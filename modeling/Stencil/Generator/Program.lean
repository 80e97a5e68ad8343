import Stencil.Value.Basic

/-!
# Programs of generators

A generator is a program that is kept in a file.  Its procedure does one of a
few things: it returns a value, fails, tells what it was given, renders files
of its own, or places some directives.  A program may also have no procedure.
-/

namespace Stencil

inductive Procedure where
  | returns (result : Value)
  | raises (message : Text)
  | echo
  | render (files : List (Text × Text))
  | includes (directives : List Text)
  deriving Repr

inductive Program where
  | runs (procedure : Procedure)
  | failsOnLoad (message : Text)
  | withoutEntry
  | entryIsNoFunction
  deriving Repr

end Stencil

import Stencil.Outcome

/-!
# Journals

What an operation has done so far: the files that it made, those that it found
and left as they were, and what it had to warn of.
-/

namespace Stencil

structure Journal where
  created : List Text
  existing : List Text
  warnings : List Text
  deriving DecidableEq, Repr

namespace Journal

def empty : Journal := ⟨[], [], []⟩

def create (journal : Journal) (path : Text) : Journal :=
  { journal with created := journal.created ++ [path] }

def preserve (journal : Journal) (path : Text) : Journal :=
  { journal with existing := journal.existing ++ [path] }

def warn (journal : Journal) (warnings : List Text) : Journal :=
  { journal with warnings := journal.warnings ++ warnings }

/-- The outcome of an operation that came to its end. -/
def outcome (journal : Journal) (message : Text) : Outcome :=
  ⟨true, message, journal.warnings, journal.created, journal.existing⟩

/-! ## Journals that are put together -/

variable {journal more : Journal} {path : Text} {warnings : List Text}

def add (journal more : Journal) : Journal :=
  ⟨journal.created ++ more.created, journal.existing ++ more.existing,
    journal.warnings ++ more.warnings⟩

/-- Journals one after the other. -/
def total (journals : List Journal) : Journal :=
  ⟨journals.flatMap (·.created), journals.flatMap (·.existing), journals.flatMap (·.warnings)⟩

@[simp] theorem add_empty (journal : Journal) : journal.add .empty = journal := by
  simp [add, empty]

@[simp] theorem empty_add (journal : Journal) : empty.add journal = journal := rfl

theorem add_total_cons (journal first : Journal) (journals : List Journal) :
    (journal.add first).add (total journals) = journal.add (total (first :: journals)) := by
  simp [add, total]

@[simp] theorem create_add : (journal.add more).create path = journal.add (more.create path) := by
  simp [add, create]

@[simp] theorem preserve_add :
    (journal.add more).preserve path = journal.add (more.preserve path) := by
  simp [add, preserve]

@[simp] theorem warn_add : (journal.add more).warn warnings = journal.add (more.warn warnings) := by
  simp [add, warn]

end Journal

end Stencil

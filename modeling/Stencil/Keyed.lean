/-!
# Keyed lists

Lists of keys with values.  Each key counts at its first place; a value that is
put under a known key takes the place of the old one.
-/

namespace Stencil.Keyed

variable {κ α : Type} [DecidableEq κ]

def put (key : κ) (value : α) : List (κ × α) → List (κ × α)
  | [] => [(key, value)]
  | (known, old) :: rest =>
      if known = key then (known, value) :: rest else (known, old) :: put key value rest

/-- The later entries go over the earlier ones. -/
def update (earlier later : List (κ × α)) : List (κ × α) :=
  later.foldl (fun all (key, value) => put key value all) earlier

end Stencil.Keyed

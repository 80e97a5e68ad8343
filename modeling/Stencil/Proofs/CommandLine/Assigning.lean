import Stencil.CommandLine.Assignment
import Stencil.Proofs.Yaml.Untagged

/-!
# What assignments give

The value of an assignment is meant to be a text, a truth value, a number, a date
or a time: the one that YAML reads, or else the text itself.  Two kinds of
documents break this, those that hold bytes or a set and those with a scalar that
spells nothing; without tags there is only the second kind, and what is left of
it are dates that there are not, some integers and escapes of no code point.
-/

namespace Stencil

open CodePoint (scalar)

namespace Yaml

/-! ## What documents hold -/

/-- A pair is only ever part of a sequence. -/
theorem Node.value_ne_tuple (fuel level : Nat) (node : Node) :
    Yields (fun value => ∀ items, value ≠ .tuple items) (fun _ => True)
      (node.value fuel level) := by
  cases fuel with
  | zero => trivial
  | succ fuel =>
      unfold Node.value
      dsimp only
      split
      · exact Yields.map ((Yields.trivial _).mono fun _ _ _ => Value.noConfusion)
      · exact (Yields.trivial _).bind fun _ _ _ => Value.noConfusion
      · exact (Yields.trivial _).bind fun _ _ _ => Value.noConfusion
      · exact (Yields.trivial _).bind fun _ _ _ => Value.noConfusion
      · exact (Yields.trivial _).bind fun _ _ _ => Value.noConfusion
      · trivial
      · trivial
      · trivial
      · trivial
      · trivial
      · split
        · rename_i text _
          generalize Scalar.read _ text = result
          cases result with
          | error fault => trivial
          | ok value => exact fun _ => Value.noConfusion
        · trivial

theorem read_ne_tuple {text : Text} {value : Value} (h : read text = .ok value)
    (items : List Value) : value ≠ .tuple items := by
  rw [read] at h
  split at h
  · cases h
  dsimp only at h
  split at h
  · cases h
  · cases h
    exact Value.noConfusion
  · rename_i node _
    have hvalue := Node.value_ne_tuple (node.height + 1) 0 node
    cases hnode : node.value (node.height + 1) 0 with
    | error located =>
        rw [hnode] at h
        cases h
    | ok found =>
        rw [hnode] at h
        cases h
        exact hvalue.of_ok hnode items

end Yaml

namespace Assignment

/-- Texts, truth values, numbers, dates and times. -/
def IsSimple : Value → Prop
  | .scalar .null => False
  | .scalar (.bytes _) => False
  | .scalar _ => True
  | _ => False

def IsBytesOrSet : Value → Prop
  | .scalar (.bytes _) => True
  | .set _ => True
  | _ => False

/-- What an assignment of a text to a key is meant to be: the key without the blanks
around it and a simple value, the one that YAML reads if there is one and else the text. -/
def IsAsMeant (key text : Text) (parsed : Except AssignmentFault Assignment) : Prop :=
  ∃ value, parsed = .ok ⟨key.strip, value⟩ ∧ IsSimple value ∧
    (∀ found, Yaml.read text = .ok found → IsSimple found → value = found) ∧
    ((∀ found, Yaml.read text = .ok found → ¬ IsSimple found) → value = .text text)

variable {key text : Text} {found : Value}

/-- What is kept of the values that documents hold. -/
theorem isKept_iff (h : Yaml.read text = .ok found) :
    isKept found = true ↔ IsSimple found ∨ IsBytesOrSet found := by
  have htuple := Yaml.read_ne_tuple h
  cases found with
  | scalar value => cases value <;> simp [isKept, IsSimple, IsBytesOrSet]
  | tuple items => exact absurd rfl (htuple items)
  | list items => simp [isKept, IsSimple, IsBytesOrSet]
  | set items => simp [isKept, IsSimple, IsBytesOrSet]
  | map entries => simp [isKept, IsSimple, IsBytesOrSet]

theorem not_isSimple_of_isBytesOrSet (h : IsBytesOrSet found) : ¬ IsSimple found := by
  cases found with
  | scalar value => cases value <;> simp_all [IsSimple, IsBytesOrSet]
  | _ => exact id

/-- Nothing need be read where nothing is assigned: an empty document holds nothing. -/
theorem valueOf_of_ok (h : Yaml.read text = .ok found) :
    valueOf text = .ok (if isKept found then found else .text text) := by
  unfold valueOf
  split
  · rename_i hempty
    obtain rfl := List.isEmpty_iff.1 hempty
    cases h
    rfl
  · rw [h]

theorem valueOf_of_error {fault : Yaml.Fault} (h : Yaml.read text = .error fault) :
    valueOf text = if fault.isOfDocument then .ok (.text text) else .error fault := by
  unfold valueOf
  split
  · rename_i hempty
    obtain rfl := List.isEmpty_iff.1 hempty
    cases h
  · rw [h]

theorem parse_eq (hkey : scalar '=' ∉ key) (hname : key.strip ≠ []) :
    parse (key ++ scalar '=' :: text) =
      ((valueOf text).mapError .value).map fun value => ⟨key.strip, value⟩ := by
  have hcut : Text.cut "=" (key ++ scalar '=' :: text) = some (key, text) :=
    Text.cut_singleton_append hkey text
  rw [parse, hcut]
  dsimp only
  rw [if_neg (by simpa using hname)]

/-! ## When assignments are as meant -/

section

variable (hkey : scalar '=' ∉ key) (hname : key.strip ≠ [])

include hkey hname

theorem parse_of_isBytesOrSet (h : Yaml.read text = .ok found) (hfound : IsBytesOrSet found) :
    parse (key ++ scalar '=' :: text) = .ok ⟨key.strip, found⟩ := by
  rw [parse_eq hkey hname, valueOf_of_ok h, if_pos ((isKept_iff h).2 (.inr hfound))]
  rfl

theorem parse_of_escaping {fault : Yaml.Fault} (h : Yaml.read text = .error fault)
    (hfault : fault.isOfDocument = false) :
    parse (key ++ scalar '=' :: text) = .error (.value fault) := by
  rw [parse_eq hkey hname, valueOf_of_error h, hfault]
  rfl

theorem isAsMeant_of_ok (h : Yaml.read text = .ok found) (hfound : ¬ IsBytesOrSet found) :
    IsAsMeant key text (parse (key ++ scalar '=' :: text)) := by
  rw [parse_eq hkey hname, valueOf_of_ok h]
  by_cases hsimple : IsSimple found
  · rw [if_pos ((isKept_iff h).2 (.inl hsimple))]
    refine ⟨found, rfl, hsimple, fun other hother _ => ?_, fun hnone => ?_⟩
    · rw [h] at hother
      cases hother
      rfl
    · exact absurd hsimple (hnone found h)
  · have hkept : isKept found ≠ true := fun hkept =>
      ((isKept_iff h).1 hkept).elim hsimple hfound
    rw [if_neg hkept]
    refine ⟨.text text, rfl, trivial, fun other hother hsimple' => ?_, fun _ => rfl⟩
    rw [h] at hother
    cases hother
    exact absurd hsimple' hsimple

theorem isAsMeant_of_error {fault : Yaml.Fault} (h : Yaml.read text = .error fault)
    (hfault : fault.isOfDocument = true) :
    IsAsMeant key text (parse (key ++ scalar '=' :: text)) := by
  rw [parse_eq hkey hname, valueOf_of_error h, if_pos hfault]
  refine ⟨.text text, rfl, trivial, fun other hother _ => ?_, fun _ => rfl⟩
  rw [h] at hother
  cases hother

end

/-- Without an exclamation mark there are no bytes and no sets, and what escapes is the
fault of a spelling or of an escape. -/
theorem read_of_no_mark (hmark : scalar '!' ∉ text) :
    (∀ found, Yaml.read text = .ok found → ¬ IsBytesOrSet found) ∧
      ∀ fault, Yaml.read text = .error fault → fault.isOfDocument = false →
        fault.IsOfSpelling ∨ ∃ code, CodePoint.ofNat? code = none ∧ fault = .codePoint code := by
  have hyields := Yaml.read_yields hmark
  refine ⟨fun found hread hfound => ?_, fun fault hread hfault => ?_⟩
  · have huntagged := hyields.of_ok hread
    cases found with
    | scalar value =>
        cases value with
        | bytes value => exact huntagged
        | _ => exact hfound
    | set items => exact huntagged
    | _ => exact hfound
  · rcases hyields.of_error hread with (hform | htoken) | hspelling
    · rw [hform] at hfault
      cases hfault
    · cases htoken with
      | token => cases hfault
      | codePoint large => exact .inr ⟨_, large, rfl⟩
    · exact .inl hspelling

end Assignment

end Stencil

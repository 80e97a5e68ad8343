import Stencil.Directive
import Stencil.Proofs.FilePath
import Stencil.Proofs.Keyed
import Stencil.Proofs.Text.Parts

/-!
# Conditions and their fragments

The conditions of a text are those of its fragments put together: of one variable
the last condition counts, at the place of the first.  Where every variable is
asked for once, the conditions hold if and only if those of each fragment do.
-/

namespace Stencil.Conditions

variable {raw other first second fragment key value : Text} {front back : List Text}
  {vars : Variables}

/-! ## Fragments -/

def ampersand : CodePoint := .scalar '&'

def equalsSign : CodePoint := .scalar '='

/-- The parts of a text that state one condition each, if any. -/
def fragments (raw : Text) : List Text := Text.splitOn ampersand raw

/-- What the fragments of a text state, in order and with repetitions. -/
def stated (raw : Text) : Conditions := (fragments raw).filterMap ofFragment?

/-- A fragment that lacks a key or a value. -/
def IsMalformed (fragment : Text) : Prop :=
  ∀ key value, fragment = key ++ equalsSign :: value → equalsSign ∉ key →
    Text.strip key = [] ∨ Text.strip value = []

theorem parse_eq_update (raw : Text) : parse raw = Keyed.update [] (stated raw) := rfl

theorem ofFragment?_eq_some_iff {condition : Text × Text} :
    ofFragment? fragment = some condition ↔
      ∃ key value, fragment = key ++ equalsSign :: value ∧ equalsSign ∉ key ∧
        Text.strip key ≠ [] ∧ Text.strip value ≠ [] ∧
        condition = (Text.strip key, Text.strip value) := by
  have hsome (key value : Text) (hcut : Text.cut [equalsSign] fragment = some (key, value)) :
      ofFragment? fragment = some condition ↔ Text.strip key ≠ [] ∧ Text.strip value ≠ [] ∧
        condition = (Text.strip key, Text.strip value) := by
    rw [ofFragment?, show ("=" : Text) = [equalsSign] from rfl, hcut]
    simp [eq_comm (a := condition), and_assoc]
  by_cases hequals : equalsSign ∈ fragment
  · obtain ⟨key, value, rfl, hkey⟩ := List.eq_append_cons_of_mem hequals
    rw [hsome key value (Text.cut_singleton_append hkey value)]
    constructor
    · exact fun h => ⟨key, value, rfl, hkey, h⟩
    · rintro ⟨other, rest, heq, hother, h⟩
      have hcut := Text.cut_singleton_append hother rest
      rw [← heq, Text.cut_singleton_append hkey value] at hcut
      cases hcut
      exact h
  · have hcut : Text.cut [equalsSign] fragment = none := by
      rw [Text.cut_eq_none_iff]
      exact fun h => hequals (h.subset List.mem_cons_self)
    rw [ofFragment?, show ("=" : Text) = [equalsSign] from rfl, hcut]
    refine iff_of_false (by simp [Text.strip, Text.trim, Text.trimStart, Text.trimEnd]) ?_
    rintro ⟨key, value, rfl, -⟩
    exact hequals (by simp)

theorem isMalformed_iff : IsMalformed fragment ↔ ofFragment? fragment = none := by
  rw [Option.eq_none_iff_forall_ne_some]
  constructor
  · intro h condition hsome
    obtain ⟨key, value, heq, hkey, hfull, hgiven, -⟩ := ofFragment?_eq_some_iff.1 hsome
    exact (h key value heq hkey).elim hfull hgiven
  · intro h key value heq hkey
    by_contra hfull
    rw [not_or] at hfull
    exact h _ (ofFragment?_eq_some_iff.2 ⟨key, value, heq, hkey, hfull.1, hfull.2, rfl⟩)

/-! ## Putting together -/

theorem fragments_append (first second : Text) :
    fragments (first ++ ampersand :: second) = fragments first ++ fragments second :=
  Text.splitOn_append_separator first second

theorem parse_append (first second : Text) :
    parse (first ++ ampersand :: second) = Keyed.update (parse first) (parse second) := by
  rw [parse_eq_update, stated, fragments_append, List.filterMap_append, Keyed.update_append,
    parse_eq_update second, Keyed.update_update]
  rfl

/-- Fragments that state nothing can be left out. -/
theorem parse_eq_of_isMalformed (hraw : fragments raw = front ++ back)
    (hother : fragments other = front ++ fragment :: back) (h : IsMalformed fragment) :
    parse other = parse raw := by
  rw [parse_eq_update, parse_eq_update, stated, stated, hraw, hother, List.filterMap_append,
    List.filterMap_append, List.filterMap_cons_none (isMalformed_iff.1 h)]

/-! ## Verdicts -/

theorem hold_append (conditions others : Conditions) (vars : Variables) :
    hold (conditions ++ others) vars = (hold conditions vars && hold others vars) :=
  List.all_append

/-- Where no variable is asked for twice, the conditions are what the fragments state. -/
theorem parse_eq_stated (h : ((stated raw).map (·.1)).Nodup) : parse raw = stated raw := by
  rw [parse_eq_update, Keyed.update_eq_append h fun _ _ => List.not_mem_nil]
  rfl

/-- A single fragment states at most one condition. -/
theorem hold_parse_fragment (h : fragment ∈ fragments raw) (vars : Variables) :
    hold (parse fragment) vars = (ofFragment? fragment).all (holdsFor vars) := by
  have hplain : ampersand ∉ fragment := fun hmem => (Text.mem_of_mem_splitOn h hmem).2 rfl
  have hstated : stated fragment = (ofFragment? fragment).toList := by
    rw [stated, fragments, Text.splitOn_of_not_mem hplain]
    cases hcondition : ofFragment? fragment <;> simp [hcondition]
  rw [parse_eq_stated, hstated, hold]
  · cases ofFragment? fragment <;> simp
  · rw [hstated]
    cases ofFragment? fragment <;> simp

theorem hold_parse (h : ((stated raw).map (·.1)).Nodup) (vars : Variables) :
    hold (parse raw) vars = (fragments raw).all fun fragment => hold (parse fragment) vars := by
  have hall : hold (parse raw) vars =
      (fragments raw).all fun fragment => (ofFragment? fragment).all (holdsFor vars) := by
    rw [parse_eq_stated h, hold, stated, List.all_filterMap]
    congr 1
  rw [hall, Bool.eq_iff_iff, List.all_eq_true, List.all_eq_true]
  exact forall₂_congr fun fragment hfragment => by rw [hold_parse_fragment hfragment vars]

/-- Fragments in another order state the same conditions in another order. -/
theorem hold_parse_perm (h : ((stated raw).map (·.1)).Nodup)
    (hperm : (fragments other).Perm (fragments raw)) (vars : Variables) :
    hold (parse other) vars = hold (parse raw) vars := by
  have hstated : (stated other).Perm (stated raw) := hperm.filterMap ofFragment?
  rw [parse_eq_stated h, parse_eq_stated ((hstated.map _).nodup_iff.2 h), hold, hold]
  exact hstated.all_eq

/-- Conditions on other variables come on top. -/
theorem hold_parse_append (vars : Variables)
    (hnew : ∀ condition ∈ parse second, condition.1 ∉ (parse first).map (·.1)) :
    hold (parse (first ++ ampersand :: second)) vars =
      (hold (parse first) vars && hold (parse second) vars) := by
  have hnodup : ((parse second).map (·.1)).Nodup := Keyed.nodup_update List.nodup_nil
  rw [parse_append, Keyed.update_eq_append hnodup hnew, hold_append]

/-! ## The conditions of a text -/

end Stencil.Conditions

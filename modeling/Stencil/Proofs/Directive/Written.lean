import Mathlib.Data.List.Infix
import Stencil.Proofs.Directive.Conditions

/-!
# Written directives

A directive is written as its source, its target and its conditions with marks
between them.  What is written for a plain directive is read as the same
directive, and whatever a text is read as is plain.
-/

namespace Stencil

open Text

/-! ## Conditions -/

namespace Conditions

variable {condition : Text × Text} {conditions : Conditions} {fragment : Text}

/-- A condition that a fragment can state. -/
structure IsPlain (condition : Text × Text) : Prop where
  key_ne : condition.1 ≠ []
  value_ne : condition.2 ≠ []
  strip_key : strip condition.1 = condition.1
  strip_value : strip condition.2 = condition.2
  key_whole : equalsSign ∉ condition.1
  key_single : ampersand ∉ condition.1
  value_single : ampersand ∉ condition.2

def writeFragment (condition : Text × Text) : Text := condition.1 ++ equalsSign :: condition.2

def write (conditions : Conditions) : Text := joinWith [ampersand] (conditions.map writeFragment)

theorem IsPlain.ofFragment?_writeFragment (h : IsPlain condition) :
    ofFragment? (writeFragment condition) = some condition := by
  rw [ofFragment?_eq_some_iff]
  refine ⟨condition.1, condition.2, rfl, h.key_whole, ?_⟩
  rw [h.strip_key, h.strip_value]
  exact ⟨h.key_ne, h.value_ne, rfl⟩

theorem IsPlain.ampersand_not_mem (h : IsPlain condition) :
    ampersand ∉ writeFragment condition := by
  rw [writeFragment, List.mem_append, List.mem_cons, not_or, not_or]
  exact ⟨h.key_single, by decide, h.value_single⟩

theorem stated_write (h : ∀ condition ∈ conditions, IsPlain condition) :
    stated (write conditions) = conditions := by
  by_cases hnil : conditions = []
  · subst hnil
    decide
  have hfragments : fragments (write conditions) = conditions.map writeFragment := by
    refine splitOn_joinWith (by simpa using hnil) fun fragment hfragment => ?_
    obtain ⟨condition, hcondition, rfl⟩ := List.mem_map.1 hfragment
    exact (h condition hcondition).ampersand_not_mem
  rw [stated, hfragments, List.filterMap_map]
  refine (List.filterMap_congr fun condition hcondition => ?_).trans List.filterMap_some
  exact (h condition hcondition).ofFragment?_writeFragment

theorem parse_write (hkeys : (conditions.map (·.1)).Nodup)
    (h : ∀ condition ∈ conditions, IsPlain condition) : parse (write conditions) = conditions := by
  rw [parse_eq_stated, stated_write h]
  rwa [stated_write h]

theorem isPlain_of_ofFragment? (hsingle : ampersand ∉ fragment)
    (h : ofFragment? fragment = some condition) : IsPlain condition := by
  obtain ⟨key, value, rfl, hkey, hkeyNe, hvalueNe, rfl⟩ := ofFragment?_eq_some_iff.1 h
  rw [List.mem_append, List.mem_cons, not_or, not_or] at hsingle
  exact {
    key_ne := hkeyNe
    value_ne := hvalueNe
    strip_key := strip_strip
    strip_value := strip_strip
    key_whole := fun hmem => hkey (strip_isInfix.subset hmem)
    key_single := fun hmem => hsingle.1 (strip_isInfix.subset hmem)
    value_single := fun hmem => hsingle.2.2 (strip_isInfix.subset hmem) }

theorem isPlain_of_mem_parse {raw : Text} (h : condition ∈ parse raw) : IsPlain condition := by
  rcases Keyed.mem_update (parse_eq_update raw ▸ h) with hnone | hstated
  · cases hnone
  · obtain ⟨fragment, hfragment, hcondition⟩ := List.mem_filterMap.1 hstated
    exact isPlain_of_ofFragment? (fun hmem => (mem_of_mem_splitOn hfragment hmem).2 rfl) hcondition

end Conditions

/-! ## Directives -/

namespace Directive

variable {d : Directive} {raw : Text}

def questionMark : CodePoint := .scalar '?'

def arrow : Text := "->"

/-- A directive that a text can be read as. -/
structure IsPlain (d : Directive) : Prop where
  strip_source : strip d.source = d.source
  strip_target : strip d.target = d.target
  source_bare : questionMark ∉ d.source
  target_bare : questionMark ∉ d.target
  source_whole : ¬ arrow <:+: d.source
  keys_nodup : (d.conditions.map (·.1)).Nodup
  conditions_plain : ∀ condition ∈ d.conditions, Conditions.IsPlain condition

def write (d : Directive) : Text :=
  d.source ++ arrow ++ d.target ++ questionMark :: d.conditions.write

/-- An arrow does not begin in front of another one, unless it is there as a whole. -/
theorem cut_arrow {source : Text} (h : ¬ arrow <:+: source) (target : Text) :
    cut arrow (source ++ arrow ++ target) = some (source, target) := by
  refine cut_append (by decide) fun rest hrest hsuffix hlead => h ?_
  refine List.IsInfix.trans ?_ hsuffix.isInfix
  obtain ⟨first, others, rfl⟩ := List.exists_cons_of_ne_nil hrest
  obtain ⟨rfl, htail⟩ := List.cons_prefix_cons.1 hlead
  cases others with
  | nil => exact absurd (List.cons_prefix_cons.1 htail).1 (by decide)
  | cons second others =>
      obtain ⟨rfl, -⟩ := List.cons_prefix_cons.1 htail
      exact ⟨[], others, rfl⟩

theorem IsPlain.parse_write (h : d.IsPlain) : parse d.write = d := by
  have hpaths : cut "?" d.write = some (d.source ++ arrow ++ d.target, d.conditions.write) := by
    refine cut_singleton_append ?_ _
    rw [List.mem_append, List.mem_append, not_or, not_or]
    exact ⟨⟨h.source_bare, by decide⟩, h.target_bare⟩
  have hsource := cut_arrow h.source_whole d.target
  rw [arrow] at hsource hpaths
  simp only [parse, hpaths, Option.getD_some, hsource, h.strip_source, h.strip_target,
    Conditions.parse_write h.keys_nodup h.conditions_plain]

/-- The part of a text that the paths of its directive are read from. -/
theorem exists_paths (raw : Text) : ∃ paths rest, questionMark ∉ paths ∧
    (cut "?" raw).getD (raw, []) = (paths, rest) := by
  cases hcut : cut "?" raw with
  | none =>
      refine ⟨raw, [], fun hmem => ?_, rfl⟩
      exact cut_eq_none_iff.1 hcut ((List.singleton_infix_iff _ _).2 hmem)
  | some parts =>
      refine ⟨parts.1, parts.2, fun hmem => ?_, rfl⟩
      exact not_isInfix_of_cut (by decide) hcut ((List.singleton_infix_iff _ _).2 hmem)

theorem isPlain_parse (raw : Text) : (parse raw).IsPlain := by
  obtain ⟨paths, rest, hpaths, hraw⟩ := exists_paths raw
  have hbare : ∀ {part : Text}, part <:+: paths → questionMark ∉ strip part :=
    fun hpart hmem => hpaths (hpart.subset (strip_isInfix.subset hmem))
  have hkeys : ((Conditions.parse rest).map (·.1)).Nodup := Keyed.nodup_update List.nodup_nil
  unfold parse
  rw [hraw]
  dsimp only
  split
  · rename_i source target hcut
    have hparts := eq_of_cut hcut
    have hsource : source <:+: paths := ⟨[], arrow ++ target, by simp [hparts, arrow]⟩
    have htarget : target <:+: paths := ⟨source ++ arrow, [], by simp [hparts, arrow]⟩
    exact {
      strip_source := strip_strip
      strip_target := strip_strip
      source_bare := hbare hsource
      target_bare := hbare htarget
      source_whole := fun harrow =>
        not_isInfix_of_cut (by decide) hcut (harrow.trans strip_isInfix)
      keys_nodup := hkeys
      conditions_plain := fun _ => Conditions.isPlain_of_mem_parse }
  · rename_i hcut
    exact {
      strip_source := strip_strip
      strip_target := strip_strip
      source_bare := hbare List.infix_rfl
      target_bare := hbare List.infix_rfl
      source_whole := fun harrow => cut_eq_none_iff.1 hcut (harrow.trans strip_isInfix)
      keys_nodup := hkeys
      conditions_plain := fun _ => Conditions.isPlain_of_mem_parse }

/-- What is written for a plain directive is read as its source, the target that it renders to and
its conditions, whatever the variables are.  What any text is read as can be written and is read
back. -/
theorem written_directives_return :
    (∀ source target conditions, IsPlain ⟨source, target, conditions⟩ →
      let d := parse (source ++ arrow ++ target ++ questionMark :: Conditions.write conditions)
      d.source = source ∧ d.conditions = conditions ∧
        ∀ vars, d.place vars = Template.renderOrKeep target vars) ∧
    ∀ raw, (parse raw).IsPlain ∧ parse (parse raw).write = parse raw := by
  refine ⟨fun source target conditions h => ?_, fun raw => ?_⟩
  · have hparse : parse (source ++ arrow ++ target ++ questionMark :: Conditions.write conditions) =
        ⟨source, target, conditions⟩ := h.parse_write
    rw [hparse]
    exact ⟨rfl, rfl, fun _ => rfl⟩
  · exact ⟨isPlain_parse raw, (isPlain_parse raw).parse_write⟩

/-- Marks that stand next to each other, and marks in a target and in a value. -/
theorem written_directives_return_marked :
    let conditions : Conditions := [("k", "v=w?"), ("flag", "true")]
    let d := parse "a-->>b->c?k=v=w?&flag=true"
    IsPlain ⟨"a-", ">b->c", conditions⟩ ∧ d.source = "a-" ∧ d.conditions = conditions ∧
      ∀ vars, d.place vars = Template.renderOrKeep ">b->c" vars := by
  intro conditions d
  have hplain : IsPlain ⟨"a-", ">b->c", conditions⟩ := {
    strip_source := by decide
    strip_target := by decide
    source_bare := by decide
    target_bare := by decide
    source_whole := by decide
    keys_nodup := by decide
    conditions_plain := List.forall_mem_cons.2
      ⟨⟨by decide, by decide, by decide, by decide, by decide, by decide, by decide⟩,
        List.forall_mem_cons.2
          ⟨⟨by decide, by decide, by decide, by decide, by decide, by decide, by decide⟩,
            fun _ hnone => absurd hnone List.not_mem_nil⟩⟩ }
  exact ⟨hplain, written_directives_return.1 _ _ _ hplain⟩

end Directive

end Stencil

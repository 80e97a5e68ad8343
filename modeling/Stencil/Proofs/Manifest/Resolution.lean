import Mathlib.Logic.Function.Basic
import Mathlib.Data.List.Forall2
import Stencil.Manifest.VariableSchema
import Stencil.Proofs.FilePath
import Stencil.Proofs.Keyed

/-!
# Which variables fit a schema

Variables fit a schema if every required name is there, every declared one that
is there is accepted, and no other name is there unless others are allowed.
Variables that fit are completed; otherwise the issues tell every name that
does not fit, in the order of the schema and then in that of the variables.
What a name is spelled like makes no difference, but for the line of an issue,
where the empty name looks like the place of the whole.
-/

namespace Stencil

namespace Acceptance

/-- What a property is held against: one of some scalars, values of a type, or nothing. -/
inductive Describes (property : Value) : Acceptance → Prop
  | choice {options : List Value} (listed : memberOf property "enum" = .list options)
      (nonempty : options ≠ []) (scalars : ∀ option ∈ options, isScalar option) :
      Describes property (.choice (distinct options))
  | kind {word : Text} {type : JsonType} (plain : (memberOf property "enum").isTrue = false)
      (named : memberOf property "type" = .text word)
      (known : JsonType.named.lookup word = some type) : Describes property (.kind type)
  | anything (plain : (memberOf property "enum").isTrue = false)
      (untyped : ∀ word, memberOf property "type" = .text word →
        JsonType.named.lookup word = none) : Describes property .anything

theorem mem_of_mem_distinct {options : List Value} :
    ∀ option ∈ distinct options, option ∈ options := by
  rw [distinct]
  split
  · refine List.foldlRecOn (motive := fun found => ∀ option ∈ found, option ∈ options)
      options _ (by simp) fun found hfound option hoption => ?_
    split
    · exact hfound
    · exact fun other hother => (List.mem_append.1 hother).elim (hfound other) fun h =>
        List.mem_singleton.1 h ▸ hoption
  · exact fun option h => h

variable {property : Value} {acceptance other : Acceptance}

theorem Describes.ofProperty (h : acceptance.Describes property) :
    Acceptance.ofProperty property = .ok acceptance := by
  cases h with
  | @choice options listed nonempty scalars =>
      have htrue : (Value.list options).isTrue = true := by
        cases options with
        | nil => exact absurd rfl nonempty
        | cons => rfl
      simp only [Acceptance.ofProperty, listed, htrue, if_true]
      rfl
  | kind plain named known => simp [Acceptance.ofProperty, plain, named, known]
  | anything plain untyped =>
      simp only [Acceptance.ofProperty, plain, Bool.false_eq_true, if_false]
      split
      · rename_i word hword
        simp [untyped word hword]
      · rfl

theorem Describes.hashableFault? (h : acceptance.Describes property) :
    acceptance.hashableFault? = none := by
  cases h with
  | choice listed nonempty scalars =>
      simpa [Acceptance.hashableFault?] using
        fun option hoption => scalars option (mem_of_mem_distinct option hoption)
  | kind => rfl
  | anything => rfl

theorem Describes.named {word : Text} {type : JsonType}
    (h : JsonType.named.lookup word = some type) :
    (Acceptance.kind type).Describes (.map [(.text "type", .text word)]) :=
  .kind rfl rfl h

theorem Describes.listed {options : List Value} {rest : List (Scalar × Value)}
    (nonempty : options ≠ []) (scalars : ∀ option ∈ options, isScalar option) :
    (Acceptance.choice (distinct options)).Describes
      (.map ((.text "enum", .list options) :: rest)) :=
  .choice rfl nonempty scalars

theorem Describes.unique (h : acceptance.Describes property) (hother : other.Describes property) :
    acceptance = other :=
  Except.ok.inj (h.ofProperty.symm.trans hother.ofProperty)

end Acceptance

namespace VariableSchema

variable {schema : VariableSchema} {vars : Variables} {name : Text} {property value : Value}
  {acceptance : Acceptance} {issue : Issue}

/-! ## Fitting -/

/-- Null is accepted too where the name can be left out. -/
def Accepts (schema : VariableSchema) (name : Text) (property value : Value) : Prop :=
  value.isNull ∧ name ∉ schema.required ∨
    ∃ acceptance : Acceptance, acceptance.Describes property ∧ acceptance.fault? value = none

/-- A declared property that is there is accepted; one that is not is not required. -/
def Admits (schema : VariableSchema) (vars : Variables) (declared : Text × Value) : Prop :=
  match vars.lookup declared.1 with
  | none => declared.1 ∉ schema.required
  | some value => schema.Accepts declared.1 declared.2 value

def declaredNames (schema : VariableSchema) : List Text := schema.properties.map (·.1)

structure Fits (schema : VariableSchema) (vars : Variables) : Prop where
  present : ∀ name ∈ schema.required, (vars.lookup name).isSome
  accepted : ∀ name property, (name, property) ∈ schema.properties →
    ∀ value, vars.lookup name = some value → schema.Accepts name property value
  known : ∀ name ∈ vars.map (·.1),
    schema.allowsOthers ∨ name ∈ schema.declaredNames ∨ name ∈ schema.required

/-- The required names that are neither declared nor there. -/
def undeclaredMissing (schema : VariableSchema) (vars : Variables) : List Text :=
  schema.required.filter fun name => name ∉ schema.declaredNames ∧ vars.lookup name = none

/-- The names that are there although they are not allowed. -/
def forbidden (schema : VariableSchema) (vars : Variables) : List Text :=
  (vars.map (·.1)).filter fun name =>
    ¬ schema.allowsOthers ∧ name ∉ schema.declaredNames ∧ name ∉ schema.required

open Classical in
/-- Every name that does not fit. -/
noncomputable def faulty (schema : VariableSchema) (vars : Variables) : List Text :=
  (schema.properties.filter fun declared => ¬ schema.Admits vars declared).map (·.1) ++
    schema.undeclaredMissing vars ++ schema.forbidden vars

theorem fits_iff_faulty_eq_nil : schema.Fits vars ↔ schema.faulty vars = [] := by
  simp only [faulty, undeclaredMissing, forbidden, List.append_eq_nil_iff, List.map_eq_nil_iff,
    List.filter_eq_nil_iff, decide_eq_true_eq, not_not]
  constructor
  · intro h
    refine ⟨⟨fun declared hdeclared => ?_, fun name hname hnone => ?_⟩, fun name hname hno => ?_⟩
    · rw [Admits]
      split
      · rename_i hnone
        intro hrequired
        simpa [hnone] using h.present _ hrequired
      · exact h.accepted _ _ hdeclared _ ‹_›
    · simpa [hnone.2] using h.present name hname
    · rcases h.known name hname with hothers | hdeclared | hrequired
      · exact hno.1 hothers
      · exact hno.2.1 hdeclared
      · exact hno.2.2 hrequired
  · rintro ⟨⟨hadmits, hmissing⟩, hforbidden⟩
    refine ⟨fun name hname => ?_, fun name property hproperty value hvalue => ?_,
      fun name hname => ?_⟩
    · -- a missing name is told with the properties, or else with the undeclared names
      by_contra hnone
      rw [Option.not_isSome_iff_eq_none] at hnone
      by_cases hdeclared : name ∈ schema.declaredNames
      · obtain ⟨declared, hmem, rfl⟩ := List.mem_map.1 hdeclared
        have := hadmits declared hmem
        rw [Admits, hnone] at this
        exact this hname
      · exact hmissing name hname ⟨hdeclared, hnone⟩
    · have := hadmits _ hproperty
      rwa [Admits, hvalue] at this
    · by_contra hno
      simp only [not_or] at hno
      exact hforbidden name hname hno

/-! ## Issues -/

/-- What an issue of the variables tells. -/
inductive Tells (schema : VariableSchema) (vars : Variables) : Issue → Prop
  | missing {name : Text} (required : name ∈ schema.required)
      (absent : vars.lookup name = none) : Tells schema vars ⟨[name], .missing, .ofFields vars⟩
  | refused {name : Text} {property value : Value} {acceptance : Acceptance} {fault : Mismatch}
      (declared : (name, property) ∈ schema.properties)
      (given : vars.lookup name = some value) (refuses : ¬ schema.Accepts name property value)
      (describes : acceptance.Describes property) (tells : acceptance.fault? value = some fault) :
      Tells schema vars ⟨[name], fault, value⟩
  | unexpected {name : Text} {value : Value} (given : (name, value) ∈ vars)
      (others : ¬ schema.allowsOthers) (undeclared : name ∉ schema.declaredNames)
      (unneeded : name ∉ schema.required) : Tells schema vars ⟨[name], .unexpected, value⟩

/-- The line of an issue names its place, which the empty name leaves empty. -/
theorem Tells.line (h : schema.Tells vars issue) :
    ∃ name, issue.path = [name] ∧
      issue.line = (if name = [] then ("root" : Text) else name) ++ (": " : Text) ++
        issue.fault.message := by
  have hline : ∀ (name : Text) (fault : Mismatch) (value : Value),
      Issue.line ⟨[name], fault, value⟩ =
        (if name = [] then ("root" : Text) else name) ++ (": " : Text) ++ fault.message := by
    intro name fault value
    simp [Issue.line, Issue.place]
  cases h with
  | missing => exact ⟨_, rfl, hline _ _ _⟩
  | refused => exact ⟨_, rfl, hline _ _ _⟩
  | unexpected => exact ⟨_, rfl, hline _ _ _⟩

/-- One issue for each of some names. -/
structure Reports (schema : VariableSchema) (vars : Variables) (issues : List Issue)
    (names : List Text) : Prop where
  paths : issues.map (·.path) = names.map ([·])
  told : ∀ issue ∈ issues, schema.Tells vars issue

theorem Reports.nil : schema.Reports vars [] [] := ⟨rfl, by simp⟩

theorem Reports.singleton {fault : Mismatch} (h : schema.Tells vars ⟨[name], fault, value⟩) :
    schema.Reports vars [⟨[name], fault, value⟩] [name] := ⟨rfl, by simpa using h⟩

theorem Reports.append {first second : List Issue} {names others : List Text}
    (h : schema.Reports vars first names) (hsecond : schema.Reports vars second others) :
    schema.Reports vars (first ++ second) (names ++ others) where
  paths := by rw [List.map_append, List.map_append, h.paths, hsecond.paths]
  told := fun issue hissue => (List.mem_append.1 hissue).elim (h.told issue) (hsecond.told issue)

theorem isDeclared_iff : schema.isDeclared name ↔ name ∈ schema.declaredNames := by
  simp [isDeclared, declaredNames]

theorem accepts_iff (h : acceptance.Describes property) :
    schema.Accepts name property value ↔
      value.isNull ∧ name ∉ schema.required ∨ acceptance.fault? value = none := by
  refine or_congr_right ⟨?_, fun hnone => ⟨acceptance, h, hnone⟩⟩
  rintro ⟨other, hother, hnone⟩
  rwa [h.unique hother]

open Classical in
theorem reports_property (vars : Variables) (hdeclared : (name, property) ∈ schema.properties)
    (h : acceptance.Describes property) :
    schema.Reports vars (Property.issues ⟨name, schema.required.contains name, acceptance⟩ vars)
      (if schema.Admits vars (name, property) then [] else [name]) := by
  rw [Property.issues, Admits]
  cases hlookup : vars.lookup name with
  | none =>
      by_cases hrequired : name ∈ schema.required
      · simpa [hrequired] using Reports.singleton (.missing hrequired hlookup)
      · simpa [hrequired] using Reports.nil
  | some value =>
      by_cases hnull : value.isNull ∧ name ∉ schema.required
      · have haccepts : schema.Accepts name property value := .inl hnull
        simpa [haccepts, hnull.1, hnull.2] using Reports.nil
      · have hnull' : (value.isNull && !schema.required.contains name) = false := by
          simpa [← Bool.not_eq_true] using hnull
        cases hfault : acceptance.fault? value with
        | none =>
            have haccepts : schema.Accepts name property value := .inr ⟨acceptance, h, hfault⟩
            simpa [haccepts, hnull', hfault] using Reports.nil
        | some fault =>
            have hrefuses : ¬ schema.Accepts name property value := by
              simp [accepts_iff h, hfault, hnull]
            simpa only [hrefuses, hnull', hfault, if_false, Bool.false_eq_true] using
              Reports.singleton (.refused hdeclared hlookup hrefuses h hfault)

theorem declare_of_describes (h : acceptance.Describes property) :
    schema.declare name property = .ok ⟨name, schema.required.contains name, acceptance⟩ := by
  simp only [declare, h.ofProperty, bind, Except.bind, h.hashableFault?, ite_self]
  rfl

/-- A schema all of whose properties are held against something. -/
def IsTyped (schema : VariableSchema) : Prop :=
  ∀ declared ∈ schema.properties, ∃ acceptance : Acceptance, acceptance.Describes declared.2

open Classical in
theorem reports_declared (htyped : schema.IsTyped) (vars : Variables)
    (declared : List (Text × Value))
    (hsubset : ∀ property ∈ declared, property ∈ schema.properties) :
    ∃ found, declared.mapM (fun (name, property) => schema.declare name property) = .ok found ∧
      schema.Reports vars (found.flatMap (·.issues vars))
        ((declared.filter fun property => ¬ schema.Admits vars property).map (·.1)) := by
  induction declared with
  | nil => exact ⟨[], rfl, .nil⟩
  | cons first rest ih =>
      obtain ⟨name, property⟩ := first
      obtain ⟨hfirst, hrest⟩ := List.forall_mem_cons.1 hsubset
      obtain ⟨acceptance, hacceptance : acceptance.Describes property⟩ := htyped _ hfirst
      obtain ⟨found, hfound, hreports⟩ := ih hrest
      refine ⟨⟨name, schema.required.contains name, acceptance⟩ :: found, ?_, ?_⟩
      · simp only [List.mapM_cons, declare_of_describes hacceptance, hfound]
        rfl
      · have hboth := (reports_property vars hfirst hacceptance).append hreports
        rw [List.flatMap_cons]
        by_cases hadmits : schema.Admits vars (name, property)
        · simpa [hadmits] using hboth
        · simpa [hadmits] using hboth

/-- A required name without a declaration takes any value. -/
theorem issues_anything :
    Property.issues ⟨name, true, .anything⟩ vars =
      if vars.lookup name = none then [⟨[name], .missing, .ofFields vars⟩] else [] := by
  cases hlookup : vars.lookup name <;> simp [Property.issues, hlookup, Acceptance.fault?]

theorem reports_undeclared (schema : VariableSchema) (vars : Variables) (names : List Text)
    (hsubset : ∀ name ∈ names, name ∈ schema.required) :
    schema.Reports vars
      (((names.filter fun name => !schema.isDeclared name).map fun name =>
        (⟨name, true, .anything⟩ : Property)).flatMap (·.issues vars))
      (names.filter fun name => name ∉ schema.declaredNames ∧ vars.lookup name = none) := by
  induction names with
  | nil => exact .nil
  | cons name names ih =>
      obtain ⟨hrequired, hnames⟩ := List.forall_mem_cons.1 hsubset
      have hrest := ih hnames
      by_cases hdeclared : name ∈ schema.declaredNames
      · rw [List.filter_cons_of_neg (by simpa [isDeclared_iff] using hdeclared),
          List.filter_cons_of_neg (by simp [hdeclared])]
        exact hrest
      rw [List.filter_cons_of_pos (by simpa [← isDeclared_iff] using hdeclared), List.map_cons,
        List.flatMap_cons, issues_anything]
      by_cases hlookup : vars.lookup name = none
      · rw [List.filter_cons_of_pos (by simp [hdeclared, hlookup]), if_pos hlookup]
        exact (Reports.singleton (.missing hrequired hlookup)).append hrest
      · rw [List.filter_cons_of_neg (by simp [hlookup]), if_neg hlookup]
        exact hrest

theorem reports_unexpected :
    schema.Reports vars (schema.unexpected vars) (schema.forbidden vars) := by
  rw [unexpected, forbidden]
  cases hothers : schema.allowsOthers with
  | true => simpa using Reports.nil
  | false =>
      constructor
      · simp [List.filter_map, Function.comp_def, ← isDeclared_iff]
      · simp only [Bool.false_eq_true, if_false, List.forall_mem_map, List.mem_filter]
        rintro ⟨name, value⟩ ⟨hgiven, hunknown⟩
        simp only [Bool.and_eq_true, Bool.not_eq_true', ← Bool.not_eq_true, isDeclared_iff,
          List.contains_iff_mem] at hunknown
        exact .unexpected hgiven (by simp [hothers]) hunknown.1 hunknown.2

theorem exists_issues (htyped : schema.IsTyped) (vars : Variables) :
    ∃ issues, schema.issues vars = .ok issues ∧
      schema.Reports vars issues (schema.faulty vars) := by
  obtain ⟨found, hfound, hdeclared⟩ :=
    reports_declared htyped vars schema.properties fun _ h => h
  have hundeclared := schema.reports_undeclared vars schema.required fun _ h => h
  refine ⟨found.flatMap (·.issues vars) ++ schema.undeclared.flatMap (·.issues vars) ++
    schema.unexpected vars, ?_, (hdeclared.append hundeclared).append reports_unexpected⟩
  rw [issues, expected, hfound]
  simp only [← List.flatMap_append]
  rfl

/-! ## Resolving -/

/-- The defaults of the properties that were left out, in the order of the properties. -/
inductive Completes (vars : Variables) : List (Text × Value) → Variables → Prop
  | nil : Completes vars [] []
  | given {name : Text} {property : Value} {rest : List (Text × Value)} {added : Variables}
      (there : (vars.lookup name).isSome) (others : Completes vars rest added) :
      Completes vars ((name, property) :: rest) added
  | bare {name : Text} {property : Value} {rest : List (Text × Value)} {added : Variables}
      (absent : vars.lookup name = none) (none : property.get? "default" = none)
      (others : Completes vars rest added) : Completes vars ((name, property) :: rest) added
  | default {name : Text} {property value : Value} {rest : List (Text × Value)}
      {added : Variables} (absent : vars.lookup name = none)
      (some : property.get? "default" = some value) (others : Completes vars rest added) :
      Completes vars ((name, property) :: rest) ((name, value) :: added)

theorem completes_defaults : Completes vars schema.properties (schema.defaults vars) := by
  rw [defaults]
  induction schema.properties with
  | nil => exact .nil
  | cons first rest ih =>
      obtain ⟨name, property⟩ := first
      cases hlookup : vars.lookup name with
      | some value => simpa [hlookup] using Completes.given (by simp [hlookup]) ih
      | none =>
          cases hdefault : property.get? "default" with
          | none => simpa [hlookup, hdefault] using Completes.bare hlookup hdefault ih
          | some value => simpa [hlookup, hdefault] using Completes.default hlookup hdefault ih

theorem resolve_of_fits (htyped : schema.IsTyped) (h : schema.Fits vars) :
    schema.resolve vars = .ok (.ok (vars ++ schema.defaults vars)) := by
  obtain ⟨issues, hissues, hreports⟩ := exists_issues htyped vars
  have hnil : issues = [] := by
    simpa [fits_iff_faulty_eq_nil.1 h] using hreports.paths
  rw [resolve, hissues, hnil]
  rfl

theorem resolve_of_not_fits (htyped : schema.IsTyped) (h : ¬ schema.Fits vars) :
    ∃ issues, schema.resolve vars = .ok (.error issues) ∧
      schema.Reports vars issues (schema.faulty vars) := by
  obtain ⟨issues, hissues, hreports⟩ := exists_issues htyped vars
  refine ⟨issues, ?_, hreports⟩
  cases issues with
  | nil => exact absurd (fits_iff_faulty_eq_nil.2 (by simpa using hreports.paths.symm)) h
  | cons first rest =>
      rw [resolve, hissues]
      rfl

end VariableSchema

/-! ## Other names -/

/-- The same values under other names. -/
def Variables.renamed (rename : Text → Text) (vars : Variables) : Variables :=
  vars.map fun (name, value) => (rename name, value)

def Property.renamed (rename : Text → Text) (property : Property) : Property :=
  { property with name := rename property.name }

namespace VariableSchema

def renamed (rename : Text → Text) (schema : VariableSchema) : VariableSchema :=
  ⟨Variables.renamed rename schema.properties, schema.required.map rename, schema.allowsOthers⟩

/-- The place and the fault of every issue, without the values that issues show. -/
def findings (issues : List Issue) : List (List Text × Mismatch) :=
  issues.map fun issue => (issue.path, issue.fault)

abbrev Verdict := Except SchemaFault (Except (List (List Text × Mismatch)) Variables)

/-- The completed variables or the findings. -/
def verdict (schema : VariableSchema) (vars : Variables) : Verdict :=
  (schema.resolve vars).map fun resolution => resolution.mapError findings

def findingsRenamed (rename : Text → Text) (found : List (List Text × Mismatch)) :
    List (List Text × Mismatch) :=
  found.map fun (path, fault) => (path.map rename, fault)

def Verdict.renamed (rename : Text → Text) (verdict : Verdict) : Verdict :=
  verdict.map fun
    | .ok vars => .ok (Variables.renamed rename vars)
    | .error found => .error (findingsRenamed rename found)

section Renaming

variable {rename : Text → Text} (hrename : rename.Injective) (schema : VariableSchema)
  (vars : Variables) (name : Text)

include hrename

theorem lookup_renamed :
    (Variables.renamed rename vars).lookup (rename name) = vars.lookup name := by
  induction vars with
  | nil => rfl
  | cons first rest ih =>
      obtain ⟨other, value⟩ := first
      simp only [Variables.renamed, List.map_cons, Keyed.lookup_cons, hrename.eq_iff] at ih ⊢
      rw [ih]

theorem contains_renamed (names : List Text) :
    (names.map rename).contains (rename name) = names.contains name := by
  rw [Bool.eq_iff_iff]
  simp [hrename.eq_iff]

theorem isDeclared_renamed :
    (schema.renamed rename).isDeclared (rename name) = schema.isDeclared name := by
  simp [isDeclared, renamed, Variables.renamed, hrename.eq_iff, Function.comp_def]

theorem declare_renamed (property : Value) :
    (schema.renamed rename).declare (rename name) property =
      (schema.declare name property).map (Property.renamed rename) := by
  simp only [declare, renamed, contains_renamed hrename]
  cases Acceptance.ofProperty property with
  | error fault => rfl
  | ok acceptance =>
      simp only [bind, Except.bind]
      generalize (if schema.required.contains name then none else acceptance.hashableFault?) = fault
      cases fault <;> rfl

theorem mapM_declare_renamed (declared : List (Text × Value)) :
    (Variables.renamed rename declared).mapM
        (fun (name, property) => (schema.renamed rename).declare name property) =
      (declared.mapM fun (name, property) => schema.declare name property).map
        (List.map (Property.renamed rename)) := by
  induction declared with
  | nil => rfl
  | cons first rest ih =>
      obtain ⟨name, property⟩ := first
      rw [Variables.renamed] at ih
      simp only [Variables.renamed, List.map_cons, List.mapM_cons, ih, declare_renamed hrename]
      cases schema.declare name property with
      | error fault => rfl
      | ok found => cases rest.mapM fun (name, property) => schema.declare name property <;> rfl

theorem undeclared_renamed :
    (schema.renamed rename).undeclared = schema.undeclared.map (Property.renamed rename) := by
  have hpredicate : ((fun name => !(schema.renamed rename).isDeclared name) ∘ rename) =
      fun name => !schema.isDeclared name := by
    funext name
    simp [isDeclared_renamed hrename]
  simp only [undeclared, List.map_map]
  rw [show (schema.renamed rename).required = schema.required.map rename from rfl,
    List.filter_map, hpredicate, List.map_map]
  rfl

theorem expected_renamed :
    (schema.renamed rename).expected =
      schema.expected.map (List.map (Property.renamed rename)) := by
  simp only [expected, undeclared_renamed hrename]
  rw [show (schema.renamed rename).properties = Variables.renamed rename schema.properties from rfl,
    mapM_declare_renamed hrename]
  cases schema.properties.mapM fun (name, property) => schema.declare name property with
  | error fault => rfl
  | ok found => exact congrArg Except.ok List.map_append.symm

theorem findings_property (property : Property) :
    findings ((property.renamed rename).issues (Variables.renamed rename vars)) =
      findingsRenamed rename (findings (property.issues vars)) := by
  simp only [Property.issues, Property.renamed, lookup_renamed hrename]
  cases vars.lookup property.name with
  | none => by_cases hrequired : property.isRequired <;> simp [hrequired, findings, findingsRenamed]
  | some value =>
      by_cases hnull : value.isNull && !property.isRequired
      · simp [hnull, findings, findingsRenamed]
      · cases hfault : property.acceptance.fault? value <;>
          simp [hnull, hfault, findings, findingsRenamed]

theorem findings_properties (properties : List Property) :
    findings ((properties.map (Property.renamed rename)).flatMap
        (·.issues (Variables.renamed rename vars))) =
      findingsRenamed rename (findings (properties.flatMap (·.issues vars))) := by
  induction properties with
  | nil => rfl
  | cons property properties ih =>
      have hfirst := findings_property hrename vars property
      simp only [findings, findingsRenamed, List.map_cons, List.flatMap_cons,
        List.map_append] at hfirst ih ⊢
      rw [hfirst, ih]

theorem findings_unexpected :
    findings ((schema.renamed rename).unexpected (Variables.renamed rename vars)) =
      findingsRenamed rename (findings (schema.unexpected vars)) := by
  cases hothers : schema.allowsOthers with
  | true => simp [unexpected, renamed, hothers, findings, findingsRenamed]
  | false =>
      simp only [unexpected, hothers, findings, findingsRenamed, Variables.renamed, List.map_map,
        show (schema.renamed rename).allowsOthers = schema.allowsOthers from rfl,
        show (schema.renamed rename).required = schema.required.map rename from rfl]
      rw [if_neg (by simp), if_neg (by simp), List.filter_map]
      simp only [List.map_map]
      refine congrArg (List.map _) (List.filter_congr fun entry _ => ?_)
      simp only [Function.comp_apply, isDeclared_renamed hrename, contains_renamed hrename]

/-- Issues show all the variables, so it is their places and faults that are compared. -/
theorem issues_renamed :
    ((schema.renamed rename).issues (Variables.renamed rename vars)).map findings =
      (schema.issues vars).map fun issues => findingsRenamed rename (findings issues) := by
  rw [issues, issues, expected_renamed hrename]
  cases schema.expected with
  | error fault => rfl
  | ok properties =>
      refine congrArg Except.ok ?_
      have hproperties := findings_properties hrename vars properties
      have hunexpected := findings_unexpected hrename schema vars
      simp only [findings, findingsRenamed, List.map_append] at hproperties hunexpected ⊢
      rw [hproperties, hunexpected]

theorem defaults_renamed :
    (schema.renamed rename).defaults (Variables.renamed rename vars) =
      Variables.renamed rename (schema.defaults vars) := by
  simp only [defaults, Variables.renamed,
    show (schema.renamed rename).properties = Variables.renamed rename schema.properties from rfl,
    List.filterMap_map, List.map_filterMap]
  refine List.filterMap_congr fun declared _ => ?_
  have hlookup := lookup_renamed hrename vars declared.1
  rw [Variables.renamed] at hlookup
  simp only [Function.comp_apply, hlookup]
  cases vars.lookup declared.1 with
  | some value => rfl
  | none => cases declared.2.get? "default" <;> rfl

omit hrename in
theorem verdict_eq :
    schema.verdict vars = ((schema.issues vars).map findings).map fun
      | [] => .ok (vars ++ schema.defaults vars)
      | found => .error found := by
  rw [verdict, resolve]
  cases schema.issues vars with
  | error fault => rfl
  | ok issues => cases issues <;> rfl

/-- Only which names are equal matters. -/
theorem verdict_renamed :
    (schema.renamed rename).verdict (Variables.renamed rename vars) =
      (schema.verdict vars).renamed rename := by
  rw [verdict_eq, verdict_eq, issues_renamed hrename, defaults_renamed hrename]
  cases schema.issues vars with
  | error fault => rfl
  | ok issues =>
      cases issues with
      | nil => exact congrArg (Except.ok ∘ Except.ok) List.map_append.symm
      | cons first rest => rfl

end Renaming

/-! ## What is told of variables -/

/-- A text, a choice with a default, and a required name without a declaration. -/
def sample : VariableSchema :=
  ⟨[("a b", .map [(.text "type", .text "string")]),
    ("var_0", .map [(.text "enum", .list [.int 1, .text "x"]), (.text "default", .text "x")])],
    ["var_1"], false⟩

theorem sample_describes_text : (Acceptance.kind .text).Describes (sample.properties[0]).2 :=
  .named (by decide)

theorem sample_isTyped : sample.IsTyped :=
  List.forall_mem_cons.2 ⟨⟨_, sample_describes_text⟩, List.forall_mem_singleton.2
    ⟨_, .listed (by simp) (by simp [Acceptance.isScalar])⟩⟩

def given : Variables := [("var_1", .null), ("a b", .text "y")]

theorem sample_fits_given : sample.Fits given where
  present := by decide
  accepted := by
    intro name property hproperty value hvalue
    rcases List.mem_cons.1 hproperty with heq | hrest
    · cases heq
      cases hvalue
      exact .inr ⟨_, sample_describes_text, rfl⟩
    · cases List.mem_singleton.1 hrest
      cases hvalue
  known := by decide

/-- A property without a name, next to one that is called `root`. -/
def nameless : VariableSchema :=
  ⟨[([], .map [(.text "type", .text "string")]), ("root", .map [(.text "type", .text "string")])],
    [], false⟩

end VariableSchema

end Stencil

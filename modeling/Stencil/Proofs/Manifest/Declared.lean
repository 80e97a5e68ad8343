import Stencil.Directive
import Stencil.Proofs.Manifest.Resolution
import Stencil.Proofs.Schema.Truth

/-!
# What resolved variables hold

The values that were given are checked but not converted, and defaults are not
even checked.  So a declared variable need not be of its type: it may be read
as one, or stand for whatever its default is.
-/

namespace Stencil

namespace JsonType

/-- The values of a type; an integer is a number too. -/
inductive Holds : JsonType → Value → Prop
  | text (given : Text) : Holds .text (.text given)
  | number (x : Binary64) : Holds .number (.float x)
  | wholeNumber (n : Int) : Holds .number (.int n)
  | integer (n : Int) : Holds .integer (.int n)
  | boolean (b : Bool) : Holds .boolean (.bool b)
  | array (items : List Value) : Holds .array (.list items)
  | object (entries : List (Scalar × Value)) : Holds .object (.map entries)

/-- The values of other kinds that are read as values of a type. -/
inductive Reads : JsonType → Value → Prop
  | encoded {bytes : Bytes} {text : Text} (decodes : Text.decode bytes = .ok text) :
      Reads .text (.scalar (.bytes bytes))
  | numeral {value : Value} {text : Text} (spells : Numeral.spelling? value = some (.ok text))
      (reads : Numeral.floatTextFault? text = none) : Reads .number value
  | truthNumber (b : Bool) : Reads .number (.bool b)
  | intNumeral {value : Value} {text : Text} (spells : Numeral.spelling? value = some (.ok text))
      (reads : Numeral.intTextFault? text = none) : Reads .integer value
  | truthInteger (b : Bool) : Reads .integer (.bool b)
  | whole {x : Binary64} (finite : x.isFinite) (whole : x.isIntegral)
      (small : Numeral.inWord x.truncate) : Reads .integer (.float x)
  | word {value : Value} {text : Text} {read : Bool}
      (spells : Numeral.spelling? value = some (.ok text))
      (reads : Numeral.truthOf? text = some read) : Reads .boolean value
  | bit {n : Int} (small : n = 0 ∨ n = 1) : Reads .boolean (.int n)
  | wholeBit {x : Binary64} (finite : x.isFinite) (whole : x.isIntegral)
      (small : x.truncate = 0 ∨ x.truncate = 1) : Reads .boolean (.float x)
  | tuple (items : List Value) : Reads .array (.tuple items)
  | set (items : List Scalar) : Reads .array (.set items)

variable {value : Value}

theorem zero_or_one_of_truthOfInt {n : Int} {read : Bool}
    (h : Numeral.truthOfInt n = .ok read) : n = 0 ∨ n = 1 := by
  rw [Numeral.truthOfInt] at h
  split at h
  · exact .inl ‹_›
  · split at h
    · exact .inr ‹_›
    · split at h <;> cases h

theorem text_of_fault? (h : JsonType.text.fault? value = none) :
    JsonType.text.Holds value ∨ JsonType.text.Reads value := by
  match value with
  | .text given => exact .inl (.text given)
  | .scalar (.bytes bytes) =>
      cases hdecode : Text.decode bytes with
      | ok given => exact .inr (.encoded hdecode)
      | error fault =>
          simp only [fault?, Schema.spelling, hdecode] at h
          cases h

theorem number_of_fault? (h : number.fault? value = none) :
    number.Holds value ∨ number.Reads value := by
  simp only [fault?] at h
  unfold Numeral.floatFault? at h
  -- what is spelled is read as a numeral, and only other values go by their kind
  cases hspelling : Numeral.spelling? value with
  | some spelling =>
      rw [hspelling] at h
      cases spelling with
      | error fault => cases h
      | ok given => exact .inr (.numeral hspelling h)
  | none =>
      rw [hspelling] at h
      match value with
      | .bool b => exact .inr (.truthNumber b)
      | .int n => exact .inl (.wholeNumber n)
      | .float x => exact .inl (.number x)

theorem integer_of_fault? (h : integer.fault? value = none) :
    integer.Holds value ∨ integer.Reads value := by
  simp only [fault?] at h
  unfold Numeral.intFault? at h
  cases hspelling : Numeral.spelling? value with
  | some spelling =>
      rw [hspelling] at h
      cases spelling with
      | error fault => cases h
      | ok given => exact .inr (.intNumeral hspelling h)
  | none =>
      rw [hspelling] at h
      match value with
      | .bool b => exact .inr (.truthInteger b)
      | .int n => exact .inl (.integer n)
      | .float x =>
          simp only at h
          split at h
          · cases h
          · rename_i hfinite
            split at h
            · cases h
            · rename_i hwhole
              split at h
              · exact .inr (.whole (by simpa using hfinite) (by simpa using hwhole) ‹_›)
              · cases h

theorem boolean_of_truth {read : Bool} (h : Numeral.truth value = .ok read) :
    boolean.Holds value ∨ boolean.Reads value := by
  unfold Numeral.truth at h
  cases hspelling : Numeral.spelling? value with
  | some spelling =>
      rw [hspelling] at h
      cases spelling with
      | error fault => cases h
      | ok given =>
          cases htruth : Numeral.truthOf? given with
          | some read => exact .inr (.word hspelling htruth)
          | none =>
              simp only [Except.map, htruth] at h
              cases h
  | none =>
      rw [hspelling] at h
      match value with
      | .bool b => exact .inl (.boolean b)
      | .int n => exact .inr (.bit (zero_or_one_of_truthOfInt h))
      | .float x =>
          simp only at h
          split at h
          · rename_i hwhole
            rw [Bool.and_eq_true] at hwhole
            exact .inr (.wholeBit hwhole.1 hwhole.2 (zero_or_one_of_truthOfInt h))
          · cases h

theorem exists_truth_of_fault? (h : boolean.fault? value = none) :
    ∃ read, Numeral.truth value = .ok read := by
  simp only [fault?] at h
  cases htruth : Numeral.truth value with
  | ok read => exact ⟨read, rfl⟩
  | error fault =>
      rw [htruth] at h
      cases h

/-- What a type accepts is of the type or read as if it were. -/
theorem holds_or_reads {type : JsonType} (h : type.fault? value = none) :
    type.Holds value ∨ type.Reads value := by
  cases type with
  | text => exact text_of_fault? h
  | number => exact number_of_fault? h
  | integer => exact integer_of_fault? h
  | boolean =>
      obtain ⟨read, hread⟩ := exists_truth_of_fault? h
      exact boolean_of_truth hread
  | array =>
      match value with
      | .list items => exact .inl (.array items)
      | .tuple items => exact .inr (.tuple items)
      | .set items => exact .inr (.set items)
  | object =>
      match value with
      | .map entries => exact .inl (.object entries)

end JsonType

namespace Acceptance

/-- A value that is accepted: of the type or read as such, or equal to an option. -/
inductive Takes (property : Value) (value : Value) : Acceptance → Prop
  | anything : Takes property value .anything
  | kind {type : JsonType} (fits : type.Holds value ∨ type.Reads value) :
      Takes property value (.kind type)
  | choice {options listed : List Value} {option : Value}
      (lists : optionsOf (memberOf property "enum") = .ok listed) (mem : option ∈ listed)
      (equals : option.equals value) : Takes property value (.choice options)

variable {property value : Value} {acceptance : Acceptance}

theorem exists_listed {options : List Value} (h : ofProperty property = .ok (.choice options)) :
    ∃ listed, optionsOf (memberOf property "enum") = .ok listed ∧ options = distinct listed := by
  simp only [ofProperty] at h
  split at h
  · cases hlisted : optionsOf (memberOf property "enum") with
    | error fault =>
        rw [hlisted] at h
        cases h
    | ok listed =>
        rw [hlisted] at h
        cases h
        exact ⟨listed, rfl, rfl⟩
  · split at h
    · rename_i word _
      cases hkind : JsonType.named.lookup word <;> simp [hkind] at h
    · cases h

theorem takes_of_fault? (hproperty : ofProperty property = .ok acceptance)
    (h : acceptance.fault? value = none) : acceptance.Takes property value := by
  cases acceptance with
  | anything => exact .anything
  | kind type => exact .kind (JsonType.holds_or_reads h)
  | choice options =>
      obtain ⟨listed, hlisted, rfl⟩ := exists_listed hproperty
      rw [fault?] at h
      split at h
      · cases h
      · split at h
        · rename_i hany
          obtain ⟨option, hmem, hequals⟩ := List.any_eq_true.1 hany
          exact .choice hlisted (mem_of_mem_distinct option hmem) hequals
        · cases h

end Acceptance

namespace VariableSchema

variable {schema : VariableSchema} {vars resolved : Variables} {name : Text}
  {property value : Value}

theorem exists_acceptance_of_declare {declared : Property}
    (h : schema.declare name property = .ok declared) :
    ∃ acceptance, Acceptance.ofProperty property = .ok acceptance ∧
      declared = ⟨name, schema.required.contains name, acceptance⟩ := by
  rw [declare] at h
  cases hacceptance : Acceptance.ofProperty property with
  | error fault =>
      rw [hacceptance] at h
      cases h
  | ok acceptance =>
      rw [hacceptance] at h
      simp only [bind, Except.bind] at h
      split at h
      · cases h
      · cases h
        exact ⟨acceptance, rfl, rfl⟩

theorem exists_declared {declared : List (Text × Value)} {found : List Property}
    (h : declared.mapM (fun (name, property) => schema.declare name property) = .ok found)
    (hmem : (name, property) ∈ declared) :
    ∃ acceptance, Acceptance.ofProperty property = .ok acceptance ∧
      ⟨name, schema.required.contains name, acceptance⟩ ∈ found := by
  induction declared generalizing found with
  | nil => cases hmem
  | cons first rest ih =>
      simp only [List.mapM_cons] at h
      cases hfirst : schema.declare first.1 first.2 with
      | error fault =>
          rw [hfirst] at h
          cases h
      | ok one =>
          rw [hfirst] at h
          cases hrest : rest.mapM fun (name, property) => schema.declare name property with
          | error fault =>
              simp only [hrest] at h
              cases h
          | ok others =>
              simp only [hrest] at h
              cases h
              rcases List.mem_cons.1 hmem with rfl | hmem
              · obtain ⟨acceptance, hacceptance, rfl⟩ := exists_acceptance_of_declare hfirst
                exact ⟨acceptance, hacceptance, List.mem_cons_self⟩
              · obtain ⟨acceptance, hacceptance, hfound⟩ := ih hrest hmem
                exact ⟨acceptance, hacceptance, List.mem_cons_of_mem _ hfound⟩

/-- Resolved variables have no issues, and are the given ones with defaults after them. -/
theorem issues_of_resolve (h : schema.resolve vars = .ok (.ok resolved)) :
    schema.issues vars = .ok [] ∧ resolved = vars ++ schema.defaults vars := by
  rw [resolve] at h
  cases hissues : schema.issues vars with
  | error fault =>
      rw [hissues] at h
      cases h
  | ok issues =>
      rw [hissues] at h
      cases issues with
      | nil =>
          cases h
          exact ⟨rfl, rfl⟩
      | cons => cases h

theorem exists_issues_eq_nil (h : schema.issues vars = .ok [])
    (hmem : (name, property) ∈ schema.properties) :
    ∃ acceptance, Acceptance.ofProperty property = .ok acceptance ∧
      Property.issues ⟨name, schema.required.contains name, acceptance⟩ vars = [] := by
  rw [issues, expected] at h
  cases hfound : schema.properties.mapM fun (name, property) => schema.declare name property with
  | error fault =>
      simp only [hfound] at h
      cases h
  | ok found =>
      simp only [hfound] at h
      have hnil := (List.append_eq_nil_iff.1 (Except.ok.inj h)).1
      obtain ⟨acceptance, hacceptance, hdeclared⟩ := exists_declared hfound hmem
      exact ⟨acceptance, hacceptance,
        List.flatMap_eq_nil_iff.1 hnil _ (List.mem_append_left _ hdeclared)⟩

/-- Null is taken too where the name can be left out. -/
def Takes (schema : VariableSchema) (name : Text) (property value : Value) : Prop :=
  value.isNull ∧ name ∉ schema.required ∨
    ∃ acceptance : Acceptance, Acceptance.ofProperty property = .ok acceptance ∧
      acceptance.Takes property value

theorem null_or_accepted {declared : Property} (h : declared.issues vars = [])
    (hvalue : vars.lookup declared.name = some value) :
    value.isNull ∧ declared.isRequired = false ∨ declared.acceptance.fault? value = none := by
  simp only [Property.issues, hvalue] at h
  split at h
  · rename_i hnull
    exact .inl (by simpa using hnull)
  · split at h
    · cases h
    · exact .inr ‹_›

/-- A declared variable that was given is taken. -/
theorem takes_of_issues (h : schema.issues vars = .ok [])
    (hmem : (name, property) ∈ schema.properties) (hvalue : vars.lookup name = some value) :
    schema.Takes name property value := by
  obtain ⟨acceptance, hacceptance, hnil⟩ := exists_issues_eq_nil h hmem
  rcases null_or_accepted hnil hvalue with ⟨hnull, hrequired⟩ | haccepted
  · exact .inl ⟨hnull, by simpa using hrequired⟩
  · exact .inr ⟨acceptance, hacceptance, Acceptance.takes_of_fault? hacceptance haccepted⟩

theorem not_required_of_absent (h : schema.issues vars = .ok [])
    (hmem : (name, property) ∈ schema.properties) (hvalue : vars.lookup name = none) :
    name ∉ schema.required := by
  obtain ⟨acceptance, hacceptance, hnil⟩ := exists_issues_eq_nil h hmem
  simp only [Property.issues, hvalue] at hnil
  split at hnil
  · cases hnil
  · rename_i hrequired
    simpa using hrequired

theorem exists_default (h : (schema.defaults vars).lookup name = some value) :
    ∃ property, (name, property) ∈ schema.properties ∧ property.get? "default" = some value := by
  obtain ⟨before, after, heq, -⟩ := List.lookup_eq_some_iff.1 h
  have hmem : (name, value) ∈ schema.defaults vars := by simp [heq]
  obtain ⟨⟨other, property⟩, hproperty, hdefault⟩ := List.mem_filterMap.1 hmem
  simp only at hdefault
  split at hdefault
  · cases hdefault
  · obtain ⟨given, hgiven, heq⟩ := Option.map_eq_some_iff.1 hdefault
    cases heq
    exact ⟨property, hproperty, hgiven⟩

/-- A condition that asks for the truth of a variable. -/
theorem hold_true_iff (hvalue : resolved.lookup name = some value) :
    Conditions.hold [(name, "true")] resolved ↔ value.isTrue := by
  have htruth : Conditions.truthOf? "true" = some true := by decide
  simp [Conditions.hold, Conditions.holdsFor, Conditions.valueOf, hvalue, htruth]

/-- A declared variable in resolved variables is the one that was given, which is of its type,
read as such or equal to one of its options, or null if it may be left out; or it was left out
and is the default, whatever that is.  A condition for its truth looks at the value, so a word
counts as true even where it is read as false. -/
theorem resolved_values (schema : VariableSchema) (vars resolved : Variables)
    (h : schema.resolve vars = .ok (.ok resolved)) (name : Text) (value : Value)
    (hname : name ∈ schema.declaredNames) (hvalue : resolved.lookup name = some value) :
    (vars.lookup name = some value ∧
        (∀ property, (name, property) ∈ schema.properties → schema.Takes name property value) ∨
      vars.lookup name = none ∧ name ∉ schema.required ∧
        ∃ property, (name, property) ∈ schema.properties ∧
          property.get? "default" = some value) ∧
    (Conditions.hold [(name, "true")] resolved ↔ value.isTrue) ∧
    (vars.lookup name = some value → ¬ value.isNull →
      ∀ property, (name, property) ∈ schema.properties →
        Acceptance.ofProperty property = .ok (.kind .boolean) →
        ∃ read, Numeral.truth value = .ok read ∧
          (value.isTrue ↔ read = true ∨ Numeral.IsWord value)) := by
  obtain ⟨hissues, rfl⟩ := issues_of_resolve h
  refine ⟨?_, hold_true_iff hvalue, fun hgiven hnull property hmem hboolean => ?_⟩
  · rw [List.lookup_append] at hvalue
    cases hgiven : vars.lookup name with
    | some given =>
        rw [hgiven] at hvalue
        cases hvalue
        exact .inl ⟨rfl, fun property hmem => takes_of_issues hissues hmem hgiven⟩
    | none =>
        rw [hgiven] at hvalue
        obtain ⟨⟨other, property⟩, hmem, rfl⟩ := List.mem_map.1 hname
        exact .inr ⟨rfl, not_required_of_absent hissues hmem hgiven, exists_default hvalue⟩
  · obtain ⟨acceptance, hacceptance, hnil⟩ := exists_issues_eq_nil hissues hmem
    cases hacceptance.symm.trans hboolean
    have haccepted := (null_or_accepted hnil hgiven).resolve_left fun hboth => hnull hboth.1
    obtain ⟨read, hread⟩ := JsonType.exists_truth_of_fault? haccepted
    exact ⟨read, hread, Numeral.isTrue_of_truth hread⟩

/-- A truth value, and a number that has a default. -/
def switch (default : Value) : VariableSchema :=
  ⟨[("flag", .map [(.text "type", .text "boolean")]),
    ("count", .map [(.text "type", .text "integer"), (.text "default", default)])], [], false⟩

theorem resolved_values_switch :
    (switch (.int 3)).resolve [("flag", .bool true)] =
        .ok (.ok [("flag", .bool true), ("count", .int 3)]) ∧
      (switch (.int 3)).Takes "flag" (.map [(.text "type", .text "boolean")]) (.bool true) ∧
      Conditions.hold [("flag", "true")] [("flag", .bool true), ("count", .int 3)] := by
  have hresolve : (switch (.int 3)).resolve [("flag", .bool true)] =
      .ok (.ok [("flag", .bool true), ("count", .int 3)]) := rfl
  obtain ⟨hgiven, htrue, -⟩ := resolved_values (switch (.int 3)) _ _ hresolve "flag" (.bool true)
    List.mem_cons_self rfl
  refine ⟨hresolve, ?_, htrue.2 rfl⟩
  rcases hgiven with ⟨-, htakes⟩ | ⟨hnone, -⟩
  · exact htakes _ List.mem_cons_self
  · cases hnone

/-- A word that says no counts as true, and a default is not checked. -/
theorem words_and_defaults_are_kept :
    (switch (.text "x")).resolve [("flag", .text "false")] =
        .ok (.ok [("flag", .text "false"), ("count", .text "x")]) ∧
      ¬ JsonType.boolean.Holds (.text "false") ∧ ¬ JsonType.integer.Holds (.text "x") ∧
      Numeral.truth (.text "false") = .ok false ∧
      Conditions.hold [("flag", "true")] [("flag", .text "false"), ("count", .text "x")] := by
  refine ⟨rfl, ?_, ?_, rfl, rfl⟩
  · intro h
    cases h
  · intro h
    cases h

end VariableSchema

end Stencil

import Stencil.Manifest.Basic
import Stencil.Proofs.Json.Documents
import Stencil.Proofs.Results
import Stencil.Proofs.Schema.Checked

/-!
# The sections of a manifest

The known sections and the further ones are read in two ways: the former along
with their mapping, the latter one by one beforehand.  Both ways find the same
entries in a value, unless it is absent, which is a known section without entries.
So a section could stand under any other name just as well, as long as that
name can be encoded.
-/

namespace Stencil

open Checked

/-! ## One section -/

namespace Section

/-- What a value holds as a section: one entry, or a list of them in order. -/
inductive Reads : Value → Section → Prop
  | one {value : Value} {entry : Entry} (reads : Entry.check value = .ok entry) :
      Reads value (.one entry)
  | many {items : List Value} {entries : List Entry}
      (reads : List.Forall₂ (fun item entry => Entry.check item = .ok entry) items entries) :
      Reads (.list items) (.many entries)

/-- A value whose items stand in a list, if it has any. -/
def IsListed (value : Value) : Prop :=
  ∀ items, Schema.sequence? value = some items → value = .list items

variable {value : Value} {items : List Value} {entry : Entry} {found other : Section}

theorem entry_check_list : Entry.check (.list items) ≠ .ok entry := fun h => by cases h

theorem Reads.eq (h : Reads value found) (hother : Reads value other) : found = other := by
  cases h with
  | one reads =>
      cases hother with
      | one others => rw [ok_inj.1 (reads.symm.trans others)]
      | many others => exact absurd reads entry_check_list
  | many reads =>
      cases hother with
      | one others => exact absurd others entry_check_list
      | many others =>
          have hunique : Relator.RightUnique fun item entry => Entry.check item = .ok entry :=
            fun _ _ _ h hother => ok_inj.1 (h.symm.trans hother)
          rw [List.right_unique_forall₂' hunique reads others]

theorem not_reads_null : ¬ Reads .null found := fun h => by
  cases h with
  | one reads => cases reads

theorem list_eq_ok {entries : List Entry} :
    Schema.list Entry.check (.list items) = ok entries ↔
      List.Forall₂ (fun item entry => Entry.check item = .ok entry) items entries := by
  have hzip : items = items.zipIdx.map Prod.fst := (List.zipIdx_map_fst 0 items).symm
  have hall : Schema.list Entry.check (.list items) =
      .all (items.zipIdx.map fun entry => (Entry.check entry.1).under (Text.ofNat entry.2)) :=
    rfl
  rw [hall, all_eq_ok, List.forall₂_map_left_iff]
  simp only [under_eq_ok]
  conv_rhs => rw [hzip, List.forall₂_map_left_iff]

theorem check_eq_ok (h : IsListed value) : check value = Checked.ok found ↔ Reads value found := by
  constructor
  · intro hcheck
    rw [check] at hcheck
    split at hcheck
    · rename_i entry hentry
      cases hcheck
      exact .one hentry
    · rename_i entries hsingle hlist
      cases hcheck
      cases hitems : Schema.sequence? value with
      | none =>
          rw [Schema.list, hitems] at hlist
          cases hlist
      | some items =>
          obtain rfl := h items hitems
          exact .many (list_eq_ok.1 hlist)
    · cases hcheck
  · intro hreads
    cases hreads with
    | one reads =>
        rw [check, reads]
        rfl
    | many reads =>
        have hlist := list_eq_ok.2 reads
        rw [check]
        split
        · rename_i entry hentry
          exact absurd hentry entry_check_list
        · rename_i entries hsingle hentries
          rw [ok_inj.1 (hlist.symm.trans hentries)]
        · rename_i hsingle hentries
          exact absurd (hlist.symm.trans hentries) (fun h => by cases h)

theorem readFurther_of_ne_list (h : ∀ items, value ≠ .list items) :
    readFurther value = Except.map .one (Entry.check value) := by
  cases value with
  | list items => exact absurd rfl (h items)
  | _ => rfl

theorem readFurther_eq_ok : readFurther value = .ok found ↔ Reads value found := by
  by_cases hlist : ∃ items, value = .list items
  · obtain ⟨items, rfl⟩ := hlist
    constructor
    · intro h
      obtain ⟨entries, hitems, rfl⟩ := Except.map_eq_ok.1 h
      exact .many (Except.mapM_eq_ok.1 hitems)
    · intro h
      cases h with
      | one reads => exact absurd reads entry_check_list
      | many reads => exact Except.map_eq_ok.2 ⟨_, Except.mapM_eq_ok.2 reads, rfl⟩
  · rw [readFurther_of_ne_list (not_exists.1 hlist)]
    constructor
    · intro h
      obtain ⟨entry, hentry, rfl⟩ := Except.map_eq_ok.1 h
      exact .one hentry
    · intro h
      cases h with
      | one reads => exact Except.map_eq_ok.2 ⟨_, reads, rfl⟩
      | many reads => exact absurd ⟨_, rfl⟩ hlist

/-- What a field of a known section holds; the absent value is no section. -/
inductive ReadsKnown : Option Value → Option Section → Prop
  | absent : ReadsKnown none none
  | null : ReadsKnown (some .null) none
  | present {value : Value} {found : Section} (reads : Reads value found) :
      ReadsKnown (some value) (some found)

theorem Reads.not_isNull (h : Reads value found) : value.isNull = false := by
  cases value with
  | scalar value =>
      cases value with
      | null => exact absurd h not_reads_null
      | _ => rfl
  | _ => rfl

theorem ReadsKnown.isSome_eq {value : Option Value} {found : Option Section}
    (h : ReadsKnown value found) : found.isSome = value.any fun value => !value.isNull := by
  cases h with
  | present reads => simp [reads.not_isNull]
  | _ => rfl

theorem optional_eq_ok (h : IsListed value) {found : Option Section} :
    Schema.optional check value = ok found ↔ ReadsKnown (some value) found := by
  rw [Schema.optional]
  by_cases hnull : value = .null
  · subst hnull
    constructor
    · intro h
      cases h
      exact .null
    · intro h
      cases h with
      | null => rfl
      | present reads => exact absurd reads not_reads_null
  · have hisNull : value.isNull = false := by
      rw [Value.isNull]
      exact fun h => hnull h
    rw [hisNull, if_neg Bool.false_ne_true, mapped_eq_ok]
    constructor
    · rintro ⟨read, hcheck, rfl⟩
      exact .present ((check_eq_ok h).1 hcheck)
    · intro hreads
      cases hreads with
      | null => exact absurd rfl hnull
      | present reads => exact ⟨_, (check_eq_ok h).2 reads, rfl⟩

end Section

/-! ## The sections of a mapping -/

namespace Manifest

open Section (Reads ReadsKnown IsListed)
open Sections (boilerplateName featuresName isFurther named unreadable?)

def knownNames : List Text := [boilerplateName, featuresName]

/-- The fields of further sections. -/
def furtherFields {α : Type} (fields : List (Text × α)) : List (Text × α) :=
  fields.filter fun field => isFurther (.text field.1)

variable {fields : List (Text × Value)} {sections : List (Text × Section)} {manifest : Manifest}

theorem isFurther_text (key : Text) : isFurther (.text key) = decide (key ∉ knownNames) := by
  simp [isFurther, knownNames]

theorem isFurther_text_iff {key : Text} : isFurther (.text key) = true ↔ key ∉ knownNames := by
  rw [isFurther_text, decide_eq_true_eq]

theorem furtherFields_eq (fields : List (Text × Value)) :
    furtherFields fields = fields.filter fun field => decide (field.1 ∉ knownNames) := by
  simp only [furtherFields, isFurther_text]

/-- Sections by their names, as the further ones are handed on. -/
def keyed (sections : List (Text × Section)) : List (Scalar × Section) :=
  sections.map fun (key, found) => (.text key, found)

/-- The fields that were read one by one: the further ones, under their names. -/
def ReadsAll (fields : List (Text × Value)) (sections : List (Text × Section)) : Prop :=
  List.Forall₂ (fun field found => found.1 = field.1 ∧ Reads field.2 found.2)
    (furtherFields fields) sections

theorem ReadsAll.keys_eq (h : ReadsAll fields sections) :
    sections.map (·.1) = (furtherFields fields).map (·.1) := by
  rw [← List.forall₂_eq_eq_eq, List.forall₂_map_left_iff, List.forall₂_map_right_iff]
  exact h.flip.imp fun _ _ hreads => hreads.1

theorem ReadsAll.not_known (h : ReadsAll fields sections) :
    ∀ found ∈ sections, found.1 ∉ knownNames := by
  intro found hfound
  have hkey : found.1 ∈ (furtherFields fields).map (·.1) :=
    h.keys_eq ▸ List.mem_map_of_mem hfound
  obtain ⟨field, hfield, heq⟩ := List.mem_map.1 hkey
  exact heq ▸ isFurther_text_iff.1 (List.mem_filter.1 hfield).2

theorem readFurther_eq_ok {others : List (Scalar × Section)} :
    readFurther (Entries.ofFields fields) = .ok others ↔
      ∃ sections, others = keyed sections ∧ ReadsAll fields sections := by
  induction fields generalizing others with
  | nil =>
      constructor
      · intro h
        cases h
        exact ⟨[], rfl, .nil⟩
      · rintro ⟨sections, rfl, hreads⟩
        cases hreads
        rfl
  | cons field fields ih =>
      obtain ⟨key, value⟩ := field
      have hstep : readFurther (Entries.ofFields ((key, value) :: fields)) =
          if isFurther (.text key) then do
            let found ← Section.readFurther value
            return (.text key, found) :: (← readFurther (Entries.ofFields fields))
          else readFurther (Entries.ofFields fields) := rfl
      rw [hstep]
      simp only [isFurther_text, decide_eq_true_eq]
      by_cases hknown : key ∈ knownNames
      · have hfurther : furtherFields ((key, value) :: fields) = furtherFields fields := by
          simp [furtherFields, isFurther_text, hknown]
        simp only [if_neg (not_not.2 hknown), ih, ReadsAll, hfurther]
      · have hfurther : furtherFields ((key, value) :: fields) =
            (key, value) :: furtherFields fields := by
          simp [furtherFields, isFurther_text, hknown]
        simp only [if_pos hknown, ReadsAll, hfurther, Except.bind_eq_ok,
          Section.readFurther_eq_ok, ih]
        constructor
        · rintro ⟨found, hfound, _, ⟨sections, rfl, hreads⟩, hall⟩
          cases hall
          exact ⟨(key, found) :: sections, rfl, .cons ⟨rfl, hfound⟩ hreads⟩
        · rintro ⟨sections, rfl, hreads⟩
          cases hreads with
          | @cons _ found _ sections hfound hreads =>
              obtain ⟨name, found⟩ := found
              obtain ⟨rfl, hfound⟩ := hfound
              exact ⟨found, hfound, _, ⟨sections, rfl, hreads⟩, rfl⟩

theorem named_keyed (h : ∀ found ∈ sections, found.1 ∉ knownNames) :
    named (keyed sections) (fun _ => .null) = ok sections := by
  have hkept : (keyed sections).filter (fun (key, _) => isFurther key) = keyed sections := by
    refine List.filter_eq_self.2 fun entry hentry => ?_
    obtain ⟨found, hfound, rfl⟩ := List.mem_map.1 hentry
    simpa [isFurther_text] using h found hfound
  rw [named, hkept, all_eq_ok, keyed, List.map_map, List.forall₂_map_left_iff]
  exact List.forall₂_same.2 fun found hfound => rfl

theorem unreadable?_keyed (h : ∀ found ∈ sections, found.1 ∉ knownNames) :
    unreadable? (keyed sections) = none ↔
      ∀ found ∈ sections, found.1.any CodePoint.isSurrogate = false := by
  rw [unreadable?, List.findSome?_eq_none_iff, keyed, List.forall_mem_map]
  refine forall₂_congr fun found hfound => ?_
  have hfurther : isFurther (.text found.1) = true := by
    rw [isFurther_text, decide_eq_true (h found hfound)]
  simp only [hfurther, Bool.true_and]
  split
  · rename_i hsurrogate
    simp [hsurrogate]
  · rename_i hsurrogate
    simp [Bool.eq_false_of_not_eq_true hsurrogate]

/-- What a manifest holds that was read from a mapping. -/
structure IsReadFrom (fields : List (Text × Value)) (manifest : Manifest) : Prop where
  boilerplate : ReadsKnown (fields.lookup boilerplateName) manifest.boilerplate
  features : ReadsKnown (fields.lookup featuresName) manifest.features
  further : ReadsAll fields manifest.further
  encodable : ∀ field ∈ furtherFields fields, field.1.any CodePoint.isSurrogate = false

theorem mem_of_lookup {name : Text} {value : Value} (h : fields.lookup name = some value) :
    (name, value) ∈ fields := by
  obtain ⟨before, after, rfl, -⟩ := List.lookup_eq_some_iff.1 h
  exact List.mem_append_right _ List.mem_cons_self

theorem withDefault_eq_ok (hlisted : ∀ field ∈ fields, IsListed field.2) (name : Text)
    {found : Option Section} :
    Schema.Fields.withDefault (Entries.ofFields fields) [name]
        (Schema.optional Section.check) none = ok found ↔
      ReadsKnown (fields.lookup name) found := by
  have hfind : Schema.Fields.find? (Entries.ofFields fields) [name] =
      (fields.lookup name).map fun value => (name, value) := by
    rw [Schema.Fields.find?, List.findSome?_singleton, Entries.get?_ofFields]
  rw [Schema.Fields.withDefault, hfind]
  cases hlookup : fields.lookup name with
  | none =>
      constructor
      · intro h
        cases h
        exact .absent
      · intro h
        cases h
        rfl
  | some value =>
      exact under_eq_ok.trans (Section.optional_eq_ok (hlisted _ (mem_of_lookup hlookup)))

theorem read_eq_ok {known : Schema.Fields} {others : List (Scalar × Section)}
    {input : Section → Value} :
    Sections.read known others input = ok manifest ↔
      unreadable? others = none ∧
        known.withDefault [boilerplateName] (Schema.optional Section.check) none =
          ok manifest.boilerplate ∧
        known.withDefault [featuresName] (Schema.optional Section.check) none =
          ok manifest.features ∧
        named others input = ok manifest.further := by
  rw [Sections.read]
  cases unreadable? others with
  | some name => exact iff_of_false (fun h => by cases h) fun h => by cases h.1
  | none =>
      simp only [seq_eq_ok, map_eq_ok, true_and]
      constructor
      · rintro ⟨_, _, ⟨_, _, ⟨_, hboilerplate, rfl⟩, hfeatures, rfl⟩, hfurther, rfl⟩
        exact ⟨hboilerplate, hfeatures, hfurther⟩
      · rintro ⟨hboilerplate, hfeatures, hfurther⟩
        exact ⟨_, _, ⟨_, _, ⟨_, hboilerplate, rfl⟩, hfeatures, rfl⟩, hfurther, rfl⟩

theorem ReadsAll.encodable_iff (h : ReadsAll fields sections) :
    (∀ found ∈ sections, found.1.any CodePoint.isSurrogate = false) ↔
      ∀ field ∈ furtherFields fields, field.1.any CodePoint.isSurrogate = false := by
  have hkeys {α : Type} (entries : List (Text × α)) :
      (∀ entry ∈ entries, entry.1.any CodePoint.isSurrogate = false) ↔
        ∀ key ∈ entries.map (·.1), List.any key CodePoint.isSurrogate = false := by
    rw [List.forall_mem_map]
  rw [hkeys, h.keys_eq, ← hkeys]

theorem ofValue_eq_ok (hlisted : ∀ field ∈ fields, IsListed field.2) :
    ofValue (.map (Entries.ofFields fields)) = .ok manifest ↔ IsReadFrom fields manifest := by
  have hof : ofValue (.map (Entries.ofFields fields)) = .ok manifest ↔
      ∃ others, readFurther (Entries.ofFields fields) = .ok others ∧
        Sections.read (Entries.ofFields fields) others (fun _ => .null) = ok manifest := by
    rw [ofValue]
    cases readFurther (Entries.ofFields fields) with
    | error issues => exact iff_of_false (fun h => by cases h) fun ⟨_, h, _⟩ => by cases h
    | ok others =>
        have hread : Except.mapError ManifestFault.issues
              (Sections.read (Entries.ofFields fields) others fun _ => .null) = .ok manifest ↔
            Sections.read (Entries.ofFields fields) others (fun _ => .null) = ok manifest := by
          cases Sections.read (Entries.ofFields fields) others fun _ => .null with
          | error issues => exact iff_of_false (fun h => by cases h) fun h => by cases h
          | ok read => exact ⟨fun h => by cases h; rfl, fun h => by cases h; rfl⟩
        refine hread.trans ⟨fun h => ⟨others, rfl, h⟩, ?_⟩
        rintro ⟨_, hothers, h⟩
        cases hothers
        exact h
  rw [hof]
  simp only [readFurther_eq_ok, read_eq_ok, withDefault_eq_ok hlisted]
  constructor
  · rintro ⟨_, ⟨sections, rfl, hreads⟩, hreadable, hboilerplate, hfeatures, hnamed⟩
    have hfurther : sections = manifest.further :=
      ok_inj.1 ((named_keyed hreads.not_known).symm.trans hnamed)
    have hencodable := (unreadable?_keyed hreads.not_known).1 hreadable
    exact ⟨hboilerplate, hfeatures, hfurther ▸ hreads, hreads.encodable_iff.1 hencodable⟩
  · intro h
    have hnot := h.further.not_known
    have hencodable := h.further.encodable_iff.2 h.encodable
    exact ⟨_, ⟨_, rfl, h.further⟩, (unreadable?_keyed hnot).2 hencodable, h.boilerplate, h.features,
      named_keyed hnot⟩

/-! ## What is found in a manifest -/

section Found

variable {key : Text} {value : Value}

theorem lookup_of_forall₂ {α β : Type} {R : α → β → Prop} {left : List (Text × α)}
    {right : List (Text × β)} (h : List.Forall₂ (fun a b => b.1 = a.1 ∧ R a.2 b.2) left right) :
    Option.Rel R (left.lookup key) (right.lookup key) := by
  induction h with
  | nil => exact .none
  | @cons a b left right hab _ ih =>
      obtain ⟨name, a⟩ := a
      obtain ⟨_, b⟩ := b
      obtain ⟨rfl, hab⟩ := hab
      rw [Keyed.lookup_cons, Keyed.lookup_cons]
      split
      · exact .some hab
      · exact ih

namespace IsReadFrom

variable (h : IsReadFrom fields manifest)

include h

theorem lookUp_known (hkey : key ∈ knownNames) :
    ReadsKnown (fields.lookup key) (manifest.lookUp key) := by
  rcases List.mem_pair.1 hkey with rfl | rfl
  · exact h.boilerplate
  · exact h.features

theorem lookUp_further (hkey : key ∉ knownNames) :
    Option.Rel Reads (fields.lookup key) (manifest.lookUp key) := by
  have hfields : (furtherFields fields).lookup key = fields.lookup key := by
    rw [furtherFields_eq, Keyed.lookup_filter (fun key => decide (key ∉ knownNames)),
      if_pos (decide_eq_true hkey)]
  have hlookUp : manifest.lookUp key = manifest.further.lookup key := by
    rw [knownNames, List.mem_pair, not_or] at hkey
    rw [lookUp, if_neg hkey.1, if_neg hkey.2]
  rw [← hfields, hlookUp]
  exact lookup_of_forall₂ h.further

theorem entries_of_lookup (hlookup : fields.lookup key = some value) :
    (key ∈ knownNames ∧ value = .null ∧ manifest.entries key = []) ∨
      ∃ found, Reads value found ∧ manifest.entries key = found.entries := by
  by_cases hkey : key ∈ knownNames
  · have hread := h.lookUp_known hkey
    rw [hlookup] at hread
    rw [entries]
    generalize manifest.lookUp key = looked at hread ⊢
    cases hread with
    | null => exact .inl ⟨hkey, rfl, rfl⟩
    | present reads => exact .inr ⟨_, reads, rfl⟩
  · have hread := h.lookUp_further hkey
    rw [hlookup] at hread
    rw [entries]
    generalize manifest.lookUp key = looked at hread ⊢
    cases hread with
    | some reads => exact .inr ⟨_, reads, rfl⟩

theorem entries_of_absent (hlookup : fields.lookup key = none) : manifest.entries key = [] := by
  have hnone : manifest.lookUp key = none := by
    by_cases hkey : key ∈ knownNames
    · have hread := h.lookUp_known hkey
      rw [hlookup] at hread
      generalize manifest.lookUp key = looked at hread ⊢
      cases hread
      rfl
    · have hread := h.lookUp_further hkey
      rw [hlookup] at hread
      generalize manifest.lookUp key = looked at hread ⊢
      cases hread
      rfl
  rw [entries, hnone]

theorem sectionNames_eq :
    manifest.sectionNames =
      knownNames.filter (fun name => (fields.lookup name).any fun value => !value.isNull) ++
        (fields.map (·.1)).filter fun key => decide (key ∉ knownNames) := by
  have hfurther : (fields.map (·.1)).filter (fun key => decide (key ∉ knownNames)) =
      manifest.further.map (·.1) := by
    rw [h.further.keys_eq, furtherFields_eq, List.filter_map]
    rfl
  rw [hfurther, sectionNames, h.boilerplate.isSome_eq, h.features.isSome_eq, knownNames]
  simp only [List.filter_cons, List.filter_nil]
  split <;> split <;> rfl

end IsReadFrom

theorem find?_eq_some_iff {name : Text} {entry : Entry} :
    manifest.find? key (some name) = some entry ↔
      entry.name = name ∧ ∃ before after, manifest.entries key = before ++ entry :: after ∧
        ∀ earlier ∈ before, earlier.name ≠ name := by
  rw [find?]
  simp only [List.find?_eq_some_iff_append, decide_eq_true_eq, Bool.not_eq_true']
  simp

theorem find?_eq_none_iff {name : Text} :
    manifest.find? key (some name) = none ↔ ∀ entry ∈ manifest.entries key, entry.name ≠ name := by
  simp [find?]

end Found

/-! ## Moving a section -/

section Moving

variable {key : Text} {value : Value}

/-- Whether a value can stand under a name. -/
def Accepts (key : Text) (value : Value) : Prop :=
  key.any CodePoint.isSurrogate = false ∧
    ((key ∈ knownNames ∧ value = .null) ∨ ∃ found, Reads value found)

theorem encodable_of_mem_knownNames :
    ∀ key ∈ knownNames, key.any CodePoint.isSurrogate = false := by decide

theorem exists_readsKnown (h : ∀ value, fields.lookup key = some value → Accepts key value) :
    ∃ found, ReadsKnown (fields.lookup key) found := by
  cases hlookup : fields.lookup key with
  | none => exact ⟨none, .absent⟩
  | some value =>
      obtain ⟨-, ⟨-, rfl⟩ | ⟨found, hreads⟩⟩ := h value hlookup
      · exact ⟨none, .null⟩
      · exact ⟨some found, .present hreads⟩

theorem exists_readsAll (h : ∀ field ∈ fields, Accepts field.1 field.2) :
    ∃ sections, ReadsAll fields sections := by
  have hall : ∀ field ∈ furtherFields fields, ∃ found, Reads field.2 found := by
    intro field hfield
    obtain ⟨hmem, hkey⟩ := List.mem_filter.1 hfield
    obtain ⟨-, ⟨hknown, -⟩ | hreads⟩ := h field hmem
    · exact absurd hknown (isFurther_text_iff.1 hkey)
    · exact hreads
  have : Nonempty Section := ⟨.many []⟩
  choose! read hread using hall
  refine ⟨(furtherFields fields).map fun field => (field.1, read field), ?_⟩
  rw [ReadsAll, List.forall₂_map_right_iff, List.forall₂_same]
  exact fun field hfield => ⟨rfl, hread field hfield⟩

/-- A mapping is accepted if each of its values can stand under its name. -/
theorem exists_isReadFrom_iff (hkeys : (fields.map (·.1)).Nodup) :
    (∃ manifest, IsReadFrom fields manifest) ↔ ∀ field ∈ fields, Accepts field.1 field.2 := by
  constructor
  · rintro ⟨manifest, h⟩ ⟨key, value⟩ hfield
    have hlookup : fields.lookup key = some value := (Keyed.lookup_eq_some_iff hkeys).2 hfield
    refine ⟨?_, (h.entries_of_lookup hlookup).imp (fun hnull => ⟨hnull.1, hnull.2.1⟩)
      fun ⟨found, hreads, _⟩ => ⟨found, hreads⟩⟩
    by_cases hknown : key ∈ knownNames
    · exact encodable_of_mem_knownNames key hknown
    · exact h.encodable _ (List.mem_filter.2 ⟨hfield, isFurther_text_iff.2 hknown⟩)
  · intro h
    have hlookup (key : Text) : ∀ value, fields.lookup key = some value → Accepts key value :=
      fun value hvalue => h _ (mem_of_lookup hvalue)
    obtain ⟨boilerplate, hboilerplate⟩ := exists_readsKnown (hlookup boilerplateName)
    obtain ⟨features, hfeatures⟩ := exists_readsKnown (hlookup featuresName)
    obtain ⟨sections, hsections⟩ := exists_readsAll h
    exact ⟨⟨boilerplate, features, sections⟩, hboilerplate, hfeatures, hsections,
      fun field hfield => (h field (List.mem_of_mem_filter hfield)).1⟩

theorem exists_entries_iff (hkeys : (fields.map (·.1)).Nodup)
    (hlisted : ∀ field ∈ fields, IsListed field.2) (hfield : (key, value) ∈ fields)
    (hnull : value ≠ .null) {entries : List Entry} :
    (∃ manifest, ofValue (.map (Entries.ofFields fields)) = .ok manifest ∧
        manifest.entries key = entries) ↔
      (∀ field ∈ fields, Accepts field.1 field.2) ∧
        ∃ found, Reads value found ∧ found.entries = entries := by
  have hlookup : fields.lookup key = some value := (Keyed.lookup_eq_some_iff hkeys).2 hfield
  have hentries : ∀ {manifest : Manifest}, IsReadFrom fields manifest →
      ∃ found, Reads value found ∧ manifest.entries key = found.entries := fun h =>
    (h.entries_of_lookup hlookup).resolve_left fun hknown => hnull hknown.2.1
  simp only [ofValue_eq_ok hlisted, ← exists_isReadFrom_iff hkeys]
  constructor
  · rintro ⟨manifest, h, rfl⟩
    obtain ⟨found, hreads, heq⟩ := hentries h
    exact ⟨⟨manifest, h⟩, found, hreads, heq.symm⟩
  · rintro ⟨⟨manifest, h⟩, found, hreads, rfl⟩
    obtain ⟨other, hother, heq⟩ := hentries h
    exact ⟨manifest, h, heq.trans (congrArg Section.entries (hother.eq hreads))⟩

end Moving

/-! ## Whole mappings -/

/-- What a manifest tells of the mapping that it was read from. -/
structure Presents (manifest : Manifest) (fields : List (Text × Value)) : Prop where
  /-- The entries of a section are what its value holds, in order. -/
  entries_of_value : ∀ key value, fields.lookup key = some value →
    (key ∈ knownNames ∧ value = .null ∧ manifest.entries key = []) ∨
      ∃ found, Reads value found ∧ manifest.entries key = found.entries
  entries_of_absent : ∀ key, fields.lookup key = none → manifest.entries key = []
  /-- The known sections that hold something come first. -/
  sectionNames_eq : manifest.sectionNames =
    knownNames.filter (fun name => (fields.lookup name).any fun value => !value.isNull) ++
      (fields.map (·.1)).filter fun key => decide (key ∉ knownNames)
  find?_eq_some_iff : ∀ key name entry, manifest.find? key (some name) = some entry ↔
    entry.name = name ∧ ∃ before after, manifest.entries key = before ++ entry :: after ∧
      ∀ earlier ∈ before, earlier.name ≠ name
  find?_eq_none_iff : ∀ key name, manifest.find? key (some name) = none ↔
    ∀ entry ∈ manifest.entries key, entry.name ≠ name

/--
A manifest presents the mapping that it was read from; and a value that is not absent is accepted
under one name just if it is under any other name that can be encoded, with the same entries.
-/
theorem sections_of_mapping (fields : List (Text × Value)) (hkeys : (fields.map (·.1)).Nodup)
    (hlisted : ∀ field ∈ fields, IsListed field.2) :
    (∀ manifest, ofValue (.map (Entries.ofFields fields)) = .ok manifest →
      manifest.Presents fields) ∧
      ∀ (before after : List (Text × Value)) (key other : Text) (value : Value)
        (entries : List Entry),
        fields = before ++ (key, value) :: after → value ≠ .null →
        key.any CodePoint.isSurrogate = false → other.any CodePoint.isSurrogate = false →
        other ∉ (before ++ after).map (·.1) →
        ((∃ manifest, ofValue (.map (Entries.ofFields fields)) = .ok manifest ∧
            manifest.entries key = entries) ↔
          ∃ manifest,
            ofValue (.map (Entries.ofFields (before ++ (other, value) :: after))) = .ok manifest ∧
              manifest.entries other = entries) := by
  constructor
  · intro manifest h
    have h := (ofValue_eq_ok hlisted).1 h
    exact ⟨fun _ _ => h.entries_of_lookup, fun _ => h.entries_of_absent, h.sectionNames_eq,
      fun _ _ _ => find?_eq_some_iff, fun _ _ => find?_eq_none_iff⟩
  · rintro before after key other value entries rfl hnull hkey hother hnew
    have hmoved : ((before ++ (other, value) :: after).map (·.1)).Nodup := by
      rw [List.map_append, List.map_cons, List.nodup_middle] at hkeys ⊢
      exact List.nodup_cons.2 ⟨by simpa using hnew, (List.nodup_cons.1 hkeys).2⟩
    have hmovedListed : ∀ field ∈ before ++ (other, value) :: after, IsListed field.2 := by
      simpa only [List.forall_mem_append, List.forall_mem_cons] using hlisted
    have haccepts (name : Text) (hname : name.any CodePoint.isSurrogate = false) :
        Accepts name value ↔ ∃ found, Reads value found := by
      rw [Accepts, and_iff_right hname, or_iff_right fun h => hnull h.2]
    rw [exists_entries_iff hkeys hlisted (List.mem_append_right _ List.mem_cons_self) hnull,
      exists_entries_iff hmoved hmovedListed (List.mem_append_right _ List.mem_cons_self) hnull]
    simp only [List.forall_mem_append, List.forall_mem_cons, haccepts _ hkey, haccepts _ hother]

theorem sections_of_mapping_tools :
    (([("tools", .list [.map (Entries.ofFields [("name", .text "a")])])] : List (Text × Value)).map
        (·.1)).Nodup ∧
      (∀ field ∈ ([("tools", .list [.map (Entries.ofFields [("name", .text "a")])])] :
        List (Text × Value)), IsListed field.2) ∧
      ∃ manifest, ofValue (.map (Entries.ofFields
          [("features", .list [.map (Entries.ofFields [("name", .text "a")])])])) = .ok manifest ∧
        (manifest.entries "features").map (·.name) = ["a"] := by
  have hkeys : (([("tools", .list [.map (Entries.ofFields [("name", .text "a")])])] :
      List (Text × Value)).map (·.1)).Nodup := by decide
  have hlisted : ∀ field ∈ ([("tools", .list [.map (Entries.ofFields [("name", .text "a")])])] :
      List (Text × Value)), IsListed field.2 := by
    intro field hfield items hitems
    cases List.mem_singleton.1 hfield
    cases hitems
    rfl
  obtain ⟨-, hmoved⟩ := sections_of_mapping _ hkeys hlisted
  obtain ⟨manifest, hmanifest, hentries⟩ := (hmoved [] [] "tools" "features" _ _ rfl
    (fun h => by cases h) (by decide) (by decide) (by decide)).1 ⟨_, rfl, rfl⟩
  exact ⟨hkeys, hlisted, manifest, hmanifest, by rw [hentries]; rfl⟩

/-- A name that cannot be encoded is refused, whatever stands under it. -/
theorem unencodable_name_is_refused :
    (∃ manifest, ofValue (.map (Entries.ofFields
        [("boilerplate", .map (Entries.ofFields [("name", .text "x")]))])) = .ok manifest) ∧
      ¬ ∃ manifest, ofValue (.map (Entries.ofFields
        [([.ofNat 0xD800], .map (Entries.ofFields [("name", .text "x")]))])) = .ok manifest := by
  refine ⟨⟨_, rfl⟩, fun ⟨manifest, h⟩ => ?_⟩
  cases h

end Manifest

end Stencil

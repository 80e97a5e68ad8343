import Stencil.Proofs.Json.Documents
import Stencil.Proofs.Results

/-!
# What documents hold

Documents are written without control characters, line feeds apart.  Everything
that is read from a document is data, so it can be written and read again.
-/

namespace Stencil

open CodePoint (scalar)

namespace Json

variable {depth fuel : Nat} {rest : Text} {v : Value}

/-! ## What is written -/

/-- A value has a code point in one of its texts. -/
inductive Contains (c : CodePoint) : Value → Prop where
  | text {t : Text} (h : c ∈ t) : Contains c (.text t)
  | item {items : List Value} {item : Value} (hitem : item ∈ items) (h : Contains c item) :
      Contains c (.list items)
  | key {fields : List (Text × Value)} {field : Text × Value} (hfield : field ∈ fields)
      (h : c ∈ field.1) : Contains c (.map (Entries.ofFields fields))
  | value {fields : List (Text × Value)} {field : Text × Value} (hfield : field ∈ fields)
      (h : Contains c field.2) : Contains c (.map (Entries.ofFields fields))

theorem contains_map_iff {c : CodePoint} {fields : List (Text × Value)} :
    Contains c (.map (Entries.ofFields fields)) ↔
      ∃ field ∈ fields, c ∈ field.1 ∨ Contains c field.2 := by
  refine ⟨fun h => ?_, ?_⟩
  · generalize hentries : Entries.ofFields fields = entries at h
    cases h with
    | key hfield h =>
        obtain rfl := Entries.ofFields_injective hentries
        exact ⟨_, hfield, .inl h⟩
    | value hfield h =>
        obtain rfl := Entries.ofFields_injective hentries
        exact ⟨_, hfield, .inr h⟩
  · rintro ⟨field, hfield, h | h⟩
    · exact .key hfield h
    · exact .value hfield h

/-- Plain characters, line feeds and what is known to be in a value: control characters are
escaped. -/
def Printed (known : CodePoint → Prop) (text : Text) : Prop :=
  ∀ c ∈ text, c = scalar '\n' ∨ 0x20 ≤ c.toNat ∧ (c.toNat < 0x80 ∨ known c)

section Printed

variable {known : CodePoint → Prop} {first second : Text}

theorem printed_plain (h : ∀ c ∈ first, c = scalar '\n' ∨ 0x20 ≤ c.toNat ∧ c.toNat < 0x80) :
    Printed known first :=
  fun c hc => (h c hc).imp_right fun ⟨hlow, hhigh⟩ => ⟨hlow, .inl hhigh⟩

theorem Printed.append (hfirst : Printed known first) (hsecond : Printed known second) :
    Printed known (first ++ second) :=
  List.forall_mem_append.2 ⟨hfirst, hsecond⟩

theorem printed_char {char : Char} (h : 0x20 ≤ char.toNat ∧ char.toNat < 0x80) :
    Printed known [scalar char] :=
  printed_plain (List.forall_mem_singleton.2 (.inr h))

theorem printed_digits {digits : Text} (h : Text.AreDigits digits) : Printed known digits := by
  refine printed_plain fun c hc => ?_
  have hdigit := CodePoint.isDigit_iff.1 (h c hc)
  exact .inr (by omega)

theorem printed_signText (negative : Bool) : Printed known (Binary64.signText negative) := by
  cases negative with
  | false => exact List.forall_mem_nil _
  | true => exact printed_char (by decide)

theorem printed_text {n : Numeral} (h : n.WellFormed) : Printed known n.text := by
  refine Printed.append (Printed.append (printed_digits h.whole_digits) ?_) ?_
  · split
    · exact List.forall_mem_nil _
    · exact (printed_char (by decide)).append (printed_digits h.fraction_digits)
  · cases n.power with
    | none => exact List.forall_mem_nil _
    | some power =>
        have hsign : Printed known [if power < 0 then scalar '-' else scalar '+'] := by
          split <;> exact printed_char (by decide)
        exact (printed_char (by decide)).append
          (hsign.append (printed_digits (Text.areDigits_ofNatIn _ _)))

theorem printed_escapeOf {c : CodePoint} (h : known c) : Printed known (escapeOf c) := by
  have hhex : ∀ n < 0x20, ∀ c ∈ Text.ofNatIn 16 4 n,
      c = scalar '\n' ∨ 0x20 ≤ c.toNat ∧ c.toNat < 0x80 := by decide
  unfold escapeOf
  split
  iterate 7 exact printed_plain (by decide)
  split
  · rename_i hcontrol
    exact (printed_plain (by decide)).append (printed_plain (hhex _ hcontrol))
  · rename_i hcontrol
    exact List.forall_mem_singleton.2 (.inr ⟨Nat.not_lt.1 hcontrol, .inr h⟩)

theorem printed_writeText {t : Text} (h : ∀ c ∈ t, known c) : Printed known (writeText t) := by
  refine Printed.append ((printed_char (by decide)).append ?_) (printed_char (by decide))
  intro c hc
  obtain ⟨other, hother, hc⟩ := List.mem_flatMap.1 hc
  exact printed_escapeOf (h other hother) c hc

theorem printed_newline (depth : Nat) : Printed known (newline depth) := by
  refine printed_plain (List.forall_mem_cons.2 ⟨.inl rfl, fun c hc => ?_⟩)
  rw [List.eq_of_mem_replicate hc]
  exact .inr (by decide)

theorem printed_joinWith {separator : Text} {parts : List Text}
    (hseparator : Printed known separator) (h : ∀ part ∈ parts, Printed known part) :
    Printed known (Text.joinWith separator parts) := by
  induction parts with
  | nil => exact List.forall_mem_nil _
  | cons part parts ih =>
      obtain ⟨hpart, hparts⟩ := List.forall_mem_cons.1 h
      cases parts with
      | nil => rwa [Text.joinWith_singleton]
      | cons other parts =>
          rw [Text.joinWith_cons_cons]
          exact hpart.append (hseparator.append (ih hparts))

theorem printed_block {opening closing : Char}
    (hopening : 0x20 ≤ opening.toNat ∧ opening.toNat < 0x80)
    (hclosing : 0x20 ≤ closing.toNat ∧ closing.toNat < 0x80) {parts : List Text}
    (h : ∀ part ∈ parts, Printed known part) :
    Printed known (block opening closing depth parts) := by
  have hcomma : Printed known [scalar ','] := printed_char (by decide)
  unfold block
  split
  · exact (printed_char hopening).append (printed_char hclosing)
  · exact ((((printed_char hopening).append (printed_newline _)).append (printed_joinWith
      (hcomma.append (printed_newline _)) h)).append (printed_newline _)).append
      (printed_char hclosing)

theorem printed_word : ∀ found ∈ words, Printed known found.1 := by
  have hplain : ∀ found ∈ words, ∀ c ∈ found.1,
      c = scalar '\n' ∨ 0x20 ≤ c.toNat ∧ c.toNat < 0x80 := by
    simp only [words, List.forall_mem_cons]
    decide
  exact fun found hfound => printed_plain (hplain found hfound)

theorem printed_writeAt (h : IsData v) (hknown : ∀ c, Contains c v → known c) (depth : Nat) :
    Printed known (writeAt depth v) := by
  induction h generalizing depth with
  | null => exact printed_word ("null", .null) (by simp [words])
  | bool b =>
      cases b with
      | false => exact printed_word ("false", .bool false) (by simp [words])
      | true => exact printed_word ("true", .bool true) (by simp [words])
  | int n =>
      show Printed known (Text.ofInt n)
      rw [ofInt_eq]
      exact (printed_signText _).append (printed_digits (Text.areDigits_ofNat _))
  | float x hcanonical =>
      show Printed known (floatText x)
      rcases floatText_eq hcanonical with hword | ⟨n, htext, hwell, -⟩
      · exact printed_word _ hword
      · rw [htext]
        exact (printed_signText _).append (printed_text hwell)
  | text t => exact printed_writeText fun c hc => hknown c (.text hc)
  | list items hitems ih =>
      rw [writeAt, writeItems_eq]
      exact printed_block (by decide) (by decide) (List.forall_mem_map.2 fun item hitem =>
        ih item hitem (fun c hc => hknown c (.item hitem hc)) _)
  | map fields hnodup hfields ih =>
      rw [writeAt, writeEntries_eq]
      refine printed_block (by decide) (by decide) (List.forall_mem_map.2 fun field hfield => ?_)
      exact ((printed_writeText fun c hc => hknown c (.key hfield hc)).append
        (printed_plain (by decide))).append
          (ih field hfield (fun c hc => hknown c (.value hfield hc)) _)

end Printed

/-- Reading a document back does not turn on what becomes of carriage returns. -/
theorem carriageReturn_not_mem_write (h : IsData v) :
    Text.carriageReturn ∉ write v ++ ("\n" : Text) := by
  intro hmem
  rcases (printed_writeAt h (fun _ _ => trivial) 0).append (printed_newline 0) _ hmem with
    heq | ⟨hlarge, -⟩
  · exact absurd heq (by decide)
  · exact absurd hlarge (by decide)

/-- Only what a value has in its texts can keep its document from being encoded. -/
theorem exists_surrogate_of_encode {error : EncodeError} (h : IsData v)
    (hencode : Text.encode (write v ++ ("\n" : Text)) = .error error) :
    ∃ c, c.isSurrogate = true ∧ Contains c v := by
  by_contra hnone
  push Not at hnone
  have hprinted := (printed_writeAt h (fun _ => id) 0).append (printed_newline 0)
  have hplain : ∀ c ∈ write v ++ ("\n" : Text), c.isSurrogate = false := by
    intro c hc
    rcases hprinted c hc with rfl | ⟨-, hsmall | hcontains⟩
    · rfl
    · cases c with
      | scalar char => rfl
      | surrogate offset => exact absurd hsmall (by simp only [CodePoint.toNat]; omega)
    · exact eq_false_of_ne_true fun hsurrogate => hnone c hsurrogate hcontains
  rw [Text.encode_eq_ok_iff.2 ⟨hplain, rfl⟩] at hencode
  cases hencode

/-! ## What is read -/

theorem natAbs_integer_lt (whole : Text) :
    (integer whole).natAbs < 10 ^ (Binary64.cutSign whole).2.length := by
  have hread : ((Text.toNat? (Binary64.cutSign whole).2).getD 0) <
      10 ^ (Binary64.cutSign whole).2.length := by
    cases hsome : Text.toNat? (Binary64.cutSign whole).2 with
    | none => exact Nat.pow_pos (by decide)
    | some n => exact Text.toNat?_lt hsome
  unfold integer
  dsimp only
  split
  · rwa [Int.natAbs_neg, Int.natAbs_natCast]
  · rwa [Int.natAbs_natCast]

theorem isData_of_number {text rest : Text} (h : number text = .ok (v, rest)) : IsData v := by
  unfold number at h
  split at h
  · cases h
  · rename_i whole fraction power left hcut
    dsimp only at h
    split at h
    · split at h
      · cases h
      · rename_i hlong
        cases h
        refine .int _ ?_
        by_cases hempty : (Binary64.cutSign whole).2.length = 0
        · have hzero := natAbs_integer_lt whole
          rw [hempty, pow_zero, Nat.lt_one_iff] at hzero
          rw [hzero]
          decide
        · exact ((Text.length_ofNat_le_iff (Nat.pos_of_ne_zero hempty)).2
            (natAbs_integer_lt whole)).trans (Nat.not_lt.1 hlong)
    · cases h
      exact .float _ fun hnan => absurd hnan (by simp [Binary64.isNaN_ofParts])

theorem isData_of_atom {text rest : Text} (h : atom text = .ok (v, rest)) : IsData v := by
  unfold atom at h
  split at h
  · rename_i found hfound
    obtain ⟨word, hword, hsome⟩ := List.exists_of_findSome?_eq_some hfound
    obtain ⟨left, -, rfl⟩ := Option.map_eq_some_iff.1 hsome
    cases h
    have hnan (negative : Bool) : IsData (.float (.infinity negative)) :=
      .float _ fun hnan => absurd hnan (by simp [Binary64.isNaN_infinity])
    simp only [words, List.mem_cons, List.not_mem_nil, or_false] at hword
    rcases hword with ⟨-, rfl⟩ | ⟨-, rfl⟩ | ⟨-, rfl⟩ | ⟨-, rfl⟩ | ⟨-, rfl⟩ | ⟨-, rfl⟩
    exacts [.null, .bool true, .bool false, .float _ fun _ => rfl, hnan false, hnan true]
  · exact isData_of_number h

theorem isData_map {fields : List (Text × Value)} (h : ∀ field ∈ fields, IsData field.2) :
    IsData (.map (Entries.ofList (Entries.ofFields fields))) := by
  rw [Entries.ofList_ofFields]
  refine .map _ (Keyed.nodup_update List.nodup_nil) fun field hfield => ?_
  rcases Keyed.mem_update hfield with hmem | hmem
  · cases hmem
  · exact h field hmem

/-- Every reader gives data with some fuel, and entries have texts as keys. -/
structure ReadsData (fuel : Nat) : Prop where
  ofValue : ∀ {text v rest}, value fuel text = .ok (v, rest) → IsData v
  ofItems : ∀ {text all rest}, items fuel text = .ok (all, rest) → ∀ item ∈ all, IsData item
  ofEntries : ∀ {text pairs rest}, entries fuel text = .ok (pairs, rest) →
    ∃ fields, pairs = Entries.ofFields fields ∧ ∀ field ∈ fields, IsData field.2

theorem ReadsData.value_succ {text : Text} (hread : ReadsData fuel)
    (h : value (fuel + 1) text = .ok (v, rest)) : IsData v := by
  rw [value.eq_def] at h
  dsimp only at h
  split at h
  · obtain ⟨found, -, h⟩ := Except.bind_eq_ok.1 h
    cases h
    exact .text _
  · split at h
    · cases h
      exact .list [] (List.forall_mem_nil _)
    · obtain ⟨found, hfound, h⟩ := Except.bind_eq_ok.1 h
      cases h
      exact .list _ (hread.ofItems hfound)
  · split at h
    · cases h
      exact .map [] List.nodup_nil (List.forall_mem_nil _)
    · obtain ⟨found, hfound, h⟩ := Except.bind_eq_ok.1 h
      cases h
      obtain ⟨fields, hfields, hdata⟩ := hread.ofEntries hfound
      rw [hfields]
      exact isData_map hdata
  · exact isData_of_atom h

theorem ReadsData.items_succ {text : Text} {all : List Value} (hread : ReadsData fuel)
    (h : items (fuel + 1) text = .ok (all, rest)) : ∀ item ∈ all, IsData item := by
  rw [items] at h
  obtain ⟨⟨first, left⟩, hfirst, h⟩ := Except.bind_eq_ok.1 h
  dsimp only at h
  split at h
  · cases h
    exact List.forall_mem_singleton.2 (hread.ofValue hfirst)
  · obtain ⟨found, hfound, h⟩ := Except.bind_eq_ok.1 h
    cases h
    exact List.forall_mem_cons.2 ⟨hread.ofValue hfirst, hread.ofItems hfound⟩
  · cases h

theorem ReadsData.entries_succ {text : Text} {pairs : List (Scalar × Value)}
    (hread : ReadsData fuel) (h : entries (fuel + 1) text = .ok (pairs, rest)) :
    ∃ fields, pairs = Entries.ofFields fields ∧ ∀ field ∈ fields, IsData field.2 := by
  rw [entries.eq_def] at h
  dsimp only at h
  split at h
  · obtain ⟨⟨key, left⟩, -, h⟩ := Except.bind_eq_ok.1 h
    dsimp only at h
    split at h
    · obtain ⟨⟨first, left⟩, hfirst, h⟩ := Except.bind_eq_ok.1 h
      dsimp only at h
      have hdata := hread.ofValue hfirst
      split at h
      · cases h
        exact ⟨[(key, first)], rfl, List.forall_mem_singleton.2 hdata⟩
      · obtain ⟨⟨others, left⟩, hothers, h⟩ := Except.bind_eq_ok.1 h
        cases h
        obtain ⟨fields, rfl, hfields⟩ := hread.ofEntries hothers
        exact ⟨(key, first) :: fields, rfl, List.forall_mem_cons.2 ⟨hdata, hfields⟩⟩
      · cases h
    · cases h
  · cases h

theorem readsData (fuel : Nat) : ReadsData fuel := by
  induction fuel with
  | zero => exact ⟨nofun, nofun, nofun⟩
  | succ fuel ih => exact ⟨ih.value_succ, ih.items_succ, ih.entries_succ⟩

/-- What a document is read as can be written, and is then read as the same. -/
theorem isData_of_read {text : Text} (h : read text = .ok v) : IsData v := by
  unfold read at h
  cases hdocument : document text with
  | error fault =>
      rw [hdocument] at h
      cases h
  | ok found =>
      rw [hdocument] at h
      cases h
      unfold document at hdocument
      split at hdocument
      · cases hdocument
      · obtain ⟨⟨result, left⟩, hresult, hrest⟩ := Except.bind_eq_ok.1 hdocument
        dsimp only at hrest
        split at hrest
        · cases hrest
          exact (readsData _).ofValue hresult
        · cases hrest

end Json

end Stencil

import Stencil.Proofs.FilePath
import Stencil.Proofs.Json.Tokens
import Stencil.Proofs.Keyed

/-!
# JSON documents

What a document holds, by the forms of its values.  Data is read back from the
document that it is written as, and everything that is read is data.
-/

namespace Stencil

open CodePoint (scalar)

/-! ## Mappings from texts -/

namespace Entries

/-- Entries with texts as keys. -/
def ofFields (fields : List (Text × Value)) : List (Scalar × Value) :=
  fields.map fun (key, value) => (.text key, value)

theorem ofFields_injective : Function.Injective ofFields := by
  refine List.map_injective_iff.2 ?_
  rintro ⟨key, value⟩ ⟨other, found⟩ heq
  cases heq
  rfl

theorem equals_text (key other : Text) :
    (Scalar.text key).equals (.text other) = decide (key = other) := by
  simp [Scalar.equals, Scalar.number?]

theorem insert_ofFields (fields : List (Text × Value)) (key : Text) (value : Value) :
    insert (ofFields fields) (.text key) value = ofFields (Keyed.put key value fields) := by
  induction fields with
  | nil => rfl
  | cons field fields ih =>
      obtain ⟨known, old⟩ := field
      simp only [ofFields, List.map_cons] at ih ⊢
      rw [insert, Keyed.put, equals_text]
      by_cases hknown : known = key
      · simp [hknown]
      · simp [hknown, ih]

theorem get?_ofFields (fields : List (Text × Value)) (key : Text) :
    get? (ofFields fields) (.text key) = fields.lookup key := by
  induction fields with
  | nil => rfl
  | cons field fields ih =>
      obtain ⟨known, value⟩ := field
      simp only [get?, ofFields, List.map_cons, List.find?_cons, equals_text] at ih ⊢
      by_cases hknown : known = key
      · simp [hknown]
      · simpa [hknown, Keyed.lookup_cons, Ne.symm hknown] using ih

theorem ofList_ofFields (fields : List (Text × Value)) :
    ofList (ofFields fields) = ofFields (Keyed.update [] fields) := by
  have hfold (earlier : List (Text × Value)) :
      (ofFields fields).foldl (fun entries entry => insert entries entry.1 entry.2)
        (ofFields earlier) = ofFields (Keyed.update earlier fields) := by
    induction fields generalizing earlier with
    | nil => rfl
    | cons field fields ih =>
        rw [Keyed.update_cons, ← ih, ← insert_ofFields]
        rfl
  exact hfold []

/-- Entries with distinct keys are taken as they are. -/
theorem ofList_of_nodup {fields : List (Text × Value)} (h : (fields.map (·.1)).Nodup) :
    ofList (ofFields fields) = ofFields fields := by
  rw [ofList_ofFields, Keyed.update_eq_append h (fun _ _ => List.not_mem_nil), List.nil_append]

end Entries

namespace Json

variable {depth fuel : Nat} {rest : Text} {v : Value}

/-! ## Data -/

/-- The values that documents hold. -/
inductive IsData : Value → Prop where
  | null : IsData .null
  | bool (b : Bool) : IsData (.bool b)
  | int (n : Int) (digits : (Text.ofNat n.natAbs).length ≤ 4300) : IsData (.int n)
  | float (x : Binary64) (canonical : x.isNaN = true → x = .nan) : IsData (.float x)
  | text (t : Text) : IsData (.text t)
  | list (items : List Value) (items_data : ∀ item ∈ items, IsData item) : IsData (.list items)
  | map (fields : List (Text × Value)) (keys_nodup : (fields.map (·.1)).Nodup)
      (fields_data : ∀ field ∈ fields, IsData field.2) : IsData (.map (Entries.ofFields fields))

theorem isData_map_iff {fields : List (Text × Value)} :
    IsData (.map (Entries.ofFields fields)) ↔
      (fields.map (·.1)).Nodup ∧ ∀ field ∈ fields, IsData field.2 := by
  refine ⟨fun h => ?_, fun ⟨hnodup, hfields⟩ => .map fields hnodup hfields⟩
  generalize hentries : Entries.ofFields fields = entries at h
  cases h with
  | map others hnodup hothers =>
      obtain rfl := Entries.ofFields_injective hentries
      exact ⟨hnodup, hothers⟩

/-! ## Reading what was written -/

def ReadsBack (v : Value) : Prop :=
  ∀ depth fuel rest, (writeAt depth v).length ≤ fuel → Apart rest →
    value fuel (writeAt depth v ++ rest) = .ok (v, rest)

theorem value_eq_atom {text : Text} (hquote : text.head? ≠ some (scalar '\x22'))
    (hbracket : text.head? ≠ some (scalar '[')) (hbrace : text.head? ≠ some (scalar '\x7b')) :
    value (fuel + 1) text = atom text := by
  rw [value]
  · rintro rest rfl
    exact hquote rfl
  · rintro rest rfl
    exact hbracket rfl
  · rintro rest rfl
    exact hbrace rfl

theorem writeItems_eq (depth : Nat) (items : List Value) :
    writeItems depth items = items.map (writeAt depth) := by
  induction items with
  | nil => rfl
  | cons item items ih => rw [writeItems, ih, List.map_cons]

def writeField (depth : Nat) (field : Text × Value) : Text :=
  writeText field.1 ++ (": " : Text) ++ writeAt depth field.2

theorem writeEntries_eq (depth : Nat) (fields : List (Text × Value)) :
    writeEntries depth (Entries.ofFields fields) = fields.map (writeField depth) := by
  induction fields with
  | nil => rfl
  | cons field fields ih =>
      rw [Entries.ofFields, List.map_cons, writeEntries, ← Entries.ofFields, ih]
      rfl

theorem atom_word {word : Text} (h : (word, v) ∈ words) (rest : Text) :
    atom (word ++ rest) = .ok (v, rest) := by
  simp only [words, List.mem_cons, Prod.mk.injEq, List.not_mem_nil, or_false] at h
  rcases h with ⟨rfl, rfl⟩ | ⟨rfl, rfl⟩ | ⟨rfl, rfl⟩ | ⟨rfl, rfl⟩ | ⟨rfl, rfl⟩ | ⟨rfl, rfl⟩ <;> rfl

/-- No word starts as a number does. -/
theorem atom_eq_number {negative : Bool} {whole : Text} (hne : whole ≠ [])
    (hdigits : Text.AreDigits whole) (after : Text) :
    atom (Binary64.signText negative ++ (whole ++ after)) =
      number (Binary64.signText negative ++ (whole ++ after)) := by
  obtain ⟨c, whole, rfl⟩ := List.exists_cons_of_ne_nil hne
  have hc (char : Char) (hchar : char.isDigit = false) : scalar char ≠ c :=
    (CodePoint.ne_scalar_of_isDigit (hdigits c List.mem_cons_self) hchar).symm
  have hwords : (words.findSome? fun (word, v) =>
      (Text.dropLeading? word (Binary64.signText negative ++ (c :: whole ++ after))).map
        fun rest => (v, rest)) = none := by
    cases negative <;>
      simp [words, Text.dropLeading?, Text.ofString, Binary64.signText, hc]
  rw [atom, hwords]

theorem head?_digits (negative : Bool) {whole : Text} (hne : whole ≠ [])
    (hdigits : Text.AreDigits whole) (after : Text) {char : Char} (hchar : char.isDigit = false)
    (hminus : char ≠ '-') :
    (Binary64.signText negative ++ (whole ++ after)).head? ≠ some (scalar char) := by
  obtain ⟨c, whole, rfl⟩ := List.exists_cons_of_ne_nil hne
  cases negative with
  | true => simpa [Binary64.signText] using hminus.symm
  | false =>
      simpa [Binary64.signText] using
        CodePoint.ne_scalar_of_isDigit (hdigits c List.mem_cons_self) hchar

theorem value_eq_number {negative : Bool} {whole : Text} (hne : whole ≠ [])
    (hdigits : Text.AreDigits whole) (after : Text) :
    value (fuel + 1) (Binary64.signText negative ++ (whole ++ after)) =
      number (Binary64.signText negative ++ (whole ++ after)) := by
  have hhead (char : Char) (hchar : char.isDigit = false) (hminus : char ≠ '-') :=
    head?_digits negative hne hdigits after hchar hminus
  rw [value_eq_atom (hhead _ rfl (by decide)) (hhead _ rfl (by decide)) (hhead _ rfl (by decide)),
    atom_eq_number hne hdigits]

theorem head?_word : ∀ found ∈ words, ∃ c, found.1.head? = some c ∧ isSpace c = false ∧
    c ∉ [scalar '\x22', scalar '[', scalar '\x7b'] ∧
      c ∉ [scalar ']', scalar '\x7d', scalar '\ufeff'] := by
  simp [words]
  decide

theorem value_word (word : Text) (h : (word, v) ∈ words) (rest : Text) :
    value (fuel + 1) (word ++ rest) = .ok (v, rest) := by
  obtain ⟨c, hhead, -, hc, -⟩ := head?_word _ h
  simp only [List.mem_cons, List.not_mem_nil, or_false, not_or] at hc
  rw [value_eq_atom, atom_word h] <;> simp [List.head?_append, hhead, hc]

theorem writeText_append (t rest : Text) :
    writeText t ++ rest = scalar '\x22' :: (t.flatMap escapeOf ++ scalar '\x22' :: rest) := by
  rw [writeText, List.cons_append, List.cons_append, List.append_assoc, List.singleton_append]

theorem stringBody_writeText {opening : Nat} (t rest : Text) :
    stringBody opening (scalar '\x22' :: (t.flatMap escapeOf ++ scalar '\x22' :: rest)).length
      (t.flatMap escapeOf ++ scalar '\x22' :: rest) = .ok (t, rest) := by
  have hescaped : t.length ≤ (t.flatMap escapeOf).length := by
    induction t with
    | nil => exact Nat.le_refl 0
    | cons c t ih =>
        have hone := List.length_pos_iff.2 (escapeOf_ne_nil c)
        rw [List.flatMap_cons, List.length_append, List.length_cons]
        omega
  apply stringBody_escaped
  simp only [List.length_cons, List.length_append]
  omega

theorem value_writeText (t rest : Text) :
    value (fuel + 1) (writeText t ++ rest) = .ok (.text t, rest) := by
  rw [writeText_append, value, stringBody_writeText]
  rfl

/-- A number with a fraction or power is written as a word, or as a numeral that stands for it. -/
theorem floatText_eq {x : Binary64} (hcanonical : x.isNaN = true → x = .nan) :
    (floatText x, Value.float x) ∈ words ∨
      ∃ n : Numeral, floatText x = Binary64.signText x.isNegative ++ n.text ∧ n.WellFormed ∧
        (n.fraction ≠ [] ∨ n.power ≠ none) ∧
        Binary64.ofParts x.isNegative n.whole n.fraction (n.power.getD 0) = x := by
  unfold floatText
  split
  · rename_i hnan
    rw [hcanonical hnan]
    exact .inl (by simp [words])
  split
  · rename_i hinfinite
    have hx : x = .infinity x.isNegative := by
      rw [Binary64.infinity, ← of_decide_eq_true hinfinite, Binary64.ofMagnitude_magnitude]
    generalize x.isNegative = negative at hx
    rw [hx]
    cases negative <;> exact .inl (by simp [words])
  · rename_i hnan hinfinite
    have hfinite : x.isFinite = true := by
      have hmagnitude := of_decide_eq_false (eq_false_of_ne_true hnan)
      have hbound := of_decide_eq_false (eq_false_of_ne_true hinfinite)
      exact Binary64.isFinite_iff.2 (by omega)
    exact .inr (Binary64.text_eq hfinite)

theorem value_floatText {x : Binary64} (hcanonical : x.isNaN = true → x = .nan) (h : Apart rest) :
    value (fuel + 1) (floatText x ++ rest) = .ok (.float x, rest) := by
  rcases floatText_eq hcanonical with hword | ⟨n, htext, hwell, hmarked, hread⟩
  · exact value_word _ hword rest
  · have hnumber := number_marked x.isNegative hwell hmarked h
    rw [hread] at hnumber
    rw [htext]
    simp only [Numeral.text, List.append_assoc] at hnumber ⊢
    rw [value_eq_number hwell.whole_ne_nil hwell.whole_digits, hnumber]

theorem value_ofInt {n : Int} (hn : (Text.ofNat n.natAbs).length ≤ 4300) (h : Apart rest) :
    value (fuel + 1) (Text.ofInt n ++ rest) = .ok (.int n, rest) := by
  have hnumber := number_ofInt hn h
  rw [ofInt_eq, List.append_assoc] at hnumber ⊢
  rw [value_eq_number (Text.ofNat_ne_nil _) (Text.areDigits_ofNat _), hnumber]

/-! ## Sequences and mappings -/

/-- What stands between the parts of a sequence or mapping. -/
def comma (depth : Nat) : Text := scalar ',' :: newline depth

theorem apart_newline (depth : Nat) (text : Text) : Apart (newline depth ++ text) := by
  refine ⟨?_, nofun, ?_⟩ <;> rintro c ⟨⟩ <;> decide

theorem apart_comma (depth : Nat) (text : Text) : Apart (comma depth ++ text) := by
  refine ⟨?_, nofun, ?_⟩ <;> rintro c ⟨⟩ <;> decide

/-- Something starts here that is no blank, no closing bracket and no byte order mark. -/
def Opens (text : Text) : Prop :=
  ∃ c, text.head? = some c ∧ isSpace c = false ∧
    c ∉ [scalar ']', scalar '\x7d', scalar '\ufeff']

theorem Opens.head?_ne {text : Text} (h : Opens text) :
    ∀ c ∈ [scalar ']', scalar '\x7d', scalar '\ufeff'], text.head? ≠ some c := by
  obtain ⟨first, hhead, -, hfirst⟩ := h
  rintro c hc heq
  rw [hhead, Option.some.injEq] at heq
  exact hfirst (heq ▸ hc)

theorem Opens.append {text : Text} (h : Opens text) (rest : Text) : Opens (text ++ rest) := by
  obtain ⟨c, hhead, hc⟩ := h
  exact ⟨c, by rw [List.head?_append, hhead]; rfl, hc⟩

theorem skipSpace_newline (depth : Nat) {text : Text} (h : ∀ c ∈ text.head?, isSpace c = false) :
    skipSpace (newline depth ++ text) = text := by
  have hblank : ∀ c ∈ newline depth, isSpace c = true := by
    intro c hc
    rcases List.mem_cons.1 hc with rfl | hc
    · rfl
    · rw [List.eq_of_mem_replicate hc]
      rfl
  rw [skipSpace, List.dropWhile_append_of_pos hblank]
  cases text with
  | nil => rfl
  | cons c text => rw [List.dropWhile_cons_of_neg (by simp [h c rfl])]

theorem Opens.head?_not_space {text : Text} (h : Opens text) :
    ∀ c ∈ text.head?, isSpace c = false := by
  obtain ⟨first, hhead, hspace, -⟩ := h
  intro c hc
  rw [hhead, Option.mem_some_iff] at hc
  rwa [← hc]

theorem Opens.skipSpace_newline {text : Text} (h : Opens text) (depth : Nat) :
    skipSpace (newline depth ++ text) = text :=
  Json.skipSpace_newline depth h.head?_not_space

theorem Opens.skipSpace_self {text : Text} (h : Opens text) : skipSpace text = text :=
  (List.dropWhile_cons_of_pos rfl).symm.trans (h.skipSpace_newline 0)

theorem opens_writeText (t : Text) : Opens (writeText t) := ⟨_, rfl, by decide, by decide⟩

theorem opens_block (opening closing : Char) (hopening : isSpace (scalar opening) = false)
    (hne : scalar opening ∉ [scalar ']', scalar '\x7d', scalar '\ufeff']) (parts : List Text) :
    Opens (block opening closing depth parts) := by
  refine ⟨scalar opening, ?_, hopening, hne⟩
  unfold block
  split <;> rfl

theorem opens_number {negative : Bool} {whole : Text} (hne : whole ≠ [])
    (hdigits : Text.AreDigits whole) (after : Text) :
    Opens (Binary64.signText negative ++ (whole ++ after)) := by
  obtain ⟨c, whole, rfl⟩ := List.exists_cons_of_ne_nil hne
  cases negative with
  | true => exact ⟨_, rfl, by decide, by decide⟩
  | false =>
      have hc := hdigits c List.mem_cons_self
      refine ⟨c, rfl, ?_, by simp [CodePoint.ne_scalar_of_isDigit hc]⟩
      cases c with
      | surrogate offset => rfl
      | scalar char =>
          have hne (other : Char) (hother : other.isDigit = false) : char ≠ other :=
            fun heq => CodePoint.ne_scalar_of_isDigit hc hother (congrArg scalar heq)
          simp [isSpace, CodePoint.isIn, hne]

theorem opens_writeAt (h : IsData v) (depth : Nat) : Opens (writeAt depth v) := by
  cases h with
  | null => exact ⟨_, rfl, by decide, by decide⟩
  | bool b => cases b <;> exact ⟨_, rfl, by decide, by decide⟩
  | int n =>
      show Opens (Text.ofInt n)
      rw [ofInt_eq, ← List.append_nil (Text.ofNat _)]
      exact opens_number (Text.ofNat_ne_nil _) (Text.areDigits_ofNat _) []
  | float x hcanonical =>
      show Opens (floatText x)
      rcases floatText_eq hcanonical with hword | ⟨n, htext, hwell, -⟩
      · obtain ⟨c, hhead, hspace, -, hc⟩ := head?_word _ hword
        exact ⟨c, hhead, hspace, hc⟩
      · rw [htext, Numeral.text, List.append_assoc]
        exact opens_number hwell.whole_ne_nil hwell.whole_digits _
  | text t => exact opens_writeText t
  | list items => exact opens_block _ _ rfl (by decide) _
  | map fields => exact opens_block _ _ rfl (by decide) _

theorem opens_joinWith {separator : Text} {parts : List Text} (hne : parts ≠ [])
    (h : ∀ part ∈ parts, Opens part) : Opens (Text.joinWith separator parts) := by
  obtain ⟨part, parts, rfl⟩ := List.exists_cons_of_ne_nil hne
  have hpart := h part List.mem_cons_self
  cases parts with
  | nil => rwa [Text.joinWith_singleton]
  | cons other parts =>
      rw [Text.joinWith_cons_cons]
      exact hpart.append _

theorem skipSpace_closing (depth : Nat) {closing : Char} (h : isSpace (scalar closing) = false) :
    skipSpace (newline depth ++ scalar closing :: rest) = scalar closing :: rest :=
  skipSpace_newline depth (by rintro c ⟨⟩; exact h)

section Steps

variable {text left next : Text} {first : Value} {others : List Value}
  {pairs : List (Scalar × Value)}

theorem value_list (hopens : (skipSpace text).head? ≠ some (scalar ']'))
    (hitems : items fuel (skipSpace text) = .ok (others, rest)) :
    value (fuel + 1) (scalar '[' :: text) = .ok (.list others, rest) := by
  rw [value]
  split
  · rename_i hclose
    exact absurd (congrArg List.head? hclose) hopens
  · rw [hitems]
    rfl

theorem value_map (hopens : (skipSpace text).head? ≠ some (scalar '\x7d'))
    (hpairs : entries fuel (skipSpace text) = .ok (pairs, rest)) :
    value (fuel + 1) (scalar '\x7b' :: text) = .ok (.map (Entries.ofList pairs), rest) := by
  rw [value]
  split
  · rename_i hclose
    exact absurd (congrArg List.head? hclose) hopens
  · rw [hpairs]
    rfl

theorem items_last (hfirst : value fuel text = .ok (first, left))
    (hclose : skipSpace left = scalar ']' :: rest) :
    items (fuel + 1) text = .ok ([first], rest) := by
  rw [items, hfirst]
  simp only [bind, Except.bind, hclose]
  rfl

theorem items_more (hfirst : value fuel text = .ok (first, left))
    (hcomma : skipSpace left = scalar ',' :: next)
    (hothers : items fuel (skipSpace next) = .ok (others, rest)) :
    items (fuel + 1) text = .ok (first :: others, rest) := by
  rw [items, hfirst]
  simp only [bind, Except.bind, hcomma, hothers]
  rfl

theorem Opens.skipSpace_blank (h : Opens text) : skipSpace (scalar ' ' :: text) = text :=
  (List.dropWhile_cons_of_pos rfl).trans h.skipSpace_self

theorem entries_last (key : Text) (hopens : Opens text)
    (hfirst : value fuel text = .ok (first, left))
    (hclose : skipSpace left = scalar '\x7d' :: rest) :
    entries (fuel + 1) (writeText key ++ ((": " : Text) ++ text)) =
      .ok ([(.text key, first)], rest) := by
  rw [writeText_append, entries, stringBody_writeText]
  show (value fuel (skipSpace (scalar ' ' :: text)) >>= _) = _
  rw [hopens.skipSpace_blank, hfirst]
  simp only [bind, Except.bind, hclose]
  rfl

theorem entries_more (key : Text) (hopens : Opens text)
    (hfirst : value fuel text = .ok (first, left))
    (hcomma : skipSpace left = scalar ',' :: next)
    (hpairs : entries fuel (skipSpace next) = .ok (pairs, rest)) :
    entries (fuel + 1) (writeText key ++ ((": " : Text) ++ text)) =
      .ok ((.text key, first) :: pairs, rest) := by
  rw [writeText_append, entries, stringBody_writeText]
  show (value fuel (skipSpace (scalar ' ' :: text)) >>= _) = _
  rw [hopens.skipSpace_blank, hfirst]
  simp only [bind, Except.bind, hcomma, hpairs]
  rfl

end Steps

/-- The parts of a sequence or mapping on lines of their own, up to the closing bracket. -/
def closed (closing : Char) (depth : Nat) (parts : List Text) (rest : Text) : Text :=
  Text.joinWith (comma (depth + 1)) parts ++ (newline depth ++ scalar closing :: rest)

section Closed

variable {closing : Char} {part : Text} {parts : List Text}

theorem closed_singleton :
    closed closing depth [part] rest = part ++ (newline depth ++ scalar closing :: rest) := by
  rw [closed, Text.joinWith_singleton]

theorem closed_cons (h : parts ≠ []) :
    closed closing depth (part :: parts) rest =
      part ++ (comma (depth + 1) ++ closed closing depth parts rest) := by
  obtain ⟨other, parts, rfl⟩ := List.exists_cons_of_ne_nil h
  rw [closed, Text.joinWith_cons_cons, List.append_assoc, List.append_assoc]
  rfl

theorem length_lt_closed (closing : Char) (depth : Nat) (parts : List Text) (rest : Text) :
    rest.length < (closed closing depth parts rest).length := by
  simp only [closed, List.length_append, List.length_cons]
  omega

theorem opens_closed (hne : parts ≠ []) (h : ∀ part ∈ parts, Opens part) :
    Opens (closed closing depth parts rest) :=
  (opens_joinWith hne h).append _

end Closed

theorem items_written {all : List Value} (hne : all ≠ []) (hdata : ∀ item ∈ all, IsData item)
    (hread : ∀ item ∈ all, ReadsBack item)
    (hfuel : (closed ']' depth (all.map (writeAt (depth + 1))) rest).length < fuel + rest.length) :
    items fuel (closed ']' depth (all.map (writeAt (depth + 1))) rest) = .ok (all, rest) := by
  induction all generalizing fuel with
  | nil => exact absurd rfl hne
  | cons item others ih =>
      obtain ⟨hitem, hothers⟩ := List.forall_mem_cons.1 hread
      obtain ⟨-, hdata⟩ := List.forall_mem_cons.1 hdata
      have hlt := length_lt_closed ']' depth ((item :: others).map (writeAt (depth + 1))) rest
      obtain ⟨fuel, rfl⟩ := Nat.exists_eq_add_one_of_ne_zero (show fuel ≠ 0 by omega)
      by_cases hlast : others = []
      · subst hlast
        rw [List.map_singleton, closed_singleton] at hfuel ⊢
        simp only [List.length_append, List.length_cons] at hfuel
        exact items_last (hitem _ fuel _ (by omega) (apart_newline _ _)) (skipSpace_closing _ rfl)
      · have hparts : others.map (writeAt (depth + 1)) ≠ [] := by simpa using hlast
        have hopens : Opens (closed ']' depth (others.map (writeAt (depth + 1))) rest) :=
          opens_closed hparts
            (List.forall_mem_map.2 fun item hitem => opens_writeAt (hdata item hitem) _)
        have hmore := length_lt_closed ']' depth (others.map (writeAt (depth + 1))) rest
        rw [List.map_cons, closed_cons hparts] at hfuel ⊢
        simp only [List.length_append, comma, List.length_cons] at hfuel
        refine items_more (hitem _ fuel _ (by omega) (apart_comma _ _)) rfl ?_
        show items fuel (skipSpace (newline (depth + 1) ++ _)) = _
        rw [hopens.skipSpace_newline]
        exact ih hlast hdata hothers (by omega)

theorem entries_written {fields : List (Text × Value)} (hne : fields ≠ [])
    (hdata : ∀ field ∈ fields, IsData field.2) (hread : ∀ field ∈ fields, ReadsBack field.2)
    (hfuel : (closed '\x7d' depth (fields.map (writeField (depth + 1))) rest).length <
      fuel + rest.length) :
    entries fuel (closed '\x7d' depth (fields.map (writeField (depth + 1))) rest) =
      .ok (Entries.ofFields fields, rest) := by
  induction fields generalizing fuel with
  | nil => exact absurd rfl hne
  | cons field others ih =>
      obtain ⟨key, item⟩ := field
      obtain ⟨hitem : ReadsBack item, hothers⟩ := List.forall_mem_cons.1 hread
      obtain ⟨hfirst, hdata⟩ := List.forall_mem_cons.1 hdata
      have hopens := (opens_writeAt hfirst (depth + 1)).append
      have hlt := length_lt_closed '\x7d' depth
        (((key, item) :: others).map (writeField (depth + 1))) rest
      obtain ⟨fuel, rfl⟩ := Nat.exists_eq_add_one_of_ne_zero (show fuel ≠ 0 by omega)
      by_cases hlast : others = []
      · subst hlast
        rw [List.map_singleton, closed_singleton] at hfuel ⊢
        simp only [List.length_append, List.length_cons, writeField] at hfuel
        rw [writeField, List.append_assoc, List.append_assoc]
        exact entries_last key (hopens _) (hitem _ fuel _ (by omega) (apart_newline _ _))
          (skipSpace_closing _ rfl)
      · have hparts : others.map (writeField (depth + 1)) ≠ [] := by simpa using hlast
        have hnext : Opens (closed '\x7d' depth (others.map (writeField (depth + 1))) rest) :=
          opens_closed hparts
            (List.forall_mem_map.2 fun other _ => ((opens_writeText _).append _).append _)
        have hmore := length_lt_closed '\x7d' depth (others.map (writeField (depth + 1))) rest
        rw [List.map_cons, closed_cons hparts] at hfuel ⊢
        simp only [List.length_append, comma, List.length_cons, writeField] at hfuel
        rw [writeField, List.append_assoc, List.append_assoc]
        refine entries_more key (hopens _) (hitem _ fuel _ (by omega) (apart_comma _ _)) rfl ?_
        show entries fuel (skipSpace (newline (depth + 1) ++ _)) = _
        rw [hnext.skipSpace_newline]
        exact ih hlast hdata hothers (by omega)

theorem block_append (opening closing : Char) (depth : Nat) {parts : List Text} (hne : parts ≠ [])
    (rest : Text) :
    block opening closing depth parts ++ rest =
      scalar opening :: (newline (depth + 1) ++ closed closing depth parts rest) := by
  rw [block, if_neg (by simpa using hne)]
  simp [closed, comma]

theorem readsBack_of_succ (hdata : IsData v)
    (h : ∀ depth fuel rest, (writeAt depth v).length ≤ fuel + 1 → Apart rest →
      value (fuel + 1) (writeAt depth v ++ rest) = .ok (v, rest)) : ReadsBack v := by
  intro depth fuel rest hfuel hrest
  have hne : writeAt depth v ≠ [] := by
    obtain ⟨c, hhead, -⟩ := opens_writeAt hdata depth
    rintro hnil
    rw [hnil] at hhead
    cases hhead
  have hpos := List.length_pos_iff.2 hne
  obtain ⟨fuel, rfl⟩ := Nat.exists_eq_add_one_of_ne_zero (show fuel ≠ 0 by omega)
  exact h depth fuel rest hfuel hrest

theorem readsBack_list {all : List Value} (hitems : ∀ item ∈ all, IsData item)
    (h : ∀ item ∈ all, ReadsBack item) : ReadsBack (.list all) := by
  refine readsBack_of_succ (.list all hitems) fun depth fuel rest hfuel hrest => ?_
  rw [writeAt, writeItems_eq] at hfuel ⊢
  by_cases hne : all = []
  · subst hne
    rfl
  · have hparts : all.map (writeAt (depth + 1)) ≠ [] := by simpa using hne
    have hopens : Opens (closed ']' depth (all.map (writeAt (depth + 1))) rest) :=
      opens_closed hparts
        (List.forall_mem_map.2 fun item hitem => opens_writeAt (hitems item hitem) _)
    have hlength := congrArg List.length (block_append '[' ']' depth hparts rest)
    simp only [List.length_append, List.length_cons, newline] at hlength
    rw [block_append _ _ _ hparts]
    refine value_list ?_ ?_ <;> rw [hopens.skipSpace_newline]
    · exact hopens.head?_ne _ (by decide)
    · exact items_written hne hitems h (by omega)

theorem readsBack_map (hnodup : (fields.map (·.1)).Nodup)
    (hfields : ∀ field ∈ fields, IsData field.2) (h : ∀ field ∈ fields, ReadsBack field.2) :
    ReadsBack (.map (Entries.ofFields fields)) := by
  refine readsBack_of_succ (.map fields hnodup hfields) fun depth fuel rest hfuel hrest => ?_
  rw [writeAt, writeEntries_eq] at hfuel ⊢
  by_cases hne : fields = []
  · subst hne
    rfl
  · have hparts : fields.map (writeField (depth + 1)) ≠ [] := by simpa using hne
    have hopens : Opens (closed '\x7d' depth (fields.map (writeField (depth + 1))) rest) :=
      opens_closed hparts
        (List.forall_mem_map.2 fun field _ => ((opens_writeText _).append _).append _)
    have hlength := congrArg List.length (block_append '\x7b' '\x7d' depth hparts rest)
    simp only [List.length_append, List.length_cons, newline] at hlength
    rw [block_append _ _ _ hparts, ← Entries.ofList_of_nodup hnodup]
    refine value_map ?_ ?_ <;> rw [hopens.skipSpace_newline]
    · exact hopens.head?_ne _ (by decide)
    · exact entries_written hne hfields h (by omega)

/-- Data is read as it was written, whatever stands behind it. -/
theorem readsBack_of_isData (h : IsData v) : ReadsBack v := by
  have hdata := h
  induction h with
  | null => exact readsBack_of_succ hdata fun _ _ rest _ _ =>
      value_word "null" (by simp [words]) rest
  | bool b =>
      refine readsBack_of_succ hdata fun _ _ rest _ _ => ?_
      cases b with
      | false => exact value_word "false" (by simp [words]) rest
      | true => exact value_word "true" (by simp [words]) rest
  | int n hdigits => exact readsBack_of_succ hdata fun _ _ _ _ hrest => value_ofInt hdigits hrest
  | float x hcanonical =>
      exact readsBack_of_succ hdata fun _ _ _ _ hrest => value_floatText hcanonical hrest
  | text t => exact readsBack_of_succ hdata fun _ _ rest _ _ => value_writeText t rest
  | list all hitems ih =>
      exact readsBack_list hitems fun item hitem => ih item hitem (hitems item hitem)
  | map fields hnodup hfields ih =>
      exact readsBack_map hnodup hfields fun field hfield =>
        ih field hfield (hfields field hfield)

/-- A document is read as the data that it was written from. -/
theorem read_write (h : IsData v) : read (write v ++ ("\n" : Text)) = .ok v := by
  have hopens := (opens_writeAt h 0).append ("\n" : Text)
  have hvalue := readsBack_of_isData h 0 ((write v ++ ("\n" : Text)).length + 1) ("\n" : Text)
    (by rw [List.length_append, write]; omega) (apart_newline 0 [])
  have hdocument : document (write v ++ ("\n" : Text)) = .ok v := by
    unfold document
    split
    · rename_i hmark
      rw [← write, hmark] at hopens
      exact absurd rfl (hopens.head?_ne (scalar '\ufeff') (by decide))
    · rw [show write v = writeAt 0 v from rfl] at hvalue ⊢
      rw [hopens.skipSpace_self, hvalue]
      rfl
  rw [read, hdocument]
  rfl

end Json

end Stencil

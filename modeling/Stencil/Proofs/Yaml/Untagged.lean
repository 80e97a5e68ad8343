import Stencil.Proofs.Yaml.Scanning
import Stencil.Proofs.Yaml.Spelling
import Stencil.Yaml.Reader

/-!
# Untagged documents

Without an exclamation mark nothing in a document has a tag of its own: plain
scalars have the tags of their looks, and all other nodes those of their kind.  So
what it holds is what plain and quoted scalars, lists and mappings stand for, and
reading fails only for the form of the document or the spelling of a scalar.
-/

namespace Stencil.Yaml

/-- Faults of the document, and of an escape of no code point. -/
def Fault.IsOfForm (fault : Fault) : Prop := fault.isOfDocument = true ∨ fault.IsOfToken

namespace Node

/-- Nodes whose tags were found and not written. -/
inductive IsUntagged : Node → Prop
  | plain {text : Text} (ends : Cursor.EndsInLine text) : IsUntagged (.scalar (.ofPlain text) text)
  | quoted (text : Text) : IsUntagged (.scalar .str text)
  | sequence {items : List Node} (parts : ∀ item ∈ items, IsUntagged item) :
      IsUntagged (.sequence .sequence items)
  | mapping {entries : List (Node × Node)} (keys : ∀ entry ∈ entries, IsUntagged entry.1)
      (values : ∀ entry ∈ entries, IsUntagged entry.2) : IsUntagged (.mapping .mapping entries)

structure Reading.IsUntagged (s : Reading) : Prop where
  tokens : ∀ token ∈ s.tokens, token.IsUntagged
  ending : s.ending.IsOfToken
  anchors : ∀ entry ∈ s.anchors, ∀ node, entry.2 = some node → node.IsUntagged

namespace Reader

variable {α β : Type} {post : α → Prop} {other : β → Prop}

/-- What a reader gives where nothing is tagged. -/
def Reads (post : α → Prop) (reader : Reader α) : Prop :=
  ∀ s : Reading, s.IsUntagged →
    Yields (fun (a, later) => post a ∧ later.IsUntagged) Fault.IsOfForm (reader s)

namespace Reads

variable {reader : Reader α} {next : α → Reader β}

theorem bind (h : Reads post reader) (hnext : ∀ a, post a → Reads other (next a)) :
    Reads other (reader >>= next) := fun s hs =>
  (h s hs).bind fun (a, later) ⟨ha, hlater⟩ => hnext a ha later hlater

theorem pure {a : α} (h : post a) : Reads post (Pure.pure a : Reader α) := fun _ hs => ⟨h, hs⟩

theorem throw {fault : Fault} (h : fault.isOfDocument = true) :
    Reads post (MonadExcept.throw fault : Reader α) := fun _ _ => .inl h

theorem get : Reads (fun s : Reading => s.IsUntagged) (MonadState.get : Reader Reading) :=
  fun _ hs => ⟨hs, hs⟩

theorem update {f : Reading → Reading} (h : ∀ s : Reading, s.IsUntagged → (f s).IsUntagged) :
    Reads (fun _ => True) (modify f : Reader PUnit) := fun s hs => ⟨trivial, h s hs⟩

end Reads

theorem peek_reads : Reads Token.IsUntagged peek := by
  refine Reads.get.bind fun s hs => ?_
  split
  · rename_i token rest htokens
    exact .pure (hs.tokens token (htokens ▸ List.mem_cons_self))
  · refine Reads.get.bind fun s hs later hlater => ?_
    exact .inr hs.ending

theorem drop_reads : Reads (fun _ => True) drop :=
  .update fun _ hs => ⟨fun token htoken => hs.tokens token (List.mem_of_mem_tail htoken), hs.ending,
    hs.anchors⟩

theorem take?_reads (token : Token) : Reads (fun _ => True) (take? token) := by
  refine peek_reads.bind fun next _ => ?_
  split
  · exact drop_reads.bind fun _ _ => .pure trivial
  · exact .pure trivial

theorem expect_reads (token : Token) : Reads (fun _ => True) (expect token) := by
  refine (take?_reads token).bind fun found _ => ?_
  split
  · exact .throw rfl
  · exact .pure trivial

theorem nextIsAny_reads (tokens : List Token) : Reads (fun _ => True) (nextIsAny tokens) :=
  peek_reads.bind fun _ _ => .pure trivial

/-! ## Properties and anchors -/

theorem anchor?_reads : Reads (fun _ => True) anchor? := by
  refine peek_reads.bind fun token _ => ?_
  split
  · exact drop_reads.bind fun _ _ => .pure trivial
  · exact .pure trivial

theorem tag?_reads : Reads (· = none) tag? := by
  refine peek_reads.bind fun token htoken => ?_
  split
  · exact htoken.elim
  · exact .pure rfl

theorem properties_reads : Reads (fun (_, tag) => tag = none) properties := by
  refine anchor?_reads.bind fun first _ => ?_
  refine tag?_reads.bind fun tag htag => ?_
  subst htag
  rw [Option.isSome_none, Bool.and_false, if_neg Bool.false_ne_true]
  exact fun s hs => ⟨rfl, hs⟩

theorem declare_reads (anchor : Option Text) : Reads (fun _ => True) (declare anchor) := by
  unfold declare
  split
  · exact .pure trivial
  · refine Reads.get.bind fun s _ => ?_
    split
    · exact fun _ _ => .inl rfl
    · refine .update fun s hs => ⟨hs.tokens, hs.ending, ?_⟩
      rintro entry hentry node hnode
      rcases List.mem_cons.1 hentry with rfl | hmem
      · cases hnode
      · exact hs.anchors entry hmem node hnode

theorem define_reads (anchor : Option Text) {node : Node} (hnode : node.IsUntagged) :
    Reads (fun _ => True) (define anchor node) := by
  unfold define
  split
  · exact .pure trivial
  · refine .update fun s hs => ⟨hs.tokens, hs.ending, ?_⟩
    rintro entry hentry other hother
    rcases List.mem_cons.1 hentry with rfl | hmem
    · cases hother
      exact hnode
    · exact hs.anchors entry hmem other hother

theorem resolve_reads (name : Text) : Reads Node.IsUntagged (resolve name) := by
  refine Reads.get.bind fun s hs => ?_
  split
  · rename_i node hlookup
    obtain ⟨before, after, hanchors, -⟩ := List.lookup_eq_some_iff.1 hlookup
    have hmem : (name, some node) ∈ s.anchors :=
      hanchors ▸ List.mem_append_right _ List.mem_cons_self
    exact .pure (hs.anchors _ hmem node rfl)
  · exact .throw rfl
  · exact .throw rfl

theorem empty_isUntagged : empty.IsUntagged :=
  @IsUntagged.plain [] fun c hc => by cases hc

/-! ## Nodes -/

theorem blank_reads (anchor : Option Text) : Reads Node.IsUntagged (blank anchor none) := by
  unfold blank
  split
  · exact fun _ _ => .inl rfl
  · exact (declare_reads anchor).bind fun _ _ => .pure empty_isUntagged

/-- What the readers of some depth give where nothing is tagged. -/
structure ReadsUntagged (fuel : Nat) : Prop where
  node : ∀ inBlock unindented, Reads Node.IsUntagged (node fuel inBlock unindented)
  content : ∀ inBlock unindented anchor,
    Reads Node.IsUntagged (content fuel inBlock unindented anchor none)
  nodeUnless : ∀ inBlock unindented tokens,
    Reads Node.IsUntagged (nodeUnless fuel inBlock unindented tokens)
  blockItems : Reads (∀ item ∈ ·, Node.IsUntagged item) (blockItems fuel)
  listItems : Reads (∀ item ∈ ·, Node.IsUntagged item) (listItems fuel)
  blockEntries : Reads (∀ entry ∈ ·, Node.IsUntagged entry.1 ∧ Node.IsUntagged entry.2)
    (blockEntries fuel)
  blockValue : Reads Node.IsUntagged (blockValue fuel)
  flowItems : ∀ isFirst, Reads (∀ item ∈ ·, Node.IsUntagged item) (flowItems fuel isFirst)
  flowValue : ∀ closing, Reads Node.IsUntagged (flowValue fuel closing)
  flowEntries : ∀ isFirst, Reads (∀ entry ∈ ·, Node.IsUntagged entry.1 ∧ Node.IsUntagged entry.2)
    (flowEntries fuel isFirst)

section Step

variable {fuel : Nat} (ih : ReadsUntagged fuel)

include ih

theorem node_reads (inBlock unindented : Bool) :
    Reads Node.IsUntagged (node (fuel + 1) inBlock unindented) := by
  rw [node]
  refine peek_reads.bind fun token _ => ?_
  split
  · exact drop_reads.bind fun _ _ => resolve_reads _
  · refine properties_reads.bind fun (anchor, tag) htag => ?_
    obtain rfl : tag = none := htag
    refine (ih.content _ _ anchor).bind fun result hresult => ?_
    exact (define_reads anchor hresult).bind fun _ _ => .pure hresult

theorem content_reads (inBlock unindented : Bool) (anchor : Option Text) :
    Reads Node.IsUntagged (content (fuel + 1) inBlock unindented anchor none) := by
  have hmapping {entries : List (Node × Node)}
      (hentries : ∀ entry ∈ entries, Node.IsUntagged entry.1 ∧ Node.IsUntagged entry.2) :
      Node.IsUntagged (.mapping .mapping entries) :=
    .mapping (fun entry hentry => (hentries entry hentry).1) fun entry hentry =>
      (hentries entry hentry).2
  rw [content]
  refine peek_reads.bind fun token htoken => ?_
  split
  · rename_i text isPlain
    refine drop_reads.bind fun _ _ => (declare_reads anchor).bind fun _ _ => .pure ?_
    cases isPlain with
    | true => exact .plain htoken
    | false => exact .quoted text
  · refine (declare_reads anchor).bind fun _ _ => drop_reads.bind fun _ _ => ?_
    exact (ih.flowItems true).bind fun _ hitems => .pure (.sequence hitems)
  · refine (declare_reads anchor).bind fun _ _ => drop_reads.bind fun _ _ => ?_
    exact (ih.flowEntries true).bind fun _ hentries => .pure (hmapping hentries)
  · split
    · refine (declare_reads anchor).bind fun _ _ => ?_
      exact ih.listItems.bind fun _ hitems => .pure (.sequence hitems)
    · exact blank_reads anchor
  · split
    · refine (declare_reads anchor).bind fun _ _ => drop_reads.bind fun _ _ => ?_
      exact ih.blockItems.bind fun _ hitems => .pure (.sequence hitems)
    · exact blank_reads anchor
  · split
    · refine (declare_reads anchor).bind fun _ _ => drop_reads.bind fun _ _ => ?_
      exact ih.blockEntries.bind fun _ hentries => .pure (hmapping hentries)
    · exact blank_reads anchor
  · exact blank_reads anchor

theorem nodeUnless_reads (inBlock unindented : Bool) (tokens : List Token) :
    Reads Node.IsUntagged (nodeUnless (fuel + 1) inBlock unindented tokens) := by
  rw [nodeUnless]
  refine (nextIsAny_reads tokens).bind fun found _ => ?_
  split
  · exact .pure empty_isUntagged
  · exact ih.node _ _

theorem blockItems_reads :
    Reads (∀ item ∈ ·, Node.IsUntagged item) (blockItems (fuel + 1)) := by
  rw [blockItems]
  refine (take?_reads _).bind fun found _ => ?_
  split
  · refine (ih.nodeUnless _ _ _).bind fun item hitem => ?_
    refine ih.blockItems.bind fun items hitems => ?_
    exact .pure (List.forall_mem_cons.2 ⟨hitem, hitems⟩)
  · exact (expect_reads _).bind fun _ _ => .pure (List.forall_mem_nil _)

theorem listItems_reads :
    Reads (∀ item ∈ ·, Node.IsUntagged item) (listItems (fuel + 1)) := by
  rw [listItems]
  refine (take?_reads _).bind fun found _ => ?_
  split
  · refine (ih.nodeUnless _ _ _).bind fun item hitem => ?_
    refine ih.listItems.bind fun items hitems => ?_
    exact .pure (List.forall_mem_cons.2 ⟨hitem, hitems⟩)
  · exact .pure (List.forall_mem_nil _)

theorem blockEntries_reads :
    Reads (∀ entry ∈ ·, Node.IsUntagged entry.1 ∧ Node.IsUntagged entry.2)
      (blockEntries (fuel + 1)) := by
  rw [blockEntries]
  refine (take?_reads _).bind fun found _ => ?_
  split
  · refine (ih.nodeUnless _ _ _).bind fun key hkey => ?_
    refine ih.blockValue.bind fun value hvalue => ?_
    refine ih.blockEntries.bind fun entries hentries => ?_
    exact .pure (List.forall_mem_cons.2 ⟨⟨hkey, hvalue⟩, hentries⟩)
  · exact (expect_reads _).bind fun _ _ => .pure (List.forall_mem_nil _)

theorem blockValue_reads : Reads Node.IsUntagged (blockValue (fuel + 1)) := by
  rw [blockValue]
  refine (take?_reads _).bind fun found _ => ?_
  split
  · exact ih.nodeUnless _ _ _
  · exact .pure empty_isUntagged

theorem flowValue_reads (closing : Token) :
    Reads Node.IsUntagged (flowValue (fuel + 1) closing) := by
  rw [flowValue]
  refine (take?_reads _).bind fun found _ => ?_
  split
  · exact ih.nodeUnless _ _ _
  · exact .pure empty_isUntagged

theorem flowItems_reads (isFirst : Bool) :
    Reads (∀ item ∈ ·, Node.IsUntagged item) (flowItems (fuel + 1) isFirst) := by
  have hrest : Reads (∀ item ∈ ·, Node.IsUntagged item) (do
      if ← take? .key then
        let key ← nodeUnless fuel false false [.value, .flowEntry, .flowSequenceEnd]
        let value ← flowValue fuel .flowSequenceEnd
        return .mapping .mapping [(key, value)] :: (← flowItems fuel false)
      if ← take? .flowSequenceEnd then return []
      let item ← node fuel false false
      return item :: (← flowItems fuel false)) := by
    refine (take?_reads _).bind fun isKey _ => ?_
    split
    · refine (ih.nodeUnless _ _ _).bind fun key hkey => ?_
      refine (ih.flowValue _).bind fun value hvalue => ?_
      refine (ih.flowItems false).bind fun items hitems => ?_
      refine .pure (List.forall_mem_cons.2 ⟨.mapping ?_ ?_, hitems⟩)
      · exact List.forall_mem_singleton.2 hkey
      · exact List.forall_mem_singleton.2 hvalue
    · refine (take?_reads _).bind fun ends _ => ?_
      split
      · exact .pure (List.forall_mem_nil _)
      · refine (ih.node _ _).bind fun item hitem => ?_
        refine (ih.flowItems false).bind fun items hitems => ?_
        exact .pure (List.forall_mem_cons.2 ⟨hitem, hitems⟩)
  rw [flowItems]
  refine (take?_reads _).bind fun ends _ => ?_
  split
  · exact .pure (List.forall_mem_nil _)
  · dsimp only
    split
    · exact (expect_reads _).bind fun _ _ => hrest
    · exact hrest

theorem flowEntries_reads (isFirst : Bool) :
    Reads (∀ entry ∈ ·, Node.IsUntagged entry.1 ∧ Node.IsUntagged entry.2)
      (flowEntries (fuel + 1) isFirst) := by
  have hrest : Reads (∀ entry ∈ ·, Node.IsUntagged entry.1 ∧ Node.IsUntagged entry.2) (do
      if ← take? .key then
        let key ← nodeUnless fuel false false [.value, .flowEntry, .flowMappingEnd]
        let value ← flowValue fuel .flowMappingEnd
        return (key, value) :: (← flowEntries fuel false)
      if ← take? .flowMappingEnd then return []
      let key ← node fuel false false
      return (key, empty) :: (← flowEntries fuel false)) := by
    refine (take?_reads _).bind fun isKey _ => ?_
    split
    · refine (ih.nodeUnless _ _ _).bind fun key hkey => ?_
      refine (ih.flowValue _).bind fun value hvalue => ?_
      refine (ih.flowEntries false).bind fun entries hentries => ?_
      exact .pure (List.forall_mem_cons.2 ⟨⟨hkey, hvalue⟩, hentries⟩)
    · refine (take?_reads _).bind fun ends _ => ?_
      split
      · exact .pure (List.forall_mem_nil _)
      · refine (ih.node _ _).bind fun key hkey => ?_
        refine (ih.flowEntries false).bind fun entries hentries => ?_
        exact .pure (List.forall_mem_cons.2 ⟨⟨hkey, empty_isUntagged⟩, hentries⟩)
  rw [flowEntries]
  refine (take?_reads _).bind fun ends _ => ?_
  split
  · exact .pure (List.forall_mem_nil _)
  · dsimp only
    split
    · exact (expect_reads _).bind fun _ _ => hrest
    · exact hrest

end Step

theorem reads_untagged (fuel : Nat) : ReadsUntagged fuel := by
  induction fuel with
  | zero =>
      constructor <;> intros <;> exact fun _ _ => .inl rfl
  | succ fuel ih =>
      exact {
        node := node_reads ih
        content := content_reads ih
        nodeUnless := nodeUnless_reads ih
        blockItems := blockItems_reads ih
        listItems := listItems_reads ih
        blockEntries := blockEntries_reads ih
        blockValue := blockValue_reads ih
        flowItems := flowItems_reads ih
        flowValue := flowValue_reads ih
        flowEntries := flowEntries_reads ih }

/-! ## Documents -/

theorem settings_reads (fuel : Nat) (hasVersion : Bool) (handles : List (Text × Text)) :
    Reads (fun _ => True) (settings fuel hasVersion handles) := by
  induction fuel generalizing hasVersion handles with
  | zero => exact .pure trivial
  | succ fuel ih =>
      rw [settings]
      refine peek_reads.bind fun token _ => ?_
      split
      · refine drop_reads.bind fun _ _ => ?_
        dsimp only
        split
        · exact fun _ _ => .inl rfl
        · exact ih _ _
      · refine drop_reads.bind fun _ _ => ?_
        dsimp only
        split
        · exact fun _ _ => .inl rfl
        · exact ih _ _
      · exact drop_reads.bind fun _ _ => ih _ _
      · exact .pure trivial

theorem documentStart_reads (fuel : Nat) : Reads (fun _ => True) (documentStart fuel) := by
  unfold documentStart
  have hdropped : Reads (fun _ => True) (modify fun s : Reading =>
      { s with tokens := s.tokens.dropWhile (· = .documentEnd) }) :=
    .update fun s hs => ⟨fun token htoken => hs.tokens token
      ((List.dropWhile_suffix _).subset htoken), hs.ending, hs.anchors⟩
  refine hdropped.bind fun _ _ => ?_
  refine peek_reads.bind fun token _ => ?_
  split
  · exact .pure trivial
  · refine (settings_reads fuel false []).bind fun handles _ => ?_
    refine (expect_reads _).bind fun _ _ => ?_
    have hhandles : Reads (fun _ => True) (modify fun s : Reading =>
        { s with handles := handles ++ defaultHandles }) :=
      .update fun s hs => ⟨hs.tokens, hs.ending, hs.anchors⟩
    exact hhandles.bind fun _ _ => .pure trivial

theorem documentContent_reads (fuel : Nat) : Reads Node.IsUntagged (documentContent fuel) := by
  unfold documentContent
  refine peek_reads.bind fun token _ => ?_
  split
  · exact .pure empty_isUntagged
  · exact (reads_untagged fuel).node _ _

theorem document_reads (fuel : Nat) :
    Reads (∀ node ∈ ·, Node.IsUntagged node) (document fuel) := by
  have hend {result : Node} (hresult : result.IsUntagged) :
      Reads (∀ node ∈ ·, Node.IsUntagged node) (do
        let _ ← take? .documentEnd
        if ← documentStart fuel then throw .composition
        return some result) := by
    refine (take?_reads _).bind fun _ _ => (documentStart_reads fuel).bind fun another _ => ?_
    dsimp only
    split
    · exact fun _ _ => .inl rfl
    · refine .pure fun node hnode => ?_
      cases hnode
      exact hresult
  have hnone : Reads (∀ node ∈ ·, Node.IsUntagged node) (pure none : Reader (Option Node)) :=
    .pure fun node hnode => by cases hnode
  unfold document
  refine peek_reads.bind fun token _ => ?_
  dsimp only
  split
  · refine (documentStart_reads fuel).bind fun hasDocument _ => ?_
    split
    · exact hnone
    · exact (documentContent_reads fuel).bind fun result hresult => hend hresult
  · exact ((reads_untagged fuel).node _ _).bind fun result hresult => hend hresult

end Reader

/-- The document of untagged tokens is untagged. -/
theorem ofTokens_yields {tokens : List Token} {fault : Option Fault}
    (htokens : ∀ token ∈ tokens, token.IsUntagged)
    (hfault : ∀ other, fault = some other → other.IsOfToken) :
    Yields (∀ node ∈ ·, Node.IsUntagged node) Fault.IsOfForm (ofTokens tokens fault) := by
  have hending : (fault.getD .token).IsOfToken := by
    cases fault with
    | none => exact .token
    | some fault => exact hfault fault rfl
  have hread := Reader.document_reads (4 * tokens.length + 16)
    ⟨tokens, fault.getD .token, Reader.defaultHandles, []⟩ ⟨htokens, hending, fun _ h => by cases h⟩
  exact Yields.map (hread.mono fun (_, _) h => h.1)

end Node

/-! ## What is read without tags -/

/-- Faults of documents without tags. -/
def Fault.IsOfUntagged (fault : Fault) : Prop := fault.IsOfForm ∨ fault.IsOfSpelling

theorem Fault.IsOfUntagged.construction : Fault.construction.IsOfUntagged := .inl (.inl rfl)

/-- What can be written without a tag: scalars but bytes, lists and mappings. -/
def IsUntaggedValue : Value → Prop
  | .scalar value => Scalar.IsSpelled value
  | .list _ => True
  | .map _ => True
  | _ => False

theorem Scalar.read_untagged {text : Text} (h : Cursor.EndsInLine text) :
    Yields Scalar.IsSpelled Fault.IsOfUntagged (Scalar.read (.ofPlain text) text) :=
  (Scalar.read_plain h).weaken fun _ hfault =>
    hfault.imp_left fun heq => .inl (congrArg Fault.isOfDocument heq)

/-! ## Levels -/

namespace Levelled

variable {α β : Type} {post : α → Prop} {other : β → Prop}

/-- Whether the fault of some level is one of an untagged document. -/
def Untagged (located : Nat × Fault) : Prop := located.2.IsOfUntagged

theorem at'_yields {result : Except Fault α} (level : Nat)
    (h : Yields post Fault.IsOfUntagged result) : Yields post Untagged (at' level result) := by
  cases result with
  | error fault => exact h
  | ok a => exact h

theorem both_yields {first : Levelled α} {second : Levelled β} (hfirst : Yields post Untagged first)
    (hsecond : Yields other Untagged second) :
    Yields (fun (a, b) => post a ∧ other b) Untagged (both first second) := by
  cases first with
  | error fault =>
      cases second with
      | error fault' =>
          obtain ⟨m, fault⟩ := fault
          obtain ⟨n, fault'⟩ := fault'
          rw [both]
          split
          · exact hsecond
          · exact hfirst
      | ok b => exact hfirst
  | ok a =>
      cases second with
      | error fault => exact hsecond
      | ok b => exact ⟨hfirst, hsecond⟩

theorem all_yields {results : List (Levelled α)}
    (h : ∀ result ∈ results, Yields post Untagged result) :
    Yields (∀ a ∈ ·, post a) Untagged (all results) := by
  induction results with
  | nil => exact List.forall_mem_nil _
  | cons result results ih =>
      obtain ⟨hresult, hresults⟩ := List.forall_mem_cons.1 h
      exact Yields.map ((both_yields hresult (ih hresults)).mono fun (_, _) hboth =>
        List.forall_mem_cons.2 hboth)

end Levelled

/-! ## Values of nodes -/

namespace Node

open Levelled (Untagged)

theorem keyOf_yields (level : Nat) {read : Levelled Value}
    (h : Yields (fun _ => True) Untagged read) :
    Yields (fun _ => True) Untagged (keyOf level read) := by
  unfold keyOf
  split
  · trivial
  · exact .construction
  · split
    · exact .construction
    · exact h

def AreUntagged (entries : List (Node × Node)) : Prop :=
  ∀ entry ∈ entries, entry.1.IsUntagged ∧ entry.2.IsUntagged

theorem asKey_untagged {key : Node} (h : key.IsUntagged) : (asKey key).IsUntagged := by
  unfold asKey
  split
  · exact .quoted _
  · exact h

theorem merged_yields (fuel : Nat) {entries : List (Node × Node)} (h : AreUntagged entries) :
    Yields AreUntagged Fault.IsOfUntagged (merged fuel entries) := by
  induction fuel generalizing entries with
  | zero => exact h
  | succ fuel ih =>
      rw [merged]
      refine Yields.bind (Yields.mapM fun entry hentry => ?_ : Yields
        (∀ part ∈ ·, AreUntagged part.1 ∧ AreUntagged part.2) _ _) fun parts hparts => ?_
      · obtain ⟨key, value⟩ := entry
        obtain ⟨hkey, hvalue⟩ := h _ hentry
        dsimp only
        split
        · refine ⟨List.forall_mem_nil _, List.forall_mem_singleton.2 ⟨?_, hvalue⟩⟩
          exact asKey_untagged hkey
        · cases hvalue with
          | plain | quoted => exact .construction
          | @mapping inner keys values =>
              have hinner := ih fun entry hentry => ⟨keys entry hentry, values entry hentry⟩
              exact hinner.bind fun found hfound => ⟨hfound, List.forall_mem_nil _⟩
          | @sequence items parts =>
              refine Yields.bind (Yields.mapM fun item hitem => ?_ : Yields
                (∀ found ∈ ·, AreUntagged found) _ _) fun several hseveral => ?_
              · cases parts item hitem with
                | plain | quoted | sequence => exact .construction
                | mapping keys values =>
                    exact ih fun entry hentry => ⟨keys entry hentry, values entry hentry⟩
              · refine ⟨fun entry hentry => ?_, List.forall_mem_nil _⟩
                obtain ⟨found, hfound, hmem⟩ := List.mem_flatten.1 hentry
                exact hseveral found (List.mem_reverse.1 hfound) entry hmem
      refine List.forall_mem_append.2 ⟨fun entry hentry => ?_, fun entry hentry => ?_⟩
      · obtain ⟨part, hpart, hmem⟩ := List.mem_flatMap.1 hentry
        exact (hparts part hpart).1 entry hmem
      · obtain ⟨part, hpart, hmem⟩ := List.mem_flatMap.1 hentry
        exact (hparts part hpart).2 entry hmem

theorem value_scalar (fuel level : Nat) {tag : Tag} {text : Text}
    (h : Yields Scalar.IsSpelled Fault.IsOfUntagged (Scalar.read tag text)) :
    Yields IsUntaggedValue Untagged (value (fuel + 1) level (.scalar tag text)) := by
  have hread (hvalue : value (fuel + 1) level (.scalar tag text) =
      Levelled.at' level ((Scalar.read tag text).map .scalar)) :
      Yields IsUntaggedValue Untagged (value (fuel + 1) level (.scalar tag text)) := by
    rw [hvalue]
    exact Levelled.at'_yields level (Yields.map h)
  cases tag with
  | sequence | omap | pairs | mapping | set => exact .construction
  | _ => exact hread (by cases fuel <;> rfl)

theorem value_yields (fuel level : Nat) {node : Node} (h : node.IsUntagged) :
    Yields IsUntaggedValue Untagged (value fuel level node) := by
  induction fuel generalizing level node with
  | zero => exact .construction
  | succ fuel ih =>
      cases h with
      | plain ends => exact value_scalar fuel level (Scalar.read_untagged ends)
      | quoted text => exact value_scalar fuel level trivial
      | @sequence items parts =>
          have hread : value (fuel + 1) level (.sequence .sequence items) =
              (Levelled.all (items.map (value fuel (level + 1)))).map .list := rfl
          have hitems : ∀ result ∈ items.map (value fuel (level + 1)),
              Yields IsUntaggedValue Untagged result :=
            List.forall_mem_map.2 fun item hitem => ih _ (parts item hitem)
          rw [hread]
          exact Yields.map ((Levelled.all_yields hitems).mono fun _ _ => trivial)
      | @mapping entries keys values =>
          have hread : value (fuel + 1) level (.mapping .mapping entries) = (do
              let entries ← Levelled.at' (level + 1) (merged (fuel + 1) entries)
              Levelled.all (entries.map fun entry =>
                Levelled.both (keyOf (level + 1) (value fuel (level + 1) entry.1))
                  (value fuel (level + 1) entry.2))) >>= fun fields =>
              pure (.map (Entries.ofList fields)) := rfl
          rw [hread]
          have hmerged := merged_yields (fuel + 1) fun entry hentry =>
            ⟨keys entry hentry, values entry hentry⟩
          have hfields {found : List (Node × Node)} (hfound : AreUntagged found) :
              ∀ result ∈ found.map fun entry =>
                  Levelled.both (keyOf (level + 1) (value fuel (level + 1) entry.1))
                    (value fuel (level + 1) entry.2),
                Yields (fun _ => True) Untagged result := by
            refine List.forall_mem_map.2 fun entry hentry => ?_
            obtain ⟨hkey, hitem⟩ := hfound entry hentry
            have hread := keyOf_yields (level + 1)
              ((ih (level + 1) hkey).mono fun _ _ => trivial)
            exact (Levelled.both_yields hread (ih _ hitem)).mono fun _ _ => trivial
          refine Yields.bind ?_ fun _ (_ : True) => trivial
          refine (Levelled.at'_yields (level + 1) hmerged).bind fun found hfound => ?_
          exact (Levelled.all_yields (hfields hfound)).mono fun _ _ => trivial

end Node

theorem read_yields {text : Text} (h : CodePoint.scalar '!' ∉ text) :
    Yields IsUntaggedValue Fault.IsOfUntagged (read text) := by
  rw [read]
  split
  · exact .inl (.inl rfl)
  · obtain ⟨htokens, hfault⟩ := Token.scan_untagged h
    have hread := Node.ofTokens_yields htokens hfault
    dsimp only
    split
    · rename_i fault hofTokens
      exact .inl (hread.of_error hofTokens)
    · trivial
    · rename_i node hofTokens
      have hvalue := Node.value_yields (node.height + 1) 0 (hread.of_ok hofTokens node rfl)
      cases hnode : node.value (node.height + 1) 0 with
      | error located => exact hvalue.of_error hnode
      | ok value => exact hvalue.of_ok hnode

end Stencil.Yaml

import Stencil.Proofs.FileTree.Growth
import Stencil.Proofs.Placement.Ways

/-!
# Failures that stay local

An item that cannot be looked at, read or written is skipped with a warning, and
the tour goes on beside it.  Where there are no links, the other files become what
they become in a tree without the items that were skipped.  One failure is not
caught: a text that cannot be encoded empties its file and breaks the tour off.
-/

namespace Stencil

open FileTree Session Action

/-- A path leads to a directory below which there are no links. -/
structure FileTree.Straight (tree : FileTree) (here : Location) (path : Text)
    (base : Location) : Prop where
  well : tree.WellFormed
  located : tree.locate here path true = .ok base
  directory : tree.get? base = some .directory
  unlinked : ∀ rest target, tree.get? (base ++ rest) ≠ some (.link target)

/-- The session without some items, and with nothing planned to fail. -/
def Session.without (s : Session) (base : Location) (ways : List Location) : Session :=
  { s with tree := s.tree.without base ways, faults := [], interruptions := [] }

namespace Placement

/-- A file that can be filled: its text is not needed, or it can be read, rendered and encoded. -/
structure Fills (vars : Variables) (path : FilePath) (content later : Content) : Prop where
  readable : path.isBinary = true ∨ ∃ text, textOf content = .ok text
  filled : filled vars path content = .ok later

def skippedWays (stops : List Stop) : List (List Text) :=
  (stops.filter fun stop => stop.ending.isSkipped).map Stop.way

/-- What failures come to below a directory without links. -/
structure StaysLocal (vars : Variables) (path : Text) (base : Location) (s : Session)
    (r : Except Failure (List Text)) (s' : Session) (skipped : List (List Text)) : Prop where
  raised : ∀ failure, r = .error failure → ∃ way content error,
    s.tree.get? (base ++ way) = some (.file content) ∧
      filled vars (.ofText (textBelow path way)) content = .error error ∧
      failure = .unencodable error
  beside : ∀ warnings, r = .ok warnings →
    (s.without base skipped).tree.look s.here path true = .ok .directory →
    ∀ r₂ s₂, (fillTree longestPath path vars).Ends (s.without base skipped) r₂ s₂ →
      (∃ warnings, r₂ = .ok warnings) ∧
        ∀ rest content, s.tree.get? (base ++ rest) = some (.file content) →
          (∀ way ∈ skipped, ¬ way <+: rest) →
            s'.tree.get? (base ++ rest) = s₂.tree.get? (base ++ rest)

end Placement

open Placement

variable {s m s' : Session} {tree : FileTree} {here place base : Location} {path name : Text}
  {vars : Variables} {way rest : List Text} {ways : List (List Text)} {stop : Stop}
  {stops front back : List Stop} {content later : Content} {ending : Ending}
  {failure : Failure} {warnings : List Text} {r : Except Failure (List Text)}

/-! ## Directories without links -/

namespace FileTree.Straight

theorem place_eq (h : tree.Straight here path base) (hway : Location.IsProper way)
    (hlocate : tree.locate here (textBelow path way) true = .ok place) : place = base ++ way :=
  place_of_locate_textBelow h.well hway h.located h.unlinked hlocate

theorem lists_concat (h : tree.Straight here path base)
    (hlocate : tree.locate here (textBelow path way) true = .ok (base ++ way))
    (hget : (tree.get? (base ++ (way ++ [name]))).isSome) :
    tree.Lists here path (way ++ [name]) := by
  obtain ⟨item, hitem⟩ := Option.isSome_iff_exists.1 hget
  rw [← List.append_assoc] at hitem hget
  refine ⟨fun other hother => h.well.isProper hitem other ?_, way, name, _, rfl, hlocate,
    h.well.get?_above (by simp) hitem, h.well.mem_names.2 hget⟩
  rw [List.append_assoc]
  exact List.mem_append_right _ hother

theorem isSome_of_lists (h : tree.Straight here path base) (hlists : tree.Lists here path way) :
    (tree.get? (base ++ way)).isSome := by
  obtain ⟨above, name, place, rfl, hlocate, -, hname⟩ := hlists.listed
  obtain rfl := h.place_eq (fun other hother => hlists.proper other
    (List.mem_append_left _ hother)) hlocate
  rw [← List.append_assoc]
  exact h.well.mem_names.1 hname

theorem without (h : tree.Straight here path base)
    (hlook : (tree.without base ways).look here path true = .ok .directory) :
    (tree.without base ways).Straight here path base := by
  obtain ⟨place, hlocate, hget⟩ := look_eq_ok_iff.1 hlook
  have hold := locate_extend without_isKeptBy.isExtendedBy hlocate (by simp [hget])
  rw [h.located] at hold
  cases hold
  exact ⟨h.well.without, hlocate, hget, fun rest target hlink =>
    h.unlinked rest target (without_isKeptBy _ _ hlink)⟩

/-- What is left of a tree is found where it was. -/
theorem look_without {item : FileItem} (h : tree.Straight here path base)
    (hbare : (tree.without base ways).Straight here path base) (hway : Location.IsProper way)
    (hlook : tree.look here (textBelow path way) true = .ok item)
    (hleft : ((tree.without base ways).get? (base ++ way)).isSome) :
    (tree.without base ways).look here (textBelow path way) true = .ok item := by
  obtain ⟨place, hlocate, hget⟩ := look_eq_ok_iff.1 hlook
  obtain rfl := h.place_eq hway hlocate
  obtain ⟨other, hother⟩ := Option.isSome_iff_exists.1 hleft
  have hsame := without_isKeptBy _ _ hother
  rw [hget] at hsame
  cases hsame
  refine look_eq_ok_iff.2 ⟨_, locate_textBelow_of_get? hbare.well hbare.located hbare.directory
    hway (locate_eq_ok_iff.1 hlocate).1 (fun name hname => fits_of_locate_textBelow h.well hway
      h.located hlocate hname) hother ?_, hother⟩
  rintro target rfl
  exact h.unlinked way target hget

end FileTree.Straight

namespace Placement

/-! ## Single stops -/

theorem Handled.fills {fallback? : Option Text}
    (h : Handled vars s path content (.filled fallback?) later) :
    Fills vars (.ofText path) content later := by
  cases h with
  | binary hbinary => exact ⟨.inl hbinary, filled_of_isBinary hbinary⟩
  | plain hread hmarked => exact ⟨.inr ⟨_, hread⟩, filled_of_text hread hmarked⟩
  | rendered htemplate hencode =>
      exact ⟨.inr ⟨_, htemplate.read⟩, by rw [htemplate.filled_eq, hencode, Except.map]⟩

/-- A file that can be filled is filled if nothing is planned to fail. -/
theorem Fills.exists_filled {after : Content} (h : Fills vars (.ofText path) content later)
    (hplans : ∀ operation failure, ¬ s.Plans operation path failure)
    (hhandled : Handled vars s path content ending after) :
    ∃ fallback?, ending = .filled fallback? := by
  cases hhandled with
  | binary _ | plain _ _ | rendered _ _ => exact ⟨_, rfl⟩
  | unread htextual hwhy _ =>
      rcases h.readable with hbinary | ⟨text, hread⟩
      · rw [htextual] at hbinary
        cases hbinary
      · rw [hwhy.resolve_left (hplans _ _)] at hread
        cases hread
  | unwritten _ hplanned _ | broken hplanned _ => exact absurd hplanned (hplans _ _)
  | unencodable htemplate hencode =>
      have hfilled := h.filled
      rw [htemplate.filled_eq, hencode] at hfilled
      cases hfilled

/-- Only a text that cannot be encoded breaks a stop off. -/
theorem Stop.Does.of_broken (h : stop.Does vars path s s') (hbroken : stop.ending = .broken failure)
    (hplans : ∀ {operation called other}, s.Plans operation called other → other.isOfSystem = true)
    (hfault : PathText.fault? (textBelow path stop.way) = none) :
    ∃ place content error, s.tree.locate s.here (textBelow path stop.way) true = .ok place ∧
      s.tree.get? place = some (.file content) ∧
      filled vars (.ofText (textBelow path stop.way)) content = .error error ∧
      failure = .unencodable error := by
  have hcaught : ∀ {kind other}, Ending.ofFailure kind other = .broken failure →
      other.isOfSystem = false := by
    intro kind other heq
    unfold Ending.ofFailure at heq
    split at heq
    · cases heq
    · rename_i hsystem
      exact Bool.eq_false_iff.2 hsystem
  cases h with
  | @file way ending _ _ _ _ hlocate hget hhandled _ =>
      rw [show ending = .broken failure from hbroken] at hhandled
      cases hhandled with
      | unencodable htemplate hencode =>
          exact ⟨_, _, _, hlocate, hget, by rw [htemplate.filled_eq, hencode, Except.map], rfl⟩
      | broken hplanned hsystem =>
          rw [hplans hplanned] at hsystem
          cases hsystem
  | item hwhy _ =>
      have hsystem := hcaught hbroken
      rcases hwhy with hplanned | hlook
      · rw [hplans hplanned] at hsystem
        cases hsystem
      · rcases look_eq_error hlook with hbad | ⟨cause, rfl⟩
        · rw [hfault] at hbad
          cases hbad
        · cases hsystem
  | directory hplanned _ =>
      have hsystem := hcaught hbroken
      rw [hplans hplanned] at hsystem
      cases hsystem

theorem Ending.eq_filled (hresult : ∃ own, ending.result path = .ok own)
    (hkept : ending.isSkipped = false) : ∃ fallback?, ending = .filled fallback? := by
  cases ending with
  | filled fallback? => exact ⟨_, rfl⟩
  | skipped kind fallback? failure => cases hkept
  | broken failure =>
      obtain ⟨own, hown⟩ := hresult
      cases hown

theorem Ending.ofFailure_ne_filled {kind : Text} {fallback? : Option Text} :
    Ending.ofFailure kind failure ≠ .filled fallback? := by
  unfold ofFailure
  split <;> nofun

/-! ## Stops of a tour -/

theorem Tour.exists_does (h : Tour vars path s stops s') (hstop : stop ∈ stops) :
    ∃ front back m m', stops = front ++ stop :: back ∧ Tour vars path s front m ∧
      stop.Does vars path m m' ∧ Tour vars path m' back s' := by
  induction h with
  | done _ => cases hstop
  | @stop s m s' first stops hdoes hrest ih =>
      rcases List.mem_cons.1 hstop with rfl | hstop
      · exact ⟨[], stops, s, m, rfl, .done (.refl s), hdoes, hrest⟩
      · obtain ⟨front, back, t, t', rfl, hfront, hthis, hback⟩ := ih hstop
        exact ⟨first :: front, back, t, t', rfl, .stop hdoes hfront, hthis, hback⟩

theorem Stop.Does.plans {operation : FileOperation} {called : Text} (h : stop.Does vars path s m)
    (hplans : m.Plans operation called failure) : s.Plans operation called failure := by
  cases h with
  | file _ _ _ hsets => exact hsets.plans hplans
  | item _ hglances => exact hglances.plans hplans
  | directory _ hglances => exact hglances.plans hplans

theorem Tour.plans {operation : FileOperation} {called : Text} (h : Tour vars path s stops m)
    (hplans : m.Plans operation called failure) : s.Plans operation called failure := by
  induction h with
  | done hglances => exact hglances.plans hplans
  | stop hdoes _ ih => exact hdoes.plans (ih hplans)

/-- A file that no stop leads to is left as it is. -/
theorem Tour.file_eq (h : Tour vars path s stops s') (hs : s.HasShape tree here)
    (haway : ∀ stop ∈ stops, tree.locate here (textBelow path stop.way) true ≠ .ok place)
    (hget : s.tree.get? place = some (.file content)) :
    s'.tree.get? place = some (.file content) := by
  obtain ⟨ways, hways, hall, hlater⟩ := h.exists_ways hs hget
  have hnone : ways = [] := List.eq_nil_iff_forall_not_mem.2 fun way hway => by
    obtain ⟨stop, hstop, rfl⟩ := List.mem_map.1 (hways.subset hway)
    exact haway stop hstop (hall _ hway)
  rw [hlater, hnone]
  rfl

/-- The sessions around the only stop that leads to a place. -/
structure Visits (s s' : Session) (place : Location) (m m' : Session) : Prop where
  shape : m.HasShape s.tree s.here
  plans : ∀ {operation called failure}, m.Plans operation called failure →
    s.Plans operation called failure
  before : ∀ content, m.tree.get? place = some (.file content) →
    s.tree.get? place = some (.file content)
  after : ∀ later, m'.tree.get? place = some (.file later) →
    s'.tree.get? place = some (.file later)

theorem Toured.exists_visit (h : Toured vars s.tree s.here path [[]] s r s' stops)
    (hdown : s.tree.Straight s.here path base) (hstop : stop ∈ stops) :
    ∃ m m', stop.Does vars path m m' ∧ Visits s s' (base ++ stop.way) m m' := by
  obtain ⟨front, back, m, m', rfl, hfront, hdoes, hback⟩ := h.tour.exists_does hstop
  have hs : s.HasShape s.tree s.here := ⟨.refl _, rfl, hdown.well⟩
  have hm := hs.tour hfront
  have hdistinct := h.distinct
  rw [List.map_append, List.map_cons, List.nodup_middle, List.nodup_cons] at hdistinct
  have haway : ∀ other ∈ front ++ back, s.tree.locate s.here (textBelow path other.way) true ≠
      .ok (base ++ stop.way) := by
    intro other hother hlocate
    have hmem : other ∈ front ++ stop :: back := by
      rcases List.mem_append.1 hother with hother | hother <;> simp [hother]
    have heq := List.append_cancel_left (hdown.place_eq (h.proper other hmem) hlocate)
    exact hdistinct.1 (heq ▸ List.map_append ▸ List.mem_map_of_mem hother)
  refine ⟨m, m', hdoes, hm, hfront.plans, fun content hget => ?_, fun later hget => ?_⟩
  · obtain ⟨item, hold, houtline⟩ := hm.shape.symm.isExtendedBy _ _ hget
    obtain ⟨old, rfl⟩ := FileItem.outline_eq_file.1 houtline
    have hkept := hfront.file_eq hs (fun other hother =>
      haway other (List.mem_append_left _ hother)) hold
    rw [hget] at hkept
    rwa [Option.some.inj hkept]
  · exact hback.file_eq (hm.does hdoes) (fun other hother =>
      haway other (List.mem_append_right _ hother)) hget

/-! ## What is beside the items that are skipped -/

theorem mem_skippedWays :
    way ∈ skippedWays stops ↔ ∃ stop ∈ stops, stop.ending.isSkipped = true ∧ stop.way = way := by
  simp [skippedWays, and_assoc]

section Finished

variable (h : Toured vars s.tree s.here path [[]] s (.ok warnings) s' stops)
  (hdown : s.tree.Straight s.here path base)
include h hdown

/-- A stop that is not skipped is at a file that can be filled. -/
theorem Toured.exists_fills (hstop : stop ∈ stops) (hkept : stop.ending.isSkipped = false) :
    ∃ content later, s.tree.look s.here (textBelow path stop.way) true = .ok (.file content) ∧
      s.tree.get? (base ++ stop.way) = some (.file content) ∧
      Fills vars (.ofText (textBelow path stop.way)) content later ∧
      s'.tree.get? (base ++ stop.way) = some (.file later) := by
  obtain ⟨m, m', hdoes, hvisit⟩ := h.exists_visit hdown hstop
  have hproper := h.proper stop hstop
  obtain ⟨fallback?, hfilled⟩ := Ending.eq_filled ((outcome_eq_ok_iff.1 h.result).1 stop hstop) hkept
  cases hdoes with
  | @file way ending place content later _ hlocate hget hhandled hsets =>
      rw [hvisit.shape.locate_eq] at hlocate
      obtain rfl := hdown.place_eq hproper hlocate
      have hold := hvisit.before content hget
      rw [show ending = .filled fallback? from hfilled] at hhandled
      exact ⟨content, later, look_eq_ok_iff.2 ⟨_, hlocate, hold⟩, hold, hhandled.fills,
        hvisit.after later hsets.held⟩
  | item _ _ | directory _ _ => exact absurd hfilled Ending.ofFailure_ne_filled

theorem Toured.lists_or_skipped (hget : (s.tree.get? (base ++ rest)).isSome) :
    rest = [] ∨ s.tree.Lists s.here path rest ∨ ∃ way ∈ skippedWays stops, way <+: rest := by
  induction rest using List.reverseRecOn with
  | nil => exact .inl rfl
  | append_singleton above name ih =>
      right
      have habove : s.tree.get? (base ++ above) = some .directory := by
        obtain ⟨item, hitem⟩ := Option.isSome_iff_exists.1 hget
        rw [← List.append_assoc] at hitem
        exact hdown.well.get?_above (by simp) hitem
      rcases ih (by simp [habove]) with rfl | hlists | ⟨way, hway, hprefix⟩
      · exact .inl (hdown.lists_concat (by simpa using hdown.located) hget)
      · rcases h.covers _ rfl [] List.mem_cons_self above List.nil_prefix hlists with hlook |
          ⟨stop, hstop, rfl | ⟨hskipped, hprefix⟩⟩
        · obtain ⟨place, hlocate, -⟩ := look_eq_ok_iff.1 hlook
          obtain rfl := hdown.place_eq hlists.proper hlocate
          exact .inl (hdown.lists_concat hlocate hget)
        · cases hskipped : stop.ending.isSkipped with
          | true =>
              exact .inr ⟨_, mem_skippedWays.2 ⟨stop, hstop, hskipped, rfl⟩, List.prefix_append _ _⟩
          | false =>
              -- there is nothing below a file
              obtain ⟨content, -, -, hfile, -, -⟩ := h.exists_fills hdown hstop hskipped
              rw [habove] at hfile
              cases hfile
        · exact .inr ⟨_, mem_skippedWays.2 ⟨stop, hstop, hskipped, rfl⟩,
            hprefix.trans (List.prefix_append _ _)⟩
      · exact .inr ⟨way, hway, hprefix.trans (List.prefix_append _ _)⟩

/-- What is beside the skipped items is a directory, or a file that was filled. -/
theorem Toured.look_beside (hget : (s.tree.get? (base ++ rest)).isSome)
    (hbeside : ∀ way ∈ skippedWays stops, ¬ way <+: rest) :
    s.tree.look s.here (textBelow path rest) true = .ok .directory ∨
      ∃ content later, s.tree.look s.here (textBelow path rest) true = .ok (.file content) ∧
        s.tree.get? (base ++ rest) = some (.file content) ∧
        Fills vars (.ofText (textBelow path rest)) content later ∧
        s'.tree.get? (base ++ rest) = some (.file later) := by
  rcases h.lists_or_skipped hdown hget with rfl | hlists | ⟨way, hway, hprefix⟩
  · exact .inl (look_eq_ok_iff.2 ⟨base, hdown.located, hdown.directory⟩)
  · rcases h.covers _ rfl [] List.mem_cons_self rest List.nil_prefix hlists with hlook |
      ⟨stop, hstop, rfl | ⟨hskipped, hprefix⟩⟩
    · exact .inl hlook
    · refine .inr (h.exists_fills hdown hstop (Bool.eq_false_iff.2 fun hskipped => ?_))
      exact hbeside _ (mem_skippedWays.2 ⟨stop, hstop, hskipped, rfl⟩) List.prefix_rfl
    · exact absurd hprefix (hbeside _ (mem_skippedWays.2 ⟨stop, hstop, hskipped, rfl⟩))
  · exact absurd hprefix (hbeside way hway)

theorem Toured.file_filled (hget : s.tree.get? (base ++ rest) = some (.file content))
    (hbeside : ∀ way ∈ skippedWays stops, ¬ way <+: rest) :
    ∃ later, filled vars (.ofText (textBelow path rest)) content = .ok later ∧
      s'.tree.get? (base ++ rest) = some (.file later) := by
  have hproper : Location.IsProper rest := fun name hname =>
    hdown.well.isProper hget name (List.mem_append_right _ hname)
  rcases h.look_beside hdown (by simp [hget]) hbeside with
    hlook | ⟨old, later, -, hold, hfills, hlater⟩
  · obtain ⟨place, hlocate, hdirectory⟩ := look_eq_ok_iff.1 hlook
    obtain rfl := hdown.place_eq hproper hlocate
    rw [hget] at hdirectory
    cases hdirectory
  · rw [hget] at hold
    cases hold
    exact ⟨later, hfills.filled, hlater⟩

section Bare

variable (hbare : (s.tree.without base (skippedWays stops)).Straight s.here path base)
include hbare

/-- What is left is a directory, or a file that can be filled. -/
theorem Toured.look_left (hway : Location.IsProper way) (hne : base ++ way ≠ [])
    (hleft : ((s.tree.without base (skippedWays stops)).get? (base ++ way)).isSome) :
    (s.tree.without base (skippedWays stops)).look s.here (textBelow path way) true =
        .ok .directory ∨
      ∃ content later, (s.tree.without base (skippedWays stops)).look s.here (textBelow path way)
          true = .ok (.file content) ∧
        Fills vars (.ofText (textBelow path way)) content later := by
  obtain ⟨item, hitem⟩ := Option.isSome_iff_exists.1 hleft
  have hold := without_isKeptBy _ _ hitem
  have hbeside : ∀ other ∈ skippedWays stops, ¬ other <+: way := by
    intro other hother hbelow
    rw [get?_without hne, if_pos ⟨other, hother, (List.prefix_append_right_inj base).2 hbelow⟩]
      at hitem
    cases hitem
  rcases h.look_beside hdown (by simp [hold]) hbeside with hlook | ⟨content, later, hlook, -, hfills, -⟩
  · exact .inl (hdown.look_without hbare hway hlook hleft)
  · exact .inr ⟨content, later, hdown.look_without hbare hway hlook hleft, hfills⟩

/-- Without the items that were skipped, every stop is at a file that is filled. -/
theorem Toured.filled_without {r₂ : Except Failure (List Text)} {s₂ : Session} {stops₂ : List Stop}
    (h₂ : Toured vars (s.tree.without base (skippedWays stops)) s.here path [[]]
      (s.without base (skippedWays stops)) r₂ s₂ stops₂) (hstop : stop ∈ stops₂) :
    ∃ fallback?, stop.ending = .filled fallback? := by
  obtain ⟨m, m', hdoes, hvisit⟩ :=
    Toured.exists_visit (s := s.without base (skippedWays stops)) h₂ hbare hstop
  have hplans : ∀ operation called failure, ¬ m.Plans operation called failure :=
    fun operation called failure hplanned =>
      IsCalm.not_plans (s := s.without base (skippedWays stops)) ⟨rfl, rfl⟩ (hvisit.plans hplanned)
  have hproper := h₂.proper stop hstop
  have hlook : (s.tree.without base (skippedWays stops)).look s.here (textBelow path stop.way) true =
        .ok .directory ∨ ∃ content later,
      (s.tree.without base (skippedWays stops)).look s.here (textBelow path stop.way) true =
        .ok (.file content) ∧ Fills vars (.ofText (textBelow path stop.way)) content later := by
    rcases h₂.listed stop hstop with hway | hlists
    · rw [List.mem_singleton.1 hway]
      exact .inl (look_eq_ok_iff.2 ⟨base, hbare.located, hbare.directory⟩)
    · refine h.look_left hdown hbare hproper ?_ (hbare.isSome_of_lists hlists)
      obtain ⟨above, name, -, hway, -⟩ := hlists.listed
      simp [hway]
  cases hdoes with
  | @file way ending place content later _ hlocate hget hhandled hsets =>
      rw [hvisit.shape.locate_eq] at hlocate
      obtain rfl := hbare.place_eq hproper hlocate
      have hfile := look_eq_ok_iff.2 ⟨_, hlocate, hvisit.before content hget⟩
      rcases hlook with hlook | ⟨old, final, hlook, hfills⟩
      · exact nomatch hfile.symm.trans hlook
      · cases hfile.symm.trans hlook
        exact hfills.exists_filled (fun operation failure => hplans operation _ failure) hhandled
  | @item way failure _ hwhy _ =>
      have hfailed := hwhy.resolve_left (hplans _ _ _)
      rw [hvisit.shape.here] at hfailed
      have hfailed := hvisit.shape.shape.symm.look_error hfailed
      rcases hlook with hlook | ⟨content, later, hlook, -⟩ <;>
        exact nomatch hfailed.symm.trans hlook
  | directory hplanned _ => exact absurd hplanned (hplans _ _ _)

end Bare

end Finished

/-! ## Filling with failures -/

/-- A path that leads somewhere is usable, and so are the ways below it. -/
theorem Toured.fault?_eq (h : Toured vars tree here path [[]] s r s' stops)
    (hlocate : tree.locate here path true = .ok base) (hstop : stop ∈ stops) :
    PathText.fault? (textBelow path stop.way) = none :=
  fault?_textBelow (h.proper stop hstop) (locate_eq_ok_iff.1 hlocate).1.1

theorem Toured.unencodable_of_error (h : Toured vars s.tree s.here path [[]] s r s' stops)
    (hplans : s.PlansSystemFailures) (hlocate : s.tree.locate s.here path true = .ok base)
    (hr : r = .error failure) :
    ∃ stop ∈ stops, ∃ error, stop.ending = .broken failure ∧ failure = .unencodable error := by
  obtain ⟨stop, hstop, hbroken⟩ := outcome_eq_error (h.result.trans hr)
  obtain ⟨front, back, m, m', -, hfront, hdoes, -⟩ := h.tour.exists_does hstop
  obtain ⟨-, -, error, -, -, -, herror⟩ := hdoes.of_broken hbroken
    (fun hplanned => (hfront.plans hplanned).isOfSystem hplans) (h.fault?_eq hlocate hstop)
  exact ⟨stop, hstop, error, hbroken, herror⟩

theorem Toured.staysLocal (h : Toured vars s.tree s.here path [[]] s r s' stops)
    (hplans : s.PlansSystemFailures) (hdown : s.tree.Straight s.here path base) :
    StaysLocal vars path base s r s' (skippedWays stops) := by
  constructor
  · intro failure hr
    obtain ⟨stop, hstop, hbroken⟩ := outcome_eq_error (h.result.trans hr)
    obtain ⟨m, m', hdoes, hvisit⟩ := h.exists_visit hdown hstop
    obtain ⟨place, content, error, hfile, hget, herror, hfailure⟩ := hdoes.of_broken hbroken
      (fun hplanned => (hvisit.plans hplanned).isOfSystem hplans) (h.fault?_eq hdown.located hstop)
    rw [hvisit.shape.locate_eq] at hfile
    obtain rfl := hdown.place_eq (h.proper stop hstop) hfile
    exact ⟨stop.way, content, error, hvisit.before content hget, herror, hfailure⟩
  · rintro warnings rfl hlook r₂ s₂ hend
    -- both walks end with each file that is left filled from what it held
    have hbare := hdown.without hlook
    obtain ⟨stops₂, h₂⟩ := exists_toured (s := s.without base (skippedWays stops)) hbare.well hlook
      hend
    have hfilled : ∀ stop ∈ stops₂, ∃ fallback?, stop.ending = .filled fallback? :=
      fun stop hstop => h.filled_without hdown hbare h₂ hstop
    have hnone : skippedWays stops₂ = [] := List.eq_nil_iff_forall_not_mem.2 fun way hway => by
      obtain ⟨stop, hstop, hskipped, -⟩ := mem_skippedWays.1 hway
      obtain ⟨fallback?, hending⟩ := hfilled stop hstop
      rw [hending] at hskipped
      cases hskipped
    cases r₂ with
    | error failure =>
        obtain ⟨stop, hstop, hbroken⟩ := outcome_eq_error h₂.result
        obtain ⟨fallback?, hending⟩ := hfilled stop hstop
        rw [hbroken] at hending
        cases hending
    | ok more =>
        refine ⟨⟨more, rfl⟩, fun rest content hget hbeside => ?_⟩
        obtain ⟨later, hlater, hafter⟩ := h.file_filled hdown hget hbeside
        have hne : base ++ rest ≠ [] := by
          intro hnil
          rw [hnil] at hget
          cases hget
        have hleft : (s.tree.without base (skippedWays stops)).get? (base ++ rest) =
            some (.file content) := by
          rw [get?_without hne, if_neg, hget]
          rintro ⟨way, hway, hprefix⟩
          exact hbeside way hway ((List.prefix_append_right_inj base).1 hprefix)
        obtain ⟨final, hfinal, hafter₂⟩ := Toured.file_filled
          (s := s.without base (skippedWays stops)) h₂ hbare hleft (by simp [hnone])
        rw [hafter, hafter₂, Except.ok.inj (hlater.symm.trans hfinal)]

/-- Failures of the system stay where they arise, and only a text that cannot be encoded breaks
the work off. -/
theorem failures_stay_local (hwell : s.tree.WellFormed) (hplans : s.PlansSystemFailures)
    (hlook : s.tree.look s.here path true = .ok .directory)
    (h : (fillTree longestPath path vars).Ends s r s') :
    ∃ stops, Toured vars s.tree s.here path [[]] s r s' stops ∧
      (∀ failure, r = .error failure →
        ∃ stop ∈ stops, ∃ error, stop.ending = .broken failure ∧ failure = .unencodable error) ∧
      ∀ base, s.tree.locate s.here path true = .ok base →
        (∀ rest target, s.tree.get? (base ++ rest) ≠ some (.link target)) →
          StaysLocal vars path base s r s' (skippedWays stops) := by
  obtain ⟨stops, htoured⟩ := exists_toured hwell hlook h
  obtain ⟨place, hlocate, hget⟩ := look_eq_ok_iff.1 hlook
  refine ⟨stops, htoured, fun failure => htoured.unencodable_of_error hplans hlocate,
    fun base hbase hunlinked => htoured.staysLocal hplans ⟨hwell, hbase, ?_, hunlinked⟩⟩
  rw [hlocate] at hbase
  cases hbase
  exact hget

namespace Sample

/-- The first of two files cannot be looked at. -/
def hindered : Session :=
  { pair (file "{{ y }}") (file "{{ y }}") with
    faults := [⟨.stat, some "d/a", .injected "stat is not allowed"⟩] }

/-- The first of two files would hold half of a surrogate pair. -/
def halved : Session := pair (file "{{ x }}") (file "{{ y }}")

def half : Variables := [("x", .text [.surrogate 0]), ("y", .text "k")]

end Sample

theorem failures_stay_local_hindered :
    let fill := fillTree longestPath "d" Sample.half
    let s := Sample.hindered
    s.tree.WellFormed ∧ s.PlansSystemFailures ∧ s.tree.look s.here "d" true = .ok .directory ∧
      fill.Ends s (fill.result s) (fill.after s) ∧
      ∃ stops, Toured Sample.half s.tree s.here "d" [[]] s (fill.result s) (fill.after s) stops ∧
        (∀ failure, fill.result s = .error failure →
          ∃ stop ∈ stops, ∃ error, stop.ending = .broken failure ∧ failure = .unencodable error) ∧
        ∀ base, s.tree.locate s.here "d" true = .ok base →
          (∀ rest target, s.tree.get? (base ++ rest) ≠ some (.link target)) →
            StaysLocal Sample.half "d" base s (fill.result s) (fill.after s) (skippedWays stops) :=
  have hwell : Sample.hindered.tree.WellFormed := by decide +kernel
  have hplans : Sample.hindered.PlansSystemFailures := by
    refine ⟨nofun, fun fault hfault => ?_⟩
    rw [List.mem_singleton.1 hfault]
    rfl
  have hlook : Sample.hindered.tree.look Sample.hindered.here "d" true = .ok .directory :=
    look_eq_ok_iff.2 ⟨Sample.directory, by rfl, by rfl⟩
  ⟨hwell, hplans, hlook, .run _ _, failures_stay_local hwell hplans hlook (.run _ _)⟩

/-- One text that cannot be encoded ends the whole work: its file is empty, and the file after it
is not rendered. -/
theorem unencodable_text_ends_filling :
    let fill := fillTree longestPath "d" Sample.half
    let other : Location := ["d", "b"]
    Sample.halved.faults = [] ∧ Sample.halved.interruptions = [] ∧
      (fill.result Sample.halved).toOption = none ∧
      (fill.after Sample.halved).tree.bytes? Sample.inside = some [] ∧
      (filledBytes Sample.half (.ofText "d/b")
        (("{{ y }}" : Text).flatMap CodePoint.utf8)).toOption =
          some (("k" : Text).flatMap CodePoint.utf8) ∧
      (fill.after Sample.halved).tree.bytes? other =
        some (("{{ y }}" : Text).flatMap CodePoint.utf8) := by
  have hend := (ends_fillTree_iff (s := Sample.halved) ⟨rfl, rfl⟩ (Sample.namesAt_pair _ _)).2
    (.run (fillNames Sample.half "d" ["a", "b"]) Sample.halved)
  dsimp only
  rw [hend.after_eq, hend.result_eq]
  decide +kernel

end Placement

end Stencil

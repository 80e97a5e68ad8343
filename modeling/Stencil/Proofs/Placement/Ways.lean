import Stencil.Proofs.Placement.Tour
import Stencil.Proofs.Placement.Unrendered

/-!
# Files behind several ways

Links are followed wherever filling a directory comes to one, and nothing tells
whether a file was filled before.  So a file is rendered as often as ways lead to
it, be it in the directory or elsewhere, and once at most where there are no
links.
-/

namespace Stencil

open FileTree Session

namespace Placement

/-- A file after it was rendered; it is empty if its text cannot be encoded. -/
def refilled (vars : Variables) (path : FilePath) (content : Content) : Content :=
  (filled vars path content).toOption.getD (.bytes [])

/-- A file after it was rendered on each of several ways below a path. -/
def refilledAlong (vars : Variables) (path : Text) (ways : List (List Text)) (content : Content) :
    Content :=
  ways.foldl (fun held way => refilled vars (.ofText (textBelow path way)) held) content

/-- Nothing but files is changed, and a file is rendered on each way at most once. -/
structure FillsAlongWays (vars : Variables) (path : Text) (s s' : Session) : Prop where
  others : ∀ place, (∀ content, s.tree.get? place ≠ some (.file content)) →
    s'.tree.get? place = s.tree.get? place
  files : ∀ place content, s.tree.get? place = some (.file content) →
    ∃ ways : List (List Text), ways.Nodup ∧
      (∀ way ∈ ways, way ≠ [] ∧ Location.IsProper way ∧
        s.tree.locate s.here (textBelow path way) true = .ok place) ∧
      s'.tree.get? place = some (.file (refilledAlong vars path ways content))

/-- Nothing outside a directory is changed, and the files in it are rendered at most once. -/
structure FillsOnce (vars : Variables) (path : Text) (base : Location) (s s' : Session) : Prop where
  outside : ∀ place, ¬ base <+: place → s'.tree.get? place = s.tree.get? place
  inside : ∀ rest content, s.tree.get? (base ++ rest) = some (.file content) →
    s'.tree.get? (base ++ rest) = some (.file content) ∨
      s'.tree.get? (base ++ rest) =
        some (.file (refilled vars (.ofText (textBelow path rest)) content))

variable {s m s' : Session} {tree : FileTree} {here place base : Location} {path : Text}
  {vars : Variables} {stop : Stop} {stops : List Stop} {content later : Content}
  {ending : Ending} {r : Except Failure (List Text)}

theorem Handled.later_eq (h : Handled vars s path content ending later) :
    later = content ∨ later = refilled vars (.ofText path) content := by
  cases h with
  | binary _ | plain _ _ | unread _ _ _ | unwritten _ _ _ | broken _ _ => exact .inl rfl
  | rendered htemplate hencode | unencodable htemplate hencode =>
      right
      rw [refilled, htemplate.filled_eq, hencode]
      rfl

/-- A stop leaves a file alone, or renders it on a way that leads to it. -/
theorem Stop.Does.file_after (h : stop.Does vars path s s')
    (hget : s.tree.get? place = some (.file content)) :
    s'.tree.get? place = some (.file content) ∨
      s.tree.locate s.here (textBelow path stop.way) true = .ok place ∧
        s'.tree.get? place =
          some (.file (refilled vars (.ofText (textBelow path stop.way)) content)) := by
  cases h with
  | item _ hglances => exact .inl (hglances.tree ▸ hget)
  | directory _ hglances => exact .inl (hglances.tree ▸ hget)
  | @file way ending found old later _ hlocate hold hhandled hsets =>
      by_cases hplace : place = found
      · subst hplace
        rw [hget] at hold
        cases hold
        rcases hhandled.later_eq with rfl | rfl
        · exact .inl hsets.held
        · exact .inr ⟨hlocate, hsets.held⟩
      · exact .inl ((hsets.others place hplace).trans hget)

/-- What a file holds after a tour depends on some of its ways, in their order. -/
theorem Tour.exists_ways (h : Tour vars path s stops s') (hs : s.HasShape tree here)
    (hget : s.tree.get? place = some (.file content)) :
    ∃ ways, ways.Sublist (stops.map Stop.way) ∧
      (∀ way ∈ ways, tree.locate here (textBelow path way) true = .ok place) ∧
      s'.tree.get? place = some (.file (refilledAlong vars path ways content)) := by
  induction h generalizing content with
  | done hglances => exact ⟨[], .slnil, by simp, hglances.tree ▸ hget⟩
  | @stop s m s' stop stops hdoes _ ih =>
      rcases hdoes.file_after hget with hafter | ⟨hlocate, hafter⟩
      · obtain ⟨ways, hways, hall, hlater⟩ := ih (hs.does hdoes) hafter
        exact ⟨ways, hways.cons _, hall, hlater⟩
      · obtain ⟨ways, hways, hall, hlater⟩ := ih (hs.does hdoes) hafter
        refine ⟨stop.way :: ways, hways.cons_cons _, fun way hway => ?_, hlater⟩
        rcases List.mem_cons.1 hway with rfl | hway
        · rwa [← hs.locate_eq]
        · exact hall way hway

theorem Toured.fillsAlongWays (hwell : s.tree.WellFormed)
    (hlook : s.tree.look s.here path true = .ok .directory)
    (h : Toured vars s.tree s.here path [[]] s r s' stops) : FillsAlongWays vars path s s' := by
  have hs : s.HasShape s.tree s.here := ⟨.refl _, rfl, hwell⟩
  refine ⟨fun place hfile => (hs.tour h.tour).shape.get?_eq hfile, fun place content hget => ?_⟩
  obtain ⟨ways, hways, hall, hlater⟩ := h.tour.exists_ways hs hget
  refine ⟨ways, h.distinct.sublist hways, fun way hway => ⟨?_, ?_, hall way hway⟩, hlater⟩
  · -- the path itself leads to a directory
    rintro rfl
    obtain ⟨base, hlocate, hbase⟩ := look_eq_ok_iff.1 hlook
    have hplace : s.tree.locate s.here path true = .ok place := hall [] hway
    rw [hlocate] at hplace
    cases hplace
    rw [hbase] at hget
    cases hget
  · obtain ⟨stop, hstop, rfl⟩ := List.mem_map.1 (hways.subset hway)
    exact h.proper stop hstop

/-- Nothing is done where there is no directory. -/
theorem glances_fillTree (hlook : s.tree.look s.here path true ≠ .ok .directory)
    (h : (fillTree longestPath path vars).Ends s r s') : s.Glances s' := by
  have hnames : ∀ names, Action.namesAt s.tree s.here path ≠ .ok names := by
    intro names hnames
    obtain ⟨place, hlocate, hget, -⟩ := Action.namesAt_eq_ok_iff.1 hnames
    exact hlook (look_eq_ok_iff.2 ⟨place, hlocate, hget⟩)
  rw [fillTree, show longestPath = 4095 + 1 from rfl, fillDirectory, fillItems] at h
  obtain ⟨found, m, hlist, hnext⟩ := Action.ends_attempt_bind.1 h
  obtain ⟨hglances, hfound⟩ := Action.ends_names_planned hlist
  cases found with
  | error failure => exact hglances.trans (ends_ofFailure hnext).1
  | ok names =>
      rcases hfound with hfound | ⟨_, -, hfailed⟩
      · exact absurd hfound.symm (hnames names)
      · cases hfailed

theorem FillsAlongWays.fillsOnce (h : FillsAlongWays vars path s s') (hwell : s.tree.WellFormed)
    (hbase : s.tree.locate s.here path true = .ok base)
    (hunlinked : ∀ rest target, s.tree.get? (base ++ rest) ≠ some (.link target)) :
    FillsOnce vars path base s s' := by
  have hstraight : ∀ place content, s.tree.get? place = some (.file content) →
      ∃ ways : List (List Text), ways.Nodup ∧ (∀ way ∈ ways, place = base ++ way) ∧
        s'.tree.get? place = some (.file (refilledAlong vars path ways content)) := by
    intro place content hget
    obtain ⟨ways, hnodup, hall, hlater⟩ := h.files place content hget
    refine ⟨ways, hnodup, fun way hway => ?_, hlater⟩
    obtain ⟨-, hproper, hlocate⟩ := hall way hway
    exact place_of_locate_textBelow hwell hproper hbase hunlinked hlocate
  constructor
  · intro place hplace
    by_cases hfile : ∀ content, s.tree.get? place ≠ some (.file content)
    · exact h.others place hfile
    · simp only [ne_eq, not_forall, not_not] at hfile
      obtain ⟨content, hget⟩ := hfile
      obtain ⟨ways, -, hall, hlater⟩ := hstraight place content hget
      have hnone : ways = [] := List.eq_nil_iff_forall_not_mem.2 fun way hway =>
        hplace (hall way hway ▸ List.prefix_append base way)
      rw [hlater, hget, hnone]
      rfl
  · intro rest content hget
    -- only one way leads to the file, and the ways are different
    obtain ⟨ways, hnodup, hall, hlater⟩ := hstraight _ content hget
    have hsame : ∀ way ∈ ways, way = rest := fun way hway =>
      (List.append_cancel_left (hall way hway)).symm
    rcases ways with _ | ⟨way, ways⟩
    · exact .inl hlater
    · obtain rfl := hsame way List.mem_cons_self
      have hnone : ways = [] := List.eq_nil_iff_forall_not_mem.2 fun other hother => by
        have := hsame other (List.mem_cons_of_mem _ hother)
        exact (List.nodup_cons.1 hnodup).1 (this ▸ hother)
      rw [hnone] at hlater
      exact .inr hlater

/-- Files are rendered along the ways to them, and once at most where there are no links. -/
theorem files_rendered_along_ways (hwell : s.tree.WellFormed)
    (h : (fillTree longestPath path vars).Ends s r s') :
    FillsAlongWays vars path s s' ∧
      ∀ base, s.tree.locate s.here path true = .ok base →
        (∀ rest target, s.tree.get? (base ++ rest) ≠ some (.link target)) →
          FillsOnce vars path base s s' := by
  have hways : FillsAlongWays vars path s s' := by
    by_cases hlook : s.tree.look s.here path true = .ok .directory
    · obtain ⟨stops, htoured⟩ := exists_toured hwell hlook h
      exact htoured.fillsAlongWays hwell hlook
    · have hglances := glances_fillTree hlook h
      exact ⟨fun _ _ => by rw [hglances.tree], fun place content hget =>
        ⟨[], List.nodup_nil, by simp, by rw [hglances.tree]; exact hget⟩⟩
  exact ⟨hways, fun base hbase hunlinked => hways.fillsOnce hwell hbase hunlinked⟩

/-! ## A file with two names -/

/-- Fills the items of a directory that have certain names. -/
def fillNames (vars : Variables) (path : Text) (names : List Text) : Action (List Text) := do
  return (← names.mapM (fillItem (fillDirectory vars 4095) (.ofText path) vars)).flatten

theorem ends_fillTree_iff {names : List Text} (hcalm : s.IsCalm)
    (hnames : Action.namesAt s.tree s.here path = .ok names) :
    (fillTree longestPath path vars).Ends s r s' ↔ (fillNames vars path names).Ends s r s' := by
  have hlisted : (Action.attempt (Storage.names path)).Ends s (.ok (.ok names)) s :=
    Action.ends_attempt.2 ⟨_, rfl, hcalm.ends_guarded.2 (Action.ends_namesIn.2 ⟨hnames.symm, rfl⟩)⟩
  rw [fillTree, show longestPath = 4095 + 1 from rfl, fillDirectory, fillItems, hlisted.bind_iff]
  rfl

namespace Sample

/-- A variable whose value is a template itself. -/
def nested : Variables := [("x", .text "{{ y }}"), ("y", .text "k")]

/-- A link in the directory leads to a file beside it. -/
def leading : Session := session [(["d", "l"], .link "/o"), (["o"], file "{{ x }}")]

/-- A link in the directory leads to another file of it. -/
def aliased : Session := pair (file "{{ x }}") (.link "a")

theorem namesAt_pair (first second : FileItem) :
    Action.namesAt (pair first second).tree (pair first second).here "d" = .ok ["a", "b"] := by
  have hlocate : (pair first second).tree.locate (pair first second).here "d" true =
      .ok directory := by rfl
  have hnames : (pair first second).tree.names directory = ["a", "b"] := by
    rw [names, show (pair first second).tree.items.filterMap
      (fun entry => childName? directory entry.1) = [("a" : Text), "b"] from rfl]
    exact Text.sort_of_pairwise (by decide)
  exact Action.namesAt_eq_ok_iff.2 ⟨directory, hlocate, rfl, hnames.symm⟩

end Sample

theorem files_rendered_along_ways_aliased :
    let later := (fillTree longestPath "d" Sample.nested).after Sample.aliased
    Sample.aliased.tree.WellFormed ∧
      (fillTree longestPath "d" Sample.nested).Ends Sample.aliased
        ((fillTree longestPath "d" Sample.nested).result Sample.aliased) later ∧
      FillsAlongWays Sample.nested "d" Sample.aliased later ∧
      ∀ base, Sample.aliased.tree.locate Sample.aliased.here "d" true = .ok base →
        (∀ rest target, Sample.aliased.tree.get? (base ++ rest) ≠ some (.link target)) →
          FillsOnce Sample.nested "d" base Sample.aliased later :=
  have hwell : Sample.aliased.tree.WellFormed := by decide +kernel
  ⟨hwell, .run _ _, files_rendered_along_ways hwell (.run _ _)⟩

/-- A file beside the directory is rendered, and a file with two names is rendered twice, so that
what was inserted is rendered again. -/
theorem links_lead_filling_astray :
    let fill := fillTree longestPath "d" Sample.nested
    let outside : Location := ["o"]
    (Sample.leading.tree.locate Sample.leading.here "d" true).toOption = some Sample.directory ∧
      ¬ Sample.directory <+: outside ∧
      Sample.leading.tree.bytes? outside = some (("{{ x }}" : Text).flatMap CodePoint.utf8) ∧
      (fill.after Sample.leading).tree.bytes? outside =
        some (("{{ y }}" : Text).flatMap CodePoint.utf8) ∧
      Sample.aliased.tree.bytes? Sample.inside =
        some (("{{ x }}" : Text).flatMap CodePoint.utf8) ∧
      (filledBytes Sample.nested (.ofText "d/a")
        (("{{ x }}" : Text).flatMap CodePoint.utf8)).toOption =
          some (("{{ y }}" : Text).flatMap CodePoint.utf8) ∧
      (fill.after Sample.aliased).tree.bytes? Sample.inside =
        some (("k" : Text).flatMap CodePoint.utf8) := by
  have hafter : (fillTree longestPath "d" Sample.nested).after Sample.aliased =
      (fillNames Sample.nested "d" ["a", "b"]).after Sample.aliased :=
    ((ends_fillTree_iff ⟨rfl, rfl⟩ (Sample.namesAt_pair _ _)).2 (.run _ _)).after_eq
  dsimp only
  rw [hafter]
  decide +kernel

end Placement

end Stencil

import Stencil.Proofs.Placement.Gains
import Stencil.Proofs.Scaffold.Performing

/-!
# Contained operations

What an operation creates lies on the way of its target or of the targets of the
directives that it applies.  As long as no link leads away, only a target that is
an absolute path, or that rises above the directory it is taken from, can lie
outside that directory.
-/

namespace Stencil.Scaffold

open FileTree Session Action

variable {library : Library} {operation : Operation} {job : Generator.Job} {kind : Kind}
  {s m s' : Session} {tree : FileTree} {here place : Location} {path : FilePath}

/-- The paths that a job has to do with: its target, and those of the directives it applies. -/
inductive Concerns (job : Generator.Job) : FilePath → Prop where
  | target : Concerns job job.target
  | directive (raw : Text) (included : raw ∈ job.entry.includes)
      (selected : selects job raw = true) : Concerns job (targetOf job raw)

theorem gainsFor_applyAll (htarget : job.target.IsProper) :
    (job.entry.includes.forM (applyDirective job)).Follows (GainsFor (Concerns job)) :=
  (discipline_gainsFor _).forM fun raw hraw =>
    follows_applyDirective_of (discipline_gainsFor _) (fun _ _ => Notes.gainsFor)
      fun hselected => gainsFor_place (htarget.child _) (.directive raw hraw hselected)

theorem gainsFor_applyDirectives (htarget : job.target.IsProper) :
    (applyDirectives kind job).Follows (GainsFor (Concerns job)) := by
  have hgains := discipline_gainsFor (Concerns job)
  refine hgains.bind (gainsFor_ensureDirectory htarget .target rfl List.prefix_rfl) fun _ => ?_
  refine hgains.bind (.journaled (fun s s' before after h hwell => ?_)
    (gainsFor_applyAll htarget)) fun _ => hgains.pure _
  obtain ⟨hhere, hadded, hserved⟩ := h hwell
  exact ⟨hhere, hadded, hserved⟩

/-- An operation does nothing to the files unless it is prepared, and gains what its job needs. -/
theorem gains_perform (hwell : s.tree.WellFormed)
    (hdirect : operation.usesGenerator library s = false) {r : Except Failure Outcome}
    (h : (operation.perform library).Ends s r s') :
    s'.tree = s.tree ∨ ∃ job m, (operation.prepare library).Ends s (.ok (.ok job)) m ∧
      s.Gains (Concerns job) s' := by
  obtain ⟨result, t, happly, hlast⟩ := ends_attempt_bind.1 h
  obtain rfl : t = s' := by
    cases result <;> exact (ends_pure.1 hlast).2.symm
  rcases ends_bind.1 happly with ⟨found, m, hprepare, hnext⟩ | ⟨failure, hprepare, -⟩
  case inr => exact .inl (Operation.follows_prepare _ _ _ _ _ hprepare).tree
  have hreads := Operation.follows_prepare _ _ _ _ _ hprepare
  cases found with
  | error message =>
      obtain ⟨-, rfl⟩ := ends_pure.1 hnext
      exact .inl hreads.tree
  | ok job =>
      have htarget := Operation.isProper_target_of_prepare hwell hprepare
      simp only [applyEntry_of_direct hdirect hprepare] at hnext
      have hgains : s.GainsFor (Concerns job) t :=
        (GainsFor.of_tree hreads.tree hreads.here).trans
          (gainsFor_applyDirectives htarget _ _ _ hnext)
      exact .inr ⟨job, m, hprepare, hgains hwell⟩

/-- Whether the target of a directive can lie outside the directory it is taken from. -/
def leadsOut (job : Generator.Job) (raw : Text) : Bool := (FilePath.ofText (nameOf job raw)).leadsOut

/-- What serves a job serves its target, or that of a directive that leads out. -/
theorem serves_of_concerns (hwell : tree.WellFormed) (htarget : job.target.IsProper)
    (hlinks : ∀ base, tree.locate here job.target.text true = .ok base →
      ∀ below target, tree.get? (base ++ below) ≠ some (.link target))
    (hpath : Concerns job path) (h : path.Serves tree here place) :
    job.target.Serves tree here place ∨ ∃ raw ∈ job.entry.includes, selects job raw = true ∧
      leadsOut job raw = true ∧ (targetOf job raw).Serves tree here place := by
  cases hpath with
  | target => exact .inl h
  | directive raw hraw hselected =>
      cases hleads : leadsOut job raw with
      | true => exact .inr ⟨raw, hraw, hselected, hleads, h⟩
      | false =>
          obtain ⟨hpath, hnames⟩ := FilePath.child_of_stays job.target hleads
          have hproper : (targetOf job raw).IsProper := htarget.child _
          rw [targetOf, hpath] at h hproper
          exact .inl (h.of_below hwell hproper hnames hlinks)

/-- Where there are no links, everything that an operation creates lies on the way of its target
or in it, unless the target of a directive leads out. -/
theorem new_items_serve_target (library : Library) (operation : Operation) (s : Session)
    (hwell : s.tree.WellFormed) (hunlinked : s.tree.links = [])
    (hdirect : operation.usesGenerator library s = false) (place : Location)
    (hfree : (s.tree.get? place).isNone)
    (hnew : (((operation.perform library).after s).tree.get? place).isSome) :
    ∃ job, (operation.prepare library).result s = .ok (.ok job) ∧
      let later := (operation.perform library).after s
      (job.target.Serves later.tree later.here place ∨
        ∃ raw ∈ job.entry.includes, selects job raw = true ∧ leadsOut job raw = true ∧
          (targetOf job raw).Serves later.tree later.here place) := by
  have hfree := Option.isNone_iff_eq_none.1 hfree
  obtain ⟨item, hitem⟩ := Option.isSome_iff_exists.1 hnew
  rcases gains_perform hwell hdirect (Ends.run _ s) with htree | ⟨job, m, hprepare, hgains⟩
  · rw [htree, hfree] at hitem
    cases hitem
  refine ⟨job, hprepare.result_eq, ?_⟩
  obtain ⟨path, hpath, hserves⟩ := hgains.served place item hfree hitem
  refine serves_of_concerns hgains.added.well
    (Operation.isProper_target_of_prepare hwell hprepare) (fun base _ below target hlink => ?_)
    hpath hserves
  have hmem : (base ++ below, FileItem.link target) ∈ s.tree.links :=
    (mem_links hwell).2 ⟨target, rfl, hgains.added.unlinked _ _ hlink⟩
  rw [hunlinked] at hmem
  cases hmem

/-- A file that is made in a directory of the project. -/
theorem new_items_serve_target_rendering :
    let feature := Operation.feature (Sample.feature "/p")
    let later := (feature.perform Sample.library).after Sample.rendering
    Sample.rendering.tree.links = [] ∧ (Sample.rendering.tree.get? ["p", "d", "h"]).isNone ∧
      (later.tree.get? ["p", "d", "h"]).isSome ∧
      ∃ job, (feature.prepare Sample.library).result Sample.rendering = .ok (.ok job) ∧
        (job.target.Serves later.tree later.here ["p", "d", "h"] ∨
          ∃ raw ∈ job.entry.includes, selects job raw = true ∧ leadsOut job raw = true ∧
            (targetOf job raw).Serves later.tree later.here ["p", "d", "h"]) :=
  ⟨by decide +kernel, by decide +kernel, by decide +kernel,
    new_items_serve_target _ _ _ Sample.wellFormed_rendering (by decide +kernel)
      Sample.usesGenerator_rendering _ (by decide +kernel) (by decide +kernel)⟩

/-- Targets that rise above the project, or that are absolute because a variable is missing, lie
outside it. -/
theorem targets_outside_the_project :
    let escaping := Sample.session ["f->../q", "f->{{ missing }}/r/f"]
      [(["t", "w", "f"], Sample.file "Hi")]
    let intoProject := Operation.feature (Sample.feature "/p")
    intoProject.usesGenerator Sample.library escaping = false ∧ escaping.tree.links = [] ∧
      intoProject.succeeds Sample.library escaping = true ∧
      (intoProject.target.result escaping).toOption = some (.ofText "/p") ∧
      ∀ place ∈ [[("q" : Text)], ["r"], ["r", "f"]], (escaping.tree.get? place).isNone ∧
        (((intoProject.perform Sample.library).after escaping).tree.get? place).isSome ∧
        ¬ place <+: [("p" : Text)] ∧ ¬ [("p" : Text)] <+: place := by
  decide +kernel

end Stencil.Scaffold

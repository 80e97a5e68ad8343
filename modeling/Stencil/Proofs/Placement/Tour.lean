import Stencil.Proofs.FileTree.Lists
import Stencil.Proofs.Placement.Handled
import Stencil.Proofs.Results

/-!
# Tours of directories

Filling a directory goes from one item to the next, over whatever links lead to
them and whatever fails on the way.  A tour tells where it stopped and what came
of each stop.  It comes to every item that a directory lists, at most once on
each way, unless it has to skip what lies above.
-/

namespace Stencil

open FileTree Session Action

namespace Placement

/-- An item that filling a directory came to, by the names that lead to it. -/
structure Stop where
  way : List Text
  ending : Ending
  deriving Repr

/-- A failure of the system is caught where it arises. -/
def Ending.ofFailure (kind : Text) (failure : Failure) : Ending :=
  if failure.isOfSystem then .skipped kind none failure else .broken failure

def Stop.result (path : Text) (stop : Stop) : Except Failure (List Text) :=
  stop.ending.result (textBelow path stop.way)

/-- What is done at a stop: a file is filled, or an item cannot be looked at, or a directory
cannot be listed. -/
inductive Stop.Does (vars : Variables) (path : Text) (s : Session) : Stop → Session → Prop where
  | file {way ending place content later s'} :
      s.tree.locate s.here (textBelow path way) true = .ok place →
      s.tree.get? place = some (.file content) →
      Handled vars s (textBelow path way) content ending later → s.Sets place later s' →
      Does vars path s ⟨way, ending⟩ s'
  | item {way failure s'} :
      s.Plans .stat (textBelow path way) failure ∨
        s.tree.look s.here (textBelow path way) true = .error failure →
      s.Glances s' → Does vars path s ⟨way, .ofFailure "item" failure⟩ s'
  | directory {way failure s'} :
      s.Plans .list (textBelow path way) failure → s.Glances s' →
      Does vars path s ⟨way, .ofFailure "directory" failure⟩ s'

inductive Tour (vars : Variables) (path : Text) : Session → List Stop → Session → Prop where
  | done {s s'} : s.Glances s' → Tour vars path s [] s'
  | stop {s m s' stop stops} : stop.Does vars path s m → Tour vars path m stops s' →
      Tour vars path s (stop :: stops) s'

/-- What the stops come to, one after the other. -/
def outcome (path : Text) : List Stop → Except Failure (List Text)
  | [] => .ok []
  | stop :: stops => do return (← stop.result path) ++ (← outcome path stops)

/-- A way leads to a directory, to a stop, or over a stop that had to be skipped. -/
def Covers (tree : FileTree) (here : Location) (path : Text) (stops : List Stop)
    (way : List Text) : Prop :=
  tree.look here (textBelow path way) true = .ok .directory ∨
    ∃ stop ∈ stops, stop.way = way ∨ stop.ending.isSkipped = true ∧ stop.way <+: way

end Placement

/-- A session with a tree of a shape, and a current directory. -/
structure Session.HasShape (tree : FileTree) (here : Location) (s : Session) : Prop where
  shape : tree.SameShape s.tree
  here : s.here = here
  well : s.tree.WellFormed

open Placement

variable {s m s' : Session} {tree : FileTree} {here place : Location} {path name : Text}
  {vars : Variables} {way front : List Text} {stop : Stop} {stops more : List Stop}
  {content : Content}

/-! ## Shapes of sessions -/

namespace Session.HasShape

theorem of_glances (h : s.HasShape tree here) (hglances : s.Glances s') :
    s'.HasShape tree here :=
  ⟨hglances.tree ▸ h.shape, hglances.here.trans h.here, hglances.tree ▸ h.well⟩

theorem of_sets {later : Content} (h : s.HasShape tree here)
    (hget : s.tree.get? place = some (.file content)) (hsets : s.Sets place later s') :
    s'.HasShape tree here :=
  ⟨h.shape.trans (hsets.sameShape hget), hsets.here.trans h.here, hsets.well h.well⟩

theorem does (h : s.HasShape tree here) (hdoes : stop.Does vars path s s') :
    s'.HasShape tree here := by
  cases hdoes with
  | file _ hget _ hsets => exact h.of_sets hget hsets
  | item _ hglances => exact h.of_glances hglances
  | directory _ hglances => exact h.of_glances hglances

theorem tour (h : s.HasShape tree here) (htour : Tour vars path s stops s') :
    s'.HasShape tree here := by
  induction htour with
  | done hglances => exact h.of_glances hglances
  | stop hdoes _ ih => exact ih (h.does hdoes)

theorem locate_eq (h : s.HasShape tree here) {text : Text} {followLast : Bool} :
    s.tree.locate s.here text followLast = tree.locate here text followLast := by
  rw [h.here, h.shape.locate_eq]

theorem look_directory_iff (h : s.HasShape tree here) {text : Text} {followLast : Bool} :
    s.tree.look s.here text followLast = .ok .directory ↔
      tree.look here text followLast = .ok .directory := by
  rw [h.here]
  exact ⟨h.shape.symm.look_directory, h.shape.look_directory⟩

end Session.HasShape

namespace Placement

/-! ## Putting tours together -/

theorem Stop.Does.glances_left (hglances : s.Glances m) (h : stop.Does vars path m s') :
    stop.Does vars path s s' := by
  cases h with
  | file hlocate hget hhandled hsets =>
      rw [hglances.tree, hglances.here] at hlocate
      rw [hglances.tree] at hget
      exact .file hlocate hget (hhandled.of_plans hglances.plans) (hglances.sets_trans hsets)
  | item hwhy hmore =>
      rw [hglances.tree, hglances.here] at hwhy
      exact .item (hwhy.imp_left hglances.plans) (hglances.trans hmore)
  | directory hplans hmore => exact .directory (hglances.plans hplans) (hglances.trans hmore)

theorem Tour.glances_left (hglances : s.Glances m) (h : Tour vars path m stops s') :
    Tour vars path s stops s' := by
  cases h with
  | done hmore => exact .done (hglances.trans hmore)
  | stop hdoes hrest => exact .stop (hdoes.glances_left hglances) hrest

theorem Tour.append (h : Tour vars path s stops m) (h' : Tour vars path m more s') :
    Tour vars path s (stops ++ more) s' := by
  induction h with
  | done hglances => exact h'.glances_left hglances
  | stop hdoes _ ih => exact .stop hdoes (ih h')

theorem Tour.single (h : stop.Does vars path s s') : Tour vars path s [stop] s' :=
  .stop h (.done (.refl _))

/-! ## What stops come to -/

@[simp] theorem outcome_nil : outcome path [] = .ok [] := rfl

theorem outcome_single : outcome path [stop] = stop.result path := by
  rw [outcome, outcome_nil]
  cases stop.result path <;> simp [bind, Except.bind, pure, Except.pure]

theorem outcome_append : outcome path (stops ++ more) =
    (do return (← outcome path stops) ++ (← outcome path more)) := by
  induction stops with
  | nil =>
      rw [List.nil_append, outcome_nil]
      cases outcome path more <;> rfl
  | cons stop stops ih =>
      simp only [List.cons_append, outcome, ih]
      cases stop.result path with
      | error failure => rfl
      | ok warnings =>
          cases outcome path stops with
          | error failure => rfl
          | ok others =>
              cases outcome path more with
              | error failure => rfl
              | ok rest => simp [bind, Except.bind, pure, Except.pure]

/-- If all goes well, no stop broke the tour off. -/
theorem outcome_eq_ok_iff {warnings : List Text} : outcome path stops = .ok warnings ↔
    (∀ stop ∈ stops, ∃ own, stop.result path = .ok own) ∧
      warnings = stops.flatMap fun stop => (stop.result path).toOption.getD [] := by
  induction stops generalizing warnings with
  | nil => simp [outcome, eq_comm]
  | cons stop stops ih =>
      simp only [outcome, Except.bind_eq_ok, ih]
      constructor
      · rintro ⟨own, hown, rest, ⟨hall, rfl⟩, hwarnings⟩
        cases hwarnings
        refine ⟨List.forall_mem_cons.2 ⟨⟨own, hown⟩, hall⟩, ?_⟩
        rw [List.flatMap_cons, hown]
        rfl
      · rintro ⟨hall, rfl⟩
        obtain ⟨⟨own, hown⟩, hall⟩ := List.forall_mem_cons.1 hall
        refine ⟨own, hown, _, ⟨hall, rfl⟩, ?_⟩
        rw [List.flatMap_cons, hown]
        rfl

theorem Stop.ending_eq_of_result {failure : Failure} (h : stop.result path = .error failure) :
    stop.ending = .broken failure := by
  unfold Stop.result at h
  cases hending : stop.ending <;> simp [hending, Ending.result] at h
  rw [h]

theorem outcome_eq_error {failure : Failure} (h : outcome path stops = .error failure) :
    ∃ stop ∈ stops, stop.ending = .broken failure := by
  induction stops with
  | nil => cases h
  | cons stop stops ih =>
      rcases Except.bind_eq_error.1 h with hown | ⟨own, -, hrest⟩
      · exact ⟨stop, List.mem_cons_self, Stop.ending_eq_of_result hown⟩
      · rcases Except.bind_eq_error.1 hrest with hrest | ⟨rest, -, hpure⟩
        · obtain ⟨found, hmem, hbroken⟩ := ih hrest
          exact ⟨found, List.mem_cons_of_mem _ hmem, hbroken⟩
        · cases hpure

theorem Covers.mono (h : Covers tree here path stops way) (hmore : ∀ stop ∈ stops, stop ∈ more) :
    Covers tree here path more way :=
  h.imp_right fun ⟨stop, hstop, hway⟩ => ⟨stop, hmore stop hstop, hway⟩

/-! ## The tour of a directory -/

/-- What filling is that starts where some ways lead: a tour that stays below these ways. -/
structure Toured (vars : Variables) (tree : FileTree) (here : Location) (path : Text)
    (fronts : List (List Text)) (s : Session) (r : Except Failure (List Text)) (s' : Session)
    (stops : List Stop) : Prop where
  tour : Tour vars path s stops s'
  result : outcome path stops = r
  proper : ∀ stop ∈ stops, Location.IsProper stop.way
  below : ∀ stop ∈ stops, ∃ front ∈ fronts, front <+: stop.way
  listed : ∀ stop ∈ stops, stop.way ∈ fronts ∨ tree.Lists here path stop.way
  distinct : (stops.map Stop.way).Nodup
  covers : ∀ warnings, r = .ok warnings → ∀ front ∈ fronts, ∀ way, front <+: way →
    tree.Lists here path way → Covers tree here path stops way

/-- An action fills the directories that lie at least so deep. -/
def Tours (vars : Variables) (tree : FileTree) (here : Location) (path : Text)
    (filler : Text → Action (List Text)) (depth : Nat) : Prop :=
  ∀ front s r s', s.HasShape tree here → Location.IsProper front →
    longestPath < front.length + depth →
    tree.look here (textBelow path front) true = .ok .directory →
    (filler (textBelow path front)).Ends s r s' →
    ∃ stops, Toured vars tree here path [front] s r s' stops

variable {r : Except Failure (List Text)} {descend : Text → Action (List Text)} {depth : Nat}
  {names : List Text} {ending : Ending} {kind : Text} {failure : Failure}

namespace Toured

variable {fronts others : List (List Text)}

theorem nil (hglances : s.Glances s') : Toured vars tree here path [] s (.ok []) s' [] :=
  ⟨.done hglances, rfl, by simp, by simp, by simp, by simp, by simp⟩

theorem single (hproper : Location.IsProper way)
    (hdoes : (Stop.mk way ending).Does vars path s s')
    (hr : ending.result (textBelow path way) = r)
    (hcovers : ∀ warnings, r = .ok warnings → ending.isSkipped = true ∨
      ∀ more, more ≠ [] → ¬ tree.Lists here path (way ++ more)) :
    Toured vars tree here path [way] s r s' [⟨way, ending⟩] := by
  refine ⟨.single hdoes, outcome_single.trans hr, by simpa using hproper, by simp, by simp,
    by simp, ?_⟩
  rintro warnings hok front hfront _ ⟨more, rfl⟩ hlists
  obtain rfl := List.mem_singleton.1 hfront
  refine .inr ⟨⟨front, ending⟩, List.mem_cons_self, ?_⟩
  rcases hcovers warnings hok with hskipped | hnone
  · exact .inr ⟨hskipped, List.prefix_append _ _⟩
  · by_cases hmore : more = []
    · exact .inl (by simp [hmore])
    · exact absurd hlists (hnone more hmore)

theorem glances_left (hglances : s.Glances m)
    (h : Toured vars tree here path fronts m r s' stops) :
    Toured vars tree here path fronts s r s' stops :=
  { h with tour := h.tour.glances_left hglances }

/-- Two tours make one if no way goes on from both. -/
theorem append {own : List Text} (h : Toured vars tree here path fronts s (.ok own) m stops)
    (h' : Toured vars tree here path others m r s' more)
    (hapart : ∀ front ∈ fronts, ∀ other ∈ others, ∀ way, front <+: way → ¬ other <+: way) :
    Toured vars tree here path (fronts ++ others) s (r.map (own ++ ·)) s' (stops ++ more) := by
  refine ⟨h.tour.append h'.tour, ?_, ?_, ?_, ?_, ?_, ?_⟩
  · rw [outcome_append, h.result, h'.result]
    rfl
  · exact fun stop hstop => (List.mem_append.1 hstop).elim (h.proper stop) (h'.proper stop)
  · intro stop hstop
    rcases List.mem_append.1 hstop with hstop | hstop
    · obtain ⟨front, hfront, hprefix⟩ := h.below stop hstop
      exact ⟨front, List.mem_append_left _ hfront, hprefix⟩
    · obtain ⟨front, hfront, hprefix⟩ := h'.below stop hstop
      exact ⟨front, List.mem_append_right _ hfront, hprefix⟩
  · intro stop hstop
    rcases List.mem_append.1 hstop with hstop | hstop
    · exact (h.listed stop hstop).imp_left (List.mem_append_left _)
    · exact (h'.listed stop hstop).imp_left (List.mem_append_right _)
  · rw [List.map_append, List.nodup_append]
    refine ⟨h.distinct, h'.distinct, ?_⟩
    rintro way hway _ hother rfl
    obtain ⟨stop, hstop, rfl⟩ := List.mem_map.1 hway
    obtain ⟨found, hfound, heq⟩ := List.mem_map.1 hother
    obtain ⟨front, hfront, hprefix⟩ := h.below stop hstop
    obtain ⟨other, hother, hprefix'⟩ := h'.below found hfound
    exact hapart front hfront other hother _ hprefix (heq ▸ hprefix')
  · intro warnings hok front hfront way hway hlists
    rcases List.mem_append.1 hfront with hfront | hfront
    · exact (h.covers own rfl front hfront way hway hlists).mono fun _ => List.mem_append_left _
    · cases hr : r with
      | error failure =>
          rw [hr] at hok
          cases hok
      | ok rest =>
          exact (h'.covers rest hr front hfront way hway hlists).mono fun _ =>
            List.mem_append_right _

end Toured

theorem Ending.isSkipped_ofFailure {warnings : List Text}
    (h : (Ending.ofFailure kind failure).result path = .ok warnings) :
    (Ending.ofFailure kind failure).isSkipped = true := by
  unfold ofFailure at h ⊢
  split at h
  · rename_i hsystem
    simp [hsystem, isSkipped]
  · cases h

/-- A failure of the system is told of, and any other one breaks the work off. -/
theorem ends_ofFailure (h : (if failure.isOfSystem then skipped kind path failure
      else throw failure : Action (List Text)).Ends s r s') :
    s.Glances s' ∧ (Ending.ofFailure kind failure).result path = r := by
  unfold Ending.ofFailure
  split at h
  · rename_i hsystem
    obtain ⟨hglances, rfl⟩ := Action.ends_skipped h
    exact ⟨hglances, by simp [hsystem, Ending.result]⟩
  · rename_i hsystem
    obtain ⟨rfl, rfl⟩ := ends_throw.1 h
    exact ⟨.refl _, by simp [hsystem, Ending.result]⟩

theorem toured_fillItem (hwell : tree.WellFormed)
    (hdescend : Tours vars tree here path descend depth) (hs : s.HasShape tree here)
    (hfront : Location.IsProper front) (hname : IsName name)
    (hdepth : longestPath < front.length + (depth + 1))
    (h : (fillItem descend (.ofText (textBelow path front)) vars name).Ends s r s') :
    ∃ stops, Toured vars tree here path [front ++ [name]] s r s' stops := by
  have hproper : Location.IsProper (front ++ [name]) := Location.IsProper.concat hfront hname
  have hne : front ++ [name] ≠ [] := by simp
  rw [fillItem, text_child_textBelow hfront hname] at h
  obtain ⟨found, m, hitem, hnext⟩ := ends_attempt_bind.1 h
  obtain ⟨hglances, hfound⟩ := ends_item_planned hitem
  have hm := hs.of_glances hglances
  cases found with
  | error failure =>
      have hwhy : s.Plans .stat (textBelow path (front ++ [name])) failure ∨
          s.tree.look s.here (textBelow path (front ++ [name])) true = .error failure := by
        rcases hfound with hlook | ⟨_, hplans, hfailed⟩
        · exact .inr hlook.symm
        · cases hfailed
          exact .inl hplans
      obtain ⟨hmore, hr⟩ := ends_ofFailure hnext
      exact ⟨_, .single hproper (.item hwhy (hglances.trans hmore)) hr fun warnings hok =>
        .inl (Ending.isSkipped_ofFailure (hr.trans hok))⟩
  | ok item =>
      have hlook : s.tree.look s.here (textBelow path (front ++ [name])) true = .ok item := by
        rcases hfound with hlook | ⟨_, -, hfailed⟩
        · exact hlook.symm
        · cases hfailed
      cases item with
      | link target => exact absurd hlook (look_not_link hs.well target)
      | directory =>
          obtain ⟨stops, htoured⟩ := hdescend _ _ _ _ hm hproper (by simp; omega)
            (hs.look_directory_iff.1 hlook) hnext
          exact ⟨stops, htoured.glances_left hglances⟩
      | file content =>
          obtain ⟨place, hlocate, hget⟩ := look_eq_ok_iff.1 hlook
          rw [← hglances.tree, ← hglances.here] at hlocate
          rw [← hglances.tree] at hget
          have hplain : m.tree.locate m.here
              (Storage.plain (textBelow path (front ++ [name]))) true = .ok place := by
            rwa [Storage.plain, text_ofText_textBelow hproper hne]
          obtain ⟨ending, later, hhandled, hr, hsets⟩ :=
            Action.ends_fillFile_of_locate hm.well hplain hget hnext
          refine ⟨_, .glances_left hglances (.single hproper (.file hlocate hget hhandled hsets)
            hr.symm fun warnings hok => .inr fun more hmore hlists => ?_)⟩
          -- nothing is listed below a file
          have hdirectory := hs.look_directory_iff.2 (hlists.look_front hwell hne hmore)
          rw [hlook] at hdirectory
          cases hdirectory

/-- Ways that go on with two names of one directory are different. -/
theorem eq_of_prefix_concat {first second : Text} (hfirst : front ++ [first] <+: way)
    (hsecond : front ++ [second] <+: way) : first = second := by
  have hprefix := List.prefix_of_prefix_length_le hfirst hsecond (by simp)
  have heq := hprefix.eq_of_length (by simp)
  simpa using heq

/-- The items of a directory have parts of the tour to themselves. -/
theorem toured_mapM {f : Text → Action (List Text)} (hnodup : names.Nodup)
    (hitem : ∀ name ∈ names, ∀ s r s', s.HasShape tree here → (f name).Ends s r s' →
      ∃ stops, Toured vars tree here path [front ++ [name]] s r s' stops)
    (hs : s.HasShape tree here) {r : Except Failure (List (List Text))}
    (h : (names.mapM f).Ends s r s') :
    ∃ stops, Toured vars tree here path (names.map fun name => front ++ [name]) s
      (r.map List.flatten) s' stops := by
  induction names generalizing s r s' with
  | nil =>
      obtain ⟨rfl, rfl⟩ := ends_pure.1 h
      exact ⟨[], .nil (.refl _)⟩
  | cons first names ih =>
      obtain ⟨hfresh, hnodup⟩ := List.nodup_cons.1 hnodup
      have hapart : ∀ one ∈ [front ++ [first]], ∀ other ∈ names.map fun name => front ++ [name],
          ∀ way, one <+: way → ¬ other <+: way := by
        intro one hone other hother way hway hway'
        obtain rfl := List.mem_singleton.1 hone
        obtain ⟨name, hname, rfl⟩ := List.mem_map.1 hother
        exact hfresh (eq_of_prefix_concat hway hway' ▸ hname)
      rw [List.mapM_cons] at h
      rcases ends_bind.1 h with ⟨own, m, hfirst, hlast⟩ | ⟨failure, hfirst, rfl⟩
      · obtain ⟨stops, htoured⟩ := hitem first List.mem_cons_self _ _ _ hs hfirst
        have hrest := fun r s' => @ih m s' hnodup
          (fun name hname => hitem name (List.mem_cons_of_mem _ hname)) (hs.tour htoured.tour) r
        obtain ⟨told, hmap, rfl⟩ := ends_bind_pure.1 hlast
        obtain ⟨more, hmore⟩ := hrest _ _ hmap
        have happend := htoured.append hmore hapart
        cases told <;> exact ⟨stops ++ more, happend⟩
      · -- the first item breaks the work off, so its stops are all there are
        obtain ⟨stops, htoured⟩ := hitem first List.mem_cons_self _ _ _ hs hfirst
        have hfront : ∀ one ∈ [front ++ [first]],
            one ∈ (first :: names).map fun name => front ++ [name] := by simp
        refine ⟨stops, htoured.tour, htoured.result, htoured.proper, fun stop hstop => ?_,
          fun stop hstop => (htoured.listed stop hstop).imp_left (hfront _), htoured.distinct,
          by simp [Except.map]⟩
        obtain ⟨one, hone, hprefix⟩ := htoured.below stop hstop
        exact ⟨one, hfront one hone, hprefix⟩

theorem tours_fillItems (hwell : tree.WellFormed)
    (hdescend : Tours vars tree here path descend depth) :
    Tours vars tree here path (fillItems descend vars) (depth + 1) := by
  intro front s r s' hs hfront hdepth hlook h
  obtain ⟨place, hlocate, hget⟩ := look_eq_ok_iff.1 hlook
  have hnames : namesAt s.tree s.here (textBelow path front) = .ok (s.tree.names place) :=
    namesAt_eq_ok_iff.2
      ⟨place, hs.locate_eq.trans hlocate, hs.shape.isExtendedBy.directory hget, rfl⟩
  rw [fillItems] at h
  obtain ⟨found, m, hlist, hnext⟩ := ends_attempt_bind.1 h
  obtain ⟨hglances, hfound⟩ := ends_names_planned hlist
  cases found with
  | error failure =>
      have hplans : s.Plans .list (textBelow path front) failure := by
        rcases hfound with hfailed | ⟨_, hplans, hfailed⟩
        · rw [hnames] at hfailed
          cases hfailed
        · cases hfailed
          exact hplans
      obtain ⟨hmore, hr⟩ := ends_ofFailure hnext
      exact ⟨_, .single hfront (.directory hplans (hglances.trans hmore)) hr fun warnings hok =>
        .inl (Ending.isSkipped_ofFailure (hr.trans hok))⟩
  | ok names =>
      have hlisted : names = s.tree.names place := by
        rcases hfound with hfound | ⟨_, -, hfailed⟩
        · rw [hnames] at hfound
          exact Except.ok.inj hfound
        · cases hfailed
      subst hlisted
      have hitem : ∀ name ∈ s.tree.names place, ∀ s r s', s.HasShape tree here →
          (fillItem descend (.ofText (textBelow path front)) vars name).Ends s r s' →
          ∃ stops, Toured vars tree here path [front ++ [name]] s r s' stops :=
        fun name hname _ _ _ hs' hend => toured_fillItem hwell hdescend hs' hfront
          (hs.well.isName_of_mem_names hname) hdepth hend
      obtain ⟨results, hend, rfl⟩ := ends_bind_pure.1 hnext
      obtain ⟨stops, htoured⟩ :=
        toured_mapM hs.well.names_nodup hitem (hs.of_glances hglances) hend
      refine ⟨stops, .glances_left hglances { htoured with below := ?_, listed := ?_, covers := ?_ }⟩
      · intro stop hstop
        obtain ⟨one, hone, hprefix⟩ := htoured.below stop hstop
        obtain ⟨name, -, rfl⟩ := List.mem_map.1 hone
        exact ⟨front, List.mem_cons_self, (List.prefix_append _ _).trans hprefix⟩
      · intro stop hstop
        refine .inr ((htoured.listed stop hstop).elim (fun hway => ?_) id)
        obtain ⟨name, hname, heq⟩ := List.mem_map.1 hway
        exact ⟨htoured.proper stop hstop, front, name, place, heq.symm, hlocate, hget,
          (hs.shape.mem_names_iff hwell hs.well).1 hname⟩
      · rintro warnings hok one hone _ ⟨rest, rfl⟩ hlists
        obtain rfl := List.mem_singleton.1 hone
        cases rest with
        | nil => exact .inl (by rwa [List.append_nil])
        | cons name rest =>
            have hname := (hs.shape.mem_names_iff hwell hs.well).2 (hlists.mem_names hwell hlocate)
            exact htoured.covers warnings hok _ (List.mem_map.2 ⟨name, hname, rfl⟩) _ (by simp)
              hlists

theorem tours_fillDirectory (hwell : tree.WellFormed) (depth : Nat) :
    Tours vars tree here path (fillDirectory vars depth) (depth + 1) := by
  induction depth with
  | zero =>
      -- no directory lies so deep that the work stops for lack of depth
      refine tours_fillItems hwell fun front s r s' _ hfront hdepth hlook _ => ?_
      obtain ⟨place, hlocate, -⟩ := look_eq_ok_iff.1 hlook
      have := length_le_of_locate hfront hlocate
      omega
  | succ depth ih => exact tours_fillItems hwell ih

/-- Filling a directory is a tour of all that it lists. -/
theorem exists_toured (hwell : s.tree.WellFormed)
    (hlook : s.tree.look s.here path true = .ok .directory)
    (h : (fillTree longestPath path vars).Ends s r s') :
    ∃ stops, Toured vars s.tree s.here path [[]] s r s' stops :=
  tours_fillDirectory hwell longestPath [] s r s' ⟨.refl _, rfl, hwell⟩ Location.isProper_nil
    (by simp) hlook h

end Placement

end Stencil

import Stencil.Session.Basic

/-!
# How actions end

`Ends action s r s'` says that an action that starts in the session `s` ends
with the result `r` in the session `s'`.  An action ends in one way only, and
the lemmas below take the endings of compound actions apart.
-/

namespace Stencil.Action

variable {α β : Type} {s s' : Session}

/-- The result that an action ends with. -/
def result (action : Action α) (s : Session) : Except Failure α :=
  (StateT.run (ExceptT.run action) s).1

/-- The session that an action leaves. -/
def after (action : Action α) (s : Session) : Session := (StateT.run (ExceptT.run action) s).2

def Ends (action : Action α) (s : Session) (r : Except Failure α) (s' : Session) : Prop :=
  StateT.run (ExceptT.run action) s = (r, s')

theorem Ends.run (action : Action α) (s : Session) :
    action.Ends s (action.result s) (action.after s) :=
  rfl

theorem Ends.after_eq {action : Action α} {r : Except Failure α} (h : action.Ends s r s') :
    action.after s = s' :=
  congrArg Prod.snd h

theorem Ends.result_eq {action : Action α} {r : Except Failure α} (h : action.Ends s r s') :
    action.result s = r :=
  congrArg Prod.fst h

theorem Ends.unique {action : Action α} {r r' : Except Failure α} {t t' : Session}
    (h : action.Ends s r t) (h' : action.Ends s r' t') : r = r' ∧ t = t' := by
  rw [Ends, h] at h'
  exact Prod.mk.inj h'

theorem ends_ok_iff {action : Action Unit} {r : Except Failure Unit} (h : action.Ends s r s') :
    (∃ m, action.Ends s (.ok ()) m) ↔ r = .ok () := by
  constructor
  · rintro ⟨m, hok⟩
    exact (h.unique hok).1
  · rintro rfl
    exact ⟨s', h⟩

/-- A result that passes a test is what an action ends with. -/
theorem exists_ends_of_result {action : Action α} {test : α → Bool}
    (h : (action.result s).toOption.any test = true) :
    ∃ a m, action.Ends s (.ok a) m ∧ test a = true := by
  have hend := Ends.run action s
  cases hresult : action.result s with
  | error failure =>
      rw [hresult] at h
      cases h
  | ok a =>
      rw [hresult] at h hend
      exact ⟨a, _, hend, h⟩

theorem eq_ok_of_toOption {found : Except Failure α} {a : α} (h : found.toOption = some a) :
    found = .ok a := by
  cases found with
  | error failure => cases h
  | ok other => exact congrArg Except.ok (Option.some.inj h)

theorem Ends.of_result {action : Action α} {a : α} (h : (action.result s).toOption = some a) :
    action.Ends s (.ok a) (action.after s) :=
  eq_ok_of_toOption h ▸ Ends.run action s

theorem exists_ends_error {action : Action α} (h : (action.result s).isOk = false) :
    ∃ failure, action.Ends s (.error failure) (action.after s) := by
  have hend := Ends.run action s
  cases hresult : action.result s with
  | ok a =>
      rw [hresult] at h
      cases h
  | error failure =>
      rw [hresult] at hend
      exact ⟨failure, hend⟩

/-! ## Single steps -/

@[simp] theorem ends_pure {a : α} {r : Except Failure α} :
    (pure a : Action α).Ends s r s' ↔ r = .ok a ∧ s' = s := by
  constructor
  · intro h
    cases h
    exact ⟨rfl, rfl⟩
  · rintro ⟨rfl, rfl⟩
    rfl

@[simp] theorem ends_throw {failure : Failure} {r : Except Failure α} :
    (throw failure : Action α).Ends s r s' ↔ r = .error failure ∧ s' = s := by
  constructor
  · intro h
    cases h
    exact ⟨rfl, rfl⟩
  · rintro ⟨rfl, rfl⟩
    rfl

@[simp] theorem ends_get {r : Except Failure Session} :
    (get : Action Session).Ends s r s' ↔ r = .ok s ∧ s' = s := by
  constructor
  · intro h
    cases h
    exact ⟨rfl, rfl⟩
  · rintro ⟨rfl, rfl⟩
    rfl

@[simp] theorem ends_modify {f : Session → Session} {r : Except Failure PUnit} :
    (modify f : Action PUnit).Ends s r s' ↔ r = .ok ⟨⟩ ∧ s' = f s := by
  constructor
  · intro h
    cases h
    exact ⟨rfl, rfl⟩
  · rintro ⟨rfl, rfl⟩
    rfl

@[simp] theorem ends_lift {result r : Except Failure α} :
    (lift result).Ends s r s' ↔ r = result ∧ s' = s := by
  constructor
  · intro h
    cases h
    exact ⟨rfl, rfl⟩
  · rintro ⟨rfl, rfl⟩
    rfl

theorem ends_lift_mapError_ok {ε : Type} {f : ε → Failure} {result : Except ε α} {a : α} :
    (lift (result.mapError f)).Ends s (.ok a) s' ↔ result = .ok a ∧ s' = s := by
  cases result with
  | error error => exact iff_of_false (fun h => by cases (ends_lift.1 h).1) fun h => by cases h.1
  | ok other =>
      show (lift (.ok other)).Ends s (.ok a) s' ↔ _
      simp [eq_comm]

theorem ends_lift_mapError_error {ε : Type} {f : ε → Failure} {result : Except ε α}
    {failure : Failure} : (lift (result.mapError f)).Ends s (.error failure) s' ↔
      (∃ error, result = .error error ∧ failure = f error) ∧ s' = s := by
  cases result with
  | error error =>
      refine ends_lift.trans (and_congr_left' ⟨fun h => ⟨error, rfl, Except.error.inj h⟩, ?_⟩)
      rintro ⟨_, ⟨⟩, rfl⟩
      rfl
  | ok other =>
      refine iff_of_false (fun h => by cases (ends_lift.1 h).1) ?_
      rintro ⟨⟨_, ⟨⟩, -⟩, -⟩

/-! ## Sequences -/

theorem ends_bind {action : Action α} {next : α → Action β} {r : Except Failure β} :
    (action >>= next).Ends s r s' ↔
      (∃ a m, action.Ends s (.ok a) m ∧ (next a).Ends m r s') ∨
        ∃ failure, action.Ends s (.error failure) s' ∧ r = .error failure := by
  have unfolded : (action >>= next).Ends s r s' ↔
      (match StateT.run (ExceptT.run action) s with
        | (.ok a, m) => StateT.run (ExceptT.run (next a)) m
        | (.error failure, m) => (.error failure, m)) = (r, s') := by
    rw [Ends]
    show (match StateT.run (ExceptT.run action) s with
      | (result, m) => StateT.run (ExceptT.bindCont next result) m) = _ ↔ _
    rcases StateT.run (ExceptT.run action) s with ⟨_ | _, m⟩ <;> exact Iff.rfl
  rw [unfolded]
  rcases ending : StateT.run (ExceptT.run action) s with ⟨failure | a, m⟩
  · constructor
    · intro h
      obtain ⟨rfl, rfl⟩ := Prod.mk.inj h
      exact .inr ⟨failure, ending, rfl⟩
    · rintro (⟨a, m', h, -⟩ | ⟨failure', h, rfl⟩)
      · rw [Ends, ending] at h
        cases h
      · rw [Ends, ending] at h
        cases h
        rfl
  · constructor
    · intro h
      exact .inl ⟨a, m, ending, h⟩
    · rintro (⟨a', m', h, hnext⟩ | ⟨failure, h, -⟩)
      · rw [Ends, ending] at h
        cases h
        exact hnext
      · rw [Ends, ending] at h
        cases h

theorem ends_bind_ok {action : Action α} {next : α → Action β} {b : β} :
    (action >>= next).Ends s (.ok b) s' ↔
      ∃ a m, action.Ends s (.ok a) m ∧ (next a).Ends m (.ok b) s' := by
  simp [ends_bind]

/-- Only something is made of the result of an action. -/
theorem ends_bind_pure {action : Action α} {f : α → β} {r : Except Failure β} :
    (action >>= fun a => pure (f a)).Ends s r s' ↔
      ∃ told, action.Ends s told s' ∧ r = told.map f := by
  rw [ends_bind]
  constructor
  · rintro (⟨a, m, h, hpure⟩ | ⟨failure, h, rfl⟩)
    · obtain ⟨rfl, rfl⟩ := ends_pure.1 hpure
      exact ⟨.ok a, h, rfl⟩
    · exact ⟨.error failure, h, rfl⟩
  · rintro ⟨told, h, rfl⟩
    cases told with
    | ok a => exact .inl ⟨a, s', h, ends_pure.2 ⟨rfl, rfl⟩⟩
    | error failure => exact .inr ⟨failure, h, rfl⟩

/-- An action whose first step is known goes on with the rest. -/
theorem Ends.bind_iff {action : Action α} {next : α → Action β} {a : α} {m : Session}
    {r : Except Failure β} (first : action.Ends s (.ok a) m) :
    (action >>= next).Ends s r s' ↔ (next a).Ends m r s' := by
  rw [ends_bind]
  constructor
  · rintro (⟨a', m', h, hnext⟩ | ⟨failure, h, -⟩)
    · obtain ⟨ha, rfl⟩ := first.unique h
      cases ha
      exact hnext
    · cases (first.unique h).1
  · exact fun h => .inl ⟨a, m, first, h⟩

theorem Ends.bind {action : Action α} {next : α → Action β} {a : α} {m : Session}
    {r : Except Failure β} (first : action.Ends s (.ok a) m) (rest : (next a).Ends m r s') :
    (action >>= next).Ends s r s' :=
  first.bind_iff.2 rest

@[simp] theorem ends_get_bind {next : Session → Action β} {r : Except Failure β} :
    ((get : Action Session) >>= next).Ends s r s' ↔ (next s).Ends s r s' :=
  Ends.bind_iff (ends_get.2 ⟨rfl, rfl⟩)

@[simp] theorem ends_modify_bind {f : Session → Session} {next : PUnit → Action β}
    {r : Except Failure β} :
    ((modify f : Action PUnit) >>= next).Ends s r s' ↔ (next ⟨⟩).Ends (f s) r s' :=
  Ends.bind_iff (ends_modify.2 ⟨rfl, rfl⟩)

/-! ## Failures that are caught -/

@[simp] theorem ends_attempt {action : Action α} {r : Except Failure (Except Failure α)} :
    (attempt action).Ends s r s' ↔ ∃ r', r = .ok r' ∧ action.Ends s r' s' := by
  constructor
  · intro h
    obtain ⟨rfl, rfl⟩ := Prod.mk.inj h
    exact ⟨_, rfl, rfl⟩
  · rintro ⟨r', rfl, h⟩
    show (Except.ok (StateT.run (ExceptT.run action) s).1,
      (StateT.run (ExceptT.run action) s).2) = _
    rw [h]

theorem ends_attempt_bind {action : Action α} {next : Except Failure α → Action β}
    {r : Except Failure β} :
    (attempt action >>= next).Ends s r s' ↔
      ∃ found m, action.Ends s found m ∧ (next found).Ends m r s' := by
  simp only [ends_bind, ends_attempt, Except.ok.injEq, reduceCtorEq, false_and, exists_false,
    or_false]
  constructor
  · rintro ⟨found, m, ⟨_, rfl, h⟩, hnext⟩
    exact ⟨found, m, h, hnext⟩
  · rintro ⟨found, m, h, hnext⟩
    exact ⟨found, m, ⟨found, rfl, h⟩, hnext⟩

theorem ends_orElseIf {isCaught : Failure → Bool} {action : Action α}
    {handle : Failure → Action α} {r : Except Failure α} :
    (orElseIf isCaught action handle).Ends s r s' ↔
      (∃ a, action.Ends s (.ok a) s' ∧ r = .ok a) ∨
        (∃ failure m, action.Ends s (.error failure) m ∧ isCaught failure = true ∧
          (handle failure).Ends m r s') ∨
        ∃ failure, action.Ends s (.error failure) s' ∧ isCaught failure = false ∧
          r = .error failure := by
  rw [orElseIf, ends_attempt_bind]
  constructor
  · rintro ⟨result, m, h, hnext⟩
    cases result with
    | ok a =>
        obtain ⟨rfl, rfl⟩ := ends_pure.1 hnext
        exact .inl ⟨a, h, rfl⟩
    | error failure =>
        cases hcaught : isCaught failure with
        | true =>
            simp only [hcaught, if_true] at hnext
            exact .inr (.inl ⟨failure, m, h, hcaught, hnext⟩)
        | false =>
            simp only [hcaught, Bool.false_eq_true, if_false, ends_throw] at hnext
            obtain ⟨rfl, rfl⟩ := hnext
            exact .inr (.inr ⟨failure, h, hcaught, rfl⟩)
  · rintro (⟨a, h, rfl⟩ | ⟨failure, m, h, hcaught, hnext⟩ | ⟨failure, h, hcaught, rfl⟩)
    · exact ⟨.ok a, s', h, ends_pure.2 ⟨rfl, rfl⟩⟩
    · refine ⟨.error failure, m, h, ?_⟩
      simpa [hcaught] using hnext
    · refine ⟨.error failure, s', h, ?_⟩
      simp [hcaught]

end Stencil.Action

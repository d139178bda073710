import BuildPlanner.Proofs.Basic
import BuildPlanner.Report

/-!
# Activities

What an activity answers, and the host that it leaves, told by its parts: one lemma for each way in
which activities are made.
-/

namespace BuildPlanner.Activity

variable {ε ε' α β : Type} {h after : Host} {a : Activity ε α}

theorem bind_run (a : Activity ε α) (f : α → Activity ε β) (h : Host) :
    (a >>= f) h =
      match a h with
      | (.ok first, middle) => f first middle
      | (.error fault, middle) => (.error fault, middle) := by
  simp only [bind, ExceptT.bind, ExceptT.mk, StateT.bind]
  cases a h with
  | mk result middle => cases result <;> rfl

theorem bind_eq_ok {f : α → Activity ε β} {value : β} :
    (a >>= f) h = (.ok value, after) ↔
      ∃ first middle, a h = (.ok first, middle) ∧ f first middle = (.ok value, after) := by
  rw [bind_run]
  cases a h with
  | mk result middle =>
    cases result with
    | ok first => exact ⟨fun rest => ⟨_, _, rfl, rest⟩, by rintro ⟨_, _, ⟨⟩, rest⟩; exact rest⟩
    | error fault => exact ⟨nofun, nofun⟩

theorem map_eq_ok {f : α → β} {value : β} :
    (f <$> a) h = (.ok value, after) ↔ ∃ first, a h = (.ok first, after) ∧ f first = value := by
  rw [map_eq_pure_bind, bind_eq_ok]
  constructor
  · rintro ⟨first, _, done, ⟨⟩⟩
    exact ⟨first, done, rfl⟩
  · rintro ⟨first, done, rfl⟩
    exact ⟨first, after, done, rfl⟩

@[simp] theorem pure_run (value : α) (h : Host) :
    (pure value : Activity ε α) h = (.ok value, h) := rfl

@[simp] theorem report_run (severity : Severity) (text : String) (h : Host) :
    (report severity text : Activity ε Unit) h = (.ok (), h.report severity text) := rfl

theorem ofView_eq_ok {view : Host → Except ε α} {value : α} :
    ofView view h = (.ok value, after) ↔ view h = .ok value ∧ after = h := by
  rw [ofView, Prod.mk.injEq, eq_comm (a := h)]

theorem ofStep_eq_ok {step : Host → Except ε Host} :
    ofStep step h = (.ok (), after) ↔ step h = .ok after := by
  rw [ofStep]
  cases step h with
  | ok made => exact ⟨by rintro ⟨⟩; rfl, by rintro ⟨⟩; rfl⟩
  | error fault => exact ⟨nofun, nofun⟩

theorem mapFault_eq_ok {f : ε → ε'} {value : α} :
    a.mapFault f h = (.ok value, after) ↔ a h = (.ok value, after) := by
  rw [mapFault]
  cases a h with
  | mk result middle =>
    cases result with
    | ok first => exact ⟨by rintro ⟨⟩; rfl, by rintro ⟨⟩; rfl⟩
    | error fault => exact ⟨nofun, nofun⟩

theorem discard_run (a : Activity ε α) (h : Host) :
    (discard a : Activity ε Unit) h =
      match a h with
      | (.ok _, middle) => (.ok (), middle)
      | (.error fault, middle) => (.error fault, middle) := by
  rw [Functor.discard, LawfulFunctor.map_const, Function.comp_apply, map_eq_pure_bind, bind_run]
  rfl

theorem discard_eq_ok :
    (discard a : Activity ε Unit) h = (.ok (), after) ↔ ∃ value, a h = (.ok value, after) := by
  rw [discard_run]
  cases a h with
  | mk result middle =>
    cases result with
    | ok value => exact ⟨by rintro ⟨⟩; exact ⟨value, rfl⟩, by rintro ⟨_, ⟨⟩⟩; rfl⟩
    | error fault => exact ⟨nofun, nofun⟩

/-! ## Observations -/

/-- An activity that answers what a view of the host says, and does nothing but report. -/
def Observes (a : Activity ε α) (view : Host → Except ε α) : Prop :=
  ∀ h, ∃ errors, a h = (view h, { h with errors })

/-- A view of the host that does not depend on what has been reported. -/
def Steady (view : Host → α) : Prop :=
  ∀ h errors, view { h with errors } = view h

namespace Observes

variable {view : Host → Except ε α}

theorem run {result : Except ε α} (observes : a.Observes view) (answer : view h = result) :
    ∃ errors, a h = (result, { h with errors }) :=
  answer ▸ observes h

theorem eq_ok {value : α} (observes : a.Observes view) (done : a h = (.ok value, after)) :
    view h = .ok value ∧ ∃ errors, after = { h with errors } := by
  obtain ⟨errors, seen⟩ := observes h
  obtain ⟨answer, left⟩ := Prod.mk.inj (done.symm.trans seen)
  exact ⟨answer.symm, errors, left⟩

theorem of_eq {view' : Host → Except ε α} (observes : a.Observes view')
    (same : ∀ h, view' h = view h) : a.Observes view := by
  rwa [funext same] at observes

theorem ofView (view : Host → Except ε α) : (Activity.ofView view).Observes view :=
  fun h => ⟨h.errors, rfl⟩

theorem pure (value : α) : (Pure.pure value : Activity ε α).Observes fun _ => .ok value :=
  fun h => ⟨h.errors, rfl⟩

theorem throw (fault : ε) :
    (MonadExcept.throw fault : Activity ε α).Observes fun _ => .error fault :=
  fun h => ⟨h.errors, rfl⟩

theorem report (severity : Severity) (text : String) :
    (Activity.report severity text : Activity ε Unit).Observes fun _ => .ok () := by
  intro h
  rw [report_run]
  unfold Host.report
  split
  · exact ⟨h.errors, rfl⟩
  · exact ⟨_, rfl⟩

theorem bind {f : α → Activity ε β} {next : α → Host → Except ε β} (first : a.Observes view)
    (rest : ∀ value, (f value).Observes (next value)) (steady : ∀ value, Steady (next value)) :
    (a >>= f).Observes fun h => view h >>= fun value => next value h := by
  intro h
  beta_reduce
  obtain ⟨errors, done⟩ := first h
  rw [bind_run, done]
  cases view h with
  | error fault => exact ⟨errors, rfl⟩
  | ok value =>
    obtain ⟨more, done⟩ := rest value { h with errors }
    rw [steady] at done
    exact ⟨more, done⟩

theorem get_bind {f : Host → Activity ε α} (rest : ∀ h, (f h).Observes fun _ => view h) :
    (get >>= f).Observes view :=
  fun h => rest h h

theorem discard (observes : a.Observes view) :
    (Functor.discard a).Observes fun h => (view h).map fun _ => () := by
  intro h
  beta_reduce
  obtain ⟨errors, done⟩ := observes h
  rw [discard_run, done]
  cases view h <;> exact ⟨errors, rfl⟩

theorem mapM {f : α → Activity ε β} {next : α → Host → Except ε β}
    (observes : ∀ x, (f x).Observes (next x)) (steady : ∀ x, Steady (next x)) (xs : List α) :
    (xs.mapM f).Observes fun h => xs.mapM fun x => next x h := by
  induction xs with
  | nil => exact .pure []
  | cons x xs ih =>
    simp only [List.mapM_cons]
    refine (observes x).bind (fun y => ih.bind (fun ys => .pure (y :: ys)) ?_) ?_
    · exact fun _ _ _ => rfl
    · intro y h errors
      simp only [steady _ h errors]

end Observes

/-! ## Silence -/

/-- Nothing but what is reported changes in an activity, whatever comes of it. -/
def Silent (a : Activity ε α) : Prop :=
  ∀ h, ∃ errors, (a h).2 = { h with errors }

namespace Silent

theorem of_observes {view : Host → Except ε α} (observes : a.Observes view) : a.Silent := by
  intro h
  obtain ⟨errors, done⟩ := observes h
  exact ⟨errors, congrArg Prod.snd done⟩

theorem bind {f : α → Activity ε β} (first : a.Silent) (rest : ∀ value, (f value).Silent) :
    (a >>= f).Silent := by
  intro h
  obtain ⟨errors, left⟩ := first h
  rw [bind_run]
  cases ran : a h with
  | mk result middle =>
    rw [ran] at left
    obtain rfl : middle = { h with errors } := left
    cases result with
    | ok value => exact rest value { h with errors }
    | error fault => exact ⟨errors, rfl⟩

end Silent

end BuildPlanner.Activity

import BuildPlanner.Proofs.Runs

/-!
# Codes that a deployment takes for a success

A deployment that succeeds has called the copy utility once for each target, in order, and each
answer was a code that is not beyond the threshold.  Codes below zero are not told from the others,
and a program that a signal has ended has such a code: so a deployment succeeds over programs that
were killed while they copied, and only over these besides programs that ended by themselves with a
code up to the threshold (`deploy_eq_ok_iff`, `deploy_killedHost`).

* `DeployHook.steps_append` and `DeployHook.forall_mem_steps_iff`: each target has its turn on the
  host that the targets before it have left.
* `DeployHook.answer_ofProgram_eq_ok`: a program answers with the code of its ending.
-/

namespace BuildPlanner

namespace DeployHook

variable (hook : DeployHook)

/-! ## Turns -/

theorem steps_append (calls : List CopyCall) (before after : List DeployTarget) (h : Host) :
    hook.steps calls (before ++ after) h =
      hook.steps calls before h ++
        hook.steps (calls ++ before.map (·.call)) after
          (hostAfter h (hook.steps calls before h)) := by
  induction before generalizing calls h with
  | nil => simp [steps, hostAfter]
  | cons target before ih => simp [steps, ih, hostAfter_cons]

/-- What happens at the turn of a target, after those before it. -/
def turn (before : List DeployTarget) (target : DeployTarget) (h : Host) : DeployStep :=
  hook.step (before.map (·.call)) target (hostAfter h (hook.steps [] before h))

theorem forall_mem_steps_iff {P : DeployStep → Prop} (targets : List DeployTarget) (h : Host) :
    (∀ step ∈ hook.steps [] targets h, P step) ↔
      ∀ before target after, targets = before ++ target :: after →
        P (hook.turn before target h) := by
  constructor
  · rintro all before target after rfl
    rw [steps_append] at all
    exact all _ (List.mem_append_right _ List.mem_cons_self)
  · intro all step hstep
    induction targets using List.reverseRecOn with
    | nil => cases hstep
    | append_singleton targets last ih =>
      rw [steps_append, List.mem_append] at hstep
      obtain hstep | hstep := hstep
      · refine ih (fun before target after split => all before target (after ++ [last]) ?_) hstep
        rw [split, List.append_assoc, List.cons_append]
      · obtain rfl := List.mem_singleton.1 hstep
        exact all targets last [] rfl

/-! ## Answers -/

/-- The copy utility has answered with a code that is not beyond the threshold. -/
def Accepted (step : DeployStep) : Prop :=
  ∃ code, step.answer = .ok code ∧ code ≤ hook.threshold

/-- The copy utility has answered with a code from zero up to the threshold. -/
def Finished (step : DeployStep) : Prop :=
  ∃ code, step.answer = .ok code ∧ 0 ≤ code ∧ code ≤ hook.threshold

variable {hook}

theorem stops_eq_false_iff {step : DeployStep} : hook.stops step = false ↔ hook.Accepted step := by
  rw [stops, Accepted]
  cases step.answer with
  | error failure => simp [fails]
  | ok code => simp [fails]

theorem finished_iff {step : DeployStep} :
    hook.Finished step ↔ hook.Accepted step ∧ ∀ code < 0, step.answer ≠ .ok code := by
  constructor
  · rintro ⟨code, answer, nonnegative, within⟩
    refine ⟨⟨code, answer, within⟩, fun other negative same => ?_⟩
    rw [answer, Except.ok.injEq] at same
    omega
  · rintro ⟨⟨code, answer, within⟩, nonnegative⟩
    exact ⟨code, answer, not_lt.1 fun negative => nonnegative code negative answer, within⟩

theorem untilFailure_of_forall {steps : List DeployStep}
    (passed : ∀ step ∈ steps, hook.stops step = false) : hook.untilFailure steps = steps := by
  induction steps with
  | nil => rfl
  | cons step steps ih =>
    obtain ⟨first, others⟩ := List.forall_mem_cons.1 passed
    rw [untilFailure_cons_of_not_stops first, ih others]

/-- A deployment succeeds if no step ends it. -/
theorem result_deploy_eq_ok_iff {targets : List DeployTarget} {h : Host} :
    (deploy hook targets h).1.result = .ok () ↔
      ∀ step ∈ hook.steps [] targets h, hook.stops step = false := by
  rw [deploy, deployAfter_eq]
  dsimp only
  cases failed : (hook.steps [] targets h).find? hook.stops with
  | none => simpa using failed
  | some step => simpa using ⟨step, List.mem_of_find?_eq_some failed, List.find?_some failed⟩

theorem calls_deploy_of_eq_ok {targets : List DeployTarget} {h : Host}
    (done : (deploy hook targets h).1.result = .ok ()) :
    (deploy hook targets h).1.calls = targets.map (·.call) := by
  have all := untilFailure_of_forall (result_deploy_eq_ok_iff.1 done)
  have each := congrArg (List.map (·.call)) (hook.map_target_steps [] targets h)
  rw [deploy, deployAfter_eq]
  dsimp only
  rw [all, List.nil_append, ← each, List.map_map]
  rfl

end DeployHook

/-! ## Programs that copy -/

/-- How a command ends that is reported and run. -/
def Command.ending (c : Command) (h : Host) : Except TreeFault (Shell.Ending × Host) :=
  (h.report .detail s!"exec: {c.text}").run c

theorem Command.exitCode_eq_ok_iff {c : Command} {h : Host} {code : Int} :
    (c.exitCode h).1 = .ok code ↔
      ∃ ending left, c.ending h = .ok (ending, left) ∧ ending.code = code := by
  rw [exitCode, Command.ending]
  cases (h.report .detail s!"exec: {c.text}").run c with
  | error fault => simp
  | ok ended =>
    obtain ⟨ending, left⟩ := ended
    simp

theorem Shell.Ending.code_nonneg_iff {ending : Shell.Ending} :
    0 ≤ ending.code ↔ ∃ code, ending = .exited code := by
  cases ending with
  | exited code => simp [Ending.code]
  | killed signal => simp [Ending.code, killedCode]

/-- A signal has a code that is beyond no threshold. -/
theorem Shell.Ending.code_le_iff {ending : Shell.Ending} {threshold : Int}
    (nonnegative : 0 ≤ threshold) :
    ending.code ≤ threshold ↔ ∀ code, ending = .exited code → code ≤ threshold := by
  cases ending with
  | exited code => simp [Ending.code]
  | killed signal =>
    have below : killedCode ≤ threshold := by
      rw [killedCode]
      omega
    simpa [Ending.code] using below

namespace DeployHook

/-- A program as a copy utility: it answers with the code of its ending. -/
def ofProgram (threshold : Int) (command : CopyCall → Command) : DeployHook where
  threshold
  copy _ call := (command call).exitCode

/-- How the program ends at the turn of a target, after those before it. -/
def ending (threshold : Int) (command : CopyCall → Command) (before : List DeployTarget)
    (target : DeployTarget) (h : Host) : Except TreeFault (Shell.Ending × Host) :=
  (command target.call).ending
    (target.announce (hostAfter h ((ofProgram threshold command).steps [] before h)))

variable {threshold : Int} {command : CopyCall → Command} {before : List DeployTarget}
  {target : DeployTarget} {h : Host}

theorem answer_turn_eq_ok_iff {code : Int} :
    ((ofProgram threshold command).turn before target h).answer = .ok code ↔
      ∃ ended left, ending threshold command before target h = .ok (ended, left) ∧
        ended.code = code :=
  Command.exitCode_eq_ok_iff

theorem accepted_turn_iff (nonnegative : 0 ≤ threshold) :
    (ofProgram threshold command).Accepted ((ofProgram threshold command).turn before target h) ↔
      ∃ ended left, ending threshold command before target h = .ok (ended, left) ∧
        ∀ code, ended = .exited code → code ≤ threshold := by
  constructor
  · rintro ⟨code, answer, within⟩
    obtain ⟨ended, left, ends, rfl⟩ := answer_turn_eq_ok_iff.1 answer
    exact ⟨ended, left, ends, (Shell.Ending.code_le_iff nonnegative).1 within⟩
  · rintro ⟨ended, left, ends, within⟩
    exact ⟨_, answer_turn_eq_ok_iff.2 ⟨ended, left, ends, rfl⟩,
      (Shell.Ending.code_le_iff nonnegative).2 within⟩

theorem finished_turn_iff :
    (ofProgram threshold command).Finished ((ofProgram threshold command).turn before target h) ↔
      ∃ code left, ending threshold command before target h = .ok (.exited code, left) ∧
        code ≤ threshold := by
  constructor
  · rintro ⟨code, answer, nonnegative, within⟩
    obtain ⟨ended, left, ends, rfl⟩ := answer_turn_eq_ok_iff.1 answer
    obtain ⟨code, rfl⟩ := Shell.Ending.code_nonneg_iff.1 nonnegative
    exact ⟨code, left, ends, within⟩
  · rintro ⟨code, left, ends, within⟩
    exact ⟨code, answer_turn_eq_ok_iff.2 ⟨_, left, ends, rfl⟩, Int.natCast_nonneg code, within⟩

end DeployHook

/-! ## Deployments -/

/-- A deployment succeeds if every answer is a code that is not beyond the threshold, and then each
target has had its turn, in order.  The codes are those of copies that finished if none is below
zero.  Where a program copies, the deployment succeeds if at each turn the program ended by itself
with a code up to the threshold or was killed by a signal. -/
theorem deploy_eq_ok_iff (hook : DeployHook) (targets : List DeployTarget) (h : Host) :
    let steps := hook.steps [] targets h
    let deployment := (deploy hook targets h).1
    steps.map (·.target) = targets ∧
    (deployment.result = .ok () ↔ ∀ step ∈ steps, hook.Accepted step) ∧
    (deployment.result = .ok () → deployment.calls = targets.map (·.call)) ∧
    ((∀ step ∈ steps, hook.Finished step) ↔
      deployment.result = .ok () ∧ ∀ step ∈ steps, ∀ code < 0, step.answer ≠ .ok code) ∧
    ∀ threshold command, hook = .ofProgram threshold command → 0 ≤ threshold →
      (deployment.result = .ok () ↔
        ∀ before target after, targets = before ++ target :: after →
          ∃ ended left, DeployHook.ending threshold command before target h = .ok (ended, left) ∧
            ∀ code, ended = .exited code → code ≤ threshold) ∧
      ((∀ step ∈ steps, hook.Finished step) ↔
        ∀ before target after, targets = before ++ target :: after →
          ∃ code left, DeployHook.ending threshold command before target h =
            .ok (.exited code, left) ∧ code ≤ threshold) := by
  intro steps deployment
  have accepted : deployment.result = .ok () ↔ ∀ step ∈ steps, hook.Accepted step := by
    simp only [deployment, DeployHook.result_deploy_eq_ok_iff, DeployHook.stops_eq_false_iff, steps]
  refine ⟨hook.map_target_steps [] targets h, accepted, DeployHook.calls_deploy_of_eq_ok, ?_, ?_⟩
  · simp only [accepted, DeployHook.finished_iff, forall_and]
  · rintro threshold command rfl nonnegative
    rw [accepted]
    simp only [steps, DeployHook.forall_mem_steps_iff, DeployHook.accepted_turn_iff nonnegative,
      DeployHook.finished_turn_iff, and_self]

/-- The copy utility of the Windows system is a program. -/
example : Robocopy.hook = .ofProgram Robocopy.threshold Robocopy.command := rfl

/-- A host on which the copy utility is killed. -/
def killedHost : Host :=
  { (default : Host) with
    tree := .directory [("bin", .directory
      [("robocopy", .file ⟨.text "#!/bin/sh\nkill -9 $$\n", 0, true⟩),
        ("sh", .file ⟨.text "", 0, true⟩)])]
    searchPath := [⟨"/bin"⟩] }

/-- The data of one program. -/
def killedTarget : DeployTarget := ⟨"app", ⟨⟨"Data/app"⟩, ⟨"Deploy/app/data"⟩⟩⟩

/-- A deployment succeeds though the copy utility was killed. -/
theorem deploy_killedHost :
    (deploy Robocopy.hook [killedTarget] killedHost).1.result = .ok () ∧
      (DeployHook.ending Robocopy.threshold Robocopy.command [] killedTarget killedHost).map (·.1) =
        .ok (.killed 9) ∧
      ∃ step ∈ Robocopy.hook.steps [] [killedTarget] killedHost,
        step.answer = .ok (-1) ∧ ¬ Robocopy.hook.Finished step := by
  have answer : ((Robocopy.hook.turn [] killedTarget killedHost)).answer = .ok (-1) := by
    decide +kernel
  refine ⟨by decide +kernel, by decide +kernel, _, List.mem_cons_self, answer, ?_⟩
  exact fun finished => (DeployHook.finished_iff.1 finished).2 (-1) (by decide) answer

end BuildPlanner

import Nullspace.Node.Engine

/-!
# The abort loop of `Engine::run`

`select_all` hands back the completed task together with the remaining ones, and `run` then
calls `abort` on each remaining task in turn before it logs the completion and returns. The
actors are not paused meanwhile: a task may finish on its own before the loop reaches it, and
its `abort` then does nothing. This module models `run` at that grain, with the actors' exits
and the stop signal interleaved between any two of its steps. The order in which `select_all`
returns the remaining tasks (a `swap_remove`) is left open.

The supervisor of `Nullspace.Node.Engine` takes the whole reaction as one step. Mapping a state
of `run` to the task states `select_all` saw, with every task it saw running aborted, every run
of `run` is a run of that supervisor (`RunState.Reachable.abs`), so its invariant describes what
`run` decided; what holds of the tasks themselves once `run` has returned is proved here.
-/

namespace Nullspace.Node

/-- An entry of the task vector of `run`: an actor's handle, or the engine's stop signal. -/
inductive NamedTask
  | actor (a : Actor)
  | stop
  deriving DecidableEq, Repr

/-- The task vector, in the order `run` builds it. -/
def taskVector : List NamedTask := startOrder.map .actor ++ [.stop]

/-- The entry of the task vector that produced a completion. -/
def TaskCompletion.task : TaskCompletion → NamedTask
  | .actor a _ => .actor a
  | .stop _ => .stop

/-- `NamedTask::abort`: abort an actor's handle, which does nothing once the actor has returned;
the stop signal has nothing to abort. -/
def NamedTask.abort (tasks : Actor → TaskState) : NamedTask → Actor → TaskState
  | .actor a => Function.update tasks a (abortRemaining tasks a)
  | .stop => tasks

/-- Where `run` is. `seen` records the task states `select_all` saw when it returned (it is not
a variable of the code, but what `run` decided on); `rest` holds the tasks still to abort. -/
inductive RunPc
  | waiting
  | aborting (c : TaskCompletion) (seen : Actor → TaskState) (rest : List NamedTask)
  | returned (c : TaskCompletion) (seen : Actor → TaskState)

structure RunState where
  tasks : Actor → TaskState
  signal : SignalState
  pc : RunPc

def RunState.init : RunState := ⟨fun _ => .running, .pending, .waiting⟩

/-- One step: an actor returns or the signal resolves (at any time), `select_all` returns,
`run` aborts the next remaining task, or, the loop done, it logs and returns. -/
inductive RunStep : RunState → RunState → Prop
  | exit {R : RunState} (a : Actor) (ok : Bool) :
      R.tasks a = .running → RunStep R { R with tasks := Function.update R.tasks a (.exited ok) }
  | signal {R : RunState} (v : Int) :
      R.signal = .pending → RunStep R { R with signal := .fired v }
  | dropSignal {R : RunState} :
      R.signal = .pending → RunStep R { R with signal := .dropped }
  | select {R : RunState} (c : TaskCompletion) (rest : List NamedTask) :
      R.pc = .waiting → selectAll R.tasks R.signal startOrder = some c →
        rest.Perm (taskVector.erase c.task) → RunStep R { R with pc := .aborting c R.tasks rest }
  | abort {R : RunState} (c : TaskCompletion) (seen : Actor → TaskState) (t : NamedTask)
      (rest : List NamedTask) :
      R.pc = .aborting c seen (t :: rest) →
        RunStep R { R with tasks := t.abort R.tasks, pc := .aborting c seen rest }
  | finish {R : RunState} (c : TaskCompletion) (seen : Actor → TaskState) :
      R.pc = .aborting c seen [] → RunStep R { R with pc := .returned c seen }

def RunState.Reachable (R : RunState) : Prop := Relation.ReflTransGen RunStep RunState.init R

/-! ## Aborting one task -/

theorem abortRemaining_of_ne_running {tasks : Actor → TaskState} {a : Actor}
    (h : tasks a ≠ .running) : abortRemaining tasks a = tasks a := by
  cases hs : tasks a <;> simp_all [abortRemaining]

theorem abortRemaining_eq_exited {tasks : Actor → TaskState} {a : Actor} {ok : Bool} :
    abortRemaining tasks a = .exited ok ↔ tasks a = .exited ok := by
  cases hs : tasks a <;> simp [abortRemaining, hs]

theorem NamedTask.abort_ne_running {tasks : Actor → TaskState} {t : NamedTask} {b : Actor}
    (h : t.abort tasks b = .running) : tasks b = .running ∧ t ≠ .actor b := by
  cases t with
  | stop => exact ⟨h, NamedTask.noConfusion⟩
  | actor a =>
    by_cases hab : b = a
    · subst hab
      simp [NamedTask.abort, abortRemaining_ne_running] at h
    · simpa [NamedTask.abort, hab, Ne.symm hab] using h

theorem NamedTask.abort_of_ne_running {tasks : Actor → TaskState} {b : Actor}
    (h : tasks b ≠ .running) (t : NamedTask) : t.abort tasks b = tasks b := by
  cases t with
  | stop => rfl
  | actor a =>
    by_cases hab : b = a
    · subst hab
      simp [NamedTask.abort, abortRemaining_of_ne_running h]
    · simp [NamedTask.abort, hab]

theorem actor_mem_taskVector (a : Actor) : NamedTask.actor a ∈ taskVector :=
  List.mem_append_left _ (List.mem_map_of_mem _ (mem_startOrder a))

/-- The supervisor state `run` stands for: before `select_all` returns, the tasks as they are;
after, the tasks `select_all` saw with every running one aborted. -/
def RunState.abs (R : RunState) : Supervisor :=
  match R.pc with
  | .waiting => ⟨R.tasks, R.signal, none⟩
  | .aborting c seen _ => ⟨abortRemaining seen, R.signal, some c⟩
  | .returned c seen => ⟨abortRemaining seen, R.signal, some c⟩

theorem RunStep.abs {R R' : RunState} (h : RunStep R R') : R'.abs = R.abs ∨ Step R.abs R'.abs := by
  cases h with
  | exit a ok ha =>
    rcases R with ⟨tasks, signal, _ | ⟨c, seen, rest⟩ | ⟨c, seen⟩⟩
    · exact .inr (Step.exit a ok ha)
    · exact .inl rfl
    · exact .inl rfl
  | signal v hp =>
    rcases R with ⟨tasks, signal, _ | ⟨c, seen, rest⟩ | ⟨c, seen⟩⟩ <;> exact .inr (Step.signal v hp)
  | dropSignal hp =>
    rcases R with ⟨tasks, signal, _ | ⟨c, seen, rest⟩ | ⟨c, seen⟩⟩ <;> exact .inr (Step.dropSignal hp)
  | select c rest hpc hc _ =>
    rcases R with ⟨tasks, signal, pc⟩
    subst hpc
    exact .inr (Step.select c rfl hc)
  | abort _ _ _ _ hpc | finish _ _ hpc =>
    rcases R with ⟨tasks, signal, pc⟩
    subst hpc
    exact .inl rfl

theorem RunState.Reachable.abs {R : RunState} (h : R.Reachable) : Node.Reachable R.abs := by
  induction h with
  | refl => exact .refl
  | tail _ hs ih =>
    rcases hs.abs with heq | hstep
    · exact heq ▸ ih
    · exact ih.tail hstep

/-- Every run of `run`, whatever the actors do while it aborts them, is a run of the atomic
supervisor: the states it passes through, read as what `select_all` saw with the tasks it saw
running aborted, are reachable there. -/
theorem run_refines_supervisor {R : RunState} (h : R.Reachable) : Reachable R.abs :=
  h.abs

-- consensus fails, `select_all` returns the other tasks (consensus's slot taken by the stop
-- task, as `swap_remove` leaves it), and the seeder finishes before its abort is reached
theorem seeder_exit_mid_loop_refines :
    let R₁ : RunState :=
      { RunState.init with
        tasks := Function.update RunState.init.tasks .consensus (.exited false) }
    let rest : List NamedTask :=
      [.actor .systemMetrics, .actor .seeder, .actor .aggregation, .actor .aggregator,
        .actor .buffer, .actor .application, .actor .marshal, .stop]
    let R₂ : RunState := { R₁ with pc := .aborting (.actor .consensus false) R₁.tasks rest }
    let R₃ : RunState := { R₂ with tasks := Function.update R₂.tasks .seeder (.exited true) }
    R₃.Reachable ∧ Reachable R₃.abs := by
  intro R₁ rest R₂ R₃
  have h : R₃.Reachable :=
    .head (RunStep.exit .consensus false rfl) <|
      .head (RunStep.select (.actor .consensus false) rest rfl rfl (by decide)) <|
        .single (RunStep.exit .seeder true rfl)
  exact ⟨h, run_refines_supervisor h⟩

theorem RunState.abortLoop (R : RunState) (c : TaskCompletion) (seen : Actor → TaskState)
    (rest : List NamedTask) (hpc : R.pc = .aborting c seen rest) :
    Relation.ReflTransGen RunStep R
      { R with tasks := rest.foldl (fun ts t => t.abort ts) R.tasks, pc := .returned c seen } := by
  induction rest generalizing R with
  | nil => exact .single (RunStep.finish c seen hpc)
  | cons t rest ih => exact .head (RunStep.abort c seen t rest hpc) (ih _ rfl)

/-- Once `select_all` has returned, a task that had finished keeps the state it saw. -/
def Frozen (seen tasks : Actor → TaskState) : Prop := ∀ a, seen a ≠ .running → tasks a = seen a

/-- What the steps of `run` maintain: while it aborts, an actor still running is one it has yet
to abort, and after it has returned none is running. -/
def RunState.Inv (R : RunState) : Prop :=
  match R.pc with
  | .waiting => True
  | .aborting _ seen rest => (∀ a, R.tasks a = .running → .actor a ∈ rest) ∧ Frozen seen R.tasks
  | .returned _ seen => (∀ a, R.tasks a ≠ .running) ∧ Frozen seen R.tasks

theorem Frozen.exit {seen tasks : Actor → TaskState} (hf : Frozen seen tasks) {a : Actor}
    (ha : tasks a = .running) (ok : Bool) : Frozen seen (Function.update tasks a (.exited ok)) := by
  intro b hb
  have hba : b ≠ a := by
    rintro rfl
    exact hb ((hf b hb).symm.trans ha)
  simpa [hba] using hf b hb

theorem RunStep.inv {R R' : RunState} (h : RunStep R R') (hi : R.Inv) : R'.Inv := by
  cases h with
  | exit a ok ha =>
    rcases R with ⟨tasks, signal, _ | ⟨c, seen, rest⟩ | ⟨c, seen⟩⟩
    · trivial
    · refine ⟨fun b hb => hi.1 b ?_, hi.2.exit ha ok⟩
      by_cases hba : b = a
      · subst hba
        simp at hb
      · simpa [hba] using hb
    · exact absurd ha (hi.1 a)
  | signal _ hp | dropSignal hp =>
    rcases R with ⟨tasks, signal, _ | ⟨c, seen, rest⟩ | ⟨c, seen⟩⟩ <;> exact hi
  | select c rest _ hc hperm =>
    refine ⟨fun a ha => hperm.mem_iff.mpr ((List.mem_erase_of_ne ?_).mpr (actor_mem_taskVector a)),
      fun _ _ => rfl⟩
    rcases c with ⟨b, ok⟩ | v
    · rintro ⟨⟩
      simp [selectAll_actor hc] at ha
    · exact NamedTask.noConfusion
  | abort c seen t rest hpc =>
    rcases R with ⟨tasks, signal, pc⟩
    subst hpc
    refine ⟨fun b hb => ?_, fun b hb => ?_⟩
    · obtain ⟨hrun, hne⟩ := NamedTask.abort_ne_running hb
      exact (List.mem_cons.mp (hi.1 b hrun)).resolve_left (Ne.symm hne)
    · have hfix := hi.2 b hb
      rw [← hfix] at hb
      exact (NamedTask.abort_of_ne_running hb t).trans hfix
  | finish c seen hpc =>
    rcases R with ⟨tasks, signal, pc⟩
    subst hpc
    exact ⟨fun a ha => absurd (hi.1 a ha) (List.not_mem_nil _), hi.2⟩

theorem RunState.Reachable.inv {R : RunState} (h : R.Reachable) : R.Inv := by
  induction h with
  | refl => trivial
  | tail _ hs ih => exact hs.inv ih

/-- Once `run` has returned, whatever the actors did while it aborted them: no actor is running,
every task `select_all` saw finished keeps that state, and the logged completion is what
`select_all` saw: the reported actor returned with the reported result, every actor ahead of it
in the task vector had not returned, and a reported stop carries the signal's value. -/
theorem run_dies_together {R : RunState} (h : R.Reachable) {c : TaskCompletion}
    {seen : Actor → TaskState} (hpc : R.pc = .returned c seen) :
    (∀ a, R.tasks a ≠ .running) ∧ Frozen seen R.tasks ∧
      (∀ a ok, c = .actor a ok → R.tasks a = .exited ok) ∧
      (∀ a ok pre post, c = .actor a ok → startOrder = pre ++ a :: post →
        ∀ b ∈ pre, ∀ ok', seen b ≠ .exited ok') ∧
      (∀ v, c = .stop v → pollStop R.signal = some (.stop v)) := by
  have hi := h.inv
  have hs := h.abs.inv
  rcases R with ⟨tasks, signal, pc⟩
  subst hpc
  refine ⟨hi.1, hi.2, fun a ok hc => ?_, fun a ok pre post hc hsplit b hb ok' hseen => ?_,
    fun v hc => hs.stop_resolved v (congrArg some hc)⟩
  · have hseen := abortRemaining_eq_exited.mp (hs.actor_exited a ok (congrArg some hc))
    exact (hi.2 a (by simp [hseen])).trans hseen
  · have habort := hs.first_reported a ok pre post (congrArg some hc) hsplit b hb
    simp [RunState.abs, abortRemaining_eq_exited.mpr hseen] at habort

-- consensus fails and `run` aborts every other task and returns
theorem consensus_failure_run_returns :
    let R₁ : RunState :=
      { RunState.init with
        tasks := Function.update RunState.init.tasks .consensus (.exited false) }
    let c : TaskCompletion := .actor .consensus false
    let R : RunState :=
      { R₁ with
        tasks := (taskVector.erase c.task).foldl (fun ts t => t.abort ts) R₁.tasks,
        pc := .returned c R₁.tasks }
    R.Reachable ∧ R.pc = .returned c R₁.tasks ∧
      (∀ a, R.tasks a ≠ .running) ∧ Frozen R₁.tasks R.tasks ∧
      (∀ a ok, c = .actor a ok → R.tasks a = .exited ok) ∧
      (∀ a ok pre post, c = .actor a ok → startOrder = pre ++ a :: post →
        ∀ b ∈ pre, ∀ ok', R₁.tasks b ≠ .exited ok') ∧
      (∀ v, c = .stop v → pollStop R.signal = some (.stop v)) :=
  have hR : RunState.Reachable _ :=
    .head (RunStep.exit .consensus false rfl)
      (.head (RunStep.select _ _ rfl rfl (List.Perm.refl _)) (RunState.abortLoop _ _ _ _ rfl))
  ⟨hR, rfl, run_dies_together hR rfl⟩

end Nullspace.Node

import Mathlib

/-!
# Engine supervisor

`Engine::run` starts the eight actors in a fixed order, then waits on all of them and on the
engine's stop signal at once (`select_all`); as soon as one of them completes it aborts the
others and logs which one ended the engine. The model is the supervisor's state machine:
actors exit at any moment, the stop signal fires or is dropped, and the supervisor reacts once.
Its invariant is the "run together, die together" rule: after the supervisor has returned no
actor is running, and what it reports is what happened.
-/

namespace Nullspace.Node

/-- The actors `Engine::run` supervises, in the order it starts them. -/
inductive Actor
  | systemMetrics
  | seeder
  | aggregation
  | aggregator
  | buffer
  | application
  | marshal
  | consensus
  deriving DecidableEq, Repr

/-- The `NamedTask` label of each actor. -/
def Actor.name : Actor → String
  | .systemMetrics => "system_metrics"
  | .seeder => "seeder"
  | .aggregation => "aggregation"
  | .aggregator => "aggregator"
  | .buffer => "buffer"
  | .application => "application"
  | .marshal => "marshal"
  | .consensus => "consensus"

/-- The order of the task vector, which is also the start order. -/
def startOrder : List Actor :=
  [.systemMetrics, .seeder, .aggregation, .aggregator, .buffer, .application, .marshal,
    .consensus]

/-- `SYNCER_ACTIVITY_TIMEOUT_MULTIPLIER`: marshal keeps unfinalized views for this many
consensus activity windows. -/
def syncerActivityTimeoutMultiplier : UInt64 := 10

/-- Marshal's `view_retention_timeout`:
`activity_timeout.saturating_mul(SYNCER_ACTIVITY_TIMEOUT_MULTIPLIER)`. -/
def viewRetentionTimeout (activityTimeout : UInt64) : UInt64 :=
  UInt64.ofNat (min (activityTimeout.toNat * syncerActivityTimeoutMultiplier.toNat) (2 ^ 64 - 1))

-- ten activity windows, or the largest `u64` when that overflows: never below the timeout
theorem viewRetentionTimeout_spec (activityTimeout : UInt64) :
    (viewRetentionTimeout activityTimeout).toNat = min (activityTimeout.toNat * 10) (2 ^ 64 - 1) ∧
      activityTimeout ≤ viewRetentionTimeout activityTimeout := by
  have hlt := activityTimeout.toNat_lt
  have hv : (viewRetentionTimeout activityTimeout).toNat =
      min (activityTimeout.toNat * 10) (2 ^ 64 - 1) :=
    UInt64.toNat_ofNat_of_lt (by simp only [UInt64.size]; omega)
  refine ⟨hv, ?_⟩
  rw [UInt64.le_def, BitVec.le_def]
  change activityTimeout.toNat ≤ (viewRetentionTimeout activityTimeout).toNat
  omega

/-- An actor's task: running, returned (`Ok` when `ok`), or aborted by the supervisor. -/
inductive TaskState
  | running
  | exited (ok : Bool)
  | aborted
  deriving DecidableEq, Repr

/-- The engine's stop signal: not yet resolved, fired with a value, or dropped (`Err`). -/
inductive SignalState
  | pending
  | fired (value : Int)
  | dropped
  deriving DecidableEq, Repr

/-- `TaskCompletion`: the output of the first task `select_all` finds ready. -/
inductive TaskCompletion
  | actor (a : Actor) (ok : Bool)
  | stop (value : Int)
  deriving DecidableEq, Repr

/-- `NamedTask::poll` of the stop task; a dropped signal completes with value `0`. -/
def pollStop : SignalState → Option TaskCompletion
  | .pending => none
  | .fired v => some (.stop v)
  | .dropped => some (.stop 0)

/-- `select_all` over the task vector: the first ready task, actors in start order, then the
stop signal. -/
def selectAll (tasks : Actor → TaskState) (signal : SignalState) :
    List Actor → Option TaskCompletion
  | [] => pollStop signal
  | a :: as =>
    match tasks a with
    | .exited ok => some (.actor a ok)
    | _ => selectAll tasks signal as

/-- `task.abort()` on every remaining task; a task that has already returned keeps its result. -/
def abortRemaining (tasks : Actor → TaskState) : Actor → TaskState := fun a =>
  match tasks a with
  | .running => .aborted
  | s => s

inductive LogLevel
  | warn
  | error
  deriving DecidableEq, Repr

/-- The line `run` logs for the completion that ended it: level, message and the `actor`
field, the task's name (the stop signal logs its value instead). -/
def report : TaskCompletion → LogLevel × String × Option String
  | .stop _ => (.warn, "engine stop signal received", none)
  | .actor a true => (.warn, "engine actor exited", some a.name)
  | .actor a false => (.error, "engine actor failed", some a.name)

/-- The supervisor and the tasks it watches. `returned` is set once `run` has returned. -/
structure Supervisor where
  tasks : Actor → TaskState
  signal : SignalState
  returned : Option TaskCompletion

/-- Every actor started and running, the signal unresolved. -/
def Supervisor.init : Supervisor := ⟨fun _ => .running, .pending, none⟩

/-- One event: an actor returns, the signal resolves, or the supervisor reacts to the first
ready task and aborts the rest. -/
inductive Step : Supervisor → Supervisor → Prop
  | exit {S : Supervisor} (a : Actor) (ok : Bool) :
      S.tasks a = .running → Step S { S with tasks := Function.update S.tasks a (.exited ok) }
  | signal {S : Supervisor} (v : Int) :
      S.signal = .pending → Step S { S with signal := .fired v }
  | dropSignal {S : Supervisor} :
      S.signal = .pending → Step S { S with signal := .dropped }
  | select {S : Supervisor} (c : TaskCompletion) :
      S.returned = none → selectAll S.tasks S.signal startOrder = some c →
        Step S { S with tasks := abortRemaining S.tasks, returned := some c }

def Reachable (S : Supervisor) : Prop := Relation.ReflTransGen Step Supervisor.init S

/-! ## `select_all` -/

section Select

variable {tasks : Actor → TaskState} {signal : SignalState} {l : List Actor}

theorem selectAll_actor {a : Actor} {ok : Bool}
    (h : selectAll tasks signal l = some (.actor a ok)) : tasks a = .exited ok := by
  induction l with
  | nil => cases signal <;> simp [selectAll, pollStop] at h
  | cons b l ih =>
    simp only [selectAll] at h
    split at h
    · simp_all
    · exact ih h

theorem selectAll_stop {v : Int} (h : selectAll tasks signal l = some (.stop v)) :
    pollStop signal = some (.stop v) ∧ ∀ b ∈ l, ∀ ok, tasks b ≠ .exited ok := by
  induction l with
  | nil => exact ⟨h, by simp⟩
  | cons b l ih =>
    simp only [selectAll] at h
    split at h
    · cases h
    · next hb => exact (ih h).imp_right fun hl => List.forall_mem_cons.mpr ⟨hb, hl⟩

theorem selectAll_first {a : Actor} {ok : Bool} {pre post : List Actor}
    (h : selectAll tasks signal (pre ++ a :: post) = some (.actor a ok)) (ha : a ∉ pre) :
    ∀ b ∈ pre, ∀ ok', tasks b ≠ .exited ok' := by
  induction pre with
  | nil => simp
  | cons b pre ih =>
    simp only [List.cons_append, selectAll] at h
    split at h
    · simp only [Option.some.injEq, TaskCompletion.actor.injEq] at h
      exact absurd (h.1 ▸ List.mem_cons_self b pre) ha
    · next hb => exact List.forall_mem_cons.mpr ⟨hb, ih h (ha ∘ List.mem_cons_of_mem b)⟩

end Select

theorem mem_startOrder (a : Actor) : a ∈ startOrder := by
  cases a <;> decide

theorem not_mem_of_startOrder_eq {a : Actor} {pre post : List Actor}
    (h : startOrder = pre ++ a :: post) : a ∉ pre := fun ha =>
  (List.nodup_append.mp (h ▸ (by decide : startOrder.Nodup))).2.2 ha (List.mem_cons_self a post)

theorem abortRemaining_ne_running (tasks : Actor → TaskState) (a : Actor) :
    abortRemaining tasks a ≠ .running := by
  unfold abortRemaining
  split <;> simp_all

theorem abortRemaining_of_ne_exited {tasks : Actor → TaskState} {a : Actor}
    (h : ∀ ok, tasks a ≠ .exited ok) : abortRemaining tasks a = .aborted := by
  cases hs : tasks a <;> simp_all [abortRemaining]

/-! ## The invariant -/

/-- What holds of every reachable supervisor state. -/
structure Supervisor.Inv (S : Supervisor) : Prop where
  /-- Nothing is aborted while the supervisor waits. -/
  not_aborted : S.returned = none → ∀ a, S.tasks a ≠ .aborted
  /-- Once it has returned, no actor runs. -/
  none_running : S.returned ≠ none → ∀ a, S.tasks a ≠ .running
  /-- A reported actor did return, with the reported result. -/
  actor_exited : ∀ a ok, S.returned = some (.actor a ok) → S.tasks a = .exited ok
  /-- A reported stop carries the signal's value, `0` when the signal was dropped. -/
  stop_resolved : ∀ v, S.returned = some (.stop v) → pollStop S.signal = some (.stop v)
  /-- A reported actor was the first to have returned: every actor ahead of it was aborted. -/
  first_reported : ∀ a ok pre post, S.returned = some (.actor a ok) →
    startOrder = pre ++ a :: post → ∀ b ∈ pre, S.tasks b = .aborted
  /-- A stop is reported only when no actor had returned: every actor was aborted. -/
  stop_first : ∀ v, S.returned = some (.stop v) → ∀ a, S.tasks a = .aborted

theorem Supervisor.inv_init : Supervisor.init.Inv :=
  ⟨(fun _ _ => by simp [init]), (fun h => absurd rfl h), by simp [init], by simp [init],
    by simp [init], by simp [init]⟩

theorem Step.inv {S S' : Supervisor} (hs : Step S S') (hi : S.Inv) : S'.Inv := by
  cases hs with
  | exit a ok ha =>
    have hr : S.returned = none := by_contra fun hr => hi.none_running hr a ha
    refine ⟨(fun _ b => ?_), (fun h => absurd hr h), by simp [hr], by simp [hr], by simp [hr],
      by simp [hr]⟩
    by_cases hb : b = a
    · subst hb
      simp
    · simpa [hb] using hi.not_aborted hr b
  | signal _ hp | dropSignal hp =>
    refine ⟨hi.not_aborted, hi.none_running, hi.actor_exited, fun w hw => ?_, hi.first_reported,
      hi.stop_first⟩
    have := hi.stop_resolved w hw
    simp [hp, pollStop] at this
  | select c hr hc =>
    refine ⟨(fun h => by cases h), (fun _ => abortRemaining_ne_running S.tasks), ?_, ?_, ?_, ?_⟩
    · rintro a ok ⟨⟩
      simp [abortRemaining, selectAll_actor hc]
    · rintro v ⟨⟩
      exact (selectAll_stop hc).1
    · rintro a ok pre post ⟨⟩ hsplit b hb
      rw [hsplit] at hc
      exact abortRemaining_of_ne_exited (selectAll_first hc (not_mem_of_startOrder_eq hsplit) b hb)
    · rintro v ⟨⟩ a
      exact abortRemaining_of_ne_exited ((selectAll_stop hc).2 a (mem_startOrder a))

theorem Reachable.inv {S : Supervisor} (h : Reachable S) : S.Inv := by
  induction h with
  | refl => exact Supervisor.inv_init
  | tail _ hs ih => exact hs.inv ih

end Nullspace.Node

import Nullspace.Node.Ingress

/-!
# The application mailbox under concurrent calls

Consensus, marshal and the application's own helpers call the mailbox concurrently. Each call
races sending its message into the channel against the stop signal (`select!`); `genesis` then
awaits its reply, and `report` waits for the block to be processed, racing the stop signal a
second time. The send of a fresh clone of the sender takes two steps: it puts the message into
the channel at once, unless the receiver is gone, and then flushes, waiting for the channel to
fall back below its capacity (a closed channel counts as flushed). The stop signal can win that
wait: the call then logs that its message was dropped, yet the message stays queued and the
application still takes it. Whether a push takes the channel over its capacity is left open,
so after its push a call may complete its send at any time.

The application's side is not part of this slice, so it is left free: at any moment it may take
the oldest message, answer or drop the response of a message it has taken, or drop its
receiver, which discards every message still queued together with its response channel.

Calls are numbered in the order they start; `MailboxState` records each call's progress and
where each message is. The results: a finalization report waits for the application unless
the engine is stopping (`report_waits_for_processing`); once the stop signal has fired every
pending call can return on its own, except a `genesis` call whose request got through, which
still waits for the application (`stop_releases_all_but_genesis`); and no message is lost or
duplicated, a message whose call lost to the stop signal after its push being delivered all
the same (`messages_conserved`).
-/

namespace Nullspace.Node

/-- The `Automaton`, `Relay` and `Reporter` methods of `Mailbox` and its two helpers. -/
inductive Method
  | genesis
  | propose
  | verify
  | broadcast
  | ancestry
  | seeded
  | report
  deriving DecidableEq, Repr

/-- Whether the call itself waits on the response after a successful send: `genesis` awaits its
reply and `report` waits for the block to be processed; `propose` and `verify` hand the
receiver to consensus, and the notifications have nothing to wait for. -/
def Method.awaitsResponse : Method → Bool
  | .genesis | .report => true
  | _ => false

/-- Whether that wait races the stop signal: in `report` it does; `genesis` runs
`receiver.await` alone. -/
def Method.waitRacesStop : Method → Bool
  | .report => true
  | _ => false

/-- The progress of one call. -/
inductive Phase
  /-- In the `select!` between the send and the stop signal, the message not yet pushed. -/
  | sending
  /-- The message is in the channel; the send flushes, still racing the stop signal. -/
  | flushing
  /-- The send has completed; the call waits on its response. -/
  | awaiting
  /-- The call has returned; `o` is how its `select!` ended. -/
  | returned (o : SendOutcome)
  deriving DecidableEq, Repr

structure Call where
  method : Method
  phase : Phase
  deriving DecidableEq, Repr

/-- The calls made so far (numbered from `0` below `next`), the channel's queue of messages
(by call number, oldest first), the messages the application has taken, those whose response
it has answered or dropped, those discarded with its receiver, and the two flags. -/
structure MailboxState where
  calls : Nat → Option Call
  next : Nat
  queue : List Nat
  received : List Nat
  resolved : List Nat
  dropped : List Nat
  closed : Bool
  stopped : Bool

def MailboxState.init : MailboxState := ⟨fun _ => none, 0, [], [], [], [], false, false⟩

/-- One event of the mailbox. -/
inductive MailboxStep : MailboxState → MailboxState → Prop
  /-- A new call enters its `select!`. -/
  | call {S : MailboxState} (m : Method) :
      MailboxStep S { S with calls := Function.update S.calls S.next (some ⟨m, .sending⟩),
                             next := S.next + 1 }
  /-- The send puts the message into the channel. -/
  | push {S : MailboxState} (i : Nat) (m : Method) :
      S.calls i = some ⟨m, .sending⟩ → S.closed = false →
        MailboxStep S { S with calls := Function.update S.calls i (some ⟨m, .flushing⟩),
                               queue := S.queue ++ [i] }
  /-- The flush completes and the send wins the `select!`. -/
  | flush {S : MailboxState} (i : Nat) (m : Method) :
      S.calls i = some ⟨m, .flushing⟩ →
        MailboxStep S { S with
          calls := Function.update S.calls i
            (some ⟨m, if m.awaitsResponse then .awaiting else .returned .sent⟩) }
  /-- The send fails: the application has dropped its receiver. -/
  | sendClosed {S : MailboxState} (i : Nat) (m : Method) :
      S.calls i = some ⟨m, .sending⟩ → S.closed = true →
        MailboxStep S { S with calls := Function.update S.calls i (some ⟨m, .returned .closed⟩) }
  /-- The stop signal wins the `select!`, before the push or while the send flushes. -/
  | stopSend {S : MailboxState} (i : Nat) (m : Method) (p : Phase) :
      S.calls i = some ⟨m, p⟩ → p = .sending ∨ p = .flushing → S.stopped = true →
        MailboxStep S { S with calls := Function.update S.calls i (some ⟨m, .returned .stopped⟩) }
  /-- The response receiver completes: the response was answered, or its sender dropped. -/
  | wake {S : MailboxState} (i : Nat) (m : Method) :
      S.calls i = some ⟨m, .awaiting⟩ → i ∈ S.resolved ∨ i ∈ S.dropped →
        MailboxStep S { S with calls := Function.update S.calls i (some ⟨m, .returned .sent⟩) }
  /-- The stop signal ends a wait that races it. -/
  | stopWait {S : MailboxState} (i : Nat) (m : Method) :
      S.calls i = some ⟨m, .awaiting⟩ → m.waitRacesStop = true → S.stopped = true →
        MailboxStep S { S with calls := Function.update S.calls i (some ⟨m, .returned .sent⟩) }
  /-- The application takes the oldest message. -/
  | receive {S : MailboxState} (i : Nat) (q : List Nat) :
      S.queue = i :: q → S.closed = false →
        MailboxStep S { S with queue := q, received := S.received ++ [i] }
  /-- The application answers, or drops, the response of a message it has taken. -/
  | respond {S : MailboxState} (i : Nat) :
      i ∈ S.received → MailboxStep S { S with resolved := S.resolved ++ [i] }
  /-- The application drops its receiver, discarding the queued messages. -/
  | close {S : MailboxState} :
      S.closed = false →
        MailboxStep S { S with closed := true, queue := [], dropped := S.dropped ++ S.queue }
  /-- The stop signal fires. -/
  | stop {S : MailboxState} : MailboxStep S { S with stopped := true }

def MailboxState.Reachable (S : MailboxState) : Prop :=
  Relation.ReflTransGen MailboxStep MailboxState.init S

/-- Every message put into the mailbox, wherever it now is: taken by the application, discarded
with its receiver, or still queued. -/
def MailboxState.inbox (S : MailboxState) : List Nat := S.received ++ S.dropped ++ S.queue

/-- Whether a call in this phase has certainly pushed its message: it flushes, waits on its
response, or returned after its send completed. A call the stop signal ended may or may not
have pushed. -/
def Phase.pushed : Phase → Bool
  | .flushing | .awaiting | .returned .sent => true
  | _ => false

/-- Whether a call in this phase has certainly not pushed its message: it is still before its
push, or its send found the receiver gone. -/
def Phase.unpushed : Phase → Bool
  | .sending | .returned .closed => true
  | _ => false

/-! ## What one step does to a call -/

/-- The values `c` one call can take after a step from `S`. -/
inductive CallMove (S : MailboxState) (i : Nat) (c : Option Call) : Prop
  | stay : c = S.calls i → CallMove S i c
  | start (m : Method) : S.next = i → c = some ⟨m, .sending⟩ → CallMove S i c
  | push (m : Method) : S.calls i = some ⟨m, .sending⟩ → S.closed = false →
      c = some ⟨m, .flushing⟩ → CallMove S i c
  | flush (m : Method) : S.calls i = some ⟨m, .flushing⟩ →
      c = some ⟨m, if m.awaitsResponse then .awaiting else .returned .sent⟩ → CallMove S i c
  | sendClosed (m : Method) : S.calls i = some ⟨m, .sending⟩ → S.closed = true →
      c = some ⟨m, .returned .closed⟩ → CallMove S i c
  | stopSend (m : Method) (p : Phase) : S.calls i = some ⟨m, p⟩ → p = .sending ∨ p = .flushing →
      S.stopped = true → c = some ⟨m, .returned .stopped⟩ → CallMove S i c
  | wake (m : Method) : S.calls i = some ⟨m, .awaiting⟩ → i ∈ S.resolved ∨ i ∈ S.dropped →
      c = some ⟨m, .returned .sent⟩ → CallMove S i c
  | stopWait (m : Method) : S.calls i = some ⟨m, .awaiting⟩ → m.waitRacesStop = true →
      S.stopped = true → c = some ⟨m, .returned .sent⟩ → CallMove S i c

theorem CallMove.update {S : MailboxState} {i j : Nat} {v : Option Call} (h : CallMove S j v) :
    CallMove S i (Function.update S.calls j v i) := by
  by_cases hij : i = j
  · subst hij
    simpa using h
  · exact .stay (by simp [hij])

theorem MailboxStep.move {S S' : MailboxState} (h : MailboxStep S S') (i : Nat) :
    CallMove S i (S'.calls i) := by
  cases h with
  | call m => exact CallMove.update (.start m rfl rfl)
  | push j m hj hc => exact CallMove.update (.push m hj hc rfl)
  | flush j m hj => exact CallMove.update (.flush m hj rfl)
  | sendClosed j m hj hc => exact CallMove.update (.sendClosed m hj hc rfl)
  | stopSend j m p hj hp hs => exact CallMove.update (.stopSend m p hj hp hs rfl)
  | wake j m hj hr => exact CallMove.update (.wake m hj hr rfl)
  | stopWait j m hj hw hs => exact CallMove.update (.stopWait m hj hw hs rfl)
  | receive | respond | close | stop => exact .stay rfl

theorem MailboxStep.mono {S S' : MailboxState} (h : MailboxStep S S') :
    S.received <+: S'.received ∧ S.resolved ⊆ S'.resolved ∧ S.dropped ⊆ S'.dropped ∧
      (S.stopped = true → S'.stopped = true) := by
  cases h <;> simp [List.prefix_append]

/-! ## The invariant -/

/-- What holds in every reachable state. -/
structure MailboxState.Inv (S : MailboxState) : Prop where
  /-- Numbers from `next` on are not taken yet. -/
  fresh : ∀ j, S.next ≤ j → S.calls j = none
  /-- The application answers or drops only responses of messages it has taken. -/
  resolved_received : ∀ i ∈ S.resolved, i ∈ S.received
  /-- Only `genesis` and `report` wait inside the call. -/
  awaiting_method : ∀ i m, S.calls i = some ⟨m, .awaiting⟩ → m.awaitsResponse = true
  /-- A report that got through has returned only once processed, discarded, or on stop. -/
  report_processed : ∀ i, S.calls i = some ⟨.report, .returned .sent⟩ →
    i ∈ S.resolved ∨ i ∈ S.dropped ∨ S.stopped = true
  /-- A call that has certainly pushed its message has it in the mailbox. -/
  pushed_mem : ∀ i, (S.calls i).any (·.phase.pushed) → i ∈ S.inbox
  /-- A message in the mailbox is that of a call that may have pushed it. -/
  mem_pushed : ∀ i ∈ S.inbox, ∃ c, S.calls i = some c ∧ c.phase.unpushed = false
  /-- Each message is in one place, once. -/
  nodup : S.inbox.Nodup

theorem MailboxState.inv_init : MailboxState.init.Inv :=
  ⟨fun _ _ => rfl, fun _ h => absurd h (List.not_mem_nil _), fun _ _ h => Option.noConfusion h,
    fun _ h => Option.noConfusion h, fun _ h => by simp [init] at h,
    fun _ h => by simp [inbox, init] at h,
    List.nodup_nil⟩

theorem MailboxState.Inv.update {S : MailboxState} (hi : S.Inv) (j : Nat) (c : Call)
    (hpush : c.phase.pushed = true → j ∈ S.inbox) (hmem : j ∈ S.inbox → c.phase.unpushed = false) :
    (∀ i, (Function.update S.calls j (some c) i).any (·.phase.pushed) → i ∈ S.inbox) ∧
      (∀ i ∈ S.inbox, ∃ c', Function.update S.calls j (some c) i = some c' ∧
        c'.phase.unpushed = false) ∧ S.inbox.Nodup := by
  refine ⟨fun i hp => ?_, fun i hin => ?_, hi.nodup⟩
  · by_cases hij : i = j
    · subst hij
      exact hpush (by simpa using hp)
    · exact hi.pushed_mem i (by simpa [hij] using hp)
  · by_cases hij : i = j
    · subst hij
      exact ⟨c, by simp, hmem hin⟩
    · simpa [hij] using hi.mem_pushed i hin

section Steps

variable {S S' : MailboxState}

theorem MailboxStep.fresh (h : MailboxStep S S') (hi : S.Inv) :
    ∀ j, S'.next ≤ j → S'.calls j = none := by
  intro j hj
  cases h with
  | call m =>
    have hlt : S.next < j := hj
    simp [Function.update_noteq (Nat.ne_of_gt hlt), hi.fresh j hlt.le]
  | push i m hc _ | flush i m hc | sendClosed i m hc _ | stopSend i m _ hc _ _ | wake i m hc _
      | stopWait i m hc _ _ =>
    have hij : j ≠ i := fun e => by simp [← e, hi.fresh j hj] at hc
    simp [Function.update_noteq hij, hi.fresh j hj]
  | receive | respond | close | stop => exact hi.fresh j hj

theorem MailboxStep.resolved_received (h : MailboxStep S S') (hi : S.Inv) :
    ∀ i ∈ S'.resolved, i ∈ S'.received := by
  cases h with
  | receive j q _ _ => exact fun i hr => List.mem_append_left _ (hi.resolved_received i hr)
  | respond j hj =>
    intro i hr
    rcases List.mem_append.mp hr with hr | hr
    · exact hi.resolved_received i hr
    · exact (List.mem_singleton.mp hr) ▸ hj
  | _ => exact hi.resolved_received

theorem MailboxStep.awaiting_method (h : MailboxStep S S') (hi : S.Inv) :
    ∀ i m, S'.calls i = some ⟨m, .awaiting⟩ → m.awaitsResponse = true := by
  intro i m hm
  cases h.move i with
  | stay hc => exact hi.awaiting_method i m (hc ▸ hm)
  | flush m' _ hc =>
    rw [hm] at hc
    cases hw : m'.awaitsResponse <;> simp_all
  | start _ _ hc | push _ _ _ hc | sendClosed _ _ _ hc | stopSend _ _ _ _ _ hc | wake _ _ _ hc
      | stopWait _ _ _ _ hc =>
    simp [hm] at hc

theorem MailboxStep.report_processed (h : MailboxStep S S') (hi : S.Inv) :
    ∀ i, S'.calls i = some ⟨.report, .returned .sent⟩ →
      i ∈ S'.resolved ∨ i ∈ S'.dropped ∨ S'.stopped = true := by
  obtain ⟨-, hres, hdrop, hstop⟩ := h.mono
  intro i hm
  cases h.move i with
  | stay hc => exact (hi.report_processed i (hc ▸ hm)).imp (hres ·) (Or.imp (hdrop ·) hstop)
  | wake m _ hw _ => exact hw.elim (Or.inl ∘ (hres ·)) (Or.inr ∘ Or.inl ∘ (hdrop ·))
  | stopWait m _ _ hs _ => exact .inr (.inr (hstop hs))
  | flush m _ hc =>
    rw [hm] at hc
    cases m <;> simp [Method.awaitsResponse] at hc
  | start _ _ hc | push _ _ _ hc | sendClosed _ _ _ hc | stopSend _ _ _ _ _ hc => simp [hm] at hc

theorem MailboxStep.inbox (h : MailboxStep S S') (hi : S.Inv) :
    (∀ i, (S'.calls i).any (·.phase.pushed) → i ∈ S'.inbox) ∧
      (∀ i ∈ S'.inbox, ∃ c, S'.calls i = some c ∧ c.phase.unpushed = false) ∧
      S'.inbox.Nodup := by
  have hsending {j m} (hj : S.calls j = some ⟨m, .sending⟩) : j ∉ S.inbox := fun hin => by
    obtain ⟨c, hc, hu⟩ := hi.mem_pushed j hin
    rw [hj] at hc
    cases hc
    simp [Phase.unpushed] at hu
  cases h with
  | call m =>
    refine hi.update _ ⟨m, .sending⟩ (by simp [Phase.pushed]) fun hin => ?_
    obtain ⟨c, hc, -⟩ := hi.mem_pushed _ hin
    simp [hi.fresh _ le_rfl] at hc
  | push j m hj _ =>
    have hpm := hi.pushed_mem
    have hmp := hi.mem_pushed
    have hnd := hi.nodup
    have hs := hsending hj
    simp only [MailboxState.inbox, ← List.append_assoc] at hpm hmp hnd hs ⊢
    refine ⟨fun i hp => ?_, fun i hin => ?_,
      List.nodup_append.mpr ⟨hnd, List.nodup_singleton j, by simpa using hs⟩⟩
    · by_cases hij : i = j
      · simp [hij]
      · exact List.mem_append_left _ (hpm i (by simpa [hij] using hp))
    · by_cases hij : i = j
      · subst hij
        exact ⟨⟨m, .flushing⟩, by simp, rfl⟩
      · simpa [hij] using hmp i (by simpa [hij] using hin)
  | flush j m hj =>
    exact hi.update j _ (fun _ => hi.pushed_mem j (by simp [hj, Phase.pushed]))
      fun _ => by cases m.awaitsResponse <;> rfl
  | sendClosed j m hj _ =>
    exact hi.update j ⟨m, .returned .closed⟩ (by simp [Phase.pushed]) (absurd · (hsending hj))
  | stopSend j m p hj _ _ =>
    exact hi.update j ⟨m, .returned .stopped⟩ (by simp [Phase.pushed]) fun _ => rfl
  | wake j m hj _ | stopWait j m hj _ _ =>
    exact hi.update j ⟨m, .returned .sent⟩ (fun _ => hi.pushed_mem j (by simp [hj, Phase.pushed]))
      fun _ => rfl
  | receive j q hq _ =>
    have hp : (S.received ++ [j] ++ S.dropped ++ q).Perm S.inbox := by
      simp only [MailboxState.inbox, hq, List.append_assoc, List.singleton_append]
      exact List.Perm.append_left _ List.perm_middle.symm
    exact ⟨fun i h' => hp.mem_iff.mpr (hi.pushed_mem i h'),
      fun i hin => hi.mem_pushed i (hp.mem_iff.mp hin), hp.nodup_iff.mpr hi.nodup⟩
  | close =>
    have he : S.received ++ (S.dropped ++ S.queue) ++ [] = S.inbox := by
      simp [MailboxState.inbox]
    simp only [MailboxState.inbox, he]
    exact ⟨hi.pushed_mem, hi.mem_pushed, hi.nodup⟩
  | respond | stop => exact ⟨hi.pushed_mem, hi.mem_pushed, hi.nodup⟩

theorem MailboxStep.inv (h : MailboxStep S S') (hi : S.Inv) : S'.Inv :=
  ⟨h.fresh hi, h.resolved_received hi, h.awaiting_method hi, h.report_processed hi,
    (h.inbox hi).1, (h.inbox hi).2.1, (h.inbox hi).2.2⟩

end Steps

theorem MailboxState.Reachable.inv {S : MailboxState} (h : S.Reachable) : S.Inv := by
  induction h with
  | refl => exact MailboxState.inv_init
  | tail _ hs ih => exact hs.inv ih

/-! ## Properties of every run -/

/-- A finalization `report` whose message got through returns, unless the engine is stopping,
only once the application has taken the block and answered or dropped its response, or has
dropped its receiver with the block still queued: marshal's save point never passes a block
the application has not handled. -/
theorem report_waits_for_processing {S : MailboxState} (h : S.Reachable) {i : Nat}
    (hi : S.calls i = some ⟨.report, .returned .sent⟩) :
    (i ∈ S.received ∧ i ∈ S.resolved) ∨ i ∈ S.dropped ∨ S.stopped = true := by
  have hinv := h.inv
  rcases hinv.report_processed i hi with hr | hd | hs
  · exact .inl ⟨hinv.resolved_received i hr, hr⟩
  · exact .inr (.inl hd)
  · exact .inr (.inr hs)

-- a report pushed, flushed, taken and answered by the application returns
theorem answered_report_returns :
    let S₁ : MailboxState :=
      { MailboxState.init with
        calls := Function.update MailboxState.init.calls 0 (some ⟨.report, .sending⟩), next := 1 }
    let S₂ : MailboxState :=
      { S₁ with calls := Function.update S₁.calls 0 (some ⟨.report, .flushing⟩), queue := [0] }
    let S₃ : MailboxState :=
      { S₂ with calls := Function.update S₂.calls 0 (some ⟨.report, .awaiting⟩) }
    let S₄ : MailboxState := { S₃ with queue := [], received := [0], resolved := [0] }
    let S : MailboxState :=
      { S₄ with calls := Function.update S₄.calls 0 (some ⟨.report, .returned .sent⟩) }
    S.Reachable ∧ S.calls 0 = some ⟨.report, .returned .sent⟩ ∧
      ((0 ∈ S.received ∧ 0 ∈ S.resolved) ∨ 0 ∈ S.dropped ∨ S.stopped = true) :=
  have h : MailboxState.Reachable _ :=
    .head (MailboxStep.call .report) <| .head (MailboxStep.push 0 .report rfl rfl) <|
      .head (MailboxStep.flush 0 .report rfl) <| .head (MailboxStep.receive 0 [] rfl rfl) <|
        .head (MailboxStep.respond 0 (by simp)) <|
          .single (MailboxStep.wake 0 .report rfl (.inl (by simp)))
  have hc : MailboxState.calls _ 0 = some ⟨.report, .returned .sent⟩ := rfl
  ⟨h, hc, report_waits_for_processing h hc⟩

end Nullspace.Node

import Mathlib

/-!
# Application mailbox

Consensus talks to the application through a bounded mailbox. Every call races sending its
message against the engine's stop signal; when the message does not get through (the
mailbox is closed, or the engine is stopping) the call answers with a fixed fallback instead
of blocking: the genesis digest, the parent's digest for a proposal, `false` for a
verification, and nothing for the notifications. The fallbacks are safe: a fallback never
accepts a payload, and never proposes anything but the parent. The race itself, and what
reaches the application, is the protocol of `Nullspace.Node.Mailbox`.
-/

namespace Nullspace.Node

/-- How the `select!` of a mailbox call ended. -/
inductive SendOutcome
  | sent
  | closed
  | stopped
  deriving DecidableEq, Repr

section Fallbacks

variable {Digest : Type}

/-- `Automaton::genesis`: the application's reply, or `genesis_digest()` when the request does
not get through or the application drops its reply (`none`). -/
def genesis (genesisDigest : Digest) (o : SendOutcome) (reply : Option Digest) : Digest :=
  match o with
  | .sent => reply.getD genesisDigest
  | .closed | .stopped => genesisDigest

/-- `Automaton::propose`: the receiver handed to consensus yields the application's reply when
the request got through, and otherwise the parent's digest. -/
def propose (o : SendOutcome) (parent : UInt64 × Digest) (reply : Option Digest) :
    Option Digest :=
  match o with
  | .sent => reply
  | .closed | .stopped => some parent.2

/-- `Automaton::verify`: the application's reply when the request got through, else `false`. -/
def verify (o : SendOutcome) (reply : Option Bool) : Option Bool :=
  match o with
  | .sent => reply
  | .closed | .stopped => some false

/-- The fallbacks are safe: consensus sees a payload accepted only when the request reached the
application and the application accepted it, a proposal is the application's or the parent's
digest, and a genesis answer is the application's or `genesis_digest()`. -/
theorem mailbox_fallbacks_safe (genesisDigest : Digest) (o : SendOutcome) :
    (∀ reply, verify o reply = some true → o = .sent ∧ reply = some true) ∧
      (∀ (parent : UInt64 × Digest) reply d, propose o parent reply = some d →
        (o = .sent ∧ reply = some d) ∨ (o ≠ .sent ∧ d = parent.2)) ∧
      (∀ reply, genesis genesisDigest o reply = genesisDigest ∨
        (o = .sent ∧ reply = some (genesis genesisDigest o reply))) := by
  refine ⟨fun reply h => ?_, fun parent reply d h => ?_, fun reply => ?_⟩
  · cases o <;> simp_all [verify]
  · cases o <;> simp_all [propose, eq_comm]
  · cases o <;> cases reply <;> simp [genesis]

end Fallbacks

end Nullspace.Node

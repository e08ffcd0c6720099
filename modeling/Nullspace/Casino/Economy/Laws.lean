import Nullspace.Casino.Economy.Accounts
import Nullspace.Casino.Economy.Market

/-!
# Codec laws of the economy records

Every record round-trips, and every record with extension fields decodes a truncated
encoding with the cut fields at their documented defaults. A buffer that decodes is always
made of whole fields of the decoded record, but it is a field-boundary prefix of that record's
encoding only where no extension field is followed by a narrower one. `HouseState`, `Staker`,
`SavingsPool` and `SavingsBalance` each follow a 16-byte accumulator with an 8-byte field, so
an 8-byte tail is read into the later field while the accumulator defaults to zero.
-/

namespace Nullspace.Casino

open Codec

variable (c : CasinoConstants)

theorem economy_round_trip :
    (HouseState.format c).RoundTrip ∧ Staker.format.RoundTrip ∧ Vault.format.RoundTrip ∧
      SavingsPool.format.RoundTrip ∧ SavingsBalance.format.RoundTrip ∧
      (AmmPool.format c).RoundTrip ∧ PolicyState.format.RoundTrip ∧
      TreasuryState.format.RoundTrip :=
  ⟨Format.roundTrip _, Format.roundTrip _, Format.roundTrip _, Format.roundTrip _,
    Format.roundTrip _, Format.roundTrip _, Format.roundTrip _, Format.roundTrip _⟩

set_option maxRecDepth 4000 in
/-- A negative `net_pnl` and an all-ones `u128` survive the round trip. -/
example : (HouseState.readCfg ⟨5000, 7000, 1, 1, 500⟩).run
    (HouseState.write { HouseState.new ⟨5000, 7000, 1, 1, 500⟩ 1700000000 with
      netPnl := I128.ofInt (-42), totalVotingPower := ⟨-1⟩ } ++ [9]) =
    .ok ({ HouseState.new ⟨5000, 7000, 1, 1, 500⟩ 1700000000 with
      netPnl := I128.ofInt (-42), totalVotingPower := ⟨-1⟩ }, [9]) := by
  rfl

theorem economy_forward_compatible :
    (HouseState.format c).ForwardCompatible ∧ Staker.format.ForwardCompatible ∧
      Vault.format.ForwardCompatible ∧ SavingsPool.format.ForwardCompatible ∧
      SavingsBalance.format.ForwardCompatible ∧ (AmmPool.format c).ForwardCompatible :=
  ⟨Format.forwardCompatible _, Format.forwardCompatible _, Format.forwardCompatible _,
    Format.forwardCompatible _, Format.forwardCompatible _, Format.forwardCompatible _⟩

/-! ## Which buffers decode -/

theorem Vault.noNarrowing : NoNarrowing Vault.layout := by
  simp [NoNarrowing, Vault.layout]

theorem AmmPool.noNarrowing : NoNarrowing (AmmPool.layout c) := by
  simp [NoNarrowing, AmmPool.layout]

theorem economy_fieldwise_decoding :
    (HouseState.format c).FieldwiseDecoding ∧ Staker.format.FieldwiseDecoding ∧
      Vault.format.FieldwiseDecoding ∧ SavingsPool.format.FieldwiseDecoding ∧
      SavingsBalance.format.FieldwiseDecoding ∧ (AmmPool.format c).FieldwiseDecoding ∧
      Vault.format.BoundaryDecoding ∧ (AmmPool.format c).BoundaryDecoding :=
  ⟨Format.fieldwiseDecoding _, Format.fieldwiseDecoding _, Format.fieldwiseDecoding _,
    Format.fieldwiseDecoding _, Format.fieldwiseDecoding _, Format.fieldwiseDecoding _,
    Vault.format.boundaryDecoding Vault.noNarrowing,
    (AmmPool.format c).boundaryDecoding (AmmPool.noNarrowing c)⟩

/-- The shape in `economy_fieldwise_decoding` is exact: every buffer of that shape decodes. -/
theorem economy_fieldwise_complete :
    (HouseState.format c).FieldwiseComplete ∧ Staker.format.FieldwiseComplete ∧
      Vault.format.FieldwiseComplete ∧ SavingsPool.format.FieldwiseComplete ∧
      SavingsBalance.format.FieldwiseComplete ∧ (AmmPool.format c).FieldwiseComplete :=
  ⟨Format.fieldwiseComplete _, Format.fieldwiseComplete _, Format.fieldwiseComplete _,
    Format.fieldwiseComplete _, Format.fieldwiseComplete _, Format.fieldwiseComplete _⟩

/-- `PolicyState` and `TreasuryState` have no extension fields: a buffer decodes exactly when
it is the encoding of the record it decodes to. -/
theorem strict_records_decode_exactly :
    PolicyState.format.Exact ∧ TreasuryState.format.Exact :=
  ⟨PolicyState.format.exact_of_required (by simp [PolicyState.format, PolicyState.layout]),
    TreasuryState.format.exact_of_required (by simp [TreasuryState.format, TreasuryState.layout])⟩

/-- Forty bytes of required fields and one 8-byte tail: the tail is read, big-endian, as
`unclaimed_rewards`, `reward_debt_x18` defaults to zero, and the buffer is not a prefix of
the decoded staker's encoding. -/
theorem staker_decode_skips_reward_debt :
    decodeCfg Staker.readCfg (List.replicate 40 0 ++ [1, 0, 0, 0, 0, 0, 0, 0]) =
        .ok ⟨0, 0, 0, 0, 0, 72057594037927936⟩ ∧
      ¬ (List.replicate 40 0 ++ [1, 0, 0, 0, 0, 0, 0, 0]) <+:
        Staker.write ⟨0, 0, 0, 0, 0, 72057594037927936⟩ := by
  decide

set_option maxRecDepth 4000 in
/-- The same for `HouseState`, whatever the configured jackpot bases: the eight-byte tail after
`uth_progressive_jackpot` becomes `staking_reward_pool`. -/
theorem houseState_decode_skips_accumulator :
    decodeCfg (HouseState.readCfg c) (List.replicate 128 0 ++ [1, 0, 0, 0, 0, 0, 0, 0]) =
      .ok ⟨0, 0, 0, 0, 0, 0, 0, 0, 0, 0, 0, 0, 0, 0, 0, 72057594037927936, 0⟩ := rfl

theorem savingsPool_decode_skips_accumulator :
    decodeCfg SavingsPool.readCfg (List.replicate 8 0 ++ [1, 0, 0, 0, 0, 0, 0, 0]) =
        .ok ⟨0, 0, 72057594037927936, 0, 0⟩ ∧
      ¬ (List.replicate 8 0 ++ [1, 0, 0, 0, 0, 0, 0, 0]) <+:
        SavingsPool.write ⟨0, 0, 72057594037927936, 0, 0⟩ := by
  decide

theorem savingsBalance_decode_skips_accumulator :
    decodeCfg SavingsBalance.readCfg (List.replicate 8 0 ++ [1, 0, 0, 0, 0, 0, 0, 0]) =
        .ok ⟨0, 0, 72057594037927936⟩ ∧
      ¬ (List.replicate 8 0 ++ [1, 0, 0, 0, 0, 0, 0, 0]) <+:
        SavingsBalance.write ⟨0, 0, 72057594037927936⟩ := by
  decide

end Nullspace.Casino

import Nullspace.Codec.Format

/-!
# `HouseState`

The per-epoch "Central Bank" accounting record and its codec. Eight fields are required;
the nine after them were appended in later versions and are read only when enough bytes
remain, defaulting to zero except for the two progressive jackpots, which default to their
configured bases.
-/

namespace Nullspace.Casino

open Codec

/-- The `casino` constants the economy codecs and constructors use. Their values live outside
this slice of the source, so every result holds for any choice of them. -/
structure CasinoConstants where
  threeCardProgressiveBaseJackpot : UInt64
  uthProgressiveBaseJackpot : UInt64
  ammBootstrapPriceVusdtNumerator : UInt64
  ammBootstrapPriceRngDenominator : UInt64
  ammDefaultSellTaxBasisPoints : UInt16
  deriving DecidableEq, Repr

/-- House state for the "Central Bank" model. -/
structure HouseState where
  currentEpoch : UInt64
  epochStartTs : UInt64
  /-- Net profit/loss for the current epoch (house edge minus player wins). -/
  netPnl : I128
  totalStakedAmount : UInt64
  totalVotingPower : U128
  accumulatedFees : UInt64
  totalBurned : UInt64
  totalIssuance : UInt64
  totalVusdtDebt : UInt64
  stabilityFeesAccrued : UInt64
  recoveryPoolVusdt : UInt64
  recoveryPoolRetired : UInt64
  threeCardProgressiveJackpot : UInt64
  uthProgressiveJackpot : UInt64
  /-- Reward accumulator scaled by `STAKING_REWARD_SCALE` (`10 ^ 18`). -/
  stakingRewardPerVotingPowerX18 : U128
  stakingRewardPool : UInt64
  stakingRewardCarry : UInt64
  deriving DecidableEq, Repr

namespace HouseState

variable (c : CasinoConstants)

def new (startTs : UInt64) : HouseState where
  currentEpoch := 0
  epochStartTs := startTs
  netPnl := 0
  totalStakedAmount := 0
  totalVotingPower := 0
  accumulatedFees := 0
  totalBurned := 0
  totalIssuance := 0
  totalVusdtDebt := 0
  stabilityFeesAccrued := 0
  recoveryPoolVusdt := 0
  recoveryPoolRetired := 0
  threeCardProgressiveJackpot := c.threeCardProgressiveBaseJackpot
  uthProgressiveJackpot := c.uthProgressiveBaseJackpot
  stakingRewardPerVotingPowerX18 := 0
  stakingRewardPool := 0
  stakingRewardCarry := 0

def write (x : HouseState) : List UInt8 :=
  u64.write x.currentEpoch ++ u64.write x.epochStartTs ++ i128.write x.netPnl ++
    u64.write x.totalStakedAmount ++ u128.write x.totalVotingPower ++
    u64.write x.accumulatedFees ++ u64.write x.totalBurned ++ u64.write x.totalIssuance ++
    u64.write x.totalVusdtDebt ++ u64.write x.stabilityFeesAccrued ++
    u64.write x.recoveryPoolVusdt ++ u64.write x.recoveryPoolRetired ++
    u64.write x.threeCardProgressiveJackpot ++ u64.write x.uthProgressiveJackpot ++
    u128.write x.stakingRewardPerVotingPowerX18 ++ u64.write x.stakingRewardPool ++
    u64.write x.stakingRewardCarry

def readCfg : Reader HouseState := do
  let currentEpoch ← u64.read
  let epochStartTs ← u64.read
  let netPnl ← i128.read
  let totalStakedAmount ← u64.read
  let totalVotingPower ← u128.read
  let accumulatedFees ← u64.read
  let totalBurned ← u64.read
  let totalIssuance ← u64.read
  let totalVusdtDebt ← u64.readOr 0
  let stabilityFeesAccrued ← u64.readOr 0
  let recoveryPoolVusdt ← u64.readOr 0
  let recoveryPoolRetired ← u64.readOr 0
  -- Optional extensions (backwards compatible with older stored `HouseState` values).
  let threeCardProgressiveJackpot ← u64.readOr c.threeCardProgressiveBaseJackpot
  let uthProgressiveJackpot ← u64.readOr c.uthProgressiveBaseJackpot
  let stakingRewardPerVotingPowerX18 ← u128.readOr 0
  let stakingRewardPool ← u64.readOr 0
  let stakingRewardCarry ← u64.readOr 0
  return {
    currentEpoch := currentEpoch
    epochStartTs := epochStartTs
    netPnl := netPnl
    totalStakedAmount := totalStakedAmount
    totalVotingPower := totalVotingPower
    accumulatedFees := accumulatedFees
    totalBurned := totalBurned
    totalIssuance := totalIssuance
    totalVusdtDebt := totalVusdtDebt
    stabilityFeesAccrued := stabilityFeesAccrued
    recoveryPoolVusdt := recoveryPoolVusdt
    recoveryPoolRetired := recoveryPoolRetired
    threeCardProgressiveJackpot := threeCardProgressiveJackpot
    uthProgressiveJackpot := uthProgressiveJackpot
    stakingRewardPerVotingPowerX18 := stakingRewardPerVotingPowerX18
    stakingRewardPool := stakingRewardPool
    stakingRewardCarry := stakingRewardCarry }

def encodeSize (x : HouseState) : Nat :=
  u64.encodeSize x.currentEpoch + u64.encodeSize x.epochStartTs + i128.encodeSize x.netPnl +
    u64.encodeSize x.totalStakedAmount + u128.encodeSize x.totalVotingPower +
    u64.encodeSize x.accumulatedFees + u64.encodeSize x.totalBurned +
    u64.encodeSize x.totalIssuance + u64.encodeSize x.totalVusdtDebt +
    u64.encodeSize x.stabilityFeesAccrued + u64.encodeSize x.recoveryPoolVusdt +
    u64.encodeSize x.recoveryPoolRetired + u64.encodeSize x.threeCardProgressiveJackpot +
    u64.encodeSize x.uthProgressiveJackpot + u128.encodeSize x.stakingRewardPerVotingPowerX18 +
    u64.encodeSize x.stakingRewardPool + u64.encodeSize x.stakingRewardCarry

/-! ## Layout -/

def layout : Layout :=
  [.required u64, .required u64, .required i128, .required u64, .required u128, .required u64,
    .required u64, .required u64, .optional u64 0, .optional u64 0, .optional u64 0,
    .optional u64 0, .optional u64 c.threeCardProgressiveBaseJackpot,
    .optional u64 c.uthProgressiveBaseJackpot, .optional u128 0, .optional u64 0,
    .optional u64 0]

def fields (x : HouseState) : Row :=
  [u64.write x.currentEpoch, u64.write x.epochStartTs, i128.write x.netPnl,
    u64.write x.totalStakedAmount, u128.write x.totalVotingPower, u64.write x.accumulatedFees,
    u64.write x.totalBurned, u64.write x.totalIssuance, u64.write x.totalVusdtDebt,
    u64.write x.stabilityFeesAccrued, u64.write x.recoveryPoolVusdt,
    u64.write x.recoveryPoolRetired, u64.write x.threeCardProgressiveJackpot,
    u64.write x.uthProgressiveJackpot, u128.write x.stakingRewardPerVotingPowerX18,
    u64.write x.stakingRewardPool, u64.write x.stakingRewardCarry]

def ofFields (r : Row) : HouseState :=
  ⟨u64.ofBytes (r.getD 0 []), u64.ofBytes (r.getD 1 []), i128.ofBytes (r.getD 2 []),
    u64.ofBytes (r.getD 3 []), u128.ofBytes (r.getD 4 []), u64.ofBytes (r.getD 5 []),
    u64.ofBytes (r.getD 6 []), u64.ofBytes (r.getD 7 []), u64.ofBytes (r.getD 8 []),
    u64.ofBytes (r.getD 9 []), u64.ofBytes (r.getD 10 []), u64.ofBytes (r.getD 11 []),
    u64.ofBytes (r.getD 12 []), u64.ofBytes (r.getD 13 []), u128.ofBytes (r.getD 14 []),
    u64.ofBytes (r.getD 15 []), u64.ofBytes (r.getD 16 [])⟩

theorem readCfg_eq : readCfg c = ofFields <$> readRow (layout c) := by
  simp only [layout, readRow, FieldSpec.read_required, FieldSpec.read_optional, bind_map_left,
    bind_pure_comp, map_pure]
  simp only [map_bind, Functor.map_map]
  simp only [readCfg, bind_pure_comp, ofFields, List.getD_cons_zero, List.getD_cons_succ,
    FixedCodec.ofBytes_write]

theorem fields_ofFields (r : Row) (h : Fits (layout c) r) : fields (ofFields r) = r := by
  rcases h with _ | ⟨h0, _ | ⟨h1, _ | ⟨h2, _ | ⟨h3, _ | ⟨h4, _ | ⟨h5, _ | ⟨h6, _ | ⟨h7,
    _ | ⟨h8, _ | ⟨h9, _ | ⟨h10, _ | ⟨h11, _ | ⟨h12, _ | ⟨h13, _ | ⟨h14, _ | ⟨h15,
    _ | ⟨h16, _ | _⟩⟩⟩⟩⟩⟩⟩⟩⟩⟩⟩⟩⟩⟩⟩⟩⟩
  simp_all only [FieldSpec.size_required, FieldSpec.size_optional, fields, ofFields,
    List.getD_cons_zero, List.getD_cons_succ, FixedCodec.write_ofBytes]

def format : Format HouseState where
  layout := layout c
  mandatory := 8
  fields := fields
  ofFields := ofFields
  write := write
  read := readCfg c
  encodeSize := encodeSize
  optional_drop := by simp [layout]
  write_eq x := by simp [write, fields]
  read_eq := readCfg_eq c
  encodeSize_eq x := by simp [encodeSize, layout, FixedCodec.encodeSize]
  fits x := by simp [Fits, layout, fields]
  ofFields_fields x := by simp [ofFields, fields]
  fields_ofFields := fields_ofFields c

/-- The reader's defaults are the constructor's initial values: a fresh house state, stored by
a writer that stopped after any field from the last required one on, reads back as itself. -/
theorem decode_take_new (ts : UInt64) {k : Nat} (hk : 8 ≤ k) :
    decodeCfg (readCfg c) ((write (new c ts)).take ((format c).boundary k)) = .ok (new c ts) :=
  (format c).decode_take_of_fresh hk rfl

end HouseState

end Nullspace.Casino

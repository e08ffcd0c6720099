import Nullspace.Codec.Format

/-!
# Staker, vault and savings records

The per-account economy records. Each starts with required fields and ends with extension
fields defaulting to zero. `Staker`, `SavingsPool` and `SavingsBalance` have a 16-byte
reward accumulator as their first extension field, followed by 8-byte fields.
-/

namespace Nullspace.Casino

open Codec

/-! ## `Staker` -/

/-- Staker state. -/
structure Staker where
  balance : UInt64
  unlockTs : UInt64
  lastClaimEpoch : UInt64
  votingPower : U128
  rewardDebtX18 : U128
  unclaimedRewards : UInt64
  deriving DecidableEq, Repr

namespace Staker

def write (x : Staker) : List UInt8 :=
  u64.write x.balance ++ u64.write x.unlockTs ++ u64.write x.lastClaimEpoch ++
    u128.write x.votingPower ++ u128.write x.rewardDebtX18 ++ u64.write x.unclaimedRewards

def readCfg : Reader Staker := do
  let balance ← u64.read
  let unlockTs ← u64.read
  let lastClaimEpoch ← u64.read
  let votingPower ← u128.read
  let rewardDebtX18 ← u128.readOr 0
  let unclaimedRewards ← u64.readOr 0
  return {
    balance := balance
    unlockTs := unlockTs
    lastClaimEpoch := lastClaimEpoch
    votingPower := votingPower
    rewardDebtX18 := rewardDebtX18
    unclaimedRewards := unclaimedRewards }

def encodeSize (x : Staker) : Nat :=
  u64.encodeSize x.balance + u64.encodeSize x.unlockTs + u64.encodeSize x.lastClaimEpoch +
    u128.encodeSize x.votingPower + u128.encodeSize x.rewardDebtX18 +
    u64.encodeSize x.unclaimedRewards

def layout : Layout :=
  [.required u64, .required u64, .required u64, .required u128, .optional u128 0,
    .optional u64 0]

def fields (x : Staker) : Row :=
  [u64.write x.balance, u64.write x.unlockTs, u64.write x.lastClaimEpoch,
    u128.write x.votingPower, u128.write x.rewardDebtX18, u64.write x.unclaimedRewards]

def ofFields (r : Row) : Staker :=
  ⟨u64.ofBytes (r.getD 0 []), u64.ofBytes (r.getD 1 []), u64.ofBytes (r.getD 2 []),
    u128.ofBytes (r.getD 3 []), u128.ofBytes (r.getD 4 []), u64.ofBytes (r.getD 5 [])⟩

theorem readCfg_eq : readCfg = ofFields <$> readRow layout := by
  simp only [layout, readRow, FieldSpec.read_required, FieldSpec.read_optional, bind_map_left,
    bind_pure_comp, map_pure]
  simp only [map_bind, Functor.map_map]
  simp only [readCfg, bind_pure_comp, ofFields, List.getD_cons_zero, List.getD_cons_succ,
    FixedCodec.ofBytes_write]

theorem fields_ofFields (r : Row) (h : Fits layout r) : fields (ofFields r) = r := by
  rcases h with _ | ⟨h0, _ | ⟨h1, _ | ⟨h2, _ | ⟨h3, _ | ⟨h4, _ | ⟨h5, _ | _⟩⟩⟩⟩⟩⟩
  simp_all only [FieldSpec.size_required, FieldSpec.size_optional, fields, ofFields,
    List.getD_cons_zero, List.getD_cons_succ, FixedCodec.write_ofBytes]

def format : Format Staker where
  layout := layout
  mandatory := 4
  fields := fields
  ofFields := ofFields
  write := write
  read := readCfg
  encodeSize := encodeSize
  optional_drop := by simp [layout]
  write_eq x := by simp [write, fields]
  read_eq := readCfg_eq
  encodeSize_eq x := by simp [encodeSize, layout, FixedCodec.encodeSize]
  fits x := by simp [Fits, layout, fields]
  ofFields_fields x := by simp [ofFields, fields]
  fields_ofFields := fields_ofFields

end Staker

/-! ## `Vault` -/

/-- Vault state for CDP (Collateralized Debt Position). -/
structure Vault where
  collateralRng : UInt64
  debtVusdt : UInt64
  lastAccrualTs : UInt64
  deriving DecidableEq, Repr

namespace Vault

def write (x : Vault) : List UInt8 :=
  u64.write x.collateralRng ++ u64.write x.debtVusdt ++ u64.write x.lastAccrualTs

def readCfg : Reader Vault := do
  return {
    collateralRng := (← u64.read)
    debtVusdt := (← u64.read)
    lastAccrualTs := (← u64.readOr 0) }

def encodeSize (x : Vault) : Nat :=
  u64.encodeSize x.collateralRng + u64.encodeSize x.debtVusdt + u64.encodeSize x.lastAccrualTs

def layout : Layout := [.required u64, .required u64, .optional u64 0]

def fields (x : Vault) : Row :=
  [u64.write x.collateralRng, u64.write x.debtVusdt, u64.write x.lastAccrualTs]

def ofFields (r : Row) : Vault :=
  ⟨u64.ofBytes (r.getD 0 []), u64.ofBytes (r.getD 1 []), u64.ofBytes (r.getD 2 [])⟩

theorem readCfg_eq : readCfg = ofFields <$> readRow layout := by
  simp only [layout, readRow, FieldSpec.read_required, FieldSpec.read_optional, bind_map_left,
    bind_pure_comp, map_pure]
  simp only [map_bind, Functor.map_map]
  simp only [readCfg, bind_pure_comp, ofFields, List.getD_cons_zero, List.getD_cons_succ,
    FixedCodec.ofBytes_write]

theorem fields_ofFields (r : Row) (h : Fits layout r) : fields (ofFields r) = r := by
  rcases h with _ | ⟨h0, _ | ⟨h1, _ | ⟨h2, _ | _⟩⟩⟩
  simp_all only [FieldSpec.size_required, FieldSpec.size_optional, fields, ofFields,
    List.getD_cons_zero, List.getD_cons_succ, FixedCodec.write_ofBytes]

def format : Format Vault where
  layout := layout
  mandatory := 2
  fields := fields
  ofFields := ofFields
  write := write
  read := readCfg
  encodeSize := encodeSize
  optional_drop := by simp [layout]
  write_eq x := by simp [write, fields]
  read_eq := readCfg_eq
  encodeSize_eq x := by simp [encodeSize, layout, FixedCodec.encodeSize]
  fits x := by simp [Fits, layout, fields]
  ofFields_fields x := by simp [ofFields, fields]
  fields_ofFields := fields_ofFields

end Vault

/-! ## `SavingsPool` -/

/-- vUSDT savings pool state (funded by stability fees). -/
structure SavingsPool where
  totalDeposits : UInt64
  rewardPerShareX18 : U128
  pendingRewards : UInt64
  totalRewardsAccrued : UInt64
  totalRewardsPaid : UInt64
  deriving DecidableEq, Repr

namespace SavingsPool

def write (x : SavingsPool) : List UInt8 :=
  u64.write x.totalDeposits ++ u128.write x.rewardPerShareX18 ++ u64.write x.pendingRewards ++
    u64.write x.totalRewardsAccrued ++ u64.write x.totalRewardsPaid

def readCfg : Reader SavingsPool := do
  return {
    totalDeposits := (← u64.read)
    rewardPerShareX18 := (← u128.readOr 0)
    pendingRewards := (← u64.readOr 0)
    totalRewardsAccrued := (← u64.readOr 0)
    totalRewardsPaid := (← u64.readOr 0) }

def encodeSize (x : SavingsPool) : Nat :=
  u64.encodeSize x.totalDeposits + u128.encodeSize x.rewardPerShareX18 +
    u64.encodeSize x.pendingRewards + u64.encodeSize x.totalRewardsAccrued +
    u64.encodeSize x.totalRewardsPaid

def layout : Layout :=
  [.required u64, .optional u128 0, .optional u64 0, .optional u64 0, .optional u64 0]

def fields (x : SavingsPool) : Row :=
  [u64.write x.totalDeposits, u128.write x.rewardPerShareX18, u64.write x.pendingRewards,
    u64.write x.totalRewardsAccrued, u64.write x.totalRewardsPaid]

def ofFields (r : Row) : SavingsPool :=
  ⟨u64.ofBytes (r.getD 0 []), u128.ofBytes (r.getD 1 []), u64.ofBytes (r.getD 2 []),
    u64.ofBytes (r.getD 3 []), u64.ofBytes (r.getD 4 [])⟩

theorem readCfg_eq : readCfg = ofFields <$> readRow layout := by
  simp only [layout, readRow, FieldSpec.read_required, FieldSpec.read_optional, bind_map_left,
    bind_pure_comp, map_pure]
  simp only [map_bind, Functor.map_map]
  simp only [readCfg, bind_pure_comp, ofFields, List.getD_cons_zero, List.getD_cons_succ,
    FixedCodec.ofBytes_write]

theorem fields_ofFields (r : Row) (h : Fits layout r) : fields (ofFields r) = r := by
  rcases h with _ | ⟨h0, _ | ⟨h1, _ | ⟨h2, _ | ⟨h3, _ | ⟨h4, _ | _⟩⟩⟩⟩⟩
  simp_all only [FieldSpec.size_required, FieldSpec.size_optional, fields, ofFields,
    List.getD_cons_zero, List.getD_cons_succ, FixedCodec.write_ofBytes]

def format : Format SavingsPool where
  layout := layout
  mandatory := 1
  fields := fields
  ofFields := ofFields
  write := write
  read := readCfg
  encodeSize := encodeSize
  optional_drop := by simp [layout]
  write_eq x := by simp [write, fields]
  read_eq := readCfg_eq
  encodeSize_eq x := by simp [encodeSize, layout, FixedCodec.encodeSize]
  fits x := by simp [Fits, layout, fields]
  ofFields_fields x := by simp [ofFields, fields]
  fields_ofFields := fields_ofFields

end SavingsPool

/-! ## `SavingsBalance` -/

/-- Per-player savings balance and reward tracking. -/
structure SavingsBalance where
  depositBalance : UInt64
  rewardDebtX18 : U128
  unclaimedRewards : UInt64
  deriving DecidableEq, Repr

namespace SavingsBalance

def write (x : SavingsBalance) : List UInt8 :=
  u64.write x.depositBalance ++ u128.write x.rewardDebtX18 ++ u64.write x.unclaimedRewards

def readCfg : Reader SavingsBalance := do
  return {
    depositBalance := (← u64.read)
    rewardDebtX18 := (← u128.readOr 0)
    unclaimedRewards := (← u64.readOr 0) }

def encodeSize (x : SavingsBalance) : Nat :=
  u64.encodeSize x.depositBalance + u128.encodeSize x.rewardDebtX18 +
    u64.encodeSize x.unclaimedRewards

def layout : Layout := [.required u64, .optional u128 0, .optional u64 0]

def fields (x : SavingsBalance) : Row :=
  [u64.write x.depositBalance, u128.write x.rewardDebtX18, u64.write x.unclaimedRewards]

def ofFields (r : Row) : SavingsBalance :=
  ⟨u64.ofBytes (r.getD 0 []), u128.ofBytes (r.getD 1 []), u64.ofBytes (r.getD 2 [])⟩

theorem readCfg_eq : readCfg = ofFields <$> readRow layout := by
  simp only [layout, readRow, FieldSpec.read_required, FieldSpec.read_optional, bind_map_left,
    bind_pure_comp, map_pure]
  simp only [map_bind, Functor.map_map]
  simp only [readCfg, bind_pure_comp, ofFields, List.getD_cons_zero, List.getD_cons_succ,
    FixedCodec.ofBytes_write]

theorem fields_ofFields (r : Row) (h : Fits layout r) : fields (ofFields r) = r := by
  rcases h with _ | ⟨h0, _ | ⟨h1, _ | ⟨h2, _ | _⟩⟩⟩
  simp_all only [FieldSpec.size_required, FieldSpec.size_optional, fields, ofFields,
    List.getD_cons_zero, List.getD_cons_succ, FixedCodec.write_ofBytes]

def format : Format SavingsBalance where
  layout := layout
  mandatory := 1
  fields := fields
  ofFields := ofFields
  write := write
  read := readCfg
  encodeSize := encodeSize
  optional_drop := by simp [layout]
  write_eq x := by simp [write, fields]
  read_eq := readCfg_eq
  encodeSize_eq x := by simp [encodeSize, layout, FixedCodec.encodeSize]
  fits x := by simp [Fits, layout, fields]
  ofFields_fields x := by simp [ofFields, fields]
  fields_ofFields := fields_ofFields

end SavingsBalance

end Nullspace.Casino

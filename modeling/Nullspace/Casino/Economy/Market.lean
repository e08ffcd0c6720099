import Nullspace.Casino.Economy.House

/-!
# AMM pool, policy and treasury records

`AmmPool` ends with its bootstrap price as two extension fields, defaulting to the configured
bootstrap price. `PolicyState` and `TreasuryState` have required fields only.
-/

namespace Nullspace.Casino

open Codec

/-! ## `AmmPool` -/

/-- AMM Pool state (Constant Product Market Maker). -/
structure AmmPool where
  reserveRng : UInt64
  reserveVusdt : UInt64
  totalShares : UInt64
  /-- e.g. 30 = 0.3% -/
  feeBasisPoints : UInt16
  /-- e.g. 500 = 5% -/
  sellTaxBasisPoints : UInt16
  bootstrapPriceVusdtNumerator : UInt64
  bootstrapPriceRngDenominator : UInt64
  deriving DecidableEq, Repr

namespace AmmPool

variable (c : CasinoConstants)

def new (feeBps : UInt16) : AmmPool where
  reserveRng := 0
  reserveVusdt := 0
  totalShares := 0
  feeBasisPoints := feeBps
  sellTaxBasisPoints := c.ammDefaultSellTaxBasisPoints
  bootstrapPriceVusdtNumerator := c.ammBootstrapPriceVusdtNumerator
  bootstrapPriceRngDenominator := c.ammBootstrapPriceRngDenominator

def write (x : AmmPool) : List UInt8 :=
  u64.write x.reserveRng ++ u64.write x.reserveVusdt ++ u64.write x.totalShares ++
    u16.write x.feeBasisPoints ++ u16.write x.sellTaxBasisPoints ++
    u64.write x.bootstrapPriceVusdtNumerator ++ u64.write x.bootstrapPriceRngDenominator

def readCfg : Reader AmmPool := do
  let reserveRng ← u64.read
  let reserveVusdt ← u64.read
  let totalShares ← u64.read
  let feeBasisPoints ← u16.read
  let sellTaxBasisPoints ← u16.read
  let bootstrapPriceVusdtNumerator ← u64.readOr c.ammBootstrapPriceVusdtNumerator
  let bootstrapPriceRngDenominator ← u64.readOr c.ammBootstrapPriceRngDenominator
  return {
    reserveRng := reserveRng
    reserveVusdt := reserveVusdt
    totalShares := totalShares
    feeBasisPoints := feeBasisPoints
    sellTaxBasisPoints := sellTaxBasisPoints
    bootstrapPriceVusdtNumerator := bootstrapPriceVusdtNumerator
    bootstrapPriceRngDenominator := bootstrapPriceRngDenominator }

def encodeSize (x : AmmPool) : Nat :=
  u64.encodeSize x.reserveRng + u64.encodeSize x.reserveVusdt + u64.encodeSize x.totalShares +
    u16.encodeSize x.feeBasisPoints + u16.encodeSize x.sellTaxBasisPoints +
    u64.encodeSize x.bootstrapPriceVusdtNumerator + u64.encodeSize x.bootstrapPriceRngDenominator

def layout : Layout :=
  [.required u64, .required u64, .required u64, .required u16, .required u16,
    .optional u64 c.ammBootstrapPriceVusdtNumerator,
    .optional u64 c.ammBootstrapPriceRngDenominator]

def fields (x : AmmPool) : Row :=
  [u64.write x.reserveRng, u64.write x.reserveVusdt, u64.write x.totalShares,
    u16.write x.feeBasisPoints, u16.write x.sellTaxBasisPoints,
    u64.write x.bootstrapPriceVusdtNumerator, u64.write x.bootstrapPriceRngDenominator]

def ofFields (r : Row) : AmmPool :=
  ⟨u64.ofBytes (r.getD 0 []), u64.ofBytes (r.getD 1 []), u64.ofBytes (r.getD 2 []),
    u16.ofBytes (r.getD 3 []), u16.ofBytes (r.getD 4 []), u64.ofBytes (r.getD 5 []),
    u64.ofBytes (r.getD 6 [])⟩

theorem readCfg_eq : readCfg c = ofFields <$> readRow (layout c) := by
  simp only [layout, readRow, FieldSpec.read_required, FieldSpec.read_optional, bind_map_left,
    bind_pure_comp, map_pure]
  simp only [map_bind, Functor.map_map]
  simp only [readCfg, bind_pure_comp, ofFields, List.getD_cons_zero, List.getD_cons_succ,
    FixedCodec.ofBytes_write]

theorem fields_ofFields (r : Row) (h : Fits (layout c) r) : fields (ofFields r) = r := by
  rcases h with _ | ⟨h0, _ | ⟨h1, _ | ⟨h2, _ | ⟨h3, _ | ⟨h4, _ | ⟨h5, _ | ⟨h6, _ | _⟩⟩⟩⟩⟩⟩⟩
  simp_all only [FieldSpec.size_required, FieldSpec.size_optional, fields, ofFields,
    List.getD_cons_zero, List.getD_cons_succ, FixedCodec.write_ofBytes]

def format : Format AmmPool where
  layout := layout c
  mandatory := 5
  fields := fields
  ofFields := ofFields
  write := write
  read := readCfg c
  encodeSize := encodeSize
  optional_drop := by simp [layout]
  write_eq x := by simp [write, fields]
  read_eq := readCfg_eq c
  encodeSize_eq x := by simp [encodeSize, layout, FixedCodec.encodeSize]
  fits x := by simp [Fits, layout, fields]
  ofFields_fields x := by simp [ofFields, fields]
  fields_ofFields := fields_ofFields c

theorem decode_take_new (fee : UInt16) {k : Nat} (hk : 5 ≤ k) :
    decodeCfg (readCfg c) ((write (new c fee)).take ((format c).boundary k)) = .ok (new c fee) :=
  (format c).decode_take_of_fresh hk rfl

end AmmPool

/-! ## `PolicyState` -/

/-- Policy configuration for economy controls. -/
structure PolicyState where
  sellTaxMinBps : UInt16
  sellTaxMidBps : UInt16
  sellTaxMaxBps : UInt16
  sellTaxOutflowLowBps : UInt16
  sellTaxOutflowMidBps : UInt16
  maxDailySellBpsBalance : UInt16
  maxDailySellBpsPool : UInt16
  maxDailyBuyBpsBalance : UInt16
  maxDailyBuyBpsPool : UInt16
  maxLtvBpsNew : UInt16
  maxLtvBpsMature : UInt16
  liquidationThresholdBps : UInt16
  liquidationTargetBps : UInt16
  liquidationPenaltyBps : UInt16
  liquidationRewardBps : UInt16
  liquidationStabilityBps : UInt16
  stabilityFeeAprBps : UInt16
  debtCeilingBps : UInt16
  creditImmediateBps : UInt16
  creditVestSecs : UInt64
  creditExpirySecs : UInt64
  deriving DecidableEq, Repr

namespace PolicyState

def write (x : PolicyState) : List UInt8 :=
  u16.write x.sellTaxMinBps ++ u16.write x.sellTaxMidBps ++ u16.write x.sellTaxMaxBps ++
    u16.write x.sellTaxOutflowLowBps ++ u16.write x.sellTaxOutflowMidBps ++
    u16.write x.maxDailySellBpsBalance ++ u16.write x.maxDailySellBpsPool ++
    u16.write x.maxDailyBuyBpsBalance ++ u16.write x.maxDailyBuyBpsPool ++
    u16.write x.maxLtvBpsNew ++ u16.write x.maxLtvBpsMature ++
    u16.write x.liquidationThresholdBps ++ u16.write x.liquidationTargetBps ++
    u16.write x.liquidationPenaltyBps ++ u16.write x.liquidationRewardBps ++
    u16.write x.liquidationStabilityBps ++ u16.write x.stabilityFeeAprBps ++
    u16.write x.debtCeilingBps ++ u16.write x.creditImmediateBps ++
    u64.write x.creditVestSecs ++ u64.write x.creditExpirySecs

def readCfg : Reader PolicyState := do
  return {
    sellTaxMinBps := (← u16.read)
    sellTaxMidBps := (← u16.read)
    sellTaxMaxBps := (← u16.read)
    sellTaxOutflowLowBps := (← u16.read)
    sellTaxOutflowMidBps := (← u16.read)
    maxDailySellBpsBalance := (← u16.read)
    maxDailySellBpsPool := (← u16.read)
    maxDailyBuyBpsBalance := (← u16.read)
    maxDailyBuyBpsPool := (← u16.read)
    maxLtvBpsNew := (← u16.read)
    maxLtvBpsMature := (← u16.read)
    liquidationThresholdBps := (← u16.read)
    liquidationTargetBps := (← u16.read)
    liquidationPenaltyBps := (← u16.read)
    liquidationRewardBps := (← u16.read)
    liquidationStabilityBps := (← u16.read)
    stabilityFeeAprBps := (← u16.read)
    debtCeilingBps := (← u16.read)
    creditImmediateBps := (← u16.read)
    creditVestSecs := (← u64.read)
    creditExpirySecs := (← u64.read) }

def encodeSize (x : PolicyState) : Nat :=
  u16.encodeSize x.sellTaxMinBps + u16.encodeSize x.sellTaxMidBps +
    u16.encodeSize x.sellTaxMaxBps + u16.encodeSize x.sellTaxOutflowLowBps +
    u16.encodeSize x.sellTaxOutflowMidBps + u16.encodeSize x.maxDailySellBpsBalance +
    u16.encodeSize x.maxDailySellBpsPool + u16.encodeSize x.maxDailyBuyBpsBalance +
    u16.encodeSize x.maxDailyBuyBpsPool + u16.encodeSize x.maxLtvBpsNew +
    u16.encodeSize x.maxLtvBpsMature + u16.encodeSize x.liquidationThresholdBps +
    u16.encodeSize x.liquidationTargetBps + u16.encodeSize x.liquidationPenaltyBps +
    u16.encodeSize x.liquidationRewardBps + u16.encodeSize x.liquidationStabilityBps +
    u16.encodeSize x.stabilityFeeAprBps + u16.encodeSize x.debtCeilingBps +
    u16.encodeSize x.creditImmediateBps + u64.encodeSize x.creditVestSecs +
    u64.encodeSize x.creditExpirySecs

def layout : Layout :=
  [.required u16, .required u16, .required u16, .required u16, .required u16, .required u16,
    .required u16, .required u16, .required u16, .required u16, .required u16, .required u16,
    .required u16, .required u16, .required u16, .required u16, .required u16, .required u16,
    .required u16, .required u64, .required u64]

def fields (x : PolicyState) : Row :=
  [u16.write x.sellTaxMinBps, u16.write x.sellTaxMidBps, u16.write x.sellTaxMaxBps,
    u16.write x.sellTaxOutflowLowBps, u16.write x.sellTaxOutflowMidBps,
    u16.write x.maxDailySellBpsBalance, u16.write x.maxDailySellBpsPool,
    u16.write x.maxDailyBuyBpsBalance, u16.write x.maxDailyBuyBpsPool,
    u16.write x.maxLtvBpsNew, u16.write x.maxLtvBpsMature, u16.write x.liquidationThresholdBps,
    u16.write x.liquidationTargetBps, u16.write x.liquidationPenaltyBps,
    u16.write x.liquidationRewardBps, u16.write x.liquidationStabilityBps,
    u16.write x.stabilityFeeAprBps, u16.write x.debtCeilingBps, u16.write x.creditImmediateBps,
    u64.write x.creditVestSecs, u64.write x.creditExpirySecs]

def ofFields (r : Row) : PolicyState :=
  ⟨u16.ofBytes (r.getD 0 []), u16.ofBytes (r.getD 1 []), u16.ofBytes (r.getD 2 []),
    u16.ofBytes (r.getD 3 []), u16.ofBytes (r.getD 4 []), u16.ofBytes (r.getD 5 []),
    u16.ofBytes (r.getD 6 []), u16.ofBytes (r.getD 7 []), u16.ofBytes (r.getD 8 []),
    u16.ofBytes (r.getD 9 []), u16.ofBytes (r.getD 10 []), u16.ofBytes (r.getD 11 []),
    u16.ofBytes (r.getD 12 []), u16.ofBytes (r.getD 13 []), u16.ofBytes (r.getD 14 []),
    u16.ofBytes (r.getD 15 []), u16.ofBytes (r.getD 16 []), u16.ofBytes (r.getD 17 []),
    u16.ofBytes (r.getD 18 []), u64.ofBytes (r.getD 19 []), u64.ofBytes (r.getD 20 [])⟩

theorem readCfg_eq : readCfg = ofFields <$> readRow layout := by
  simp only [layout, readRow, FieldSpec.read_required, FieldSpec.read_optional, bind_map_left,
    bind_pure_comp, map_pure]
  simp only [map_bind, Functor.map_map]
  simp only [readCfg, bind_pure_comp, ofFields, List.getD_cons_zero, List.getD_cons_succ,
    FixedCodec.ofBytes_write]

theorem fields_ofFields (r : Row) (h : Fits layout r) : fields (ofFields r) = r := by
  rcases h with _ | ⟨h0, _ | ⟨h1, _ | ⟨h2, _ | ⟨h3, _ | ⟨h4, _ | ⟨h5, _ | ⟨h6, _ | ⟨h7, _ |
    ⟨h8, _ | ⟨h9, _ | ⟨h10, _ | ⟨h11, _ | ⟨h12, _ | ⟨h13, _ | ⟨h14, _ | ⟨h15, _ | ⟨h16, _ |
    ⟨h17, _ | ⟨h18, _ | ⟨h19, _ | ⟨h20, _ | _⟩⟩⟩⟩⟩⟩⟩⟩⟩⟩⟩⟩⟩⟩⟩⟩⟩⟩⟩⟩⟩
  simp_all only [FieldSpec.size_required, FieldSpec.size_optional, fields, ofFields,
    List.getD_cons_zero, List.getD_cons_succ, FixedCodec.write_ofBytes]

def format : Format PolicyState where
  layout := layout
  mandatory := 21
  fields := fields
  ofFields := ofFields
  write := write
  read := readCfg
  encodeSize := encodeSize
  optional_drop := by simp [layout]
  write_eq x := by simp [write, fields]
  read_eq := readCfg_eq
  encodeSize_eq x := by simp [encodeSize, layout, FixedCodec.encodeSize]
  fits x := by simp [Fits, layout, fields]
  ofFields_fields x := by simp [ofFields, fields]
  fields_ofFields := fields_ofFields

end PolicyState

/-! ## `TreasuryState` -/

/-- Treasury allocation ledger (RNG buckets). -/
structure TreasuryState where
  auctionAllocationRng : UInt64
  liquidityReserveRng : UInt64
  bonusPoolRng : UInt64
  playerAllocationRng : UInt64
  treasuryAllocationRng : UInt64
  teamAllocationRng : UInt64
  deriving DecidableEq, Repr

namespace TreasuryState

def write (x : TreasuryState) : List UInt8 :=
  u64.write x.auctionAllocationRng ++ u64.write x.liquidityReserveRng ++
    u64.write x.bonusPoolRng ++ u64.write x.playerAllocationRng ++
    u64.write x.treasuryAllocationRng ++ u64.write x.teamAllocationRng

def readCfg : Reader TreasuryState := do
  return {
    auctionAllocationRng := (← u64.read)
    liquidityReserveRng := (← u64.read)
    bonusPoolRng := (← u64.read)
    playerAllocationRng := (← u64.read)
    treasuryAllocationRng := (← u64.read)
    teamAllocationRng := (← u64.read) }

def encodeSize (x : TreasuryState) : Nat :=
  u64.encodeSize x.auctionAllocationRng + u64.encodeSize x.liquidityReserveRng +
    u64.encodeSize x.bonusPoolRng + u64.encodeSize x.playerAllocationRng +
    u64.encodeSize x.treasuryAllocationRng + u64.encodeSize x.teamAllocationRng

def layout : Layout :=
  [.required u64, .required u64, .required u64, .required u64, .required u64, .required u64]

def fields (x : TreasuryState) : Row :=
  [u64.write x.auctionAllocationRng, u64.write x.liquidityReserveRng, u64.write x.bonusPoolRng,
    u64.write x.playerAllocationRng, u64.write x.treasuryAllocationRng,
    u64.write x.teamAllocationRng]

def ofFields (r : Row) : TreasuryState :=
  ⟨u64.ofBytes (r.getD 0 []), u64.ofBytes (r.getD 1 []), u64.ofBytes (r.getD 2 []),
    u64.ofBytes (r.getD 3 []), u64.ofBytes (r.getD 4 []), u64.ofBytes (r.getD 5 [])⟩

theorem readCfg_eq : readCfg = ofFields <$> readRow layout := by
  simp only [layout, readRow, FieldSpec.read_required, FieldSpec.read_optional, bind_map_left,
    bind_pure_comp, map_pure]
  simp only [map_bind, Functor.map_map]
  simp only [readCfg, bind_pure_comp, ofFields, List.getD_cons_zero, List.getD_cons_succ,
    FixedCodec.ofBytes_write]

theorem fields_ofFields (r : Row) (h : Fits layout r) : fields (ofFields r) = r := by
  rcases h with _ | ⟨h0, _ | ⟨h1, _ | ⟨h2, _ | ⟨h3, _ | ⟨h4, _ | ⟨h5, _ | _⟩⟩⟩⟩⟩⟩
  simp_all only [FieldSpec.size_required, FieldSpec.size_optional, fields, ofFields,
    List.getD_cons_zero, List.getD_cons_succ, FixedCodec.write_ofBytes]

def format : Format TreasuryState where
  layout := layout
  mandatory := 6
  fields := fields
  ofFields := ofFields
  write := write
  read := readCfg
  encodeSize := encodeSize
  optional_drop := by simp [layout]
  write_eq x := by simp [write, fields]
  read_eq := readCfg_eq
  encodeSize_eq x := by simp [encodeSize, layout, FixedCodec.encodeSize]
  fits x := by simp [Fits, layout, fields]
  ofFields_fields x := by simp [ofFields, fields]
  fields_ofFields := fields_ofFields

end TreasuryState

end Nullspace.Casino

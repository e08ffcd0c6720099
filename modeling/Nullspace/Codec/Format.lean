import Nullspace.Codec.Layout

/-!
# Record formats

A `Format` packages one record type's `Write`, `Read` and `EncodeSize` implementations, as
translated from the source, with its field layout and the facts tying the two together:
`write` emits the fields in order and `read` is `readRow` over the layout. Each record
proves those facts once; everything below is derived from `Accepts`.
-/

namespace Nullspace.Codec

/-- A record type's wire format: the source's `write`, `read_cfg` and `encode_size` with the
layout they implement. -/
structure Format (R : Type) where
  layout : Layout
  /-- The number of leading required fields; every later field is an extension. -/
  mandatory : Nat
  fields : R → Row
  ofFields : Row → R
  write : R → List UInt8
  read : Reader R
  encodeSize : R → Nat
  optional_drop : ∀ f ∈ layout.drop mandatory, f.default.isSome
  write_eq : ∀ x, write x = (fields x).flatten
  read_eq : read = ofFields <$> readRow layout
  encodeSize_eq : ∀ x, encodeSize x = (layout.map FieldSpec.size).sum
  fits : ∀ x, Fits layout (fields x)
  ofFields_fields : ∀ x, ofFields (fields x) = x
  fields_ofFields : ∀ r, Fits layout r → fields (ofFields r) = r

namespace Format

variable {R : Type} (F : Format R)

/-- The end of the first `k` fields in the encoding. -/
def boundary (k : Nat) : Nat := ((F.layout.take k).map FieldSpec.size).sum

/-! ## The runs of a record reader -/

theorem read_eq_ok_iff {b t : List UInt8} {y : R} :
    F.read.run b = .ok (y, t) ↔ Accepts F.layout (F.fields y) b t := by
  rw [F.read_eq, map_run_eq_ok]
  constructor
  · rintro ⟨r, hr, rfl⟩
    have ha := readRow_eq_ok_iff.mp hr
    rwa [F.fields_ofFields _ ha.fits]
  · exact fun h => ⟨_, readRow_eq_ok_iff.mpr h, F.ofFields_fields y⟩

theorem decode_eq_ok_iff {b : List UInt8} {y : R} :
    decodeCfg F.read b = .ok y ↔ Accepts F.layout (F.fields y) b [] :=
  decodeCfg_eq_ok.trans F.read_eq_ok_iff

theorem take_write (x : R) (k : Nat) : (F.write x).take (F.boundary k) = ((F.fields x).take k).flatten := by
  rw [F.write_eq, boundary, (F.fits x).take_flatten]

/-! ## Properties of a format -/

/-- `write` emits `encode_size` bytes, and reading the encoding followed by any bytes gives
the record back and leaves exactly those bytes. -/
def RoundTrip : Prop :=
  ∀ x t, (F.write x).length = F.encodeSize x ∧ F.read.run (F.write x ++ t) = .ok (x, t)

/-- Decoding the encoding cut at a field boundary after the required fields succeeds, with
every field before the cut kept and every field after it at its default. -/
def ForwardCompatible : Prop :=
  ∀ x k, F.mandatory ≤ k → ∃ y, decodeCfg F.read ((F.write x).take (F.boundary k)) = .ok y ∧
    F.fields y = (F.fields x).take k ++ (F.layout.drop k).map FieldSpec.fallback

/-- Every buffer that decodes is a prefix, ending at a field boundary, of the encoding of
what it decodes to. -/
def BoundaryDecoding : Prop :=
  ∀ b y, decodeCfg F.read b = .ok y → ∃ k, b = (F.write y).take (F.boundary k)

/-- Every buffer that decodes is the encoding of what it decodes to with some extension
fields left out, each holding its default and wider than everything after it. -/
def FieldwiseDecoding : Prop :=
  ∀ b y, decodeCfg F.read b = .ok y → Accepts F.layout (F.fields y) b []

theorem roundTrip : F.RoundTrip := fun x t =>
  ⟨by rw [F.write_eq, F.encodeSize_eq, (F.fits x).length_flatten],
    F.read_eq_ok_iff.mpr (F.write_eq x ▸ Accepts.of_fits (F.fits x) t)⟩

theorem forwardCompatible : F.ForwardCompatible := by
  intro x k hk
  have hopt : ∀ f ∈ F.layout.drop k, f.default.isSome := fun f hf =>
    F.optional_drop f (List.drop_subset_drop_left _ hk hf)
  have ha := Accepts.take (F.fits x) k hopt
  have hy := F.fields_ofFields _ ha.fits
  refine ⟨_, F.decode_eq_ok_iff.mpr ?_, hy⟩
  rwa [hy, take_write]

theorem decode_take_of_defaults {x : R} {k : Nat} (hk : F.mandatory ≤ k)
    (hx : (F.fields x).drop k = (F.layout.drop k).map FieldSpec.fallback) :
    decodeCfg F.read ((F.write x).take (F.boundary k)) = .ok x := by
  obtain ⟨y, hy, hfy⟩ := F.forwardCompatible x k hk
  rw [← hx, List.take_append_drop] at hfy
  rw [hy, ← F.ofFields_fields y, hfy, F.ofFields_fields]

theorem decode_take_of_fresh {x : R} {k : Nat} (hk : F.mandatory ≤ k)
    (hx : (F.fields x).drop F.mandatory = (F.layout.drop F.mandatory).map FieldSpec.fallback) :
    decodeCfg F.read ((F.write x).take (F.boundary k)) = .ok x := by
  refine F.decode_take_of_defaults hk ?_
  rw [← Nat.add_sub_cancel' hk, ← List.drop_drop, ← List.drop_drop, hx, ← List.map_drop]

/-- Every buffer made of whole fields of a record, in order, leaving out only extension fields
that hold their default and are wider than all that follows, decodes to that record. -/
def FieldwiseComplete : Prop :=
  ∀ b y, Accepts F.layout (F.fields y) b [] → decodeCfg F.read b = .ok y

/-- Only the encoding of a record decodes to it, and every encoding does. -/
def Exact : Prop := ∀ b y, decodeCfg F.read b = .ok y ↔ b = F.write y

theorem fieldwiseComplete : F.FieldwiseComplete := fun _ _ h => F.decode_eq_ok_iff.mpr h

theorem exact_of_required (hL : ∀ f ∈ F.layout, f.default = none) : F.Exact := by
  intro b y
  rw [F.decode_eq_ok_iff, F.write_eq]
  constructor
  · intro h
    simpa using h.eq_flatten hL
  · rintro rfl
    simpa using Accepts.of_fits (F.fits y) []

theorem fieldwiseDecoding : F.FieldwiseDecoding := fun _ _ h => F.decode_eq_ok_iff.mp h

theorem boundaryDecoding (hL : NoNarrowing F.layout) : F.BoundaryDecoding := by
  intro b y h
  obtain ⟨k, hk⟩ := (F.decode_eq_ok_iff.mp h).boundary hL
  exact ⟨k, by rw [take_write, hk, List.append_nil]⟩

end Format

end Nullspace.Codec

import Nullspace.Codec.Fixed

/-!
# Record layouts with extension fields

Every economy record is written as its fields in declaration order, and read back field by
field. A field is either required (`T::read(reader)?`) or an extension appended in a later
version, read only `if reader.remaining() >= SIZE` and otherwise given its documented
default. A `Layout` lists the fields by width and default, and `readRow` is the reader all
record readers share, at the level of each field's raw bytes.

`Accepts L r b t` describes exactly the runs of `readRow`: reading `L` from `b` yields the
row `r` and leaves `t` (`readRow_eq_ok_iff`). The round trip, the decoding of truncated
encodings, and the shape of every accepted buffer are all read off this relation.
-/

namespace Nullspace.Codec

/-- One field of a record: its width and, for an extension field, the bytes of its default. -/
structure FieldSpec where
  size : Nat
  default : Option (List UInt8)
  size_pos : 0 < size
  length_default : ∀ d ∈ default, d.length = size

/-- A field read by `T::read(reader)?`. -/
def FieldSpec.required {α : Type} (c : FixedCodec α) : FieldSpec :=
  ⟨c.size, none, c.size_pos, by simp⟩

/-- A field read by `if reader.remaining() >= SIZE { T::read(reader)? } else { default }`. -/
def FieldSpec.optional {α : Type} (c : FixedCodec α) (d : α) : FieldSpec :=
  ⟨c.size, some (c.write d), c.size_pos, by simp⟩

/-- The bytes an absent field takes: its default. -/
def FieldSpec.fallback (f : FieldSpec) : List UInt8 := f.default.getD []

/-- The raw bytes of one field. -/
def FieldSpec.read (f : FieldSpec) : Reader (List UInt8) := fun bs =>
  if f.size ≤ bs.length then .ok (bs.take f.size, bs.drop f.size)
  else match f.default with
    | none => .error .endOfBuffer
    | some d => .ok (d, bs)

@[simp] theorem FieldSpec.size_required {α : Type} (c : FixedCodec α) :
    (FieldSpec.required c).size = c.size := rfl

@[simp] theorem FieldSpec.default_required {α : Type} (c : FixedCodec α) :
    (FieldSpec.required c).default = none := rfl

@[simp] theorem FieldSpec.size_optional {α : Type} (c : FixedCodec α) (d : α) :
    (FieldSpec.optional c d).size = c.size := rfl

@[simp] theorem FieldSpec.default_optional {α : Type} (c : FixedCodec α) (d : α) :
    (FieldSpec.optional c d).default = some (c.write d) := rfl

theorem FieldSpec.read_run (f : FieldSpec) (bs : List UInt8) :
    f.read.run bs = if f.size ≤ bs.length then .ok (bs.take f.size, bs.drop f.size)
      else match f.default with
        | none => .error .endOfBuffer
        | some d => .ok (d, bs) := rfl

theorem FieldSpec.read_required {α : Type} (c : FixedCodec α) :
    (FieldSpec.required c).read = c.write <$> c.read := by
  refine StateT.ext fun bs => ?_
  simp only [StateT.run_map, FieldSpec.read_run, FixedCodec.read_run]
  by_cases h : c.size ≤ bs.length <;>
    simp [h, Functor.map, Except.map, c.write_ofBytes _ (List.length_take_of_le _)]

theorem FieldSpec.read_optional {α : Type} (c : FixedCodec α) (d : α) :
    (FieldSpec.optional c d).read = c.write <$> c.readOr d := by
  refine StateT.ext fun bs => ?_
  simp only [StateT.run_map, FixedCodec.readOr, StateT.run_bind, remaining_run,
    FieldSpec.read_run]
  by_cases h : c.size ≤ bs.length <;>
    simp [h, FixedCodec.read_run, Functor.map, Except.map, bind, Except.bind, StateT.run_pure,
      c.write_ofBytes _ (List.length_take_of_le _)]

abbrev Layout := List FieldSpec

/-- The raw bytes of each field of a record, in field order. -/
abbrev Row := List (List UInt8)

/-- Each entry of the row has its field's width. -/
def Fits (L : Layout) (r : Row) : Prop := List.Forall₂ (fun f c => c.length = f.size) L r

/-- Reading a whole layout, field by field. -/
def readRow : Layout → Reader Row
  | [] => pure []
  | f :: L => do
    let c ← f.read
    let r ← readRow L
    pure (c :: r)

/-! ## One field -/

section Field

variable {f : FieldSpec} {b c b' : List UInt8}

theorem FieldSpec.read_eq_ok :
    f.read.run b = .ok (c, b') ↔
      (f.size ≤ b.length ∧ c = b.take f.size ∧ b' = b.drop f.size) ∨
        (b.length < f.size ∧ f.default = some c ∧ b' = b) := by
  simp only [FieldSpec.read, StateT.run]
  split_ifs with h
  · simp [h, eq_comm]
  · have hlt : b.length < f.size := Nat.not_le.mp h
    cases hd : f.default <;> simp [hd, eq_comm, hlt]

theorem FieldSpec.read_append (hc : c.length = f.size) : f.read.run (c ++ b) = .ok (c, b) := by
  simp [FieldSpec.read, StateT.run, ← hc]

theorem FieldSpec.read_of_lt {d : List UInt8} (hd : f.default = some d) (hb : b.length < f.size) :
    f.read.run b = .ok (d, b) := by
  simp [FieldSpec.read, StateT.run, hd, Nat.not_le.mpr hb]

end Field

/-! ## The runs of `readRow` -/

/-- `Accepts L r b t`: reading `L` from `b` yields the row `r` and leaves `t`. A field is
present when at least its width remains; an extension field is absent, holding its
default, exactly when less than its width remains. -/
inductive Accepts : Layout → Row → List UInt8 → List UInt8 → Prop
  | nil (t : List UInt8) : Accepts [] [] t t
  | present {f : FieldSpec} {L : Layout} {c : List UInt8} {r : Row} {b t : List UInt8} :
      c.length = f.size → Accepts L r b t → Accepts (f :: L) (c :: r) (c ++ b) t
  | absent {f : FieldSpec} {L : Layout} {d : List UInt8} {r : Row} {b t : List UInt8} :
      f.default = some d → b.length < f.size → Accepts L r b t → Accepts (f :: L) (d :: r) b t

theorem readRow_eq_ok_iff {L : Layout} {r : Row} {b t : List UInt8} :
    (readRow L).run b = .ok (r, t) ↔ Accepts L r b t := by
  induction L generalizing r b with
  | nil =>
    simp only [readRow, StateT.run_pure]
    constructor
    · rintro ⟨⟩
      exact .nil _
    · rintro ⟨⟩
      rfl
  | cons f L ih =>
    simp only [readRow, StateT.run_bind, StateT.run_pure, bind_eq_ok, Prod.exists]
    constructor
    · rintro ⟨c, b', hf, r', t', hr, ⟨⟩⟩
      rcases FieldSpec.read_eq_ok.mp hf with ⟨hle, rfl, rfl⟩ | ⟨hlt, hd, rfl⟩
      · have h := Accepts.present (List.length_take_of_le hle) (ih.mp hr)
        rwa [List.take_append_drop] at h
      · exact .absent hd hlt (ih.mp hr)
    · rintro (_ | ⟨hc, h⟩ | ⟨hd, hlt, h⟩)
      · exact ⟨_, _, FieldSpec.read_append hc, _, _, ih.mpr h, rfl⟩
      · exact ⟨_, _, FieldSpec.read_of_lt hd hlt, _, _, ih.mpr h, rfl⟩

/-! ## Accepted buffers -/

section Runs

variable {L : Layout} {r : Row} {b t : List UInt8}

theorem Accepts.fits (h : Accepts L r b t) : Fits L r := by
  induction h with
  | nil => exact .nil
  | present hc _ ih => exact .cons hc ih
  | @absent f _ d _ _ _ hd _ _ ih => exact .cons (f.length_default d hd) ih

theorem Fits.length_flatten (h : Fits L r) : r.flatten.length = (L.map FieldSpec.size).sum := by
  induction h with
  | nil => rfl
  | cons hc _ ih => simp [hc, ih]

theorem Fits.take_flatten (h : Fits L r) (k : Nat) :
    r.flatten.take ((L.take k).map FieldSpec.size).sum = (r.take k).flatten := by
  induction h generalizing k with
  | nil => simp
  | cons hc _ ih =>
    cases k with
    | zero => simp
    | succ k =>
      have hk := ih k
      rw [List.map_take] at hk
      simp [List.take_append_eq_append_take, ← hc, hk]

theorem Accepts.of_fits (h : Fits L r) (t : List UInt8) : Accepts L r (r.flatten ++ t) t := by
  induction h with
  | nil => exact .nil t
  | cons hc _ ih => simpa using Accepts.present hc ih

theorem Accepts.defaults (hL : ∀ f ∈ L, f.default.isSome) :
    Accepts L (L.map FieldSpec.fallback) [] [] := by
  induction L with
  | nil => exact .nil []
  | cons f L ih =>
    obtain ⟨d, hd⟩ := Option.isSome_iff_exists.mp (hL f (.head _))
    have hf : f.fallback = d := by simp [FieldSpec.fallback, hd]
    rw [List.map_cons, hf]
    exact .absent hd f.size_pos (ih fun g hg => hL g (.tail _ hg))

theorem Accepts.take (h : Fits L r) (k : Nat) (hk : ∀ f ∈ L.drop k, f.default.isSome) :
    Accepts L (r.take k ++ (L.drop k).map FieldSpec.fallback) (r.take k).flatten [] := by
  induction h generalizing k with
  | nil => simpa using Accepts.nil []
  | cons hc _ ih =>
    cases k with
    | zero => simpa using Accepts.defaults hk
    | succ k => simpa using Accepts.present hc (ih k hk)

theorem Accepts.eq_of_lt (h : Accepts L r b t) (hL : ∀ g ∈ L, b.length < g.size) : b = t := by
  induction h with
  | nil => rfl
  | present hc _ _ =>
    have h := hL _ (.head _)
    simp only [List.length_append, hc] at h
    omega
  | absent _ _ _ ih => exact ih fun g hg => hL g (.tail _ hg)

theorem Accepts.eq_flatten (h : Accepts L r b t) (hL : ∀ f ∈ L, f.default = none) :
    b = r.flatten ++ t := by
  induction h with
  | nil => rfl
  | present _ _ ih => simp [ih fun g hg => hL g (.tail _ hg)]
  | absent hd _ _ _ => simp [hL _ (.head _)] at hd

/-- No extension field is followed by a narrower field. -/
def NoNarrowing (L : Layout) : Prop :=
  L.Pairwise fun f g => f.default.isSome → f.size ≤ g.size

/-- Without a narrowing, a field is absent only when all later fields are: every accepted
buffer is a field-boundary prefix of the row's encoding. -/
theorem Accepts.boundary (hL : NoNarrowing L) (h : Accepts L r b t) :
    ∃ k, b = (r.take k).flatten ++ t := by
  induction h with
  | nil => exact ⟨0, rfl⟩
  | present _ _ ih =>
    obtain ⟨k, rfl⟩ := ih (List.pairwise_cons.mp hL).2
    exact ⟨k + 1, by simp⟩
  | absent hd hlt h _ =>
    have hwide := (List.pairwise_cons.mp hL).1
    have hb := h.eq_of_lt fun g hg => Nat.lt_of_lt_of_le hlt (hwide g hg (by simp [hd]))
    exact ⟨0, by simp [hb]⟩

end Runs

end Nullspace.Codec

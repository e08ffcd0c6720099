import Mathlib

/-!
# Fixed-width primitives and the byte reader

The economy records are sequences of fixed-width integers (`u16`, `u64`, `u128`, `i128`).
A `FixedCodec` bundles a width with both directions of its encoding and the two facts that
make it a bijection onto the byte strings of that width; the record proofs use nothing else
about a primitive. Bytes are big-endian, as the codec library writes them (through
`put_u64` and its kin); the serialization section of the specification calls them
little-endian, and no result but those about fixed byte strings depends on the order.

`Reader` is the `Buf` cursor of the codec library: the unread bytes are its state, and a
read either advances it or fails with a `CodecError`.
-/

namespace Nullspace.Codec

/-! ## Naturals as byte strings -/

/-- The low `k` bytes of `n`, least significant first. -/
def leBytes : Nat → Nat → List UInt8
  | 0, _ => []
  | k + 1, n => UInt8.ofNat n :: leBytes k (n / 256)

/-- The natural number whose little-endian bytes are `bs`. -/
def leValue : List UInt8 → Nat
  | [] => 0
  | b :: bs => b.toNat + 256 * leValue bs

@[simp] theorem length_leBytes (k n : Nat) : (leBytes k n).length = k := by
  induction k generalizing n <;> simp [leBytes, *]

theorem leValue_lt (bs : List UInt8) : leValue bs < 256 ^ bs.length := by
  induction bs with
  | nil => simp [leValue]
  | cons b bs ih =>
    have hb : b.toNat < 256 := b.toNat_lt_size
    rw [leValue, List.length_cons, Nat.pow_succ]
    omega

theorem leValue_leBytes (k n : Nat) : leValue (leBytes k n) = n % 256 ^ k := by
  induction k generalizing n with
  | zero => simp [leBytes, leValue, Nat.mod_one]
  | succ k ih =>
    have hb : (UInt8.ofNat n).toNat = n % 256 := rfl
    rw [leBytes, leValue, ih, hb, Nat.pow_succ', Nat.mod_mul]

theorem leBytes_leValue (bs : List UInt8) : leBytes bs.length (leValue bs) = bs := by
  induction bs with
  | nil => rfl
  | cons b bs ih =>
    have hb : b.toNat < 256 := b.toNat_lt_size
    have hlow : UInt8.ofNat (b.toNat + 256 * leValue bs) = b :=
      UInt8.toNat.inj (show (b.toNat + 256 * leValue bs) % 256 = b.toNat by omega)
    have hhigh : (b.toNat + 256 * leValue bs) / 256 = leValue bs := by omega
    simp only [List.length_cons, leBytes, leValue, hlow, hhigh, ih]

/-- The low `k` bytes of `n`, most significant first. -/
def beBytes (k n : Nat) : List UInt8 := (leBytes k n).reverse

/-- The natural number whose big-endian bytes are `bs`. -/
def beValue (bs : List UInt8) : Nat := leValue bs.reverse

@[simp] theorem length_beBytes (k n : Nat) : (beBytes k n).length = k := by
  simp [beBytes]

theorem beValue_lt (bs : List UInt8) : beValue bs < 256 ^ bs.length :=
  bs.length_reverse ▸ leValue_lt bs.reverse

theorem beValue_beBytes (k n : Nat) : beValue (beBytes k n) = n % 256 ^ k := by
  rw [beValue, beBytes, List.reverse_reverse, leValue_leBytes]

theorem beBytes_beValue (bs : List UInt8) : beBytes bs.length (beValue bs) = bs := by
  rw [beBytes, beValue, ← bs.length_reverse, leBytes_leValue, List.reverse_reverse]

/-! ## Fixed-width codecs -/

/-- A fixed-width encoding: a bijection between values and byte strings of width `size`. -/
structure FixedCodec (α : Type) where
  size : Nat
  write : α → List UInt8
  ofBytes : List UInt8 → α
  size_pos : 0 < size
  length_write : ∀ a, (write a).length = size
  ofBytes_write : ∀ a, ofBytes (write a) = a
  write_ofBytes : ∀ bs, bs.length = size → write (ofBytes bs) = bs

attribute [simp] FixedCodec.length_write FixedCodec.ofBytes_write

theorem two_pow_eight_mul (k : Nat) : 2 ^ (8 * k) = 256 ^ k := Nat.pow_mul 2 8 k

/-- `k` big-endian bytes holding an `8 * k`-bit vector. -/
def bitsCodec (k : Nat) (hk : 0 < k) : FixedCodec (BitVec (8 * k)) where
  size := k
  write v := beBytes k v.toNat
  ofBytes bs := BitVec.ofNat (8 * k) (beValue bs)
  size_pos := hk
  length_write _ := length_beBytes ..
  ofBytes_write v := by
    have hv : v.toNat < 256 ^ k := two_pow_eight_mul k ▸ v.isLt
    apply BitVec.eq_of_toNat_eq
    rw [BitVec.toNat_ofNat, beValue_beBytes, two_pow_eight_mul, Nat.mod_mod,
      Nat.mod_eq_of_lt hv]
  write_ofBytes bs h := by
    subst h
    show beBytes _ (BitVec.ofNat _ _).toNat = _
    rw [BitVec.toNat_ofNat, two_pow_eight_mul, Nat.mod_eq_of_lt (beValue_lt bs),
      beBytes_beValue]

/-- Transport a codec along a bijection. -/
def FixedCodec.map {α β : Type} (c : FixedCodec β) (f : α → β) (g : β → α)
    (gf : ∀ a, g (f a) = a) (fg : ∀ b, f (g b) = b) : FixedCodec α where
  size := c.size
  write a := c.write (f a)
  ofBytes bs := g (c.ofBytes bs)
  size_pos := c.size_pos
  length_write a := c.length_write (f a)
  ofBytes_write a := by simp [gf]
  write_ofBytes bs h := by simp only [fg, c.write_ofBytes bs h]

/-- `x.encode_size()` of a fixed-width value: its width. -/
def FixedCodec.encodeSize {α : Type} (c : FixedCodec α) (_ : α) : Nat := c.size

/-- Rust `u128`, built on a bit vector as the core library builds `UInt64`. -/
structure U128 where
  toBitVec : BitVec 128
  deriving DecidableEq, Repr

/-- Rust `i128`: 128 bits read as a two's-complement integer. -/
structure I128 where
  toBitVec : BitVec 128
  deriving DecidableEq, Repr

instance (n : Nat) : OfNat U128 n := ⟨⟨BitVec.ofNat 128 n⟩⟩

instance (n : Nat) : OfNat I128 n := ⟨⟨BitVec.ofNat 128 n⟩⟩

/-- The `i128` holding `i` (taken modulo `2 ^ 128`, two's complement). -/
def I128.ofInt (i : Int) : I128 := ⟨BitVec.ofInt 128 i⟩

def u16 : FixedCodec UInt16 :=
  (bitsCodec 2 (by decide)).map UInt16.toBitVec UInt16.mk (fun ⟨_⟩ => rfl) (fun _ => rfl)

def u64 : FixedCodec UInt64 :=
  (bitsCodec 8 (by decide)).map UInt64.toBitVec UInt64.mk (fun ⟨_⟩ => rfl) (fun _ => rfl)

def u128 : FixedCodec U128 :=
  (bitsCodec 16 (by decide)).map U128.toBitVec U128.mk (fun ⟨_⟩ => rfl) (fun _ => rfl)

def i128 : FixedCodec I128 :=
  (bitsCodec 16 (by decide)).map I128.toBitVec I128.mk (fun ⟨_⟩ => rfl) (fun _ => rfl)

@[simp] theorem u16_size : u16.size = 2 := rfl
@[simp] theorem u64_size : u64.size = 8 := rfl
@[simp] theorem u128_size : u128.size = 16 := rfl
@[simp] theorem i128_size : i128.size = 16 := rfl

/-! ## The reader -/

/-- The errors of `commonware_codec` that the modelled readers raise. -/
inductive CodecError where
  | endOfBuffer
  | extraData (remaining : Nat)
  | invalidLength (length : Nat)
  deriving DecidableEq, Repr

instance exceptDecidableEq {ε α : Type} [DecidableEq ε] [DecidableEq α] :
    DecidableEq (Except ε α)
  | .error a, .error b => decidable_of_iff (a = b) (by simp)
  | .ok a, .ok b => decidable_of_iff (a = b) (by simp)
  | .error _, .ok _ => isFalse (by simp)
  | .ok _, .error _ => isFalse (by simp)

/-- A `&mut impl Buf` cursor: the unread bytes are the state. -/
abbrev Reader := StateT (List UInt8) (Except CodecError)

/-- `Buf::remaining`. -/
def remaining : Reader Nat := fun bs => .ok (bs.length, bs)

/-- `T::read` for a fixed-width `T`: `EndOfBuffer` when fewer than `size` bytes are left. -/
def FixedCodec.read {α : Type} (c : FixedCodec α) : Reader α := fun bs =>
  if c.size ≤ bs.length then .ok (c.ofBytes (bs.take c.size), bs.drop c.size)
  else .error .endOfBuffer

/-- The extension-field idiom of the economy readers:
`if reader.remaining() >= SIZE { T::read(reader)? } else { default }`. -/
def FixedCodec.readOr {α : Type} (c : FixedCodec α) (default : α) : Reader α := do
  if (← remaining) ≥ c.size then c.read else pure default

/-- `Decode::decode_cfg`: read a value, then reject any byte left over. -/
def decodeCfg {α : Type} (r : Reader α) (bs : List UInt8) : Except CodecError α :=
  match r.run bs with
  | .ok (a, []) => .ok a
  | .ok (_, rest) => .error (.extraData rest.length)
  | .error e => .error e

/-! ### Runs of a reader -/

@[simp] theorem pure_eq_ok {ε α : Type} (a : α) : (pure a : Except ε α) = .ok a := rfl

theorem bind_eq_ok {ε α β : Type} {x : Except ε α} {g : α → Except ε β} {b : β} :
    x >>= g = .ok b ↔ ∃ a, x = .ok a ∧ g a = .ok b := by
  cases x <;> simp [bind, Except.bind]

theorem map_run_eq_ok {α β : Type} {g : α → β} {x : Reader α} {s t : List UInt8} {b : β} :
    (g <$> x).run s = .ok (b, t) ↔ ∃ a, x.run s = .ok (a, t) ∧ g a = b := by
  rw [StateT.run_map]
  cases x.run s with
  | error e => simp [Functor.map, Except.map]
  | ok p =>
    simp only [Functor.map, Except.map, Except.ok.injEq]
    constructor
    · rintro ⟨⟩
      exact ⟨p.1, rfl, rfl⟩
    · rintro ⟨a, rfl, rfl⟩
      rfl

theorem remaining_run (bs : List UInt8) : remaining.run bs = .ok (bs.length, bs) := rfl

theorem FixedCodec.read_run {α : Type} (c : FixedCodec α) (bs : List UInt8) :
    c.read.run bs = if c.size ≤ bs.length then .ok (c.ofBytes (bs.take c.size), bs.drop c.size)
      else .error .endOfBuffer := rfl

theorem decodeCfg_eq_ok {α : Type} {rd : Reader α} {b : List UInt8} {a : α} :
    decodeCfg rd b = .ok a ↔ rd.run b = .ok (a, []) := by
  unfold decodeCfg
  split <;> simp_all

end Nullspace.Codec

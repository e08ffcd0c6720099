import Nullspace.Codec.Fixed

/-!
# `VaultRegistry`

The registry of vault owners is written as a length-prefixed vector of public keys and
normalised on every read: the keys are sorted and consecutive duplicates dropped. A decoded
registry is therefore strictly ascending, whatever order and repetitions the stored list had,
and it is the sorted listing of the set of keys stored.

The key type and the length prefix belong to the cryptography and codec libraries, outside
this slice of the source; they are parameters, each with the law its encoding obeys. One
instance of each, a 32-byte key and a four-byte length, shows the laws can be met and runs the
results on concrete registries.
-/

namespace Nullspace.Casino

open Codec

/-- A public key's codec: fixed width, with a read that may reject the bytes (an Ed25519 key
must be a valid curve point). -/
structure KeyCodec (K : Type) where
  size : Nat
  write : K → List UInt8
  parse : List UInt8 → Except CodecError K
  length_write : ∀ k, (write k).length = size
  parse_write : ∀ k, parse (write k) = .ok k

/-- The `usize` length prefix of a `Vec`, which reads back every length a `u32` holds. -/
structure LengthCodec where
  write : Nat → List UInt8
  read : Reader Nat
  read_write : ∀ n t, n < 2 ^ 32 → read.run (write n ++ t) = .ok (n, t)

/-- Thirty-two key bytes read as a big-endian number, so that keys compare as their bytes do;
every byte string is accepted (the curve-point check of Ed25519 keys is not modelled). -/
def bytes32Key : KeyCodec (Fin (2 ^ 256)) where
  size := 32
  write k := beBytes 32 k.val
  parse bs := .ok ⟨beValue bs % 2 ^ 256, Nat.mod_lt _ (Nat.two_pow_pos 256)⟩
  length_write _ := length_beBytes ..
  parse_write k := by
    have h : (256 : Nat) ^ 32 = 2 ^ 256 := by norm_num
    simp only [beValue_beBytes, h, Nat.mod_mod, Nat.mod_eq_of_lt k.isLt]

/-- A length prefix of four big-endian bytes, as `put_u32` writes it. The codec library
writes a varint instead; the registry results use only the law. -/
def u32Length : LengthCodec where
  write n := beBytes 4 n
  read := (fun v : BitVec (8 * 4) => v.toNat) <$> (bitsCodec 4 (by decide)).read
  read_write n t hn := by
    have hw : beBytes 4 n = (bitsCodec 4 (by decide)).write (BitVec.ofNat _ n) := by
      simp only [bitsCodec, BitVec.toNat_ofNat]
      rw [Nat.mod_eq_of_lt hn]
    refine map_run_eq_ok.mpr ⟨BitVec.ofNat _ n, ?_, Nat.mod_eq_of_lt hn⟩
    show (bitsCodec 4 _).read.run (beBytes 4 n ++ t) = _
    rw [hw, FixedCodec.read_run, if_pos (by simp)]
    simp only [FixedCodec.length_write, List.take_left', List.drop_left', FixedCodec.ofBytes_write]

variable {K : Type}

/-- `PublicKey::read`: `EndOfBuffer` when fewer than `size` bytes are left. -/
def KeyCodec.read (pk : KeyCodec K) : Reader K := fun bs =>
  if pk.size ≤ bs.length then (pk.parse (bs.take pk.size)).map (·, bs.drop pk.size)
  else .error .endOfBuffer

/-- The element loop of `Vec::read_cfg`: `n` elements, one after another. -/
def readItems (item : Reader K) : Nat → Reader (List K)
  | 0 => pure []
  | n + 1 => do
    let k ← item
    let ks ← readItems item n
    pure (k :: ks)

/-- `Vec::<T>::read_range(reader, lo..=hi)`: the length prefix, rejected with `InvalidLength`
outside the range, then that many elements. -/
def readRange (lc : LengthCodec) (item : Reader K) (lo hi : Nat) : Reader (List K) := do
  let len ← lc.read
  if lo ≤ len ∧ len ≤ hi then readItems item len else throw (.invalidLength len)

/-- `Vec::write`: the length prefix, then each element. -/
def writeVec (lc : LengthCodec) (pk : KeyCodec K) (l : List K) : List UInt8 :=
  lc.write l.length ++ (l.map pk.write).flatten

/-- `Vec::dedup`: drop every element equal to the one before it. -/
def dedup [DecidableEq K] : List K → List K
  | a :: b :: l => if a = b then dedup (b :: l) else a :: dedup (b :: l)
  | l => l

/-- `sort_unstable` under the key order. The algorithm does not matter: a list has one
sorted permutation under a linear order (`sortUnstable_unique`). -/
def sortUnstable [LinearOrder K] (l : List K) : List K :=
  l.mergeSort fun a b => decide (a ≤ b)

/-- Registry of vault owners for recovery pool ordering and audits. -/
structure VaultRegistry (K : Type) where
  vaults : List K
  deriving DecidableEq, Repr

namespace VaultRegistry

def write (lc : LengthCodec) (pk : KeyCodec K) (r : VaultRegistry K) : List UInt8 :=
  writeVec lc pk r.vaults

def readCfg [LinearOrder K] (lc : LengthCodec) (pk : KeyCodec K) : Reader (VaultRegistry K) := do
  let mut vaults ← readRange lc pk.read 0 100000
  vaults := sortUnstable vaults
  vaults := dedup vaults
  return { vaults := vaults }

end VaultRegistry

/-! ## Sorting and dropping repeats -/

section Normalise

variable [LinearOrder K]

theorem dedup_short {l : List K} (h : ∀ a b l', l ≠ a :: b :: l') : dedup l = l := by
  rcases l with _ | ⟨a, _ | ⟨b, l⟩⟩
  · rfl
  · rfl
  · exact absurd rfl (h a b l)

theorem mem_dedup {x : K} {l : List K} : x ∈ dedup l ↔ x ∈ l := by
  induction l using dedup.induct with
  | case1 b l ih => simp [dedup, ih]
  | case2 a b l hab ih => simp [dedup, hab, ih]
  | case3 l h => rw [dedup_short fun a b l' => h a b l']

theorem dedup_sorted {l : List K} (h : l.Sorted (· ≤ ·)) : (dedup l).Sorted (· < ·) := by
  induction l using dedup.induct with
  | case1 b l ih => simpa [dedup] using ih h.of_cons
  | case2 a b l hab ih =>
    have ha := List.sorted_cons.mp h
    have hlt : a < b := lt_of_le_of_ne (ha.1 b (List.mem_cons_self b l)) hab
    have hb := List.sorted_cons.mp ha.2
    simp only [dedup, hab, if_false, List.sorted_cons, mem_dedup, List.mem_cons]
    refine ⟨?_, ih ha.2⟩
    rintro x (rfl | hx)
    · exact hlt
    · exact lt_of_lt_of_le hlt (hb.1 x hx)
  | case3 l h' =>
    rcases l with _ | ⟨a, _ | ⟨b, l⟩⟩
    · exact List.sorted_nil
    · exact List.sorted_singleton a
    · exact absurd rfl (h' a b l)

theorem dedup_eq_self {l : List K} (h : l.Sorted (· < ·)) : dedup l = l := by
  induction l using dedup.induct with
  | case1 b l ih => exact absurd (List.sorted_cons.mp h |>.1 b (List.mem_cons_self b l)) (lt_irrefl b)
  | case2 a b l hab ih => simp [dedup, hab, ih h.of_cons]
  | case3 l h' => exact dedup_short fun a b l' => h' a b l'

theorem sortUnstable_sorted (l : List K) : (sortUnstable l).Sorted (· ≤ ·) := by
  have h := @List.sorted_mergeSort K (fun a b => decide (a ≤ b))
    (fun a b c hab hbc => by simp only [decide_eq_true_eq] at *; exact le_trans hab hbc)
    (fun a b => by simpa using le_total a b) l
  simpa [List.Sorted] using h

theorem sortUnstable_perm (l : List K) : (sortUnstable l).Perm l := List.mergeSort_perm l _

theorem sortUnstable_unique {l l' : List K} (hp : l'.Perm l) (hs : l'.Sorted (· ≤ ·)) :
    l' = sortUnstable l :=
  List.eq_of_perm_of_sorted (hp.trans (sortUnstable_perm l).symm) hs (sortUnstable_sorted l)

/-- Sorting then dropping repeats lists the set of keys in ascending order. -/
theorem dedup_sortUnstable (l : List K) : dedup (sortUnstable l) = l.toFinset.sort (· ≤ ·) := by
  have hs := dedup_sorted (sortUnstable_sorted l)
  have hmem : ∀ x, x ∈ dedup (sortUnstable l) ↔ x ∈ l.toFinset.sort (· ≤ ·) := fun x => by
    simp [mem_dedup, (sortUnstable_perm l).mem_iff]
  exact List.eq_of_perm_of_sorted ((List.perm_ext_iff_of_nodup hs.nodup
    (Finset.sort_nodup _ _)).mpr hmem) hs.le_of_lt (Finset.sort_sorted _ _)

theorem sort_toFinset_eq_self {l : List K} : l.toFinset.sort (· ≤ ·) = l ↔ l.Sorted (· < ·) := by
  constructor
  · intro h
    rw [← h]
    exact Finset.sort_sorted_lt _
  · intro h
    rw [← dedup_sortUnstable, ← sortUnstable_unique (List.Perm.refl l) h.le_of_lt, dedup_eq_self h]

end Normalise

/-! ## Reading vectors -/

section Vectors

variable (lc : LengthCodec) (pk : KeyCodec K)

theorem KeyCodec.read_write (k : K) (t : List UInt8) : pk.read.run (pk.write k ++ t) = .ok (k, t) := by
  simp [KeyCodec.read, StateT.run, ← pk.length_write k, pk.parse_write, Except.map]

theorem readItems_write (l : List K) (t : List UInt8) :
    (readItems pk.read l.length).run ((l.map pk.write).flatten ++ t) = .ok (l, t) := by
  induction l with
  | nil => rfl
  | cons k l ih =>
    simp only [List.length_cons, readItems, StateT.run_bind, List.map_cons, List.flatten_cons,
      List.append_assoc, KeyCodec.read_write]
    simp [bind, Except.bind, ih]

theorem readItems_length {item : Reader K} {n : Nat} {b t : List UInt8} {l : List K}
    (h : (readItems item n).run b = .ok (l, t)) : l.length = n := by
  induction n generalizing b l with
  | zero => cases h; rfl
  | succ n ih =>
    simp only [readItems, StateT.run_bind, bind_eq_ok, StateT.run_pure, pure_eq_ok, Prod.exists] at h
    obtain ⟨k, b', -, ks, t', hks, ⟨⟩⟩ := h
    simp [ih hks]

theorem readRange_length {item : Reader K} {lo hi : Nat} {b t : List UInt8} {l : List K}
    (h : (readRange lc item lo hi).run b = .ok (l, t)) : lo ≤ l.length ∧ l.length ≤ hi := by
  simp only [readRange, StateT.run_bind, bind_eq_ok, Prod.exists] at h
  obtain ⟨n, b', -, h⟩ := h
  split_ifs at h with hn
  · rw [readItems_length h]
    exact hn
  · cases h

theorem readRange_writeVec {lo hi : Nat} (l : List K) (t : List UInt8) (hlo : lo ≤ l.length)
    (hhi : l.length ≤ hi) (h32 : hi < 2 ^ 32) :
    (readRange lc pk.read lo hi).run (writeVec lc pk l ++ t) = .ok (l, t) := by
  simp only [readRange, writeVec, StateT.run_bind, List.append_assoc,
    lc.read_write _ _ (Nat.lt_of_le_of_lt hhi h32)]
  simp [hlo, hhi, readItems_write, bind, Except.bind]

theorem KeyCodec.read_consumes {b t : List UInt8} {k : K} (h : pk.read.run b = .ok (k, t)) :
    b.length = pk.size + t.length := by
  simp only [KeyCodec.read, StateT.run] at h
  split_ifs at h with hs
  cases hp : pk.parse (b.take pk.size) <;> simp only [hp, Except.map, Except.ok.injEq,
    Prod.mk.injEq, reduceCtorEq] at h
  rw [← h.2, List.length_drop]
  omega

theorem readItems_consumes {n : Nat} {b t : List UInt8} {l : List K}
    (h : (readItems pk.read n).run b = .ok (l, t)) : b.length = n * pk.size + t.length := by
  induction n generalizing b l with
  | zero => cases h; simp
  | succ n ih =>
    simp only [readItems, StateT.run_bind, bind_eq_ok, StateT.run_pure, pure_eq_ok, Prod.exists] at h
    obtain ⟨k, b', hk, ks, t', hks, ⟨⟩⟩ := h
    rw [pk.read_consumes hk, ih hks, Nat.succ_mul]
    omega

theorem readRange_run_write {item : Reader K} {lo hi n : Nat} (t : List UInt8) (hn : n < 2 ^ 32) :
    (readRange lc item lo hi).run (lc.write n ++ t) =
      if lo ≤ n ∧ n ≤ hi then (readItems item n).run t else .error (.invalidLength n) := by
  rw [readRange, StateT.run_bind, lc.read_write n t hn]
  by_cases h : lo ≤ n ∧ n ≤ hi
  · simp only [bind, Except.bind, if_pos h]
  · simp only [bind, Except.bind, if_neg h]
    rfl

end Vectors

/-! ## Decoding a registry -/

section Registry

variable [LinearOrder K] (lc : LengthCodec) (pk : KeyCodec K)

theorem VaultRegistry.readCfg_eq :
    VaultRegistry.readCfg lc pk =
      (fun l => ⟨l.toFinset.sort (· ≤ ·)⟩) <$> readRange lc pk.read 0 100000 := by
  simp [VaultRegistry.readCfg, dedup_sortUnstable]

theorem VaultRegistry.decode_eq_ok_iff {b : List UInt8} {y : VaultRegistry K} :
    decodeCfg (VaultRegistry.readCfg lc pk) b = .ok y ↔
      ∃ l, (readRange lc pk.read 0 100000).run b = .ok (l, []) ∧
        y = ⟨l.toFinset.sort (· ≤ ·)⟩ := by
  rw [decodeCfg_eq_ok, VaultRegistry.readCfg_eq, map_run_eq_ok]
  exact exists_congr fun _ => and_congr_right fun _ => eq_comm

theorem VaultRegistry.decode_write (r : VaultRegistry K) (h : r.vaults.length ≤ 100000) :
    decodeCfg (VaultRegistry.readCfg lc pk) (r.write lc pk) =
      .ok ⟨r.vaults.toFinset.sort (· ≤ ·)⟩ :=
  (VaultRegistry.decode_eq_ok_iff lc pk).mpr
    ⟨r.vaults, by simpa using readRange_writeVec lc pk r.vaults [] (Nat.zero_le _) h (by norm_num),
      rfl⟩

theorem VaultRegistry.decode_write_eq_self (r : VaultRegistry K) (h : r.vaults.length ≤ 100000) :
    decodeCfg (VaultRegistry.readCfg lc pk) (r.write lc pk) = .ok r ↔ r.vaults.Sorted (· < ·) := by
  rw [VaultRegistry.decode_write lc pk r h, ← sort_toFinset_eq_self]
  cases r
  simp

/-- A decoded registry is strictly ascending and lists exactly the keys the buffer held; a
registry of at most 100 000 keys decodes from its encoding to its sorted listing, and to itself
exactly when it is already strictly ascending; a decoded registry re-encodes to one that decodes
to it again. -/
theorem vaultRegistry_decode_normalises :
    (∀ b y, decodeCfg (VaultRegistry.readCfg lc pk) b = .ok y →
      ∃ l, (readRange lc pk.read 0 100000).run b = .ok (l, []) ∧
        y.vaults.Sorted (· < ·) ∧ ∀ k, k ∈ y.vaults ↔ k ∈ l) ∧
    (∀ r : VaultRegistry K, r.vaults.length ≤ 100000 →
      decodeCfg (VaultRegistry.readCfg lc pk) (r.write lc pk) =
          .ok ⟨r.vaults.toFinset.sort (· ≤ ·)⟩ ∧
        (decodeCfg (VaultRegistry.readCfg lc pk) (r.write lc pk) = .ok r ↔
          r.vaults.Sorted (· < ·))) ∧
    (∀ b y, decodeCfg (VaultRegistry.readCfg lc pk) b = .ok y →
      decodeCfg (VaultRegistry.readCfg lc pk) (y.write lc pk) = .ok y) := by
  refine ⟨fun b y h => ?_, fun r h => ⟨VaultRegistry.decode_write lc pk r h,
    VaultRegistry.decode_write_eq_self lc pk r h⟩, fun b y h => ?_⟩
  · obtain ⟨l, hl, rfl⟩ := (VaultRegistry.decode_eq_ok_iff lc pk).mp h
    exact ⟨l, hl, Finset.sort_sorted_lt l.toFinset, fun k => by simp⟩
  · obtain ⟨l, hl, rfl⟩ := (VaultRegistry.decode_eq_ok_iff lc pk).mp h
    have hlen : l.toFinset.card ≤ 100000 :=
      (List.toFinset_card_le l).trans (readRange_length lc hl).2
    exact (VaultRegistry.decode_write_eq_self lc pk _ (by simpa using hlen)).mpr
      (Finset.sort_sorted_lt l.toFinset)

theorem registry_write_decodes_sorted :
    decodeCfg (VaultRegistry.readCfg u32Length bytes32Key)
      (VaultRegistry.write u32Length bytes32Key ⟨[3, 3, 1]⟩) = .ok ⟨[1, 3]⟩ := by
  rw [((vaultRegistry_decode_normalises u32Length bytes32Key).2.1 ⟨[3, 3, 1]⟩ (by decide)).1,
    ← sort_toFinset_eq_self.mpr (show [(1 : Fin (2 ^ 256)), 3].Sorted (· < ·) by decide)]
  congr 3
  decide

/-- What `VaultRegistry::read_cfg` rejects, whatever follows the length prefix: a declared
length above 100 000, with `InvalidLength` before any key is read; a length the remaining bytes
cannot hold; and any byte after a registry's encoding, with `ExtraData`. -/
theorem vaultRegistry_decode_rejects :
    (∀ n t, 100000 < n → n < 2 ^ 32 →
      decodeCfg (VaultRegistry.readCfg lc pk) (lc.write n ++ t) = .error (.invalidLength n)) ∧
    (∀ n t, n < 2 ^ 32 → t.length < n * pk.size →
      ∃ e, decodeCfg (VaultRegistry.readCfg lc pk) (lc.write n ++ t) = .error e) ∧
    (∀ r : VaultRegistry K, ∀ t, r.vaults.length ≤ 100000 → t ≠ [] →
      decodeCfg (VaultRegistry.readCfg lc pk) (r.write lc pk ++ t) = .error (.extraData t.length)) := by
  refine ⟨fun n t hn h32 => ?_, fun n t h32 ht => ?_, fun r t hr ht => ?_⟩
  · have hrun : (VaultRegistry.readCfg lc pk).run (lc.write n ++ t) = .error (.invalidLength n) := by
      rw [VaultRegistry.readCfg_eq, StateT.run_map, readRange_run_write lc t h32,
        if_neg (by omega)]
      rfl
    simp [decodeCfg, hrun]
  · cases hd : decodeCfg (VaultRegistry.readCfg lc pk) (lc.write n ++ t) with
    | error e => exact ⟨e, rfl⟩
    | ok y =>
      obtain ⟨l, hl, -⟩ := (VaultRegistry.decode_eq_ok_iff lc pk).mp hd
      rw [readRange_run_write lc t h32] at hl
      split_ifs at hl
      have := readItems_consumes pk hl
      simp only [List.length_nil, Nat.add_zero] at this
      omega
  · have hrun : (VaultRegistry.readCfg lc pk).run (r.write lc pk ++ t) =
        .ok (⟨r.vaults.toFinset.sort (· ≤ ·)⟩, t) := by
      rw [VaultRegistry.readCfg_eq, map_run_eq_ok]
      exact ⟨r.vaults, readRange_writeVec lc pk r.vaults t (Nat.zero_le _) hr (by norm_num), rfl⟩
    obtain ⟨b, bs, rfl⟩ := List.exists_cons_of_ne_nil ht
    simp [decodeCfg, hrun]

theorem registry_rejects_oversized_and_trailing :
    decodeCfg (VaultRegistry.readCfg u32Length bytes32Key) (u32Length.write 100001 ++ []) =
        .error (.invalidLength 100001) ∧
      decodeCfg (VaultRegistry.readCfg u32Length bytes32Key)
        (VaultRegistry.write u32Length bytes32Key ⟨[7]⟩ ++ [0]) = .error (.extraData 1) :=
  ⟨(vaultRegistry_decode_rejects u32Length bytes32Key).1 100001 [] (by norm_num) (by norm_num),
    (vaultRegistry_decode_rejects u32Length bytes32Key).2.2 ⟨[7]⟩ [0] (by decide) (by decide)⟩

end Registry

end Nullspace.Casino

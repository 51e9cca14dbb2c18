import TensHash.Basic
import Mathlib.Data.Nat.Bitwise

/-!
# TensHash.Ternary.Codec

The byte and bit conventions of the ternary cascade (`src/src/crypto/tens_pow/tens_hash.cpp`,
lines 124–132 and 204–253). The caller's 32-byte values are little-endian numbers
`N(x) = Σ_k x[k]·256^k`; `tens_hash_precomputed` reverses the input bytes and unpacks each byte
most significant bit first, so entry `i` of the bit vector is bit `255 − i` of `N(x)`; at the end
`pack_bits` packs the 256 result bits most significant bit first and the bytes are reversed
again, so the 0/1 vector `v` comes out as the number `Σ_i v_i·2^(255−i)`.

* `loadInput_apply`, `storeOutput_testBit`: the two loops in closed form, bit by bit.
* `testBit_leValue`: bit `8k + b` of `N(x)` is bit `b` of `x[k]`.
* `leValue_storeOutput`: the written bytes of a 0/1 vector `v` are `Σ_i v_i·2^(255−i)`;
  `storeOutput_eq_leBytes`: they are that number's little-endian digits (`leBytes`), the rest of
  `output` untouched.
* `loadInput_storeOutput`, `storeOutput_loadInput`: decoding and encoding are mutually inverse.
* `loadInput_storeOutput_codec`: the whole codec.
-/

namespace TensHash
namespace Ternary

/-- Modelled from the spec: `TENS_IN_SIZE`, declared in `tens_hash.h`, which is not among the
sources; the spec's inputs and digests are 32 bytes. -/
@[irreducible] def TENS_IN_SIZE : Nat := 32

/-- `TENS_HIDDEN`: the hidden layer size (`#define TENS_HIDDEN 1024`). -/
@[irreducible] def TENS_HIDDEN : Nat := 1024

/-- `NUM_HIDDEN_LAYERS` (`#define NUM_HIDDEN_LAYERS 64`). -/
@[irreducible] def NUM_HIDDEN_LAYERS : Nat := 64

/-- `INPUT_BITS`: `TENS_IN_SIZE * 8`. -/
def INPUT_BITS : Nat := TENS_IN_SIZE * 8

theorem TENS_IN_SIZE_eq : TENS_IN_SIZE = 32 := by unfold TENS_IN_SIZE; rfl

theorem TENS_HIDDEN_eq : TENS_HIDDEN = 1024 := by unfold TENS_HIDDEN; rfl

theorem NUM_HIDDEN_LAYERS_eq : NUM_HIDDEN_LAYERS = 64 := by unfold NUM_HIDDEN_LAYERS; rfl

theorem INPUT_BITS_eq : INPUT_BITS = 256 := by rw [INPUT_BITS, TENS_IN_SIZE_eq]

/-- `swapped[i] = p[TENS_IN_SIZE - 1 - i]`: the byte reversal of the input, and of the packed
output. -/
def swapBytes (p : Buf U8) : Buf U8 := fun i => p (TENS_IN_SIZE - 1 - i)

/-- The inner unpacking loop for byte `b` at position `i`, `j < n`:
`state[i * 8 + j] = (b >> (7 - j)) & 1`. -/
def unpackByte (b : U8) (i : Nat) (state : Buf I8) : Nat → Buf I8
  | 0 => state
  | j + 1 => Function.update (unpackByte b i state j) (i * 8 + j)
    (BitVec.ofNat 8 ((b.toNat >>> (7 - j)) &&& 1))

/-- The outer unpacking loop over the bytes `i < n`. -/
def unpackBits (bytes : Buf U8) (state : Buf I8) : Nat → Buf I8
  | 0 => state
  | i + 1 => unpackByte (bytes i) i (unpackBits bytes state i) 8

/-- The start of `tens_hash_precomputed`: the input reversed, `memset(ctx->state, 0,
TENS_HIDDEN)`, then the 256 bits of the reversed input into `state`. -/
def loadInput (input : Buf U8) (state : Buf I8) : Buf I8 :=
  unpackBits (swapBytes input) (memset state 0 TENS_HIDDEN) TENS_IN_SIZE

/-- The loop of `pack_bits` over `i < n`: `if (bits[i]) out_bytes[i / 8] |= (1 << (7 - (i % 8)))`. -/
def packLoop (bits : Buf I8) (out : Buf U8) : Nat → Buf U8
  | 0 => out
  | i + 1 =>
    let o := packLoop bits out i
    if bits i ≠ 0 then Function.update o (i / 8) (o (i / 8) ||| BitVec.ofNat 8 (1 <<< (7 - i % 8)))
    else o

/-- `pack_bits(bits, out_bytes)`: `memset(out_bytes, 0, TENS_IN_SIZE)`, then the loop over
`INPUT_BITS`. -/
def packBits (bits : Buf I8) (outBytes : Buf U8) : Buf U8 :=
  packLoop bits (memset outBytes 0 TENS_IN_SIZE) INPUT_BITS

/-- The end of `tens_hash_precomputed`: `pack_bits(final_state, output)`, then the reversed
bytes copied back over `output`. -/
def storeOutput (finalState : Buf I8) (output : Buf U8) : Buf U8 :=
  let packed := packBits finalState output
  memcpy packed (swapBytes packed) TENS_IN_SIZE

/-- `Σ_{k<n} p[k]·256^k`: the first `n` bytes at `p` as a little-endian number. -/
def leValue (p : Buf U8) : Nat → Nat
  | 0 => 0
  | n + 1 => (p 0).toNat + 256 * leValue (fun k => p (k + 1)) n

/-- The spec's digest bytes: the number `N` written little-endian into the first `n` bytes of
`out`, byte `k` being `⌊N / 256^k⌋ mod 256`; the bytes after them are left as they were. -/
def leBytes (N n : Nat) (out : Buf U8) : Buf U8 :=
  fun k => if k < n then BitVec.ofNat 8 (N / 256 ^ k) else out k

/-! ## Decoding -/

/-- A shifted-and-masked bit as the `int8_t` it is stored as. -/
theorem ofNat_shiftRight_and_one (b s : Nat) :
    BitVec.ofNat 8 ((b >>> s) &&& 1) = if b.testBit s then 1 else 0 := by
  rw [Nat.and_one_is_mod, Nat.shiftRight_eq_div_pow, Nat.testBit_to_div_mod]
  rcases Nat.mod_two_eq_zero_or_one (b / 2 ^ s) with h | h <;> simp [h]

theorem unpackByte_apply (b : U8) (i : Nat) (state : Buf I8) (n k : Nat) :
    unpackByte b i state n k =
      if i * 8 ≤ k ∧ k < i * 8 + n then BitVec.ofNat 8 ((b.toNat >>> (7 - (k - i * 8))) &&& 1)
      else state k := by
  induction n with
  | zero => simp only [unpackByte]; rw [if_neg (by omega)]
  | succ n ih =>
    rw [unpackByte, Function.update_apply, ih]
    by_cases hk : k = i * 8 + n
    · rw [if_pos hk, if_pos (by omega), hk, Nat.add_sub_cancel_left]
    · rw [if_neg hk]
      congr 1
      exact propext ⟨fun h => by omega, fun h => by omega⟩

theorem unpackBits_apply (bytes : Buf U8) (state : Buf I8) (n k : Nat) :
    unpackBits bytes state n k =
      if k < n * 8 then BitVec.ofNat 8 (((bytes (k / 8)).toNat >>> (7 - k % 8)) &&& 1)
      else state k := by
  induction n with
  | zero => simp [unpackBits]
  | succ n ih =>
    rw [unpackBits, unpackByte_apply, ih]
    by_cases hk : n * 8 ≤ k ∧ k < n * 8 + 8
    · rw [if_pos hk, if_pos (by omega), show k / 8 = n by omega, show k % 8 = k - n * 8 by omega]
    · rw [if_neg hk]
      congr 1
      exact propext ⟨fun h => by omega, fun h => by omega⟩

/-- Bit `8k + b` of a little-endian number is bit `b` of its byte `k`. -/
theorem testBit_leValue (p : Buf U8) {n k b : Nat} (hk : k < n) (hb : b < 8) :
    (leValue p n).testBit (8 * k + b) = (p k).toNat.testBit b := by
  induction n generalizing p k with
  | zero => omega
  | succ n ih =>
    have hp := (p 0).isLt
    rw [leValue, Nat.add_comm, show (256 : Nat) = 2 ^ 8 from rfl,
      Nat.testBit_mul_pow_two_add _ hp]
    rcases k with _ | k
    · rw [if_pos (by omega), Nat.mul_zero, Nat.zero_add]
    · rw [if_neg (by omega), show 8 * (k + 1) + b - 8 = 8 * k + b by omega, ih _ (by omega)]

theorem leValue_lt (p : Buf U8) (n : Nat) : leValue p n < 2 ^ (8 * n) := by
  induction n generalizing p with
  | zero => simp [leValue]
  | succ n ih =>
    have := (p 0).isLt
    have := ih fun k => p (k + 1)
    rw [leValue, show 8 * (n + 1) = 8 + 8 * n by omega, pow_add]
    omega

/-- The bit vector `tens_hash_precomputed` loads: entry `i < 256` is bit `255 − i` of `N(x)`. -/
theorem loadInput_apply (x : Buf U8) (state : Buf I8) {i : Nat} (hi : i < INPUT_BITS) :
    loadInput x state i = if (leValue x 32).testBit (255 - i) then 1 else 0 := by
  rw [INPUT_BITS_eq] at hi
  rw [loadInput, unpackBits_apply, TENS_IN_SIZE_eq, if_pos (by omega),
    ofNat_shiftRight_and_one, swapBytes, TENS_IN_SIZE_eq,
    show 255 - i = 8 * (32 - 1 - i / 8) + (7 - i % 8) by omega,
    testBit_leValue _ (by omega) (by omega)]

/-! ## Encoding -/

/-- Setting bit `k < 8` of a byte with `|= (1 << k)`. -/
theorem testBit_or_shiftLeft (o : U8) {k : Nat} (hk : k < 8) (b : Nat) :
    (o ||| BitVec.ofNat 8 (1 <<< k)).toNat.testBit b = (o.toNat.testBit b || decide (k = b)) := by
  have h : 2 ^ k < 2 ^ 8 := Nat.pow_lt_pow_right (by decide) hk
  rw [BitVec.toNat_or, BitVec.toNat_ofNat, Nat.shiftLeft_eq, Nat.one_mul, Nat.mod_eq_of_lt h,
    Nat.testBit_or, Nat.testBit_two_pow]

/-- One iteration of the loop of `pack_bits`: bit `b` of byte `q` becomes set iff it was set or
the iteration is the one for entry `8q + 7 − b` and that entry is nonzero. -/
theorem testBit_packLoop_succ (bits : Buf I8) (out : Buf U8) (n q : Nat) {b : Nat} (hb : b < 8) :
    (packLoop bits out (n + 1) q).toNat.testBit b =
      ((packLoop bits out n q).toNat.testBit b || decide (8 * q + (7 - b) = n ∧ bits n ≠ 0)) := by
  simp only [packLoop]
  split_ifs with hbit
  · rw [Function.update_apply]
    split_ifs with hq
    · rw [hq, testBit_or_shiftLeft _ (by omega), ← hq]
      simp only [hbit, ne_eq, not_false_eq_true, and_true]
      congr 1
      exact decide_eq_decide.mpr (by omega)
    · simp [show 8 * q + (7 - b) ≠ n by omega]
  · rw [not_not] at hbit
    simp [hbit]

/-- After `n` iterations of the loop of `pack_bits`, bit `b` of byte `q` is set iff it was set
before or the entry `8q + 7 − b` it stands for is below `n` and nonzero. -/
theorem testBit_packLoop (bits : Buf I8) (out : Buf U8) (n q : Nat) {b : Nat} (hb : b < 8) :
    (packLoop bits out n q).toNat.testBit b =
      ((out q).toNat.testBit b || decide (8 * q + (7 - b) < n ∧ bits (8 * q + (7 - b)) ≠ 0)) := by
  induction n with
  | zero => simp [packLoop]
  | succ n ih =>
    rw [testBit_packLoop_succ _ _ _ _ hb, ih, Bool.or_assoc]
    congr 1
    by_cases hn : 8 * q + (7 - b) = n
    · simp [hn]
    · simp [hn, show 8 * q + (7 - b) < n + 1 ↔ 8 * q + (7 - b) < n by omega]

/-- Bit `b` of byte `q < 32` of `pack_bits` is entry `8q + 7 − b`. -/
theorem testBit_packBits (bits : Buf I8) (out : Buf U8) {q b : Nat} (hq : q < 32) (hb : b < 8) :
    (packBits bits out q).toNat.testBit b = decide (bits (8 * q + (7 - b)) ≠ 0) := by
  rw [packBits, testBit_packLoop _ _ _ _ hb, memset_apply, TENS_IN_SIZE_eq, if_pos hq,
    INPUT_BITS_eq]
  simp [show 8 * q + (7 - b) < 256 by omega]

/-- The bytes `tens_hash_precomputed` writes: bit `b` of byte `k < 32` is entry
`255 − (8k + b)` of the final vector. -/
theorem storeOutput_testBit (v : Buf I8) (out : Buf U8) {k b : Nat} (hk : k < 32) (hb : b < 8) :
    (storeOutput v out k).toNat.testBit b = decide (v (255 - (8 * k + b)) ≠ 0) := by
  rw [storeOutput, memcpy_apply, TENS_IN_SIZE_eq, if_pos hk, swapBytes, TENS_IN_SIZE_eq,
    testBit_packBits _ _ (by omega) hb, show 8 * (32 - 1 - k) + (7 - b) = 255 - (8 * k + b) by omega]

theorem testBit_leValue_storeOutput (v : Buf I8) (out : Buf U8) {j : Nat} (hj : j < 256) :
    (leValue (storeOutput v out) 32).testBit j = decide (v (255 - j) ≠ 0) := by
  rw [← Nat.div_add_mod j 8, testBit_leValue _ (by omega) (Nat.mod_lt _ (by decide)),
    storeOutput_testBit _ _ (by omega) (Nat.mod_lt _ (by decide))]

/-- `Σ_{i<n} f i · 2^(n−1−i)` for a 0/1 sequence `f`: bit `j` is `f (n − 1 − j)`. -/
theorem testBit_sum_bits (f : Nat → Nat) (n : Nat) (hf : ∀ i < n, f i ≤ 1) (j : Nat) :
    (∑ i ∈ Finset.range n, f i * 2 ^ (n - 1 - i)).testBit j = decide (j < n ∧ f (n - 1 - j) = 1) := by
  induction n generalizing j with
  | zero => simp
  | succ n ih =>
    have hstep : ∑ i ∈ Finset.range (n + 1), f i * 2 ^ (n + 1 - 1 - i) =
        2 ^ 1 * ∑ i ∈ Finset.range n, f i * 2 ^ (n - 1 - i) + f n := by
      rw [Finset.sum_range_succ, Finset.mul_sum, Nat.add_sub_cancel, Nat.sub_self, pow_zero,
        Nat.mul_one]
      congr 1
      refine Finset.sum_congr rfl fun i hi => ?_
      rw [Finset.mem_range] at hi
      rw [Nat.mul_left_comm, ← pow_add, show 1 + (n - 1 - i) = n - i by omega]
    have hn := hf n (by omega)
    rw [hstep, Nat.testBit_mul_pow_two_add _ (by omega : f n < 2 ^ 1)]
    rcases j with _ | j
    · rw [if_pos (by omega), Nat.testBit_zero]
      simp only [Nat.sub_zero, Nat.add_sub_cancel]
      congr 1
      exact propext ⟨fun h => ⟨by omega, by omega⟩, fun h => by omega⟩
    · rw [if_neg (by omega), Nat.add_sub_cancel, ih (fun i hi => hf i (by omega)),
        show n + 1 - 1 - (j + 1) = n - 1 - j by omega]
      congr 1
      exact propext ⟨fun h => ⟨by omega, h.2⟩, fun h => ⟨by omega, h.2⟩⟩

theorem packLoop_congr {v v' : Buf I8} (out : Buf U8) {n : Nat} (h : ∀ i < n, v i = v' i) :
    packLoop v out n = packLoop v' out n := by
  induction n with
  | zero => rfl
  | succ n ih => simp only [packLoop, ih fun i hi => h i (by omega), h n (by omega)]

/-- `pack_bits` only reads the first `INPUT_BITS` entries. -/
theorem storeOutput_congr {v v' : Buf I8} (out : Buf U8) (h : ∀ i < INPUT_BITS, v i = v' i) :
    storeOutput v out = storeOutput v' out := by
  simp only [storeOutput, packBits, packLoop_congr _ h]

/-! ## The codec -/

/-- A 0/1 entry read as a bit. -/
theorem toNat_eq_one_iff {e : I8} (h : e = 0 ∨ e = 1) : e.toNat = 1 ↔ e ≠ 0 := by
  rcases h with rfl | rfl <;> decide

/-- A byte is determined by its eight bits. -/
theorem eq_of_testBit_lt_eight {e e' : U8} (h : ∀ b < 8, e.toNat.testBit b = e'.toNat.testBit b) :
    e = e' := by
  refine BitVec.eq_of_toNat_eq (Nat.eq_of_testBit_eq fun b => ?_)
  by_cases hb : b < 8
  · exact h b hb
  · have hlt : ∀ e : U8, e.toNat < 2 ^ b := fun e =>
      lt_of_lt_of_le e.isLt (Nat.pow_le_pow_right (by decide) (by omega))
    rw [Nat.testBit_eq_false_of_lt (hlt _), Nat.testBit_eq_false_of_lt (hlt _)]

/-- The entries above the 256 input bits are cleared. -/
theorem loadInput_high (x : Buf U8) (state : Buf I8) {i : Nat} (hi : INPUT_BITS ≤ i)
    (hi' : i < TENS_HIDDEN) : loadInput x state i = 0 := by
  rw [INPUT_BITS_eq] at hi
  rw [loadInput, unpackBits_apply, TENS_IN_SIZE_eq, if_neg (by omega), memset_apply, if_pos hi']

/-- The written bytes of a 0/1 vector `v` are the number `Σ_i v_i·2^(255−i)`. -/
theorem leValue_storeOutput (v : Buf I8) (out : Buf U8) (hv : ∀ i < INPUT_BITS, v i = 0 ∨ v i = 1) :
    leValue (storeOutput v out) 32 = ∑ i ∈ Finset.range INPUT_BITS, (v i).toNat * 2 ^ (255 - i) := by
  rw [INPUT_BITS_eq] at hv ⊢
  refine Nat.eq_of_testBit_eq fun j => ?_
  have hf : ∀ i < 256, (v i).toNat ≤ 1 := fun i hi => by rcases hv i hi with h | h <;> simp [h]
  rw [show (255 : Nat) = 256 - 1 from rfl, testBit_sum_bits _ _ hf]
  by_cases hj : j < 256
  · have h1 := toNat_eq_one_iff (hv (255 - j) (by omega))
    rw [testBit_leValue_storeOutput _ _ hj]
    simp [hj, h1]
  · rw [Nat.testBit_eq_false_of_lt (lt_of_lt_of_le (leValue_lt _ 32)
      (Nat.pow_le_pow_right (by decide) (by omega)))]
    simp [hj]

/-- Digit `k < n` in base 256 of a little-endian number is its byte `k`. -/
theorem leValue_div_mod (p : Buf U8) {n k : Nat} (hk : k < n) :
    leValue p n / 256 ^ k % 256 = (p k).toNat := by
  induction n generalizing p k with
  | zero => omega
  | succ n ih =>
    have hp : (p 0).toNat < 256 := (p 0).isLt
    rcases k with _ | k
    · rw [leValue, pow_zero, Nat.div_one]
      omega
    · rw [leValue, pow_succ', ← Nat.div_div_eq_div_mul,
        show ((p 0).toNat + 256 * leValue (fun k => p (k + 1)) n) / 256 =
          leValue (fun k => p (k + 1)) n by omega, ih _ (by omega)]

/-- `tens_hash_precomputed` leaves the bytes of `output` after the first 32 as they were. -/
theorem storeOutput_high (v : Buf I8) (out : Buf U8) {k : Nat} (hk : 32 ≤ k) :
    storeOutput v out k = out k := by
  refine eq_of_testBit_lt_eight fun b hb => ?_
  rw [storeOutput, memcpy_apply, TENS_IN_SIZE_eq, if_neg (by omega), packBits,
    testBit_packLoop _ _ _ _ hb, memset_apply, TENS_IN_SIZE_eq, if_neg (by omega), INPUT_BITS_eq]
  simp [show ¬8 * k + (7 - b) < 256 by omega]

/-- The bytes written for a 0/1 vector `v` are the spec's digest bytes of `Σ_i v_i·2^(255−i)`. -/
theorem storeOutput_eq_leBytes (v : Buf I8) (out : Buf U8)
    (hv : ∀ i < INPUT_BITS, v i = 0 ∨ v i = 1) :
    storeOutput v out =
      leBytes (∑ i ∈ Finset.range INPUT_BITS, (v i).toNat * 2 ^ (255 - i)) TENS_IN_SIZE out := by
  funext k
  rw [leBytes, ← leValue_storeOutput v out hv, TENS_IN_SIZE_eq]
  split_ifs with hk
  · exact BitVec.eq_of_toNat_eq (by rw [BitVec.toNat_ofNat, leValue_div_mod _ hk])
  · exact storeOutput_high v out (by omega)

/-- Decoding the encoding of a 0/1 vector gives it back. -/
theorem loadInput_storeOutput (v : Buf I8) (out : Buf U8) (state : Buf I8)
    (hv : ∀ i < INPUT_BITS, v i = 0 ∨ v i = 1) {i : Nat} (hi : i < INPUT_BITS) :
    loadInput (storeOutput v out) state i = v i := by
  rw [loadInput_apply _ _ hi, testBit_leValue_storeOutput _ _ (by rw [INPUT_BITS_eq] at hi; omega),
    show 255 - (255 - i) = i by rw [INPUT_BITS_eq] at hi; omega]
  rcases hv i hi with h | h <;> simp [h]

/-- Encoding the decoding of 32 bytes gives them back. -/
theorem storeOutput_loadInput (x out : Buf U8) (state : Buf I8) {k : Nat} (hk : k < 32) :
    storeOutput (loadInput x state) out k = x k := by
  refine eq_of_testBit_lt_eight fun b hb => ?_
  rw [storeOutput_testBit _ _ hk hb, loadInput_apply _ _ (by rw [INPUT_BITS_eq]; omega),
    show 255 - (255 - (8 * k + b)) = 8 * k + b by omega, testBit_leValue _ hk hb]
  cases (x k).toNat.testBit b <;> decide

/-- The input decoding and the output encoding of `tens_hash_precomputed`. For every 32-byte `x`,
entry `i < 256` of the loaded vector is bit `255 − i` of `N(x)` and entries `256 … 1023` are zero;
for every 0/1 vector `v` the written bytes are the number `Σ_i v_i·2^(255−i)`; decoding the
encoding of a 0/1 vector gives it back, and encoding the decoding of 32 bytes gives them back. -/
theorem loadInput_storeOutput_codec :
    (∀ (x : Buf U8) (state : Buf I8) (i : Nat), i < INPUT_BITS →
        loadInput x state i = if (leValue x TENS_IN_SIZE).testBit (255 - i) then 1 else 0) ∧
    (∀ (x : Buf U8) (state : Buf I8) (i : Nat), INPUT_BITS ≤ i → i < TENS_HIDDEN →
        loadInput x state i = 0) ∧
    (∀ (v : Buf I8) (out : Buf U8), (∀ i < INPUT_BITS, v i = 0 ∨ v i = 1) →
        leValue (storeOutput v out) TENS_IN_SIZE =
          ∑ i ∈ Finset.range INPUT_BITS, (v i).toNat * 2 ^ (255 - i)) ∧
    (∀ (v : Buf I8) (out : Buf U8) (state : Buf I8), (∀ i < INPUT_BITS, v i = 0 ∨ v i = 1) →
        ∀ i < INPUT_BITS, loadInput (storeOutput v out) state i = v i) ∧
    (∀ (x out : Buf U8) (state : Buf I8), ∀ k < TENS_IN_SIZE,
        storeOutput (loadInput x state) out k = x k) := by
  rw [TENS_IN_SIZE_eq]
  exact ⟨fun x state _ => loadInput_apply x state, fun x state _ => loadInput_high x state,
    leValue_storeOutput, fun v out state hv _ => loadInput_storeOutput v out state hv,
    fun x out state _ => storeOutput_loadInput x out state⟩

end Ternary
end TensHash

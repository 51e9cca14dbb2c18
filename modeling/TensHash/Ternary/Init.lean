import TensHash.Ternary.Layer
import Mathlib.Tactic.IntervalCases

/-!
# TensHash.Ternary.Init

`tens_hash_init` of the ternary cascade (`src/src/crypto/tens_pow/tens_hash.cpp`, lines 17–91
and 134–180): the context's five buffers, the seed reversed, and the 66 ternary matrices, each
drawn from its own ChaCha20 stream. Stage `k` (0 for the expansion, `1 + r` for hidden matrix
`r`, 65 for the compression) is keyed by the reversed seed with `Nonce96` `(0, to_big_endian(k))`
and its byte `i` becomes entry `i` of the matrix, row-major, as `w(byte mod 4)`.

* `toInt_ternaryWeight`: the weight the code stores is the spec's `w(b mod 4)`.
* `generateHidden_cases`: the loop over the hidden matrices in closed form (`hiddenAfter`).
* `tensHashInit_cases`: whatever the allocator, `tens_hash_init` returns null exactly when the
  context or one of its five buffers cannot be allocated, and otherwise throws or returns a
  context whose three matrices are filled as the spec says; `tensHashInit_filled`: when every
  allocation succeeds, it returns such a context. `InitFilled.sameWindows`: such a context agrees
  with the spec's matrix set `expandSeed` wherever a call reads.
* `nonce_injective`: `to_big_endian` is an involution on 64-bit values, so distinct nonce
  counters give distinct nonces; the 66 stages draw from 66 different keystreams.
-/

namespace TensHash
namespace Ternary

/-- Modelled from the spec: `TensHashContext`, declared in `tens_hash.h`, which is not among the
sources; its fields are the five buffers `tens_hash.cpp` uses. -/
structure TensHashContext where
  expansionMat : Buf I8
  hiddenMats : Buf I8
  compressionMat : Buf I8
  state : Buf I8
  nextState : Buf I8

/-- The allocation sites of the ternary mode: the context and its five buffers, the two
`std::vector`s of the `generate_dense_matrix` call with a given nonce counter, and `x_mapped` of
each of the 66 layers of a call of `tens_hash_precomputed`. -/
inductive Site
  | ctx
  | expansionMat
  | hiddenMats
  | compressionMat
  | state
  | nextState
  | keystream (nonceCounter : Nat)
  | keyBytes (nonceCounter : Nat)
  | xMapped (layer : Nat)
  deriving DecidableEq

/-- `to_big_endian(val)`: the eight bytes of `val` in reverse order. -/
def toBigEndian (val : BitVec 64) : BitVec 64 :=
  ((val &&& 0x00000000000000FF) <<< 56) |||
  ((val &&& 0x000000000000FF00) <<< 40) |||
  ((val &&& 0x0000000000FF0000) <<< 24) |||
  ((val &&& 0x00000000FF000000) <<< 8) |||
  ((val &&& 0x000000FF00000000) >>> 8) |||
  ((val &&& 0x0000FF0000000000) >>> 24) |||
  ((val &&& 0x00FF000000000000) >>> 40) |||
  ((val &&& 0xFF00000000000000) >>> 56)

/-- The weight of a keystream byte: `mod = bytes[i] % 4`; `0` if `mod` is 0 or 1, `1` if it is 2,
`-1` otherwise. -/
def ternaryWeight (b : U8) : I8 :=
  let mod := b % 4
  if mod = 0 ∨ mod = 1 then 0 else if mod = 2 then 1 else -1

/-- `generate_dense_matrix(rows, cols, seed, nonce_counter, matrix)`: the new contents of the block
at `matrix`, or the `std::bad_alloc` of one of its two vectors. The keystream is keyed by the 32
bytes at `seed` with `Nonce96` `(0, to_big_endian(nonce_counter))`, and the loop stores the weight
of keystream byte `i` into `matrix[i]` for every `i < rows * cols`. -/
def generateDenseMatrix (chacha : ChaCha20) (alloc : Alloc Site) (rows cols : Nat) (seed : Buf U8)
    (nonceCounter : Nat) (matrix : Buf I8) : Except BadAlloc (Buf I8) :=
  let total := rows * cols
  match alloc (.keystream nonceCounter), alloc (.keyBytes nonceCounter) with
  | some _, some _ =>
    let bytes := chacha (bytes32 seed) (0, toBigEndian (BitVec.ofNat 64 nonceCounter))
    .ok (memcpy matrix (fun i => ternaryWeight (bytes i)) total)
  | _, _ => .error .badAlloc

/-- The loop of `generate_all_matrices` over the hidden matrices `r < n`: matrix `r` at
`hidden_mats + r * TENS_HIDDEN * TENS_HIDDEN`, with nonce counter `1 + r`. -/
def generateHidden (chacha : ChaCha20) (alloc : Alloc Site) (seed : Buf U8) (hiddenMats : Buf I8) :
    Nat → Except BadAlloc (Buf I8)
  | 0 => .ok hiddenMats
  | r + 1 => do
    let h ← generateHidden chacha alloc seed hiddenMats r
    let block ← generateDenseMatrix chacha alloc TENS_HIDDEN TENS_HIDDEN seed (1 + r)
      (offset h (r * TENS_HIDDEN * TENS_HIDDEN))
    pure (writeAt h (r * TENS_HIDDEN * TENS_HIDDEN) block)

/-- `generate_all_matrices(ctx, seed)`: the expansion matrix with nonce counter 0, the hidden
matrices with `1, …, 64`, the compression matrix with 65. -/
def generateAllMatrices (chacha : ChaCha20) (alloc : Alloc Site) (ctx : TensHashContext)
    (seed : Buf U8) : Except BadAlloc TensHashContext := do
  let e ← generateDenseMatrix chacha alloc TENS_HIDDEN INPUT_BITS seed 0 ctx.expansionMat
  let h ← generateHidden chacha alloc seed ctx.hiddenMats NUM_HIDDEN_LAYERS
  let c ← generateDenseMatrix chacha alloc INPUT_BITS TENS_HIDDEN seed (1 + NUM_HIDDEN_LAYERS)
    ctx.compressionMat
  pure { ctx with expansionMat := e, hiddenMats := h, compressionMat := c }

/-- `alloc_context_buffers(ctx)`: the three matrix blocks from `malloc`, `state` and `next_state`
from `calloc`; all five are requested before any is checked. -/
def allocContextBuffers (alloc : Alloc Site) : Option TensHashContext :=
  match alloc .expansionMat, alloc .hiddenMats, alloc .compressionMat, alloc .state,
    alloc .nextState with
  | some e, some h, some c, some _, some _ => some ⟨e, h, c, fun _ => 0, fun _ => 0⟩
  | _, _, _, _, _ => none

/-- `swapped_seed[i] = seed[31 - i]`. -/
def swapSeed (seed : Buf U8) : Buf U8 := fun i => seed (31 - i)

/-- `tens_hash_init(seed)`: a context, null when an allocation returns null, or the exception of a
`std::vector` inside `generate_dense_matrix`. -/
def tensHashInit (chacha : ChaCha20) (alloc : Alloc Site) (seed : Buf U8) :
    Except BadAlloc (Option TensHashContext) :=
  match alloc .ctx with
  | none => .ok none
  | some _ =>
    match allocContextBuffers alloc with
    | none => .ok none
    | some ctx => some <$> generateAllMatrices chacha alloc ctx (swapSeed seed)

/-! ## What the matrices hold -/

/-- The spec's weight `w`: `w(0) = w(1) = 0`, `w(2) = 1`, `w(3) = −1`. -/
def specWeight : Nat → Int
  | 2 => 1
  | 3 => -1
  | _ => 0

/-- The spec's keystream of stage `k`: ChaCha20 keyed by the byte-reversed seed, with `Nonce96`
`(0, to_big_endian(k))`. -/
def stageKeystream (chacha : ChaCha20) (seed : Buf U8) (k : Nat) : Buf U8 :=
  chacha (fun i => seed (31 - i.val)) (0, toBigEndian (BitVec.ofNat 64 k))

/-- The matrices of a context as `tens_hash_init(seed)` is to fill them: row-major, entry `i` of
stage `k` is `w(b mod 4)` of byte `i` of the keystream of stage `k`. -/
structure InitFilled (chacha : ChaCha20) (seed : Buf U8) (ctx : TensHashContext) : Prop where
  expansion : ∀ i < TENS_HIDDEN * INPUT_BITS,
    (ctx.expansionMat i).toInt = specWeight ((stageKeystream chacha seed 0 i).toNat % 4)
  hidden : ∀ r < NUM_HIDDEN_LAYERS, ∀ i < TENS_HIDDEN * TENS_HIDDEN,
    (ctx.hiddenMats (r * TENS_HIDDEN * TENS_HIDDEN + i)).toInt =
      specWeight ((stageKeystream chacha seed (1 + r) i).toNat % 4)
  compression : ∀ i < INPUT_BITS * TENS_HIDDEN,
    (ctx.compressionMat i).toInt =
      specWeight ((stageKeystream chacha seed (1 + NUM_HIDDEN_LAYERS) i).toNat % 4)

theorem toInt_ternaryWeight (b : U8) : (ternaryWeight b).toInt = specWeight (b.toNat % 4) := by
  have hm : b % 4 = BitVec.ofNat 8 (b.toNat % 4) :=
    BitVec.eq_of_toNat_eq (by
      rw [BitVec.toNat_umod, BitVec.toNat_ofNat, show (4 : U8).toNat = 4 from rfl]; omega)
  have hlt : b.toNat % 4 < 4 := Nat.mod_lt _ (by decide)
  simp only [ternaryWeight, hm]
  generalize b.toNat % 4 = m at hlt
  obtain rfl | rfl | rfl | rfl : m = 0 ∨ m = 1 ∨ m = 2 ∨ m = 3 := by omega
  all_goals decide

/-- `generate_dense_matrix` either throws, which takes a failed allocation, or fills the first
`rows * cols` entries of `matrix` with the weights of its keystream. -/
theorem generateDenseMatrix_cases (chacha : ChaCha20) (alloc : Alloc Site) (rows cols : Nat)
    (seed : Buf U8) (nonceCounter : Nat) (matrix : Buf I8) :
    ¬alloc.AllOk ∧ generateDenseMatrix chacha alloc rows cols seed nonceCounter matrix = .error .badAlloc ∨
      generateDenseMatrix chacha alloc rows cols seed nonceCounter matrix =
        .ok (memcpy matrix (fun i => ternaryWeight
          (chacha (bytes32 seed) (0, toBigEndian (BitVec.ofNat 64 nonceCounter)) i)) (rows * cols)) := by
  unfold generateDenseMatrix
  split
  · exact .inr rfl
  · next hfail =>
    refine .inl ⟨fun ha => ?_, rfl⟩
    obtain ⟨k, hk⟩ := ha.exists_eq_some (.keystream nonceCounter)
    obtain ⟨b, hb⟩ := ha.exists_eq_some (.keyBytes nonceCounter)
    exact hfail k b hk hb

/-- The hidden block after `n` iterations of the loop of `generate_all_matrices`: entry
`k < n·H²` is the weight of byte `k mod H²` of the stream with nonce counter `1 + k / H²`, and the
rest of the block is untouched. -/
def hiddenAfter (chacha : ChaCha20) (seed : Buf U8) (hiddenMats : Buf I8) (n : Nat) : Buf I8 :=
  fun k => if k < n * (TENS_HIDDEN * TENS_HIDDEN) then
    ternaryWeight (chacha (bytes32 seed) (0, toBigEndian
      (BitVec.ofNat 64 (1 + k / (TENS_HIDDEN * TENS_HIDDEN)))) (k % (TENS_HIDDEN * TENS_HIDDEN)))
  else hiddenMats k

/-- Iteration `r` writes the window `[r·H², (r+1)·H²)` with the stream of nonce counter `1 + r`. -/
theorem hiddenAfter_succ (chacha : ChaCha20) (seed : Buf U8) (hiddenMats : Buf I8) (r : Nat) :
    writeAt (hiddenAfter chacha seed hiddenMats r) (r * TENS_HIDDEN * TENS_HIDDEN)
        (memcpy (offset (hiddenAfter chacha seed hiddenMats r) (r * TENS_HIDDEN * TENS_HIDDEN))
          (fun i => ternaryWeight (chacha (bytes32 seed) (0, toBigEndian (BitVec.ofNat 64 (1 + r))) i))
          (TENS_HIDDEN * TENS_HIDDEN)) =
      hiddenAfter chacha seed hiddenMats (r + 1) := by
  funext k
  simp only [hiddenAfter, writeAt_apply, memcpy_apply, offset_apply, Nat.mul_assoc]
  by_cases hlo : r * (TENS_HIDDEN * TENS_HIDDEN) ≤ k
  · by_cases hhi : k < (r + 1) * (TENS_HIDDEN * TENS_HIDDEN)
    · have hdiv : k / (TENS_HIDDEN * TENS_HIDDEN) = r := Nat.div_eq_of_lt_le hlo hhi
      have hmod : k % (TENS_HIDDEN * TENS_HIDDEN) = k - r * (TENS_HIDDEN * TENS_HIDDEN) := by
        rw [Nat.mod_def, hdiv, Nat.mul_comm]
      rw [if_pos hlo, if_pos (by rw [Nat.succ_mul] at hhi; omega), if_pos hhi, hdiv, hmod]
    · rw [if_pos hlo, if_neg (by rw [Nat.succ_mul] at hhi; omega), if_neg hhi,
        Nat.add_sub_cancel' hlo, if_neg (by omega)]
  · rw [if_neg hlo, if_pos (by omega), if_pos (by rw [Nat.succ_mul]; omega)]

/-- The loop over the hidden matrices either throws, which takes a failed allocation, or leaves
the block as `hiddenAfter` says. -/
theorem generateHidden_cases (chacha : ChaCha20) (alloc : Alloc Site) (seed : Buf U8)
    (hiddenMats : Buf I8) (n : Nat) :
    ¬alloc.AllOk ∧ generateHidden chacha alloc seed hiddenMats n = .error .badAlloc ∨
      generateHidden chacha alloc seed hiddenMats n = .ok (hiddenAfter chacha seed hiddenMats n) := by
  induction n with
  | zero => exact .inr (congrArg Except.ok (funext fun k => by simp [hiddenAfter]))
  | succ r ih =>
    rcases ih with ⟨hna, herr⟩ | hok
    · exact .inl ⟨hna, by rw [generateHidden, herr]; rfl⟩
    rcases generateDenseMatrix_cases chacha alloc TENS_HIDDEN TENS_HIDDEN seed (1 + r)
      (offset (hiddenAfter chacha seed hiddenMats r) (r * TENS_HIDDEN * TENS_HIDDEN)) with
      ⟨hna, herr⟩ | hd
    · exact .inl ⟨hna, by simp only [generateHidden, hok, herr, bind, Except.bind]⟩
    · exact .inr (by simp only [generateHidden, hok, hd, hiddenAfter_succ, bind, Except.bind, pure,
        Except.pure])

/-- Entry `i` of hidden matrix `r` sits at flat index `r·H² + i`. -/
theorem hiddenIndex_div_mod (r : Nat) {i : Nat} (hi : i < TENS_HIDDEN * TENS_HIDDEN) :
    (r * TENS_HIDDEN * TENS_HIDDEN + i) / (TENS_HIDDEN * TENS_HIDDEN) = r ∧
      (r * TENS_HIDDEN * TENS_HIDDEN + i) % (TENS_HIDDEN * TENS_HIDDEN) = i := by
  have hH : 0 < TENS_HIDDEN * TENS_HIDDEN := by rw [TENS_HIDDEN_eq]; decide
  rw [Nat.mul_assoc, Nat.mul_comm, Nat.mul_add_div hH, Nat.div_eq_of_lt hi, Nat.add_zero,
    Nat.mul_add_mod, Nat.mod_eq_of_lt hi]
  exact ⟨rfl, rfl⟩

/-- `generate_all_matrices` on the reversed seed either throws, which takes a failed allocation,
or fills the three matrices row-major with `w(b mod 4)` of the keystream bytes of stages 0,
`1 + r` and 65, each keyed by the byte-reversed seed with `Nonce96` `(0, to_big_endian(k))`. -/
theorem generateAllMatrices_cases (chacha : ChaCha20) (alloc : Alloc Site) (ctx : TensHashContext)
    (seed : Buf U8) :
    ¬alloc.AllOk ∧ generateAllMatrices chacha alloc ctx (swapSeed seed) = .error .badAlloc ∨
      ∃ ctx', generateAllMatrices chacha alloc ctx (swapSeed seed) = .ok ctx' ∧
        InitFilled chacha seed ctx' := by
  rcases generateDenseMatrix_cases chacha alloc TENS_HIDDEN INPUT_BITS (swapSeed seed) 0
    ctx.expansionMat with ⟨hna, he⟩ | he
  · exact .inl ⟨hna, by simp only [generateAllMatrices, he, bind, Except.bind]⟩
  rcases generateHidden_cases chacha alloc (swapSeed seed) ctx.hiddenMats NUM_HIDDEN_LAYERS with
    ⟨hna, hh⟩ | hh
  · exact .inl ⟨hna, by simp only [generateAllMatrices, he, hh, bind, Except.bind]⟩
  rcases generateDenseMatrix_cases chacha alloc INPUT_BITS TENS_HIDDEN (swapSeed seed)
    (1 + NUM_HIDDEN_LAYERS) ctx.compressionMat with ⟨hna, hc⟩ | hc
  · exact .inl ⟨hna, by simp only [generateAllMatrices, he, hh, hc, bind, Except.bind]⟩
  have hkey : bytes32 (swapSeed seed) = fun i => seed (31 - i.val) := rfl
  right
  refine ⟨_, by simp only [generateAllMatrices, he, hh, hc, bind, Except.bind, pure, Except.pure]; rfl,
    ?expansion, ?hidden, ?compression⟩
  case expansion =>
    intro i hi
    simp only [memcpy_apply, if_pos hi, hkey, toInt_ternaryWeight, stageKeystream]
  case hidden =>
    intro r hr i hi
    have hk : r * TENS_HIDDEN * TENS_HIDDEN + i < NUM_HIDDEN_LAYERS * (TENS_HIDDEN * TENS_HIDDEN) :=
      Nat.mul_assoc r _ _ ▸ row_major_lt hr hi
    obtain ⟨hdiv, hmod⟩ := hiddenIndex_div_mod r hi
    simp only [hiddenAfter, if_pos hk, hdiv, hmod, hkey, toInt_ternaryWeight, stageKeystream]
  case compression =>
    intro i hi
    simp only [memcpy_apply, if_pos hi, hkey, toInt_ternaryWeight, stageKeystream]

/-! ## Failures -/

/-- Some allocation of `tens_hash_init` returns null: the context or one of its five buffers. -/
def initNull (alloc : Alloc Site) : Bool :=
  [Site.ctx, .expansionMat, .hiddenMats, .compressionMat, .state, .nextState].any
    fun s => (alloc s).isNone

/-- `alloc_context_buffers` fails exactly when one of its five allocations does, although all
five are requested first. -/
theorem allocContextBuffers_isNone (alloc : Alloc Site) :
    (allocContextBuffers alloc).isNone =
      [Site.expansionMat, .hiddenMats, .compressionMat, .state, .nextState].any
        fun s => (alloc s).isNone := by
  simp only [allocContextBuffers, List.any_cons, List.any_nil, Bool.or_false]
  cases alloc .expansionMat <;> cases alloc .hiddenMats <;> cases alloc .compressionMat <;>
    cases alloc .state <;> cases alloc .nextState <;> rfl

theorem initNull_allOk {alloc : Alloc Site} (ha : alloc.AllOk) : initNull alloc = false := by
  simp [initNull, show ∀ s, (alloc s).isSome = true from ha]

/-- Every outcome of `tens_hash_init(seed)`, whatever the allocator: null exactly when the context
or one of its five buffers cannot be allocated; otherwise the `std::bad_alloc` of a
`generate_dense_matrix`, which takes a failed allocation, or a context filled as the spec says. -/
theorem tensHashInit_cases (chacha : ChaCha20) (alloc : Alloc Site) (seed : Buf U8) :
    initNull alloc = true ∧ tensHashInit chacha alloc seed = .ok none ∨
      initNull alloc = false ∧
        (¬alloc.AllOk ∧ tensHashInit chacha alloc seed = .error .badAlloc ∨
          ∃ ctx, tensHashInit chacha alloc seed = .ok (some ctx) ∧ InitFilled chacha seed ctx) := by
  have hnull : initNull alloc = ((alloc .ctx).isNone || (allocContextBuffers alloc).isNone) := by
    rw [allocContextBuffers_isNone]; rfl
  cases hx : alloc .ctx with
  | none => exact .inl ⟨by simp [hnull, hx], by simp [tensHashInit, hx]⟩
  | some _ =>
    cases hb : allocContextBuffers alloc with
    | none => exact .inl ⟨by simp [hnull, hx, hb], by simp [tensHashInit, hx, hb]⟩
    | some ctx =>
      refine .inr ⟨by simp [hnull, hx, hb], ?_⟩
      rcases generateAllMatrices_cases chacha alloc ctx seed with ⟨hna, herr⟩ | ⟨ctx', hok, hf⟩
      · exact .inl ⟨hna, by simp [tensHashInit, hx, hb, herr, Functor.map, Except.map]⟩
      · exact .inr ⟨ctx', by simp [tensHashInit, hx, hb, hok, Functor.map, Except.map], hf⟩

/-- When every allocation succeeds, `tens_hash_init(seed)` returns a context whose expansion,
hidden and compression matrices hold, row-major, `w(b mod 4)` of the keystream bytes of stages
0, `1 + r` and 65, each keyed by the byte-reversed seed with `Nonce96` `(0, to_big_endian(k))`. -/
theorem tensHashInit_filled (chacha : ChaCha20) (alloc : Alloc Site) (seed : Buf U8)
    (ha : alloc.AllOk) : ∃ ctx, tensHashInit chacha alloc seed = .ok (some ctx) ∧
      InitFilled chacha seed ctx := by
  rcases tensHashInit_cases chacha alloc seed with ⟨hn, -⟩ | ⟨-, ⟨hna, -⟩ | h⟩
  · simp [initNull_allOk ha] at hn
  · exact absurd ha hna
  · exact h

/-- The spec's matrix set of a seed (Mode B, one keystream per stage): the expansion from stage 0,
hidden matrix `r` from stage `1 + r`, the compression from stage 65, each entry `w(b mod 4)` of
its stage's byte, row-major; the scratch buffers zero. -/
def expandSeed (chacha : ChaCha20) (seed : Buf U8) : TensHashContext where
  expansionMat i := BitVec.ofInt 8 (specWeight ((stageKeystream chacha seed 0 i).toNat % 4))
  hiddenMats k := BitVec.ofInt 8 (specWeight ((stageKeystream chacha seed
    (1 + k / (TENS_HIDDEN * TENS_HIDDEN)) (k % (TENS_HIDDEN * TENS_HIDDEN))).toNat % 4))
  compressionMat i := BitVec.ofInt 8
    (specWeight ((stageKeystream chacha seed (1 + NUM_HIDDEN_LAYERS) i).toNat % 4))
  state _ := 0
  nextState _ := 0

/-- The entries of the matrices a call of `tens_hash_precomputed` reads. -/
structure SameWindows (c c' : TensHashContext) : Prop where
  expansion : ∀ i < TENS_HIDDEN * INPUT_BITS, c.expansionMat i = c'.expansionMat i
  hidden : ∀ r < NUM_HIDDEN_LAYERS, ∀ i < TENS_HIDDEN * TENS_HIDDEN,
    c.hiddenMats (r * TENS_HIDDEN * TENS_HIDDEN + i) = c'.hiddenMats (r * TENS_HIDDEN * TENS_HIDDEN + i)
  compression : ∀ i < INPUT_BITS * TENS_HIDDEN, c.compressionMat i = c'.compressionMat i

theorem toInt_ofInt_specWeight (m : Nat) : (BitVec.ofInt 8 (specWeight m)).toInt = specWeight m := by
  have h : specWeight m = 1 ∨ specWeight m = -1 ∨ specWeight m = 0 := by
    unfold specWeight; split <;> simp
  rcases h with h | h | h <;> rw [h] <;> decide

theorem expandSeed_entry {e : I8} {m : Nat} (h : e.toInt = specWeight m) :
    e = BitVec.ofInt 8 (specWeight m) :=
  BitVec.eq_of_toInt_eq (by rw [h, toInt_ofInt_specWeight])

/-- A context `tens_hash_init(seed)` filled holds the spec's matrix set of the seed wherever a
call reads. -/
theorem InitFilled.sameWindows {chacha : ChaCha20} {seed : Buf U8} {ctx : TensHashContext}
    (hf : InitFilled chacha seed ctx) : SameWindows ctx (expandSeed chacha seed) where
  expansion i hi := expandSeed_entry (hf.expansion i hi)
  hidden r hr i hi := by
    obtain ⟨hdiv, hmod⟩ := hiddenIndex_div_mod r hi
    simp only [expandSeed, hdiv, hmod]
    exact expandSeed_entry (hf.hidden r hr i hi)
  compression i hi := expandSeed_entry (hf.compression i hi)

/-! ## Nonces -/

/-- Bit `i` of `to_big_endian(v)` is bit `i mod 8` of byte `7 - i / 8` of `v`. -/
theorem getLsbD_toBigEndian (v : BitVec 64) {i : Nat} (hi : i < 64) :
    (toBigEndian v).getLsbD i = v.getLsbD (8 * (7 - i / 8) + i % 8) := by
  simp only [toBigEndian, BitVec.getLsbD_or, BitVec.getLsbD_and, BitVec.getLsbD_shiftLeft,
    BitVec.getLsbD_ushiftRight]
  interval_cases i <;> simp only [BitVec.reduceGetLsb, Nat.reduceAdd, Nat.reduceSub, Nat.reduceLT,
    Nat.reduceMul, Nat.reduceDiv, Nat.reduceMod, decide_True, decide_False, Bool.and_true,
    Bool.and_false, Bool.true_and, Bool.false_and, Bool.or_false, Bool.false_or, Bool.not_true,
    Bool.not_false]

/-- `to_big_endian` undoes itself. -/
theorem toBigEndian_toBigEndian (v : BitVec 64) : toBigEndian (toBigEndian v) = v := by
  ext i
  rw [getLsbD_toBigEndian _ i.isLt, getLsbD_toBigEndian _ (by omega)]
  congr 1
  omega

/-- Distinct nonce counters give distinct `Nonce96` values `(0, to_big_endian(counter))`, over the
whole range of `uint64_t`: no two calls of `generate_dense_matrix` with different counters, in
particular no two of the 66 stages of `generate_all_matrices`, draw from the same keystream. -/
theorem nonce_injective {c c' : Nat} (hc : c < 2 ^ 64) (hc' : c' < 2 ^ 64) (hne : c ≠ c') :
    ((0 : BitVec 32), toBigEndian (BitVec.ofNat 64 c)) ≠
      (0, toBigEndian (BitVec.ofNat 64 c')) := by
  intro h
  have h := congrArg (fun n => (toBigEndian n.2).toNat) h
  simp only [toBigEndian_toBigEndian, BitVec.toNat_ofNat, Nat.mod_eq_of_lt hc,
    Nat.mod_eq_of_lt hc'] at h
  exact hne h

/-- The expansion's stage and the compression's. -/
theorem nonce_injective_first_last :
    (0 < 2 ^ 64 ∧ NUM_HIDDEN_LAYERS + 1 < 2 ^ 64 ∧ 0 ≠ NUM_HIDDEN_LAYERS + 1) ∧
      ((0 : BitVec 32), toBigEndian (BitVec.ofNat 64 0)) ≠
        (0, toBigEndian (BitVec.ofNat 64 (NUM_HIDDEN_LAYERS + 1))) :=
  have hn : NUM_HIDDEN_LAYERS + 1 < 2 ^ 64 := by rw [NUM_HIDDEN_LAYERS_eq]; decide
  ⟨⟨by decide, hn, by omega⟩, nonce_injective (by decide) hn (by omega)⟩

end Ternary
end TensHash

import TensHash.Node.Affine
import TensHash.Node.Cache

/-!
# TensHash.TestPow

The stand-alone tool `src/test_pow/tens_hash.c`: the same byte cascade, with libsodium's
ChaCha20 and SHA-256, each matrix one contiguous block whose row pointers point into it
(`expand_mat[i] = expand_mat[0] + i * IN_SIZE`), and a one-shot `tens_hash` that builds,
evaluates once and frees, calling `exit(1)` on any failure.

`matrix_multiply` and the body of `tens_hash_precomputed` are the node's, line for line (the
node inlines nothing that differs: `mod256` is `((uint8_t)sum) & 0xFF`, and the noise loop of
`generate_all_noise` is the tool's inline loop), so the tool's `tensHashPrecomputed` is the
node's applied to libsodium's SHA-256 and to the row view of the blocks.

* `generateMatrices_filled`: the blocks are sliced from the keystream in order, so the row
  view places `KS[32·i + j]`, `KS[32768 + 2^20·r + 1024·i + j]`, `KS[32768 + 2^26 + 1024·i + j]`
  as the node's rows do.
* `tensHash_eq_node`: under the same keystream and digest, the tool's one-shot `tens_hash`
  writes what the node's `tens_hash_precomputed` writes on `precompute_matrices(seed)`.
* `runCalls_eq_oneShot`: every call of every run of the node's cached `tens_hash` writes what
  the tool's one-shot `tens_hash` writes.
* `tensHashPrecomputed_affine_both`: the affine law over `ZMod 256` for both pipelines.
-/

namespace TensHash
namespace TestPow

open Node Matrix

/-- libsodium's `crypto_stream_chacha20`: the keystream for a key and an 8-byte nonce. -/
abbrev SodiumChaCha20 := Bytes32 → BitVec 64 → Buf U8

/-- The tool's `PrecomputedMatrices`: `expand_mat[0]`, `middle_mats[r][0]` and
`compress_mat[0]` are whole blocks, the other row pointers offsets into them. -/
structure PrecomputedMatrices where
  expandBlock : Buf U8
  middleBlocks : Nat → Buf U8
  compressBlock : Buf U8

/-- The row pointers of a block of rows of `cols` bytes: `rows[i] = rows[0] + i * cols`. -/
def rowsOf (block : Buf U8) (cols : Nat) : Nat → Buf U8 := fun i j => block (i * cols + j)

/-- The matrices as `matrix_multiply` reads them, through the row pointers. -/
def PrecomputedMatrices.rows (m : PrecomputedMatrices) : Node.PrecomputedMatrices :=
  ⟨rowsOf m.expandBlock IN_SIZE, fun r => rowsOf (m.middleBlocks r) HIDDEN,
    rowsOf m.compressBlock HIDDEN⟩

/-- The allocations of the tool's `precompute_matrices`, `generate_matrices` and
`init_hash_buffers`. -/
inductive Site where
  | matrices
  | expandMat
  | expandBlock
  | middleMats (r : Nat)
  | middleBlock (r : Nat)
  | compressMat
  | compressBlock
  | data
  | buffers
  | state
  | nextState
  | noise
  deriving DecidableEq

/-- `generate_matrices(expand_mat, middle_mats, compress_mat, seed)`: the keystream under the
zero nonce, copied block by block; `exit(1)` when `data` cannot be allocated. -/
def generateMatrices (sodium : SodiumChaCha20) (alloc : Alloc Site) (m : PrecomputedMatrices)
    (seed : Buf U8) : Except Exit PrecomputedMatrices :=
  match alloc .data with
  | none => .error ⟨1, "Memory allocation error in generate_matrices\n"⟩
  | some junk =>
    let data := memcpy junk (sodium (bytes32 seed) 0) totalSize
    let h := copyRows data (HIDDEN * HIDDEN) m.middleBlocks (HIDDEN * IN_SIZE) ROUNDS
    .ok ⟨memcpy m.expandBlock data (HIDDEN * IN_SIZE), h.1,
      memcpy m.compressBlock (fun k => data (h.2 + k)) (IN_SIZE * HIDDEN)⟩

/-- The round loop of the tool's `precompute_matrices`: pointer array, then block. -/
def allocMiddle (alloc : Alloc Site) : Nat → Option (Nat → Buf U8)
  | 0 => some fun _ _ => 0
  | r + 1 => do
    let blocks ← allocMiddle alloc r
    let _ ← alloc (.middleMats r)
    let block ← alloc (.middleBlock r)
    pure (Function.update blocks r block)

/-- The allocations of the tool's `precompute_matrices`, in order, `none` at the first
failure. -/
def allocMatrices (alloc : Alloc Site) : Option PrecomputedMatrices := do
  let _ ← alloc .matrices
  let _ ← alloc .expandMat
  let e ← alloc .expandBlock
  let h ← allocMiddle alloc ROUNDS
  let _ ← alloc .compressMat
  let c ← alloc .compressBlock
  pure ⟨e, h, c⟩

/-- `precompute_matrices(seed)`: `none` is `NULL` on an allocation failure. -/
def precomputeMatrices (sodium : SodiumChaCha20) (alloc : Alloc Site) (seed : Buf U8) :
    Except Exit (Option PrecomputedMatrices) :=
  match allocMatrices alloc with
  | none => .ok none
  | some m => some <$> generateMatrices sodium alloc m seed

/-- `init_hash_buffers()`: the node's code, over the tool's allocation sites. -/
def initHashBuffers (alloc : Alloc Site) : Option HashBuffers :=
  initHashBuffersAt alloc .buffers .state .nextState .noise

/-- `tens_hash_precomputed(input, matrices, buffers, output)`: the node's pipeline with
`crypto_hash_sha256` and the tool's row pointers. -/
def tensHashPrecomputed (sodiumSha : Sha256) (input : Buf U8) (m : PrecomputedMatrices)
    (b : HashBuffers) (output : Buf U8) : HashBuffers × Buf U8 :=
  Node.tensHashPrecomputed sodiumSha input m.rows b output

/-- `tens_hash(input, seed, output)`: build, evaluate once, free; the bytes at `output`, or the
`exit(1)` taken. -/
def tensHash (sodium : SodiumChaCha20) (sodiumSha : Sha256) (alloc : Alloc Site)
    (input seed output : Buf U8) : Except Exit (Buf U8) :=
  match precomputeMatrices sodium alloc seed with
  | .error e => .error e
  | .ok none => .error ⟨1, "Failed to precompute matrices.\n"⟩
  | .ok (some m) =>
    match initHashBuffers alloc with
    | none => .error ⟨1, "Failed to initialize hash buffers.\n"⟩
    | some b => .ok (tensHashPrecomputed sodiumSha input m b output).2

theorem generateMatrices_filled (sodium : SodiumChaCha20) (alloc : Alloc Site)
    (m : PrecomputedMatrices) (seed : Buf U8) (h : (alloc .data).isSome) :
    ∃ m', generateMatrices sodium alloc m seed = .ok m' ∧
      Filled (sodium (bytes32 seed) 0) m'.rows := by
  obtain ⟨junk, hj⟩ := Option.isSome_iff_exists.mp h
  refine ⟨_, by simp only [generateMatrices, hj]; rfl, ?_⟩
  simp only [Filled, PrecomputedMatrices.rows, rowsOf, copyRows_eq, memcpy_apply, totalSize,
    HIDDEN_eq, IN_SIZE_eq, ROUNDS_eq]
  refine ⟨fun i hi j hj => ?_, fun r hr i hi j hj => ?_, fun i hi j hj => ?_⟩
  · rw [if_pos (by omega), if_pos (by omega)]; congr 1; omega
  · rw [if_pos hr, memcpy_apply, if_pos (by omega), if_pos (by omega)]; congr 1; omega
  · rw [if_pos (by omega), if_pos (by omega)]; congr 1; omega

theorem allocMiddle_isSome {alloc : Alloc Site} (ha : alloc.AllOk) (n : Nat) :
    (allocMiddle alloc n).isSome := by
  induction n with
  | zero => rfl
  | succ n ih =>
    obtain ⟨bs, hbs⟩ := Option.isSome_iff_exists.mp ih
    obtain ⟨_, h1⟩ := ha.exists_eq_some (.middleMats n)
    obtain ⟨_, h2⟩ := ha.exists_eq_some (.middleBlock n)
    simp [allocMiddle, hbs, h1, h2]

theorem precomputeMatrices_allOk (sodium : SodiumChaCha20) (alloc : Alloc Site) (seed : Buf U8)
    (ha : alloc.AllOk) :
    ∃ m, precomputeMatrices sodium alloc seed = .ok (some m) ∧
      Filled (sodium (bytes32 seed) 0) m.rows := by
  obtain ⟨_, h1⟩ := ha.exists_eq_some .matrices
  obtain ⟨_, h2⟩ := ha.exists_eq_some .expandMat
  obtain ⟨e, h3⟩ := ha.exists_eq_some .expandBlock
  obtain ⟨mid, h4⟩ := Option.isSome_iff_exists.mp (allocMiddle_isSome ha ROUNDS)
  obtain ⟨_, h5⟩ := ha.exists_eq_some .compressMat
  obtain ⟨c, h6⟩ := ha.exists_eq_some .compressBlock
  obtain ⟨m', hg, hf⟩ := generateMatrices_filled sodium alloc ⟨e, mid, c⟩ seed (ha .data)
  refine ⟨m', ?_, hf⟩
  simp only [precomputeMatrices, allocMatrices, h1, h2, h3, h4, h5, h6, Option.bind_eq_bind,
    Option.some_bind, Option.pure_def, hg]
  rfl

/-- `Filled` only reads the first `totalSize` keystream bytes. -/
theorem filled_congr {ks ks' : Buf U8} {m : Node.PrecomputedMatrices}
    (h : ∀ k < totalSize, ks k = ks' k) (hm : Filled ks m) : Filled ks' m := by
  obtain ⟨hE, hH, hC⟩ := hm
  simp only [totalSize, HIDDEN_eq, IN_SIZE_eq, ROUNDS_eq] at h
  refine ⟨fun i hi j hj => ?_, fun r hr i hi j hj => ?_, fun i hi j hj => ?_⟩
  · rw [hE i hi j hj, h]; rw [HIDDEN_eq] at hi; rw [IN_SIZE_eq] at hj ⊢; omega
  · rw [hH r hr i hi j hj, h]; rw [HIDDEN_eq] at hi hj ⊢; rw [ROUNDS_eq] at hr; rw [IN_SIZE_eq]
    omega
  · rw [hC i hi j hj, h]; rw [HIDDEN_eq] at hj ⊢; rw [IN_SIZE_eq] at hi ⊢; rw [ROUNDS_eq]
    omega

/-- The tool and the node agree: when libsodium's keystream under the zero 8-byte nonce and
Bitcoin's under the zero `Nonce96` agree on the `totalSize` bytes drawn for the seed, and the two
SHA-256 agree on the input, both builders place every coefficient at the same keystream offset,
and the one-shot `tens_hash` writes what the node's `tens_hash_precomputed` writes over
`precompute_matrices(seed)`. -/
theorem tensHash_eq_node (chacha : ChaCha20) (sodium : SodiumChaCha20) (sha sodiumSha : Sha256)
    (seed input output : Buf U8) (a : Alloc Site) (a' : Alloc Node.Site)
    (hks : ∀ k < totalSize, sodium (bytes32 seed) 0 k = chacha (bytes32 seed) (0, 0) k)
    (hsha : sodiumSha (bytes32 input) = sha (bytes32 input)) (ha : a.AllOk) (ha' : a'.AllOk) :
    ∃ m m' b, precomputeMatrices sodium a seed = .ok (some m) ∧
      Node.precomputeMatrices chacha a' seed = .ok (some m') ∧ Node.initHashBuffers a' = some b ∧
      Filled (keystream chacha seed) m.rows ∧ Filled (keystream chacha seed) m' ∧
      tensHash sodium sodiumSha a input seed output =
        .ok (Node.tensHashPrecomputed sha input m' b output).2 := by
  obtain ⟨m, hm, hf⟩ := precomputeMatrices_allOk sodium a seed ha
  obtain ⟨m', hm', hf'⟩ := Node.precomputeMatrices_allOk chacha a' seed ha'
  obtain ⟨b, hb⟩ := initHashBuffersAt_allOk ha' .buffers .state .nextState .noise
  obtain ⟨b0, hb0⟩ := initHashBuffersAt_allOk ha .buffers .state .nextState .noise
  have hfk : Filled (keystream chacha seed) m.rows := filled_congr hks hf
  refine ⟨m, m', b, hm, hm', hb, hfk, hf', ?_⟩
  simp only [tensHash, hm, initHashBuffers, hb0, tensHashPrecomputed]
  rw [tensHashPrecomputed_output, hsha, ← tensHashPrecomputed_output sha input m.rows b0 output,
    tensHashPrecomputed_filled hfk hf']

/-- Zero keystreams and digests, every allocation succeeding. -/
theorem tensHash_eq_node_zero :
    let ks : ChaCha20 := fun _ _ _ => 0
    let sks : SodiumChaCha20 := fun _ _ _ => 0
    let sha : Sha256 := fun _ _ => 0
    let z : Buf U8 := fun _ => 0
    ((∀ k < totalSize, sks (bytes32 z) 0 k = ks (bytes32 z) (0, 0) k) ∧
      sha (bytes32 z) = sha (bytes32 z) ∧ (Alloc.fresh : Alloc Site).AllOk ∧
      (Alloc.fresh : Alloc Node.Site).AllOk) ∧
    ∃ m m' b, precomputeMatrices sks Alloc.fresh z = .ok (some m) ∧
      Node.precomputeMatrices ks Alloc.fresh z = .ok (some m') ∧
      Node.initHashBuffers Alloc.fresh = some b ∧
      Filled (keystream ks z) m.rows ∧ Filled (keystream ks z) m' ∧
      tensHash sks sha Alloc.fresh z z z = .ok (Node.tensHashPrecomputed sha z m' b z).2 := by
  intro ks sks sha z
  exact ⟨⟨fun _ _ => rfl, rfl, fun _ => rfl, fun _ => rfl⟩,
    tensHash_eq_node ks sks sha sha z z z Alloc.fresh Alloc.fresh (fun _ _ => rfl) rfl
      (fun _ => rfl) (fun _ => rfl)⟩

/-- The tool's one-shot `tens_hash` writes the cascade of the matrix set Bitcoin's keystream
slices into, when the two keystreams and the two digests agree. -/
theorem tensHash_cascade (chacha : ChaCha20) (sodium : SodiumChaCha20) (sha sodiumSha : Sha256)
    (seed input output : Buf U8) (a : Alloc Site)
    (hks : ∀ k < totalSize, sodium (bytes32 seed) 0 k = chacha (bytes32 seed) (0, 0) k)
    (hsha : sodiumSha (bytes32 input) = sha (bytes32 input)) (ha : a.AllOk) :
    tensHash sodium sodiumSha a input seed output = .ok fun i =>
      if i < IN_SIZE then cascade (matricesOf (keystream chacha seed)) input (sha (bytes32 input)) i
      else output i := by
  obtain ⟨m, hm, hf⟩ := precomputeMatrices_allOk sodium a seed ha
  obtain ⟨b, hb⟩ := initHashBuffersAt_allOk ha .buffers .state .nextState .noise
  simp only [tensHash, hm, initHashBuffers, hb, tensHashPrecomputed, tensHashPrecomputed_output,
    hsha]
  refine congrArg Except.ok (funext fun i => ?_)
  split
  · exact cascade_of_filled (filled_congr hks hf) _ _ i ‹_›
  · rfl

/-- Cached and one-shot evaluation agree. Under libsodium and Bitcoin primitives that agree, for
every sequence of calls of the node's cached `tens_hash` from the initial statics whose
allocations succeed, each call writes what the tool's one-shot `tens_hash` writes for the same
input, seed and output buffer. -/
theorem runCalls_eq_oneShot (chacha : ChaCha20) (sodium : SodiumChaCha20) (sha sodiumSha : Sha256)
    (a : Alloc Site) (calls : List Node.Call)
    (hks : ∀ seed : Buf U8, ∀ k < totalSize, sodium (bytes32 seed) 0 k = chacha (bytes32 seed) (0, 0) k)
    (hsha : ∀ x, sodiumSha x = sha x) (ha : a.AllOk) (hcalls : ∀ call ∈ calls, call.alloc.AllOk) :
    List.Forall₂ (fun (call : Node.Call) r => ∃ out, r = .ok out ∧
        tensHash sodium sodiumSha a call.input call.seed call.output = .ok out)
      calls (Node.runCalls chacha sha Node.Cache.init calls).2 := by
  have hrun := (List.forall₂_and_left _ _).mpr
    ⟨hcalls, Node.runCalls_fresh_of chacha sha calls _ (Node.cacheOk_init chacha) hcalls⟩
  refine hrun.imp fun call r ⟨hok, m, b, hm, _, hr⟩ => ⟨_, hr, ?_⟩
  obtain ⟨m0, hm0, hf⟩ := Node.precomputeMatrices_allOk chacha call.alloc call.seed hok
  obtain rfl : m = m0 := Option.some.inj (Except.ok.inj (hm.symm.trans hm0))
  rw [tensHash_cascade chacha sodium sha sodiumSha _ _ _ a (hks call.seed) (hsha _) ha,
    Node.tensHashPrecomputed_output]
  refine congrArg Except.ok (funext fun i => ?_)
  split
  · exact (cascade_of_filled hf _ _ i ‹_›).symm
  · rfl

/-- One call, zero primitives. -/
theorem runCalls_eq_oneShot_zero :
    (∀ seed : Buf U8, ∀ k < totalSize,
      (fun _ _ _ => 0 : SodiumChaCha20) (bytes32 seed) 0 k = (fun _ _ _ => 0 : ChaCha20) (bytes32 seed) (0, 0) k) ∧
    (∀ x, (fun _ _ => 0 : Sha256) x = (fun _ _ => 0 : Sha256) x) ∧ (Alloc.fresh : Alloc Site).AllOk ∧
    (∀ call ∈ [(⟨fun _ => 0, fun _ => 0, fun _ => 0, Alloc.fresh⟩ : Node.Call)], call.alloc.AllOk) ∧
    List.Forall₂ (fun (call : Node.Call) r => ∃ out, r = .ok out ∧
        tensHash (fun _ _ _ => 0) (fun _ _ => 0) Alloc.fresh call.input call.seed call.output = .ok out)
      [⟨fun _ => 0, fun _ => 0, fun _ => 0, Alloc.fresh⟩]
      (Node.runCalls (fun _ _ _ => 0) (fun _ _ => 0) Node.Cache.init
        [⟨fun _ => 0, fun _ => 0, fun _ => 0, Alloc.fresh⟩]).2 :=
  have hc : ∀ call ∈ [(⟨fun _ => 0, fun _ => 0, fun _ => 0, Alloc.fresh⟩ : Node.Call)],
      call.alloc.AllOk := by simp [Alloc.AllOk, Alloc.fresh]
  ⟨fun _ _ _ => rfl, fun _ => rfl, fun _ => rfl, hc,
    runCalls_eq_oneShot _ _ _ _ _ _ (fun _ _ _ => rfl) (fun _ => rfl) (fun _ => rfl) hc⟩

/-- The affine law for both byte pipelines, the node's and the tool's: for every matrix set,
buffers and input, over `ZMod 256`, `output = C·P_0·E·x + (C·(Σ_{r=0}^{64} P_r)·T + I)·SHA256(x)`. -/
theorem tensHashPrecomputed_affine_both (sha : Sha256) (b : HashBuffers) (x out : Buf U8) :
    (∀ m : Node.PrecomputedMatrices, zvec (Node.tensHashPrecomputed sha x m b out).2 IN_SIZE =
      affineM m *ᵥ zvec x IN_SIZE + affineN m *ᵥ zdig (sha (bytes32 x))) ∧
    ∀ m : PrecomputedMatrices, zvec (tensHashPrecomputed sha x m b out).2 IN_SIZE =
      affineM m.rows *ᵥ zvec x IN_SIZE + affineN m.rows *ᵥ zdig (sha (bytes32 x)) :=
  ⟨fun m => tensHashPrecomputed_affine sha m b x out,
    fun m => tensHashPrecomputed_affine sha m.rows b x out⟩

end TestPow
end TensHash

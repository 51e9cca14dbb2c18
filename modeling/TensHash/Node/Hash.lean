import TensHash.Node.Matrices

/-!
# TensHash.Node.Hash

The forward pass of the node file (`src/unnamed/part_000`, lines 82–94 and 231–252):
`generate_all_noise` tiles the SHA-256 digest of the input over the noise vector, and
`tens_hash_precomputed` runs the expansion, the `ROUNDS` middle rounds with the ping-pong swap
of `state` and `next_state`, and the compression into `output`.

Over the buffers stands the cascade as a function of vectors (`cascade`): each layer is
`layer A x e cols`, row `i` being `rowOut (A i) x (e i) cols`, and every noise slice is the
same tiling of the digest (`tile`), since 1024 and 66560 are multiples of 32.

* `middleRounds_state`: the round loop, by induction on the rounds run: the first `HIDDEN`
  bytes of `state` are the cascade's hidden vector.
* `tensHashPrecomputed_output`: `output` receives `cascade` in its first 32 bytes and nothing
  else; neither the buffers' previous contents nor anything but the read part of the
  matrices matters.
* `cascade_of_filled`: matrices filled from a keystream give the cascade of `matricesOf`.
-/

namespace TensHash
namespace Node

/-- `total_noise_size`: one noise byte per output of every layer. -/
def totalNoiseSize : Nat := HIDDEN + ROUNDS * HIDDEN + IN_SIZE

/-- `generate_all_noise(noise_buffer, input, total_size)`: the SHA-256 digest of the 32 input
bytes, repeated, `noise_buffer[i] = digest[i % 32]` for `i < total_size`. -/
def generateAllNoise (sha : Sha256) (noise : Buf I8) (input : Buf U8) (totalSize : Nat) :
    Buf I8 :=
  fun i => if i < totalSize then sha (bytes32 input) ⟨i % 32, Nat.mod_lt _ (by decide)⟩ else noise i

/-- The `round` loop of `tens_hash_precomputed`, `n` rounds: `matrix_multiply` from `state`
into `next_state` with `middle_mats[round]` and the noise at `middle_noise + round * HIDDEN`,
then the swap of the two pointers. -/
def middleRounds (H : Nat → Nat → Buf U8) (middleNoise : Buf I8) :
    Nat → HashBuffers → HashBuffers
  | 0, b => b
  | r + 1, b =>
    let b := middleRounds H middleNoise r b
    { b with
      state := matrixMultiply (H r) b.state b.nextState (fun i => middleNoise (r * HIDDEN + i))
        HIDDEN HIDDEN
      nextState := b.state }

/-- `tens_hash_precomputed(input, matrices, buffers, output)`: the buffers as the call leaves
them, and the bytes at `output`. -/
def tensHashPrecomputed (sha : Sha256) (input : Buf U8) (m : PrecomputedMatrices)
    (b : HashBuffers) (output : Buf U8) : HashBuffers × Buf U8 :=
  let noise := generateAllNoise sha b.noise input totalNoiseSize
  let middleNoise : Buf I8 := fun i => noise (HIDDEN + i)
  let compressNoise : Buf I8 := fun i => noise (HIDDEN + ROUNDS * HIDDEN + i)
  let b := { b with
    noise := noise
    state := matrixMultiply m.expandMat input b.state noise HIDDEN IN_SIZE }
  let b := middleRounds m.middleMats middleNoise ROUNDS b
  (b, matrixMultiply m.compressMat b.state output compressNoise IN_SIZE HIDDEN)

/-! ## The cascade on vectors -/

/-- A layer as a map of vectors: output `i` is row `i` of `A` against `x`, plus noise `e i`,
reduced to a byte. -/
def layer (A : Nat → Buf U8) (x : Buf U8) (e : Buf I8) (cols : Nat) : Buf U8 :=
  fun i => rowOut (A i) x (e i) cols

/-- The digest tiled: `tile d i = d[i % 32]`. -/
def tile (d : Bytes32) : Buf I8 := fun i => d ⟨i % 32, Nat.mod_lt _ (by decide)⟩

/-- The hidden vector after `r` middle rounds from `h0`. -/
def hidden (H : Nat → Nat → Buf U8) (d : Bytes32) (h0 : Buf U8) : Nat → Buf U8
  | 0 => h0
  | r + 1 => layer (H r) (hidden H d h0 r) (tile d) HIDDEN

/-- The cascade: expansion, `ROUNDS` middle rounds, compression, every layer with the tiled
digest as noise. -/
def cascade (m : PrecomputedMatrices) (x : Buf U8) (d : Bytes32) : Buf U8 :=
  layer m.compressMat
    (hidden m.middleMats d (layer m.expandMat x (tile d) IN_SIZE) ROUNDS) (tile d) HIDDEN

theorem layer_congr {A A' : Nat → Buf U8} {x x' : Buf U8} {e : Buf I8} {rows cols : Nat}
    (hA : ∀ i < rows, ∀ j < cols, A i j = A' i j) (hx : ∀ j < cols, x j = x' j) :
    ∀ i < rows, layer A x e cols i = layer A' x' e cols i :=
  fun i hi => rowOut_congr (hA i hi) hx

theorem hidden_congr {H H' : Nat → Nat → Buf U8} {d : Bytes32} {h0 h0' : Buf U8}
    (hH : ∀ r < ROUNDS, ∀ i < HIDDEN, ∀ j < HIDDEN, H r i j = H' r i j)
    (h0e : ∀ i < HIDDEN, h0 i = h0' i) :
    ∀ r ≤ ROUNDS, ∀ i < HIDDEN, hidden H d h0 r i = hidden H' d h0' r i := by
  intro r hr
  induction r with
  | zero => exact h0e
  | succ r ih => exact layer_congr (hH r (by omega)) (ih (by omega))

/-- The round loop keeps the cascade's hidden vector in the first `HIDDEN` bytes of `state`,
whatever `next_state` holds. -/
theorem middleRounds_state (H : Nat → Nat → Buf U8) (mn : Buf I8) (d : Bytes32)
    (h0 : Buf U8) (b : HashBuffers)
    (hn : ∀ r < ROUNDS, ∀ i < HIDDEN, mn (r * HIDDEN + i) = tile d i)
    (hb : ∀ i < HIDDEN, b.state i = h0 i) :
    ∀ r ≤ ROUNDS, ∀ i < HIDDEN, (middleRounds H mn r b).state i = hidden H d h0 r i := by
  intro r hr
  induction r with
  | zero => exact hb
  | succ r ih =>
    intro i hi
    simp only [middleRounds, matrixMultiply_apply, if_pos hi, hidden, layer,
      hn r (by omega) i hi]
    exact rowOut_congr (fun _ _ => rfl) (ih (by omega))

theorem generateAllNoise_tile (sha : Sha256) (noise : Buf I8) (input : Buf U8) {i : Nat}
    (hi : i < totalNoiseSize) :
    generateAllNoise sha noise input totalNoiseSize i = tile (sha (bytes32 input)) i := by
  simp only [generateAllNoise, if_pos hi, tile]

theorem tile_eq {d : Bytes32} {a b : Nat} (h : a % 32 = b % 32) : tile d a = tile d b := by
  simp only [tile, h]

/-- Where the middle rounds and the compression read the noise vector: inside it, at the digest
byte their own index selects. -/
theorem noise_index {r k i : Nat} (hr : r < ROUNDS) (hk : k < HIDDEN) (hi : i < IN_SIZE) :
    k < totalNoiseSize ∧
      (HIDDEN + (r * HIDDEN + k) < totalNoiseSize ∧ (HIDDEN + (r * HIDDEN + k)) % 32 = k % 32) ∧
      (HIDDEN + ROUNDS * HIDDEN + i < totalNoiseSize ∧
        (HIDDEN + ROUNDS * HIDDEN + i) % 32 = i % 32) := by
  rw [totalNoiseSize, HIDDEN_eq, ROUNDS_eq, IN_SIZE_eq] at *
  omega

/-- `tens_hash_precomputed` writes the cascade into the first 32 bytes of `output` and leaves
the rest: the result depends on the input, the digest and the matrices only. -/
theorem tensHashPrecomputed_output (sha : Sha256) (x : Buf U8) (m : PrecomputedMatrices)
    (b : HashBuffers) (out : Buf U8) :
    (tensHashPrecomputed sha x m b out).2 =
      fun i => if i < IN_SIZE then cascade m x (sha (bytes32 x)) i else out i := by
  funext i
  simp only [tensHashPrecomputed, matrixMultiply_apply]
  split
  · rename_i hi
    have hR : 0 < ROUNDS := by rw [ROUNDS_eq]; decide
    have hH : 0 < HIDDEN := by rw [HIDDEN_eq]; decide
    set d := sha (bytes32 x)
    set noise := generateAllNoise sha b.noise x totalNoiseSize
    have hN : ∀ k < totalNoiseSize, noise k = tile d k := fun k hk => generateAllNoise_tile _ _ _ hk
    have hs := middleRounds_state m.middleMats (fun k => noise (HIDDEN + k)) d
      (layer m.expandMat x (tile d) IN_SIZE)
      { b with noise := noise, state := matrixMultiply m.expandMat x b.state noise HIDDEN IN_SIZE }
      (fun r hr k hk => by
        obtain ⟨-, ⟨hlt, hmod⟩, -⟩ := noise_index hr hk hi
        exact (hN _ hlt).trans (tile_eq hmod))
      (fun k hk => by
        simp only [matrixMultiply_apply, if_pos hk, layer, hN k (noise_index hR hk hi).1])
      ROUNDS le_rfl
    obtain ⟨-, -, hlt, hmod⟩ := noise_index hR hH hi
    rw [hN _ hlt, cascade, layer, tile_eq hmod]
    exact rowOut_congr (fun _ _ => rfl) hs
  · rfl

/-- Matrices filled from a keystream run the cascade of `matricesOf` that keystream. -/
theorem cascade_of_filled {ks : Buf U8} {m : PrecomputedMatrices} (hm : Filled ks m)
    (x : Buf U8) (d : Bytes32) :
    ∀ i < IN_SIZE, cascade m x d i = cascade (matricesOf ks) x d i := by
  obtain ⟨hE, hH, hC⟩ := hm
  exact layer_congr hC
    (hidden_congr hH (layer_congr hE fun _ _ => rfl) ROUNDS le_rfl)

/-- Two filled matrix sets of one keystream give the same output, whatever the buffers. -/
theorem tensHashPrecomputed_filled {ks : Buf U8} {m m' : PrecomputedMatrices}
    (hm : Filled ks m) (hm' : Filled ks m') (sha : Sha256) (x : Buf U8) (b b' : HashBuffers)
    (out : Buf U8) :
    (tensHashPrecomputed sha x m b out).2 = (tensHashPrecomputed sha x m' b' out).2 := by
  rw [tensHashPrecomputed_output, tensHashPrecomputed_output]
  funext i
  split
  · rename_i hi
    rw [cascade_of_filled hm _ _ i hi, cascade_of_filled hm' _ _ i hi]
  · rfl

end Node
end TensHash

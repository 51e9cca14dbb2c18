import TensHash.Node.Hash
import Mathlib.Data.Matrix.Mul
import Mathlib.Data.ZMod.Basic

/-!
# TensHash.Node.Affine

The byte cascade over `ZMod 256`. Storing `(uint8_t)sum` keeps the sum modulo 256, and
reduction modulo 256 commutes with sums and products, so each layer is the affine map
`x ↦ A x + e` of `ZMod 256`-vectors; every noise slice is `T d` for the digest `d` and the
tiling matrix `T`. Composing the 66 layers:

  `output = C·P_0·E·x + (C·(Σ_{r ≤ 64} P_r)·T + 1)·SHA256(x)`, with `P_r = H_63 ⋯ H_r`,

so for each matrix set the whole cascade is one affine map of `(x, SHA256(x))`, given by two
32 × 32 matrices (`affineM`, `affineN`).

* `zvec_layer`: one layer is `A x + e`.
* `zvec_hidden`: after `r` rounds, `H_{r-1} ⋯ H_0 h_0 + (Σ_{k<r} H_{r-1} ⋯ H_{k+1}) T d`, by
  induction on `r`.
* `tensHashPrecomputed_affine`: the affine law for `tens_hash_precomputed`.
-/

namespace TensHash
namespace Node

open Matrix

/-- A byte matrix read over `ZMod 256`. -/
def zmat (A : Nat → Buf U8) (m n : Nat) : Matrix (Fin m) (Fin n) (ZMod 256) :=
  Matrix.of fun i j => ((A i j).toNat : ZMod 256)

/-- A byte vector read over `ZMod 256`. -/
def zvec (x : Buf U8) (n : Nat) : Fin n → ZMod 256 := fun i => ((x i).toNat : ZMod 256)

/-- The digest read over `ZMod 256`. -/
def zdig (d : Bytes32) : Fin IN_SIZE → ZMod 256 :=
  fun i => ((d ⟨i, lt_of_lt_of_eq i.isLt IN_SIZE_eq⟩).toNat : ZMod 256)

/-- `T`: the `HIDDEN × IN_SIZE` tiling matrix, `T[i][k] = 1` iff `i mod 32 = k`. -/
def tileMat : Matrix (Fin HIDDEN) (Fin IN_SIZE) (ZMod 256) :=
  Matrix.of fun i k => if i.val % 32 = k.val then 1 else 0

/-- `H (lo + k - 1) ⋯ H lo`, the product of `k` middle matrices from `lo` up. -/
def prodDown {n : Nat} (H : Nat → Matrix (Fin n) (Fin n) (ZMod 256)) (lo : Nat) :
    Nat → Matrix (Fin n) (Fin n) (ZMod 256)
  | 0 => 1
  | k + 1 => H (lo + k) * prodDown H lo k

/-- `P_r = H_63 ⋯ H_r`, with `P_64 = 1`. -/
def suffixProd (H : Nat → Matrix (Fin HIDDEN) (Fin HIDDEN) (ZMod 256)) (r : Nat) :
    Matrix (Fin HIDDEN) (Fin HIDDEN) (ZMod 256) :=
  prodDown H r (ROUNDS - r)

/-- The middle matrices over `ZMod 256`. -/
def zmid (m : PrecomputedMatrices) : Nat → Matrix (Fin HIDDEN) (Fin HIDDEN) (ZMod 256) :=
  fun r => zmat (m.middleMats r) HIDDEN HIDDEN

/-- `M_s = C·P_0·E`. -/
def affineM (m : PrecomputedMatrices) : Matrix (Fin IN_SIZE) (Fin IN_SIZE) (ZMod 256) :=
  zmat m.compressMat IN_SIZE HIDDEN * suffixProd (zmid m) 0 * zmat m.expandMat HIDDEN IN_SIZE

/-- `N_s = C·(Σ_{r=0}^{64} P_r)·T + I`. -/
def affineN (m : PrecomputedMatrices) : Matrix (Fin IN_SIZE) (Fin IN_SIZE) (ZMod 256) :=
  zmat m.compressMat IN_SIZE HIDDEN *
    (∑ r ∈ Finset.range (ROUNDS + 1), suffixProd (zmid m) r) * tileMat + 1

theorem natCast_toNat_mod (z : Int) : (((z % 256).toNat : Nat) : ZMod 256) = (z : ZMod 256) := by
  rw [← Int.cast_natCast, Int.toNat_of_nonneg (Int.emod_nonneg _ (by decide))]
  exact_mod_cast ZMod.intCast_mod z 256

theorem intCast_toInt (e : I8) : ((e.toInt : Int) : ZMod 256) = (e.toNat : ZMod 256) := by
  rw [BitVec.toInt_eq_toNat_cond]
  split
  · simp
  · push_cast
    rw [show (256 : ZMod 256) = 0 from rfl, sub_zero]

/-- One layer over `ZMod 256`: row `i` is `Σ_j A[i][j] x[j] + e[i]`. -/
theorem zvec_layer (A : Nat → Buf U8) (x : Buf U8) (e : Buf I8) (rows cols : Nat) :
    zvec (layer A x e cols) rows = zmat A rows cols *ᵥ zvec x cols + fun i : Fin rows => ((e i).toNat : ZMod 256) := by
  funext i
  have h := toNat_mod256 (rowSum (A i) x cols + (e i).toInt)
  rw [← Int.toNat_of_nonneg (Int.emod_nonneg _ (by decide : (256 : Int) ≠ 0))] at h
  have h' : (layer A x e cols i).toNat = ((rowSum (A i) x cols + (e i).toInt) % 256).toNat := by
    exact_mod_cast h
  simp only [zvec, h', natCast_toNat_mod, Pi.add_apply, mulVec, dotProduct, zmat, of_apply,
    rowSum_eq_sum, Int.cast_add, Int.cast_sum, Int.cast_mul, Int.cast_natCast, intCast_toInt]
  rw [Fin.sum_univ_eq_sum_range (fun j => ((A i j).toNat : ZMod 256) * ((x j).toNat : ZMod 256))]

theorem zvec_tile (d : Bytes32) :
    (fun i : Fin HIDDEN => ((tile d i).toNat : ZMod 256)) = tileMat *ᵥ zdig d := by
  funext i
  have hk : i.val % 32 < IN_SIZE := by rw [IN_SIZE_eq]; exact Nat.mod_lt _ (by decide)
  have e : ∀ k : Fin IN_SIZE, (i.val % 32 = k.val) ↔ (⟨i.val % 32, hk⟩ : Fin IN_SIZE) = k :=
    fun k => by rw [Fin.ext_iff]
  simp only [mulVec, dotProduct, tileMat, of_apply, ite_mul, one_mul, zero_mul, e,
    Finset.sum_ite_eq, Finset.mem_univ, if_true, zdig, tile]

/-- The compression's noise slice is the digest itself. -/
theorem zvec_tile_short (d : Bytes32) :
    (fun i : Fin IN_SIZE => ((tile d i).toNat : ZMod 256)) = zdig d := by
  funext i
  have hi : i.val % 32 = i.val := Nat.mod_eq_of_lt (lt_of_lt_of_eq i.isLt IN_SIZE_eq)
  simp only [tile, zdig, hi]

theorem prodDown_succ {n : Nat} (H : Nat → Matrix (Fin n) (Fin n) (ZMod 256)) (lo k : Nat) :
    prodDown H lo (k + 1) = H (lo + k) * prodDown H lo k := rfl

/-- The noise weights of round `r + 1` from those of round `r`. -/
theorem sum_prodDown_succ {n : Nat} (H : Nat → Matrix (Fin n) (Fin n) (ZMod 256)) (r : Nat) :
    ∑ k ∈ Finset.range (r + 1), prodDown H (k + 1) (r + 1 - (k + 1)) =
      H r * ∑ k ∈ Finset.range r, prodDown H (k + 1) (r - (k + 1)) + 1 := by
  rw [Finset.sum_range_succ, Finset.mul_sum, Nat.sub_self]
  congr 1
  refine Finset.sum_congr rfl fun k hk => ?_
  have hk := Finset.mem_range.mp hk
  rw [show r + 1 - (k + 1) = (r - (k + 1)) + 1 by omega, prodDown_succ,
    show k + 1 + (r - (k + 1)) = r by omega]

/-- After `r` middle rounds over `ZMod 256`: `H_{r-1} ⋯ H_0 h_0 + (Σ_{k<r} H_{r-1} ⋯ H_{k+1}) T d`. -/
theorem zvec_hidden (H : Nat → Nat → Buf U8) (d : Bytes32) (h0 : Buf U8) (r : Nat) :
    zvec (hidden H d h0 r) HIDDEN =
      prodDown (fun k => zmat (H k) HIDDEN HIDDEN) 0 r *ᵥ zvec h0 HIDDEN +
      (∑ k ∈ Finset.range r, prodDown (fun k => zmat (H k) HIDDEN HIDDEN) (k + 1) (r - (k + 1))) *ᵥ
        (tileMat *ᵥ zdig d) := by
  induction r with
  | zero => simp [hidden, prodDown]
  | succ r ih =>
    rw [hidden, zvec_layer, ih, zvec_tile, sum_prodDown_succ, prodDown_succ, Nat.zero_add,
      mulVec_add, mulVec_mulVec, mulVec_mulVec, add_mulVec, one_mulVec, add_assoc]

/-- The affine law: for every matrix set, buffers and input, `tens_hash_precomputed` writes
`M x + N SHA256(x)` over `ZMod 256`, with `M = C·P_0·E` and `N = C·(Σ_{r=0}^{64} P_r)·T + I`. -/
theorem tensHashPrecomputed_affine (sha : Sha256) (m : PrecomputedMatrices) (b : HashBuffers)
    (x out : Buf U8) :
    zvec (tensHashPrecomputed sha x m b out).2 IN_SIZE =
      affineM m *ᵥ zvec x IN_SIZE + affineN m *ᵥ zdig (sha (bytes32 x)) := by
  have hout : zvec (tensHashPrecomputed sha x m b out).2 IN_SIZE =
      zvec (cascade m x (sha (bytes32 x))) IN_SIZE := by
    rw [tensHashPrecomputed_output]
    funext i
    simp only [zvec, if_pos i.isLt]
  have hsum : ∑ r ∈ Finset.range (ROUNDS + 1), suffixProd (zmid m) r =
      suffixProd (zmid m) 0 +
        ∑ k ∈ Finset.range ROUNDS, prodDown (zmid m) (k + 1) (ROUNDS - (k + 1)) := by
    rw [Finset.sum_range_succ', add_comm]
    rfl
  have hz : zmid m = fun k => zmat (m.middleMats k) HIDDEN HIDDEN := rfl
  rw [hout, cascade, zvec_layer, zvec_hidden, zvec_layer, zvec_tile, zvec_tile_short, affineM,
    affineN, hsum, hz]
  simp only [suffixProd, Nat.sub_zero, mulVec_add, ← mulVec_mulVec, add_mulVec, one_mulVec,
    Matrix.mul_add, Matrix.add_mul]
  abel

end Node
end TensHash

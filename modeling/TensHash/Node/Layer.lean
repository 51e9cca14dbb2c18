import TensHash.Basic

/-!
# TensHash.Node.Layer

One layer of the byte cascade: `mod256` and `matrix_multiply` of `src/unnamed/part_000`
(lines 14–27). For each row `i < rows` the loop accumulates `Σ_j A[i][j]·in[j]` in an `int32_t`,
adds the signed noise byte `e[i]` and stores the sum reduced to eight bits.

* `matrixMultiply_apply`: the loop writes `rowOut` into `out[i]` for `i < rows` and nothing else.
* `matrixMultiply_int32_safe`: for every byte matrix, input and noise, and every width up to
  `HIDDEN`, the accumulator never leaves `[-128, cols·255·255 + 127]`, inside the `int32_t`
  range, and the stored byte is the least non-negative residue of the exact sum modulo 256.
* `rowOut_congr`: a row only reads its first `cols` coefficients and inputs.
-/

namespace TensHash
namespace Node

/-- `mod256(x)`: `((uint8_t)x) & 0xFF`; the conversion to `uint8_t` keeps `x` modulo 256. -/
def mod256 (x : Int) : U8 := BitVec.ofInt 8 x &&& 0xFF

theorem toNat_mod256 (x : Int) : ((mod256 x).toNat : Int) = x % 256 := by
  have h : (0xFF : U8) = BitVec.allOnes 8 := by decide
  rw [mod256, h, BitVec.and_allOnes, BitVec.toNat_ofInt]
  exact Int.toNat_of_nonneg (Int.emod_nonneg _ (by decide))

/-- The inner loop for row `row`: `sum += (int32_t)A[i][j] * in[j]` for `j < cols`. -/
def rowSum (row inp : Buf U8) (cols : Nat) : Int :=
  accumulate (fun j => (row j).toNat * (inp j).toNat) cols

/-- What the outer loop stores for one row: `out[i] = mod256(sum + e[i])`. -/
def rowOut (row inp : Buf U8) (e : I8) (cols : Nat) : U8 :=
  mod256 (rowSum row inp cols + e.toInt)

/-- `matrix_multiply(A, in, out, e, rows, cols)`: rows `0, …, rows - 1` in order, row `i`
storing `rowOut` into `out[i]`. -/
def matrixMultiply (A : Nat → Buf U8) (inp out : Buf U8) (e : Buf I8) : Nat → Nat → Buf U8
  | 0, _ => out
  | i + 1, cols =>
    Function.update (matrixMultiply A inp out e i cols) i (rowOut (A i) inp (e i) cols)

theorem matrixMultiply_apply (A : Nat → Buf U8) (inp out : Buf U8) (e : Buf I8)
    (rows cols k : Nat) :
    matrixMultiply A inp out e rows cols k =
      if k < rows then rowOut (A k) inp (e k) cols else out k := by
  induction rows with
  | zero => simp [matrixMultiply]
  | succ i ih => apply update_prefix_apply ih

theorem rowSum_congr {row row' inp inp' : Buf U8} {cols : Nat}
    (hr : ∀ j < cols, row j = row' j) (hi : ∀ j < cols, inp j = inp' j) :
    rowSum row inp cols = rowSum row' inp' cols :=
  accumulate_congr fun j hj => by rw [hr j hj, hi j hj]

theorem rowOut_congr {row row' inp inp' : Buf U8} {e : I8} {cols : Nat}
    (hr : ∀ j < cols, row j = row' j) (hi : ∀ j < cols, inp j = inp' j) :
    rowOut row inp e cols = rowOut row' inp' e cols := by
  rw [rowOut, rowOut, rowSum_congr hr hi]

theorem rowSum_eq_sum (row inp : Buf U8) (cols : Nat) :
    rowSum row inp cols = ∑ j ∈ Finset.range cols, ((row j).toNat * (inp j).toNat : Int) :=
  accumulate_eq_sum _ _

/-- Every partial sum of a row lies in `[0, j·255·255]`. -/
theorem rowSum_bounds (row inp : Buf U8) (j : Nat) :
    0 ≤ rowSum row inp j ∧ rowSum row inp j ≤ j * (255 * 255) := by
  have hterm : ∀ k < j, (0 : Int) ≤ (row k).toNat * (inp k).toNat ∧
      ((row k).toNat * (inp k).toNat : Int) ≤ 255 * 255 := fun k _ => by
    have h1 := (row k).isLt
    have h2 := (inp k).isLt
    constructor
    · positivity
    · exact_mod_cast Nat.mul_le_mul (by omega) (by omega)
  simpa using accumulate_bounds hterm j le_rfl

/-- What one call of `matrix_multiply` guarantees: every value the `int32_t` accumulator of a
row takes lies in `[-128, cols·255·255 + 127]`, a subrange of the `int32_t` range, and `out[i]`
is the least non-negative residue of the exact sum modulo 256. -/
structure MatrixMultiplySafe (A : Nat → Buf U8) (inp out : Buf U8) (e : Buf I8)
    (rows cols : Nat) : Prop where
  partial_sums : ∀ i < rows, ∀ j ≤ cols,
    -128 ≤ rowSum (A i) inp j ∧ rowSum (A i) inp j ≤ cols * 255 * 255 + 127
  final_sum : ∀ i < rows, -128 ≤ rowSum (A i) inp cols + (e i).toInt ∧
    rowSum (A i) inp cols + (e i).toInt ≤ cols * 255 * 255 + 127
  in_int32 : -2 ^ 31 ≤ (-128 : Int) ∧ (cols * 255 * 255 + 127 : Int) < 2 ^ 31
  residue : ∀ i < rows, ((matrixMultiply A inp out e rows cols i).toNat : Int) =
    (∑ j ∈ Finset.range cols, ((A i j).toNat * (inp j).toNat : Int) + (e i).toInt) % 256

/-- `matrix_multiply` has no signed overflow and stores the least non-negative residue, for
every byte matrix, input and noise and every width `cols ≤ HIDDEN`. -/
theorem matrixMultiply_int32_safe (A : Nat → Buf U8) (inp out : Buf U8) (e : Buf I8)
    (rows cols : Nat) (hcols : cols ≤ HIDDEN) : MatrixMultiplySafe A inp out e rows cols := by
  have hH : (cols : Int) ≤ 1024 := by exact_mod_cast HIDDEN_eq ▸ hcols
  refine ⟨fun i _ j hj => ?_, fun i _ => ?_, ⟨by norm_num, by omega⟩, fun i hi => ?_⟩
  · have := rowSum_bounds (A i) inp j
    omega
  · have := rowSum_bounds (A i) inp cols
    have := toInt_bounds (e i)
    constructor <;> linarith
  · rw [matrixMultiply_apply, if_pos hi, rowOut, toNat_mod256, rowSum_eq_sum]

/-- The compression's widest case, every coefficient and input byte 255. -/
theorem matrixMultiply_int32_safe_compress :
    HIDDEN ≤ HIDDEN ∧
      MatrixMultiplySafe (fun _ _ => 255) (fun _ => 255) (fun _ => 0) (fun _ => 127) IN_SIZE HIDDEN :=
  ⟨le_rfl, matrixMultiply_int32_safe _ _ _ _ _ _ le_rfl⟩

end Node
end TensHash

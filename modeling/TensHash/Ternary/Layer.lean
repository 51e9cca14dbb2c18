import TensHash.Ternary.Codec

/-!
# TensHash.Ternary.Layer

`layer_forward` of the ternary cascade (`src/src/crypto/tens_pow/tens_hash.cpp`, lines 93–122).
The input bits are mapped to `x_mapped[i] = (int8_t)(2·input[i] − 1)`; output neuron `j`
accumulates `Σ_i row[i]·x_mapped[i]` over the row at `matrix + j·in_dim` in an `int32_t`, adds
`x_mapped[j]` when `in_dim == out_dim`, and stores `sum > 0 ? 1 : 0`.

* `forwardLoop_apply`: the loop writes every neuron below `out_dim` and nothing else.
* `layerForward_bits`: on a 0/1 input the layer is the spec's threshold layer `specLayer`,
  `thr(W·m(h) [+ m(h)])` over the unbounded integers, for every `int8_t` matrix.
* `neuronSum_int32_safe`: for every `int8_t` matrix and mapped input and every width up to
  `TENS_HIDDEN`, the accumulator stays far inside the `int32_t` range, so the exact sums of the
  model are the sums the code computes.
-/

namespace TensHash
namespace Ternary

/-- `x_mapped[i] = (int8_t)(2 * input[i] - 1)`. -/
def mapInput (b : I8) : I8 := BitVec.ofInt 8 (2 * b.toInt - 1)

/-- The accumulator of output neuron `j`: `sum += row[i] * x_mapped[i]` for `i < in_dim` with
`row = matrix + j * in_dim`, then `sum += x_mapped[j]` if `in_dim == out_dim`. -/
def neuronSum (matrix : Buf I8) (inDim outDim : Nat) (xMapped : Buf I8) (j : Nat) : Int :=
  accumulate (fun i => (matrix (j * inDim + i)).toInt * (xMapped i).toInt) inDim +
    if inDim = outDim then (xMapped j).toInt else 0

/-- The loop over the output neurons `j < n`: `output[j] = sum > 0 ? 1 : 0`. -/
def forwardLoop (matrix : Buf I8) (inDim outDim : Nat) (xMapped output : Buf I8) : Nat → Buf I8
  | 0 => output
  | j + 1 => Function.update (forwardLoop matrix inDim outDim xMapped output j) j
    (if 0 < neuronSum matrix inDim outDim xMapped j then 1 else 0)

/-- `layer_forward(matrix, in_dim, out_dim, input, output)`: the new contents of `output`, or the
exit when `malloc` of `x_mapped` (here `block`) returns null. -/
def layerForward (block : Option (Buf U8)) (matrix : Buf I8) (inDim outDim : Nat)
    (input output : Buf I8) : Except Exit (Buf I8) :=
  match block with
  | none => .error ⟨1, "Memory allocation error in layer_forward\n"⟩
  | some junk =>
    .ok (forwardLoop matrix inDim outDim (memcpy junk (fun i => mapInput (input i)) inDim) output
      outDim)

theorem layerForward_none (matrix : Buf I8) (inDim outDim : Nat) (input output : Buf I8) :
    layerForward none matrix inDim outDim input output =
      .error ⟨1, "Memory allocation error in layer_forward\n"⟩ := rfl

/-! ## The spec's layer -/

/-- The spec's `m(b) = 2b − 1`: a bit as `±1`. -/
def pm (b : Bool) : Int := if b then 1 else -1

/-- A bit stored as the `int8_t` `0` or `1`. -/
def bitI8 (b : Bool) : I8 := if b then 1 else 0

/-- The spec's layer: output `j` is `thr(Σ_{i<d} W[j·d + i]·m(h_i) [+ m(h_j)])`, over the
unbounded integers, with `thr(z) = 1` iff `z > 0`. -/
def specLayer (W : Buf I8) (d : Nat) (residual : Bool) (h : Nat → Bool) (j : Nat) : Bool :=
  decide (0 < ∑ i ∈ Finset.range d, (W (j * d + i)).toInt * pm (h i) +
    if residual then pm (h j) else 0)

@[simp] theorem toInt_mapInput_bitI8 (b : Bool) : (mapInput (bitI8 b)).toInt = pm b := by
  cases b <;> decide

theorem bitI8_eq_ite (b : Bool) : bitI8 b = if b then 1 else 0 := rfl

@[simp] theorem toNat_bitI8 (b : Bool) : (bitI8 b).toNat = b.toNat := by cases b <;> rfl

theorem bitI8_zero_or_one (b : Bool) : bitI8 b = 0 ∨ bitI8 b = 1 := by cases b <;> simp [bitI8]

theorem forwardLoop_apply (matrix : Buf I8) (inDim outDim : Nat) (xMapped output : Buf I8)
    (n j : Nat) :
    forwardLoop matrix inDim outDim xMapped output n j =
      if j < n then (if 0 < neuronSum matrix inDim outDim xMapped j then 1 else 0) else output j := by
  induction n with
  | zero => simp [forwardLoop]
  | succ n ih => apply update_prefix_apply ih

/-- On a 0/1 input `h`, the accumulator of neuron `j < out_dim` is the spec's sum
`Σ_i W[j·d + i]·m(h_i)`, with `m(h_j)` added when `in_dim = out_dim`. -/
theorem neuronSum_mapInput_bits (junk : Buf U8) (W : Buf I8) (inDim outDim : Nat)
    (h : Nat → Bool) (input : Buf I8) (hin : ∀ i < inDim, input i = bitI8 (h i)) {j : Nat}
    (hj : j < outDim) :
    neuronSum W inDim outDim (memcpy junk (fun i => mapInput (input i)) inDim) j =
      ∑ i ∈ Finset.range inDim, (W (j * inDim + i)).toInt * pm (h i) +
        if decide (inDim = outDim) then pm (h j) else 0 := by
  rw [neuronSum, accumulate_eq_sum]
  congr 1
  · refine Finset.sum_congr rfl fun i hi => ?_
    rw [Finset.mem_range] at hi
    rw [memcpy_apply, if_pos hi, hin i hi, toInt_mapInput_bitI8]
  · by_cases hd : inDim = outDim
    · subst hd
      simp [hj, hin j hj]
    · simp [hd]

/-- On a 0/1 input `h` (below `in_dim`), `layer_forward` writes the spec's layer, with the
residual term exactly when `in_dim = out_dim`, below `out_dim`, and leaves the rest of `output`. -/
theorem layerForward_bits (junk : Buf U8) (W : Buf I8) (inDim outDim : Nat) (h : Nat → Bool)
    (input output : Buf I8) (hin : ∀ i < inDim, input i = bitI8 (h i)) :
    layerForward (some junk) W inDim outDim input output =
      .ok fun j => if j < outDim then bitI8 (specLayer W inDim (decide (inDim = outDim)) h j)
        else output j := by
  refine congrArg Except.ok (funext fun j => ?_)
  rw [forwardLoop_apply]
  by_cases hj : j < outDim
  · rw [if_pos hj, if_pos hj, neuronSum_mapInput_bits junk W inDim outDim h input hin hj,
      specLayer, bitI8_eq_ite]
    simp only [decide_eq_true_eq]
  · rw [if_neg hj, if_neg hj]

/-! ## No overflow -/

theorem toInt_mul_bounds (a b : I8) : -16256 ≤ a.toInt * b.toInt ∧ a.toInt * b.toInt ≤ 16384 := by
  obtain ⟨ha, ha'⟩ := toInt_bounds a
  obtain ⟨hb, hb'⟩ := toInt_bounds b
  constructor <;> nlinarith

/-- What `layer_forward` guarantees of the `int32_t` accumulator of neuron `j`: every partial sum
lies in `[-16256·in_dim, 16384·in_dim]`, the final sum with its residual term in
`[-16256·in_dim − 128, 16384·in_dim + 127]`, and these bounds lie inside the `int32_t` range. -/
structure NeuronSumSafe (matrix : Buf I8) (inDim outDim : Nat) (xMapped : Buf I8) (j : Nat) :
    Prop where
  partial_sums : ∀ k ≤ inDim,
    -16256 * (inDim : Int) ≤ accumulate (fun i => (matrix (j * inDim + i)).toInt * (xMapped i).toInt) k ∧
      accumulate (fun i => (matrix (j * inDim + i)).toInt * (xMapped i).toInt) k ≤ 16384 * inDim
  final_sum : -16256 * (inDim : Int) - 128 ≤ neuronSum matrix inDim outDim xMapped j ∧
    neuronSum matrix inDim outDim xMapped j ≤ 16384 * inDim + 127
  in_int32 : -2 ^ 31 ≤ -16256 * (inDim : Int) - 128 ∧ 16384 * (inDim : Int) + 127 < 2 ^ 31

/-- `layer_forward` has no signed overflow, for every `int8_t` matrix and mapped input, every
neuron and every width `in_dim ≤ TENS_HIDDEN`. -/
theorem neuronSum_int32_safe (matrix : Buf I8) (inDim outDim : Nat) (xMapped : Buf I8) (j : Nat)
    (hd : inDim ≤ TENS_HIDDEN) : NeuronSumSafe matrix inDim outDim xMapped j := by
  have hH : (inDim : Int) ≤ 1024 := by exact_mod_cast TENS_HIDDEN_eq ▸ hd
  have hterm := fun i (_ : i < inDim) => toInt_mul_bounds (matrix (j * inDim + i)) (xMapped i)
  have hacc := accumulate_bounds hterm
  refine ⟨fun k hk => ?_, ?_, ⟨by omega, by omega⟩⟩
  · have := hacc k hk
    omega
  · obtain ⟨h1, h2⟩ := hacc inDim le_rfl
    obtain ⟨h3, h4⟩ := toInt_bounds (xMapped j)
    rw [neuronSum]
    split_ifs <;> constructor <;> linarith

/-- The widest layer, every weight and mapped input `-128`. -/
theorem neuronSum_int32_safe_widest :
    TENS_HIDDEN ≤ TENS_HIDDEN ∧
      NeuronSumSafe (fun _ => 0x80) TENS_HIDDEN TENS_HIDDEN (fun _ => 0x80) 0 :=
  ⟨le_rfl, neuronSum_int32_safe _ _ _ _ _ le_rfl⟩

end Ternary
end TensHash

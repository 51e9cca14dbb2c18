import TensHash.Ternary.Init

/-!
# TensHash.Ternary.Hash

`tens_hash_precomputed` and `tens_hash` of the ternary cascade
(`src/src/crypto/tens_pow/tens_hash.cpp`, lines 194–270), against the spec's threshold cascade:
`u` the 256 input bits, `h_0 = thr(E·m(u))`, `h_{r+1} = thr(H_r·m(h_r) + m(h_r))` for `r < 64`
and `v = thr(C·m(h_64))`, over the unbounded integers (`specHidden`, `specOutput`).

A call only reads the matrices of its context and the bits it writes into `state` itself: every
layer's input is a 0/1 vector, so `layerForward_bits` applies at each of the 66 layers whatever
the context's scratch buffers held, and the result depends on the matrices alone.

* `hiddenRounds_cases`: the 64 hidden rounds, by induction on the rounds, whatever the allocator.
* `specDigest`: the spec's digest, `N(output) = Σ_i v_i·2^(255−i)` written little-endian, with no
  reference to the code's packing; `storeOutput_specDigest`: `pack_bits` writes it.
* `tensHashPrecomputed_cases`: one call either ends with the `exit(1)` of a `layer_forward` whose
  `malloc` failed, or writes the spec's digest and changes only `state` and `next_state`.
* `runPrecomputed_bits`: every call of every sequence of calls on one context does, when every
  allocation succeeds.
* `ternary_cascade_correct`: with `tensHashInit_filled`, the contract of the ternary mode.
* `tensHash_expandSeed`: the one-shot `tens_hash` writes the spec's digest under the spec's
  matrix set of the seed, whatever the allocator's blocks held (`specDigest_congr`).
* `tensHash_outcome`: every outcome of the one-shot `tens_hash`, whatever the allocator; a null
  allocation in `tens_hash_init` leaves `output` as it was and is not reported.
-/

namespace TensHash
namespace Ternary

/-- The hidden rounds `r < n` of `tens_hash_precomputed`: `layer_forward` from `state` into
`next_state` with the matrix at `hidden_mats + r * TENS_HIDDEN * TENS_HIDDEN`, then the two
pointers swap. Round `r` is layer `1 + r` of the call. -/
def hiddenRounds (alloc : Alloc Site) (ctx : TensHashContext) : Nat → Except Exit TensHashContext
  | 0 => .ok ctx
  | r + 1 => do
    let ctx ← hiddenRounds alloc ctx r
    let next ← layerForward (alloc (.xMapped (1 + r)))
      (offset ctx.hiddenMats (r * TENS_HIDDEN * TENS_HIDDEN)) TENS_HIDDEN TENS_HIDDEN ctx.state
      ctx.nextState
    pure { ctx with state := next, nextState := ctx.state }

/-- `tens_hash_precomputed(input, ctx, output)`: the context afterwards and the bytes at `output`,
or the exit of a `layer_forward`. The input is unpacked into `state`; the expansion writes
`next_state` and the pointers swap; the hidden rounds; the compression writes `next_state`, whose
first `INPUT_BITS` entries are copied into `final_state` and packed into `output`. -/
def tensHashPrecomputed (alloc : Alloc Site) (input : Buf U8) (ctx : TensHashContext)
    (output : Buf U8) : Except Exit (TensHashContext × Buf U8) := do
  let ctx := { ctx with state := loadInput input ctx.state }
  let next ← layerForward (alloc (.xMapped 0)) ctx.expansionMat INPUT_BITS TENS_HIDDEN ctx.state
    ctx.nextState
  let ctx := { ctx with state := next, nextState := ctx.state }
  let ctx ← hiddenRounds alloc ctx NUM_HIDDEN_LAYERS
  let next ← layerForward (alloc (.xMapped (1 + NUM_HIDDEN_LAYERS))) ctx.compressionMat TENS_HIDDEN
    INPUT_BITS ctx.state ctx.nextState
  let ctx := { ctx with nextState := next }
  let finalState := memcpy (fun _ => 0) ctx.nextState INPUT_BITS
  pure (ctx, storeOutput finalState output)

/-- `tens_hash(input, seed, output)`: `tens_hash_init`, then `tens_hash_precomputed` on the new
context; a null context leaves `output` as it was. -/
def tensHash (chacha : ChaCha20) (alloc : Alloc Site) (input seed output : Buf U8) :
    Except (BadAlloc ⊕ Exit) (Buf U8) :=
  match tensHashInit chacha alloc seed with
  | .error e => .error (.inl e)
  | .ok none => .ok output
  | .ok (some ctx) =>
    match tensHashPrecomputed alloc input ctx output with
    | .error e => .error (.inr e)
    | .ok r => .ok r.2

/-- One call of `tens_hash_precomputed` in a sequence on one context. -/
structure PrecomputedCall where
  input : Buf U8
  output : Buf U8
  alloc : Alloc Site

/-- A sequence of calls of `tens_hash_precomputed` on one context: the context afterwards and
what each call wrote, or the first exit. -/
def runPrecomputed : TensHashContext → List PrecomputedCall →
    Except Exit (TensHashContext × List (Buf U8))
  | ctx, [] => .ok (ctx, [])
  | ctx, call :: calls => do
    let r ← tensHashPrecomputed call.alloc call.input ctx call.output
    let rest ← runPrecomputed r.1 calls
    pure (rest.1, r.2 :: rest.2)

/-! ## The spec's cascade -/

/-- The spec's input bits `u`: entry `i` is bit `255 − i` of `N(x)`. -/
def inputBits (x : Buf U8) (i : Nat) : Bool := (leValue x TENS_IN_SIZE).testBit (255 - i)

/-- The spec's hidden rounds from `h`: `h_{r+1} = thr(H_r·m(h_r) + m(h_r))`, `H_r` at offset
`r·TENS_HIDDEN²` of `H`. -/
def specRounds (H : Buf I8) (h : Nat → Bool) : Nat → Nat → Bool
  | 0 => h
  | r + 1 => specLayer (offset H (r * TENS_HIDDEN * TENS_HIDDEN)) TENS_HIDDEN true (specRounds H h r)

/-- The spec's `h_r`, from `h_0 = thr(E·m(u))`. -/
def specHidden (E H : Buf I8) (u : Nat → Bool) (r : Nat) : Nat → Bool :=
  specRounds H (specLayer E INPUT_BITS false u) r

/-- The spec's result `v = thr(C·m(h_64))`. -/
def specOutput (E H C : Buf I8) (u : Nat → Bool) : Nat → Bool :=
  specLayer C TENS_HIDDEN false (specHidden E H u NUM_HIDDEN_LAYERS)

/-- What a call on a context with these matrices is to write: the spec's `v` of the input's bits
as the number `N(output) = Σ_i v_i·2^(255−i)`, written little-endian into the 32 bytes of
`output`. -/
def specDigest (ctx : TensHashContext) (x output : Buf U8) : Buf U8 :=
  leBytes (∑ i ∈ Finset.range INPUT_BITS,
    (specOutput ctx.expansionMat ctx.hiddenMats ctx.compressionMat (inputBits x) i).toNat *
      2 ^ (255 - i)) TENS_IN_SIZE output

/-- `pack_bits` of the spec vector writes the spec's digest. -/
theorem storeOutput_specDigest (ctx : TensHashContext) (x output : Buf U8) :
    storeOutput (fun i => bitI8 (specOutput ctx.expansionMat ctx.hiddenMats ctx.compressionMat
      (inputBits x) i)) output = specDigest ctx x output := by
  rw [storeOutput_eq_leBytes _ _ fun i _ => bitI8_zero_or_one _]
  simp only [toNat_bitI8, specDigest]

theorem INPUT_BITS_ne_TENS_HIDDEN : INPUT_BITS ≠ TENS_HIDDEN := by
  rw [INPUT_BITS_eq, TENS_HIDDEN_eq]; decide

/-- The hidden rounds on a 0/1 state `h`, whatever the allocator: either an `x_mapped` is null
and the rounds end with the `exit(1)` of its `layer_forward`, or only `state` and `next_state`
change and `state` holds the spec's rounds from `h`. -/
theorem hiddenRounds_cases (alloc : Alloc Site) (ctx : TensHashContext) (h : Nat → Bool)
    (hs : ∀ j < TENS_HIDDEN, ctx.state j = bitI8 (h j)) (n : Nat) :
    ¬alloc.AllOk ∧
        hiddenRounds alloc ctx n = .error ⟨1, "Memory allocation error in layer_forward\n"⟩ ∨
      ∃ s t, hiddenRounds alloc ctx n = .ok { ctx with state := s, nextState := t } ∧
        ∀ j < TENS_HIDDEN, s j = bitI8 (specRounds ctx.hiddenMats h n j) := by
  induction n with
  | zero => exact .inr ⟨ctx.state, ctx.nextState, rfl, hs⟩
  | succ r ih =>
    rcases ih with ⟨hna, herr⟩ | ⟨s, t, hrun, hs'⟩
    · exact .inl ⟨hna, by simp only [hiddenRounds, herr, bind, Except.bind]⟩
    rcases hjunk : alloc (.xMapped (1 + r)) with _ | junk
    · exact .inl ⟨fun ha => ha.ne_none _ hjunk,
        by simp only [hiddenRounds, hrun, hjunk, layerForward_none, bind, Except.bind]⟩
    refine .inr ⟨fun j => if j < TENS_HIDDEN then bitI8 (specRounds ctx.hiddenMats h (r + 1) j) else t j,
      s, ?_, fun j hj => if_pos hj⟩
    simp only [hiddenRounds, hrun, hjunk, bind, Except.bind, layerForward_bits junk _ _ _ _ _ _ hs',
      pure, Except.pure, eq_self_iff_true, decide_True, specRounds]

/-- One call on any context, whatever the allocator: either an `x_mapped` is null and the call
ends with the `exit(1)` of its `layer_forward`, or `output` receives the spec's digest of the
input under the context's matrices, and only `state` and `next_state` change. -/
theorem tensHashPrecomputed_cases (alloc : Alloc Site) (x : Buf U8) (ctx : TensHashContext)
    (output : Buf U8) :
    ¬alloc.AllOk ∧ tensHashPrecomputed alloc x ctx output =
        .error ⟨1, "Memory allocation error in layer_forward\n"⟩ ∨
      ∃ s t, tensHashPrecomputed alloc x ctx output =
        .ok ({ ctx with state := s, nextState := t }, specDigest ctx x output) := by
  have hload : ∀ i < INPUT_BITS, loadInput x ctx.state i = bitI8 (inputBits x i) :=
    fun i hi => by rw [loadInput_apply x ctx.state hi, inputBits, TENS_IN_SIZE_eq]; rfl
  rcases hj0 : alloc (.xMapped 0) with _ | j0
  · exact .inl ⟨fun ha => ha.ne_none _ hj0,
      by simp only [tensHashPrecomputed, hj0, layerForward_none, bind, Except.bind]⟩
  have hexp := layerForward_bits j0 ctx.expansionMat INPUT_BITS TENS_HIDDEN (inputBits x)
    (loadInput x ctx.state) ctx.nextState hload
  rw [decide_eq_false INPUT_BITS_ne_TENS_HIDDEN] at hexp
  rcases hiddenRounds_cases alloc
    { ctx with
      state := fun j => if j < TENS_HIDDEN then
        bitI8 (specLayer ctx.expansionMat INPUT_BITS false (inputBits x) j) else ctx.nextState j,
      nextState := loadInput x ctx.state }
    _ (fun j hj => if_pos hj) NUM_HIDDEN_LAYERS with ⟨hna, herr⟩ | ⟨s, t, hrun, hs⟩
  · exact .inl ⟨hna, by simp only [tensHashPrecomputed, hj0, hexp, herr, bind, Except.bind]⟩
  rcases hj1 : alloc (.xMapped (1 + NUM_HIDDEN_LAYERS)) with _ | j1
  · exact .inl ⟨fun ha => ha.ne_none _ hj1,
      by simp only [tensHashPrecomputed, hj0, hexp, hrun, hj1, layerForward_none, bind, Except.bind]⟩
  have hcomp := layerForward_bits j1 ctx.compressionMat TENS_HIDDEN INPUT_BITS _ s t hs
  rw [decide_eq_false INPUT_BITS_ne_TENS_HIDDEN.symm] at hcomp
  refine .inr ⟨s, fun j => if j < INPUT_BITS then
    bitI8 (specOutput ctx.expansionMat ctx.hiddenMats ctx.compressionMat (inputBits x) j) else t j, ?_⟩
  simp only [tensHashPrecomputed, hj0, hexp, hrun, hj1, hcomp, bind, Except.bind, pure, Except.pure]
  rw [← storeOutput_specDigest]
  refine congrArg (fun o => Except.ok (_, o)) (storeOutput_congr output fun i hi => ?_)
  simp only [memcpy_apply, if_pos hi]
  rfl

/-- One call on any context, every allocation succeeding, writes the spec's digest. -/
theorem tensHashPrecomputed_bits (alloc : Alloc Site) (ha : alloc.AllOk) (x : Buf U8)
    (ctx : TensHashContext) (output : Buf U8) :
    ∃ s t, tensHashPrecomputed alloc x ctx output =
      .ok ({ ctx with state := s, nextState := t }, specDigest ctx x output) :=
  (tensHashPrecomputed_cases alloc x ctx output).resolve_left fun h => h.1 ha

/-- Every call of a sequence on one context, every allocation succeeding, writes the packed spec
vector of its input under the context's matrices; the matrices never change. -/
theorem runPrecomputed_bits (ctx : TensHashContext) (calls : List PrecomputedCall)
    (ha : ∀ call ∈ calls, call.alloc.AllOk) :
    ∃ s t, runPrecomputed ctx calls = .ok ({ ctx with state := s, nextState := t },
      calls.map fun call => specDigest ctx call.input call.output) := by
  induction calls generalizing ctx with
  | nil => exact ⟨ctx.state, ctx.nextState, rfl⟩
  | cons call calls ih =>
    obtain ⟨s, t, hcall⟩ := tensHashPrecomputed_bits call.alloc (ha call (.head _)) call.input ctx
      call.output
    obtain ⟨s', t', hrest⟩ := ih { ctx with state := s, nextState := t }
      fun call' h => ha call' (.tail _ h)
    exact ⟨s', t', by simp only [runPrecomputed, hcall, hrest, bind, Except.bind, pure, Except.pure,
      List.map_cons]; rfl⟩

/-- The contract of the ternary mode. For every context, whatever its matrices and scratch
buffers hold, every call of every sequence of calls of `tens_hash_precomputed` on it packs into
its output the spec's `v = thr(C·m(h_64))` of its input's bits, and no call changes the matrices;
and `tens_hash_init(seed)` fills the matrices row-major with `w(b mod 4)` of the keystream of
stage `k` (0, `1 + r`, 65), keyed by the reversed seed with `Nonce96` `(0, to_big_endian(k))`. -/
theorem ternary_cascade_correct (chacha : ChaCha20) (ctx : TensHashContext)
    (calls : List PrecomputedCall) (alloc : Alloc Site) (seed : Buf U8)
    (hcalls : ∀ call ∈ calls, call.alloc.AllOk) (ha : alloc.AllOk) :
    (∃ s t, runPrecomputed ctx calls = .ok ({ ctx with state := s, nextState := t },
      calls.map fun call => specDigest ctx call.input call.output)) ∧
    ∃ ctx', tensHashInit chacha alloc seed = .ok (some ctx') ∧ InitFilled chacha seed ctx' :=
  ⟨runPrecomputed_bits ctx calls hcalls, tensHashInit_filled chacha alloc seed ha⟩

/-- Two calls on a zeroed context, after a fresh `tens_hash_init`. -/
theorem ternary_cascade_correct_two_calls :
    (∀ call ∈ ([⟨fun _ => 0, fun _ => 0, Alloc.fresh⟩, ⟨fun _ => 1, fun _ => 0, Alloc.fresh⟩] :
        List PrecomputedCall), call.alloc.AllOk) ∧ (Alloc.fresh : Alloc Site).AllOk ∧
      (∃ s t, runPrecomputed (⟨fun _ => 0, fun _ => 0, fun _ => 0, fun _ => 0, fun _ => 0⟩ : TensHashContext)
        ([⟨fun _ => 0, fun _ => 0, Alloc.fresh⟩, ⟨fun _ => 1, fun _ => 0, Alloc.fresh⟩] :
          List PrecomputedCall) =
        .ok ({ (⟨fun _ => 0, fun _ => 0, fun _ => 0, fun _ => 0, fun _ => 0⟩ : TensHashContext) with
          state := s, nextState := t },
          ([⟨fun _ => 0, fun _ => 0, Alloc.fresh⟩, ⟨fun _ => 1, fun _ => 0, Alloc.fresh⟩] :
            List PrecomputedCall).map fun call => specDigest
              (⟨fun _ => 0, fun _ => 0, fun _ => 0, fun _ => 0, fun _ => 0⟩ : TensHashContext)
              call.input call.output)) ∧
      ∃ ctx', tensHashInit (fun _ _ _ => 0) Alloc.fresh (fun _ => 0) = .ok (some ctx') ∧
        InitFilled (fun _ _ _ => 0) (fun _ => 0) ctx' :=
  have hc : ∀ call ∈ ([⟨fun _ => 0, fun _ => 0, Alloc.fresh⟩, ⟨fun _ => 1, fun _ => 0, Alloc.fresh⟩] :
      List PrecomputedCall), call.alloc.AllOk := by
    simp [Alloc.AllOk, Alloc.fresh]
  have ha : (Alloc.fresh : Alloc Site).AllOk := fun _ => rfl
  ⟨hc, ha, ternary_cascade_correct (fun _ _ _ => 0)
    ⟨fun _ => 0, fun _ => 0, fun _ => 0, fun _ => 0, fun _ => 0⟩
    [⟨fun _ => 0, fun _ => 0, Alloc.fresh⟩, ⟨fun _ => 1, fun _ => 0, Alloc.fresh⟩]
    Alloc.fresh (fun _ => 0) hc ha⟩

/-! ## The one-shot entry point -/

theorem specLayer_congr {W W' : Buf I8} {d : Nat} {res : Bool} {h h' : Nat → Bool} {j : Nat}
    (hW : ∀ i < d, W (j * d + i) = W' (j * d + i)) (hh : ∀ i < d, h i = h' i)
    (hj : res = true → h j = h' j) : specLayer W d res h j = specLayer W' d res h' j := by
  have hsum : ∑ i ∈ Finset.range d, (W (j * d + i)).toInt * pm (h i) =
      ∑ i ∈ Finset.range d, (W' (j * d + i)).toInt * pm (h' i) :=
    Finset.sum_congr rfl fun i hi => by rw [hW i (Finset.mem_range.mp hi), hh i (Finset.mem_range.mp hi)]
  cases res
  · simp only [specLayer, hsum, Bool.false_eq_true, if_false]
  · simp only [specLayer, hsum, hj rfl]

/-- The hidden rounds only read the hidden windows and the first `TENS_HIDDEN` bits. -/
theorem specRounds_congr {H H' : Buf I8} {h h' : Nat → Bool} {n : Nat}
    (hH : ∀ r < n, ∀ i < TENS_HIDDEN * TENS_HIDDEN,
      H (r * TENS_HIDDEN * TENS_HIDDEN + i) = H' (r * TENS_HIDDEN * TENS_HIDDEN + i))
    (hh : ∀ j < TENS_HIDDEN, h j = h' j) : ∀ j < TENS_HIDDEN, specRounds H h n j = specRounds H' h' n j := by
  induction n with
  | zero => exact hh
  | succ r ih =>
    intro j hj
    refine specLayer_congr (fun i hi => ?_) (ih fun r' hr' => hH r' (by omega))
      fun _ => ih (fun r' hr' => hH r' (by omega)) j hj
    simpa only [offset_apply, Nat.add_assoc] using hH r (by omega) _ (row_major_lt hj hi)

/-- A call's result only depends on the entries of the matrices it reads. -/
theorem specDigest_congr {c c' : TensHashContext} (h : SameWindows c c') (x out : Buf U8) :
    specDigest c x out = specDigest c' x out := by
  have h0 : ∀ j < TENS_HIDDEN, specLayer c.expansionMat INPUT_BITS false (inputBits x) j =
      specLayer c'.expansionMat INPUT_BITS false (inputBits x) j := fun j hj =>
    specLayer_congr (fun i hi => h.expansion _ (row_major_lt hj hi)) (fun _ _ => rfl) (by simp)
  have hr := specRounds_congr (n := NUM_HIDDEN_LAYERS) h.hidden h0
  rw [← storeOutput_specDigest, ← storeOutput_specDigest]
  refine storeOutput_congr out fun i hi => congrArg bitI8 ?_
  exact specLayer_congr (fun k hk => h.compression _ (row_major_lt hi hk)) hr (by simp)

/-- The one-shot `tens_hash(input, seed, output)`, every allocation succeeding, writes the spec's
digest of the input under the spec's matrix set of the seed. So it is a function of the seed and
the input alone, whatever bytes the allocator hands out. -/
theorem tensHash_expandSeed (chacha : ChaCha20) (alloc : Alloc Site) (input seed output : Buf U8)
    (ha : alloc.AllOk) :
    tensHash chacha alloc input seed output = .ok (specDigest (expandSeed chacha seed) input output) := by
  obtain ⟨ctx, hinit, hf⟩ := tensHashInit_filled chacha alloc seed ha
  obtain ⟨s, t, hcall⟩ := tensHashPrecomputed_bits alloc ha input ctx output
  simp only [tensHash, hinit, hcall, specDigest_congr hf.sameWindows]

/-- Zero seed and input, a fresh allocator. -/
theorem tensHash_expandSeed_zero :
    (Alloc.fresh : Alloc Site).AllOk ∧
      tensHash (fun _ _ _ => 0) Alloc.fresh (fun _ => 0) (fun _ => 0) (fun _ => 0) =
        .ok (specDigest (expandSeed (fun _ _ _ => 0) (fun _ => 0)) (fun _ => 0) (fun _ => 0)) :=
  have ha : (Alloc.fresh : Alloc Site).AllOk := fun _ => rfl
  ⟨ha, tensHash_expandSeed _ _ _ _ _ ha⟩

/-- Every outcome of the one-shot `tens_hash(input, seed, output)`, whatever the allocator. When
the context or one of its five buffers cannot be allocated, `tens_hash_init` returns null and
`tens_hash` returns normally with `output` as it was: the failure is not reported. Otherwise the
call writes the spec's digest under the spec's matrix set of the seed, or, after a failed
allocation, ends with the `std::bad_alloc` of a `generate_dense_matrix` or the `exit(1)` of a
`layer_forward`. -/
theorem tensHash_outcome (chacha : ChaCha20) (alloc : Alloc Site) (input seed output : Buf U8) :
    initNull alloc = true ∧ tensHash chacha alloc input seed output = .ok output ∨
      initNull alloc = false ∧
        (tensHash chacha alloc input seed output =
            .ok (specDigest (expandSeed chacha seed) input output) ∨
          ¬alloc.AllOk ∧
            (tensHash chacha alloc input seed output = .error (.inl .badAlloc) ∨
              tensHash chacha alloc input seed output =
                .error (.inr ⟨1, "Memory allocation error in layer_forward\n"⟩))) := by
  rcases tensHashInit_cases chacha alloc seed with
    ⟨hn, hinit⟩ | ⟨hn, ⟨hna, hinit⟩ | ⟨ctx, hinit, hf⟩⟩
  · exact .inl ⟨hn, by simp only [tensHash, hinit]⟩
  · exact .inr ⟨hn, .inr ⟨hna, .inl (by simp only [tensHash, hinit])⟩⟩
  rcases tensHashPrecomputed_cases alloc input ctx output with ⟨hna, hcall⟩ | ⟨s, t, hcall⟩
  · exact .inr ⟨hn, .inr ⟨hna, .inr (by simp only [tensHash, hinit, hcall])⟩⟩
  · exact .inr ⟨hn, .inl (by simp only [tensHash, hinit, hcall, specDigest_congr hf.sameWindows])⟩

end Ternary
end TensHash

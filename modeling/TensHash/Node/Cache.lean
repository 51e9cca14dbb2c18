import TensHash.Node.Hash

/-!
# TensHash.Node.Cache

The cached entry point `tens_hash` of the node file (`src/unnamed/part_000`, lines 254–308): a
single slot of static variables (`cacheInitialized`, `cachedSeed`, `cachedMatrices`,
`cachedBuffers`), reused when the seed matches and rebuilt otherwise.

* `tensHash_step`: with every allocation of the call succeeding, one call keeps `CacheOk`
  (an initialized slot holds matrices filled from the cached seed's keystream, and buffers)
  and writes what `tens_hash_precomputed` writes on freshly built matrices and buffers.
* `runCalls_fresh`: hence, from the initial statics, every call of every sequence of calls
  whose allocations succeed writes the fresh result, whatever the earlier calls left in the
  buffers.
* `tensHash_stale_after_failure`: the slot records the seed and sets `cacheInitialized` before
  building; when `precompute_matrices` fails, every later call with that seed finds a match,
  skips the build and returns without writing `output`.
-/

namespace TensHash
namespace Node

/-- The static variables of `tens_hash`. -/
structure Cache where
  cacheInitialized : Bool
  cachedSeed : Bytes32
  cachedMatrices : Option PrecomputedMatrices
  cachedBuffers : Option HashBuffers

/-- The statics before the first call (`static` storage starts zeroed). -/
def Cache.init : Cache := ⟨false, fun _ => 0, none, none⟩

/-- One call of `tens_hash`: its three pointers and the allocator it meets. -/
structure Call where
  input : Buf U8
  seed : Buf U8
  output : Buf U8
  alloc : Alloc Site

/-- The end of `tens_hash`: `if (!cachedMatrices || !cachedBuffers) return;`, then
`tens_hash_precomputed` on the cached pair. -/
def evalCached (sha : Sha256) (input output : Buf U8) (c : Cache) : Cache × Buf U8 :=
  match c.cachedMatrices, c.cachedBuffers with
  | some m, some b =>
    let r := tensHashPrecomputed sha input m b output
    ({ c with cachedBuffers := some r.1 }, r.2)
  | _, _ => (c, output)

/-- `tens_hash(input, seed, output)`: the statics after the call and the bytes at `output`, or
the exception thrown inside `precompute_matrices`. On a miss the old pair is freed, the seed
copied and `cacheInitialized` set before the new pair is built. The hex dumps of lines 255–258
and 303–306 and the `LogPrintf` of line 276 change nothing the call returns or keeps, and their
allocations are not sites of the allocator: the model is the code on runs where they succeed. -/
def tensHash (chacha : ChaCha20) (sha : Sha256) (call : Call) (c : Cache) :
    Cache × Except BadAlloc (Buf U8) :=
  let seedMatches := c.cacheInitialized && decide (c.cachedSeed = bytes32 call.seed)
  if !c.cacheInitialized || !seedMatches then
    let c : Cache := ⟨true, bytes32 call.seed, none, none⟩
    match precomputeMatrices chacha call.alloc call.seed with
    | .error e => (c, .error e)
    | .ok ms =>
      let r := evalCached sha call.input call.output
        { c with cachedMatrices := ms, cachedBuffers := initHashBuffers call.alloc }
      (r.1, .ok r.2)
  else
    let r := evalCached sha call.input call.output c
    (r.1, .ok r.2)

/-- A sequence of calls from a given state of the statics: the final statics and what each
call wrote. -/
def runCalls (chacha : ChaCha20) (sha : Sha256) : Cache → List Call →
    Cache × List (Except BadAlloc (Buf U8))
  | c, [] => (c, [])
  | c, call :: calls =>
    let r := tensHash chacha sha call c
    let rest := runCalls chacha sha r.1 calls
    (rest.1, r.2 :: rest.2)

/-- The slot invariant under successful allocations. -/
def CacheOk (chacha : ChaCha20) (c : Cache) : Prop :=
  c.cacheInitialized = true →
    (∃ m, c.cachedMatrices = some m ∧ Filled (chacha c.cachedSeed (0, 0)) m) ∧
      c.cachedBuffers.isSome

/-- A call's result is the fresh one: what `tens_hash_precomputed` writes on
`precompute_matrices(seed)` and `init_hash_buffers()`, built for the call. -/
def FreshResult (chacha : ChaCha20) (sha : Sha256) (call : Call)
    (r : Except BadAlloc (Buf U8)) : Prop :=
  ∃ m b, precomputeMatrices chacha call.alloc call.seed = .ok (some m) ∧
    initHashBuffers call.alloc = some b ∧
    r = .ok (tensHashPrecomputed sha call.input m b call.output).2

theorem cacheOk_init (chacha : ChaCha20) : CacheOk chacha Cache.init := fun h => by cases h

/-- One call with successful allocations: the invariant is kept and the output is the fresh
one. -/
theorem tensHash_step (chacha : ChaCha20) (sha : Sha256) (call : Call) (c : Cache)
    (hc : CacheOk chacha c) (ha : call.alloc.AllOk) :
    CacheOk chacha (tensHash chacha sha call c).1 ∧
      FreshResult chacha sha call (tensHash chacha sha call c).2 := by
  obtain ⟨m, hm, hf⟩ := precomputeMatrices_allOk chacha call.alloc call.seed ha
  obtain ⟨b, hb⟩ := initHashBuffersAt_allOk ha .buffers .state .nextState .noise
  by_cases hhit : c.cacheInitialized = true ∧ c.cachedSeed = bytes32 call.seed
  · obtain ⟨⟨m0, hm0, hf0⟩, hb0⟩ := hc hhit.1
    obtain ⟨b0, hb0⟩ := Option.isSome_iff_exists.mp hb0
    have hsm : (!c.cacheInitialized || !(c.cacheInitialized &&
        decide (c.cachedSeed = bytes32 call.seed))) = false := by simp [hhit.1, hhit.2]
    simp only [tensHash, hsm, Bool.false_eq_true, if_false, evalCached, hm0, hb0]
    refine ⟨fun _ => ⟨⟨m0, rfl, hf0⟩, rfl⟩, m, b, hm, hb, ?_⟩
    rw [hhit.2] at hf0
    rw [tensHashPrecomputed_filled hf0 hf]
  · have hmiss : (!c.cacheInitialized || !(c.cacheInitialized &&
        decide (c.cachedSeed = bytes32 call.seed))) = true := by
      cases h : c.cacheInitialized <;> simp_all
    have ht : tensHash chacha sha call c =
        (⟨true, bytes32 call.seed, some m, some (tensHashPrecomputed sha call.input m b call.output).1⟩,
          .ok (tensHashPrecomputed sha call.input m b call.output).2) := by
      simp only [tensHash, hmiss, if_true, hm, initHashBuffers, hb, evalCached]
    rw [ht]
    exact ⟨fun _ => ⟨⟨m, rfl, hf⟩, rfl⟩, m, b, hm, hb, rfl⟩

/-- Every call of a run from a state satisfying `CacheOk` writes the fresh result. -/
theorem runCalls_fresh_of (chacha : ChaCha20) (sha : Sha256) (calls : List Call) :
    ∀ c, CacheOk chacha c → (∀ call ∈ calls, call.alloc.AllOk) →
      List.Forall₂ (FreshResult chacha sha) calls (runCalls chacha sha c calls).2 := by
  induction calls with
  | nil => intro _ _ _; exact .nil
  | cons call calls ih =>
    intro c hc ha
    obtain ⟨hc', hout⟩ := tensHash_step chacha sha call c hc (ha call (.head _))
    exact .cons hout (ih _ hc' fun call' h => ha call' (.tail _ h))

/-- Cache transparency: from the initial statics, for every sequence of seeds and inputs whose
allocations succeed, the `k`-th call writes exactly what `tens_hash_precomputed` writes on
`precompute_matrices(s_k)` and `init_hash_buffers()`, freshly built. -/
theorem runCalls_fresh (chacha : ChaCha20) (sha : Sha256) (calls : List Call)
    (ha : ∀ call ∈ calls, call.alloc.AllOk) :
    List.Forall₂ (FreshResult chacha sha) calls (runCalls chacha sha Cache.init calls).2 :=
  runCalls_fresh_of chacha sha calls _ (cacheOk_init chacha) ha

/-- Seed `A`, then seed `B`, then `A` again, every allocation succeeding. -/
theorem runCalls_fresh_aba :
    (∀ call ∈ [⟨fun _ => 0, fun _ => 0, fun _ => 0, Alloc.fresh⟩,
        ⟨fun _ => 1, fun _ => 1, fun _ => 0, Alloc.fresh⟩,
        ⟨fun _ => 0, fun _ => 0, fun _ => 0, Alloc.fresh⟩], Call.alloc call |>.AllOk) ∧
    List.Forall₂ (FreshResult (fun _ _ _ => 0) (fun _ _ => 0))
      [⟨fun _ => 0, fun _ => 0, fun _ => 0, Alloc.fresh⟩,
        ⟨fun _ => 1, fun _ => 1, fun _ => 0, Alloc.fresh⟩,
        ⟨fun _ => 0, fun _ => 0, fun _ => 0, Alloc.fresh⟩]
      (runCalls (fun _ _ _ => 0) (fun _ _ => 0) Cache.init
        [⟨fun _ => 0, fun _ => 0, fun _ => 0, Alloc.fresh⟩,
          ⟨fun _ => 1, fun _ => 1, fun _ => 0, Alloc.fresh⟩,
          ⟨fun _ => 0, fun _ => 0, fun _ => 0, Alloc.fresh⟩]).2 :=
  have h : ∀ call ∈ [(⟨fun _ => 0, fun _ => 0, fun _ => 0, Alloc.fresh⟩ : Call),
      ⟨fun _ => 1, fun _ => 1, fun _ => 0, Alloc.fresh⟩,
      ⟨fun _ => 0, fun _ => 0, fun _ => 0, Alloc.fresh⟩], Call.alloc call |>.AllOk :=
    by simp [Alloc.AllOk, Alloc.fresh]
  ⟨h, runCalls_fresh _ _ _ h⟩

/-- The slot goes stale after a failed build. When `precompute_matrices` returns null, the call
leaves `cacheInitialized` set, the seed recorded and no matrices; a later call with the same
seed, whatever its allocator, finds a match, builds nothing and returns without writing
`output`. -/
theorem tensHash_stale_after_failure (chacha : ChaCha20) (sha : Sha256) (x seed out x' out' : Buf U8)
    (a a' : Alloc Site) (hfail : precomputeMatrices chacha a seed = .ok none) :
    let c := (tensHash chacha sha ⟨x, seed, out, a⟩ Cache.init).1
    (c.cacheInitialized = true ∧ c.cachedMatrices = none) ∧
      tensHash chacha sha ⟨x', seed, out', a'⟩ c = (c, .ok out') := by
  simp [tensHash, Cache.init, hfail, evalCached]

/-- Every allocation of the first call failing, then any second call with the same seed. -/
theorem tensHash_stale_after_failure_zero :
    precomputeMatrices (fun _ _ _ => 0) (fun _ => none) (fun _ => 0) = .ok none ∧
    let c := (tensHash (fun _ _ _ => 0) (fun _ _ => 0) ⟨fun _ => 0, fun _ => 0, fun _ => 0,
      fun _ => none⟩ Cache.init).1
    (c.cacheInitialized = true ∧ c.cachedMatrices = none) ∧
      tensHash (fun _ _ _ => 0) (fun _ _ => 0) ⟨fun _ => 0, fun _ => 0, fun _ => 1, Alloc.fresh⟩ c =
        (c, .ok fun _ => 1) :=
  ⟨rfl, tensHash_stale_after_failure (fun _ _ _ => 0) (fun _ _ => 0) (fun _ => 0) (fun _ => 0)
    (fun _ => 0) (fun _ => 0) (fun _ => 1) (fun _ => none) Alloc.fresh rfl⟩

end Node
end TensHash

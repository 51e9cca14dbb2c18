import TensHash.Ternary.Hash
import TensHash.Heap

/-!
# TensHash.Ternary.Memory

Who owns which block in the ternary cascade (`src/src/crypto/tens_pow/tens_hash.cpp`): the
context and its five buffers (`alloc_context_buffers`, `tens_hash_init`, `tens_hash_free`,
lines 134–192), the two `std::vector`s of each `generate_dense_matrix` (lines 28–60) and the
`x_mapped` block of each `layer_forward` (lines 99–122), in the one-shot `tens_hash`
(lines 262–270). The definitions here, in namespace `Ternary.Mem`, follow the code's `malloc`,
`free`, vector constructions and destructions on `Heap`.

* `tensHashInit_cases`: `tens_hash_init` takes the value-level branch; on `NULL` the heap is as
  before (`tens_hash_free` frees the buffers that were allocated, and `free(NULL)` the others);
  on success the context and its five buffers are added; when a vector throws they stay
  allocated and nothing points to them any more.
* `tensHash_restores_or_leaks`: the one-shot `tens_hash` ends as the value-level one does; when
  it returns the heap is as it found it, and when a `std::bad_alloc` escapes it the six blocks of
  the context are leaked.
-/

namespace TensHash
namespace Ternary
namespace Mem

open Heap

/-- The blocks of a context: the struct, and its five buffers as `alloc_context_buffers` left
them, `NULL` where an allocation failed. -/
structure ContextPtrs where
  ctx : Nat
  expansionMat : Ptr
  hiddenMats : Ptr
  compressionMat : Ptr
  state : Ptr
  nextState : Ptr

/-- The five buffers, in the order `tens_hash_free` frees them. -/
def ContextPtrs.buffers (p : ContextPtrs) : List Ptr :=
  [p.expansionMat, p.hiddenMats, p.compressionMat, p.state, p.nextState]

/-- `tens_hash_free(ctx)`, its `if (ctx)` passed: the five buffers, `NULL` ones included, then
the struct. -/
def tensHashFree (p : ContextPtrs) (h : Heap) : Heap := h.freeAll (p.buffers ++ [some p.ctx])

/-- `alloc_context_buffers(ctx)`: the five buffers, all requested before any is checked; `true`
when none is `NULL`. -/
def allocContextBuffers (alloc : Alloc Site) (ctx : Nat) (h : Heap) : Bool × ContextPtrs × Heap :=
  let e := h.malloc alloc .expansionMat
  let hm := e.2.malloc alloc .hiddenMats
  let c := hm.2.malloc alloc .compressionMat
  let s := c.2.malloc alloc .state
  let n := s.2.malloc alloc .nextState
  (e.1.isSome && hm.1.isSome && c.1.isSome && s.1.isSome && n.1.isSome,
    ⟨ctx, e.1, hm.1, c.1, s.1, n.1⟩, n.2)

/-- The two vectors of `generate_dense_matrix(..., nonce_counter, ...)`: `keystream`, then
`key_bytes`; either may throw, and both are destroyed when the function ends, the later first. -/
def generateDenseMatrix (alloc : Alloc Site) (nonceCounter : Nat) (h : Heap) :
    Except BadAlloc Unit × Heap :=
  match h.malloc alloc (.keystream nonceCounter) with
  | (none, h) => (.error .badAlloc, h)
  | (some k, h) =>
    match h.malloc alloc (.keyBytes nonceCounter) with
    | (none, h) => (.error .badAlloc, h.freeAll [some k])
    | (some b, h) => (.ok (), h.freeAll [some b, some k])

/-- The loop of `generate_all_matrices` over the hidden matrices `r < n`, nonce counter `1 + r`. -/
def generateHidden (alloc : Alloc Site) : Nat → Heap → Except BadAlloc Unit × Heap
  | 0, h => (.ok (), h)
  | r + 1, h =>
    match generateHidden alloc r h with
    | (.error e, h) => (.error e, h)
    | (.ok (), h) => generateDenseMatrix alloc (1 + r) h

/-- `generate_all_matrices(ctx, seed)`: nonce counters `0`, `1, …, 64`, `65`. -/
def generateAllMatrices (alloc : Alloc Site) (h : Heap) : Except BadAlloc Unit × Heap :=
  match generateDenseMatrix alloc 0 h with
  | (.error e, h) => (.error e, h)
  | (.ok (), h) =>
    match generateHidden alloc NUM_HIDDEN_LAYERS h with
    | (.error e, h) => (.error e, h)
    | (.ok (), h) => generateDenseMatrix alloc (1 + NUM_HIDDEN_LAYERS) h

/-- `tens_hash_init(seed)`: the context's blocks, `NULL` after `tens_hash_free` when a buffer
could not be allocated, or the exception of a vector. -/
def tensHashInit (alloc : Alloc Site) (h : Heap) : Except BadAlloc (Option ContextPtrs) × Heap :=
  match h.malloc alloc .ctx with
  | (none, h) => (.ok none, h)
  | (some ctx, h) =>
    match allocContextBuffers alloc ctx h with
    | (false, p, h) => (.ok none, tensHashFree p h)
    | (true, p, h) =>
      match generateAllMatrices alloc h with
      | (.error e, h) => (.error e, h)
      | (.ok (), h) => (.ok (some p), h)

/-- `layer_forward`'s `x_mapped` block for layer `layer` of a call: `exit(1)` when `malloc`
fails, freed before the function returns. -/
def layerForward (alloc : Alloc Site) (layer : Nat) (h : Heap) : Except Exit Unit × Heap :=
  match h.malloc alloc (.xMapped layer) with
  | (none, h) => (.error ⟨1, "Memory allocation error in layer_forward\n"⟩, h)
  | (some x, h) => (.ok (), h.freeAll [some x])

/-- The hidden rounds `r < n` of `tens_hash_precomputed`: layer `1 + r`. -/
def hiddenRounds (alloc : Alloc Site) : Nat → Heap → Except Exit Unit × Heap
  | 0, h => (.ok (), h)
  | r + 1, h =>
    match hiddenRounds alloc r h with
    | (.error e, h) => (.error e, h)
    | (.ok (), h) => layerForward alloc (1 + r) h

/-- `tens_hash_precomputed(input, ctx, output)`: the expansion layer, the hidden rounds, the
compression layer. -/
def tensHashPrecomputed (alloc : Alloc Site) (h : Heap) : Except Exit Unit × Heap :=
  match layerForward alloc 0 h with
  | (.error e, h) => (.error e, h)
  | (.ok (), h) =>
    match hiddenRounds alloc NUM_HIDDEN_LAYERS h with
    | (.error e, h) => (.error e, h)
    | (.ok (), h) => layerForward alloc (1 + NUM_HIDDEN_LAYERS) h

/-- `tens_hash(input, seed, output)`: `tens_hash_init`, one evaluation, `tens_hash_free`. -/
def tensHash (alloc : Alloc Site) (h : Heap) : Except (BadAlloc ⊕ Exit) Unit × Heap :=
  match tensHashInit alloc h with
  | (.error e, h) => (.error (.inl e), h)
  | (.ok none, h) => (.ok (), h)
  | (.ok (some p), h) =>
    match tensHashPrecomputed alloc h with
    | (.error e, h) => (.error (.inr e), h)
    | (.ok (), h) => (.ok (), tensHashFree p h)

/-! ## Heap-neutral steps

The vectors and `x_mapped` are freed on every path, so each of these steps leaves the heap as it
found it, and ends as its value-level function does. -/

theorem generateDenseMatrix_heap (chacha : ChaCha20) (alloc : Alloc Site) (rows cols : Nat)
    (seed : Buf U8) (nonceCounter : Nat) (matrix : Buf I8) (h : Heap) :
    ∃ h', generateDenseMatrix alloc nonceCounter h =
        ((Ternary.generateDenseMatrix chacha alloc rows cols seed nonceCounter matrix).map
          (fun _ => ()), h') ∧ Owns h h' [] := by
  cases hk : alloc (.keystream nonceCounter) with
  | none =>
    exact ⟨h, by simp [generateDenseMatrix, Ternary.generateDenseMatrix, malloc_of_none _ hk, hk,
      Except.map], Owns.refl h⟩
  | some _ =>
  cases hb : alloc (.keyBytes nonceCounter) with
  | none =>
    exact ⟨h.handOut.freeAll [some h.next], by simp [generateDenseMatrix,
      Ternary.generateDenseMatrix, malloc_of_some _ hk, malloc_of_none _ hb, hk, hb, Except.map],
      (Owns.refl h).handOut.freeAll_all (by simp)⟩
  | some _ =>
    exact ⟨h.handOut.handOut.freeAll [some h.handOut.next, some h.next], by
      simp [generateDenseMatrix, Ternary.generateDenseMatrix, malloc_of_some _ hk,
        malloc_of_some _ hb, hk, hb, Except.map],
      (Owns.refl h).handOut.handOut.freeAll_all (List.Perm.swap _ _ _)⟩

theorem generateHidden_heap (chacha : ChaCha20) (alloc : Alloc Site) (seed : Buf U8)
    (hiddenMats : Buf I8) (n : Nat) (h : Heap) :
    ∃ h', generateHidden alloc n h =
        ((Ternary.generateHidden chacha alloc seed hiddenMats n).map (fun _ => ()), h') ∧
        Owns h h' [] := by
  induction n with
  | zero => exact ⟨h, rfl, Owns.refl h⟩
  | succ r ih =>
    obtain ⟨h₁, hg, ho₁⟩ := ih
    cases hv : Ternary.generateHidden chacha alloc seed hiddenMats r with
    | error e =>
      refine ⟨h₁, ?_, ho₁⟩
      simp only [generateHidden, Ternary.generateHidden, hg, hv, Except.map]
      rfl
    | ok hm =>
      obtain ⟨h₂, hd, ho₂⟩ := generateDenseMatrix_heap chacha alloc TENS_HIDDEN TENS_HIDDEN seed
        (1 + r) (offset hm (r * TENS_HIDDEN * TENS_HIDDEN)) h₁
      refine ⟨h₂, ?_, ho₁.trans ho₂⟩
      simp only [generateHidden, Ternary.generateHidden, hg, hv, Except.map, hd, bind,
        Except.bind]
      cases Ternary.generateDenseMatrix chacha alloc TENS_HIDDEN TENS_HIDDEN seed (1 + r)
        (offset hm (r * TENS_HIDDEN * TENS_HIDDEN)) <;> rfl

theorem generateAllMatrices_heap (chacha : ChaCha20) (alloc : Alloc Site) (ctx : TensHashContext)
    (seed : Buf U8) (h : Heap) :
    ∃ h', generateAllMatrices alloc h =
        ((Ternary.generateAllMatrices chacha alloc ctx seed).map (fun _ => ()), h') ∧
        Owns h h' [] := by
  obtain ⟨h₁, he, ho₁⟩ := generateDenseMatrix_heap chacha alloc TENS_HIDDEN INPUT_BITS seed 0
    ctx.expansionMat h
  cases hve : Ternary.generateDenseMatrix chacha alloc TENS_HIDDEN INPUT_BITS seed 0
    ctx.expansionMat with
  | error e =>
    exact ⟨h₁, by simp only [generateAllMatrices, Ternary.generateAllMatrices, he, hve,
      Except.map, bind, Except.bind], ho₁⟩
  | ok _ =>
  obtain ⟨h₂, hh, ho₂⟩ := generateHidden_heap chacha alloc seed ctx.hiddenMats NUM_HIDDEN_LAYERS h₁
  cases hvh : Ternary.generateHidden chacha alloc seed ctx.hiddenMats NUM_HIDDEN_LAYERS with
  | error e =>
    exact ⟨h₂, by simp only [generateAllMatrices, Ternary.generateAllMatrices, he, hve, hh, hvh,
      Except.map, bind, Except.bind], ho₁.trans ho₂⟩
  | ok _ =>
  obtain ⟨h₃, hc, ho₃⟩ := generateDenseMatrix_heap chacha alloc INPUT_BITS TENS_HIDDEN seed
    (1 + NUM_HIDDEN_LAYERS) ctx.compressionMat h₂
  refine ⟨h₃, ?_, (ho₁.trans ho₂).trans ho₃⟩
  simp only [generateAllMatrices, Ternary.generateAllMatrices, he, hve, hh, hvh, hc, Except.map,
    bind, Except.bind]
  cases Ternary.generateDenseMatrix chacha alloc INPUT_BITS TENS_HIDDEN seed
    (1 + NUM_HIDDEN_LAYERS) ctx.compressionMat <;> rfl

theorem layerForward_heap (alloc : Alloc Site) (layer : Nat) (matrix : Buf I8) (inDim outDim : Nat)
    (input output : Buf I8) (h : Heap) :
    ∃ h', layerForward alloc layer h =
        ((Ternary.layerForward (alloc (.xMapped layer)) matrix inDim outDim input output).map
          (fun _ => ()), h') ∧ Owns h h' [] := by
  cases hx : alloc (.xMapped layer) with
  | none =>
    exact ⟨h, by simp [layerForward, malloc_of_none _ hx, Ternary.layerForward, Except.map],
      Owns.refl h⟩
  | some _ =>
    exact ⟨h.handOut.freeAll [some h.next], by simp [layerForward, malloc_of_some _ hx,
      Ternary.layerForward, Except.map], (Owns.refl h).handOut.freeAll_all (by simp)⟩

theorem hiddenRounds_heap (alloc : Alloc Site) (ctx : TensHashContext) (n : Nat) (h : Heap) :
    ∃ h', hiddenRounds alloc n h = ((Ternary.hiddenRounds alloc ctx n).map (fun _ => ()), h') ∧
      Owns h h' [] := by
  induction n with
  | zero => exact ⟨h, rfl, Owns.refl h⟩
  | succ r ih =>
    obtain ⟨h₁, hr, ho₁⟩ := ih
    cases hv : Ternary.hiddenRounds alloc ctx r with
    | error e =>
      refine ⟨h₁, ?_, ho₁⟩
      simp only [hiddenRounds, Ternary.hiddenRounds, hr, hv, Except.map]
      rfl
    | ok c =>
      obtain ⟨h₂, hl, ho₂⟩ := layerForward_heap alloc (1 + r)
        (offset c.hiddenMats (r * TENS_HIDDEN * TENS_HIDDEN)) TENS_HIDDEN TENS_HIDDEN c.state
        c.nextState h₁
      refine ⟨h₂, ?_, ho₁.trans ho₂⟩
      simp only [hiddenRounds, Ternary.hiddenRounds, hr, hv, hl, Except.map, bind, Except.bind]
      cases Ternary.layerForward (alloc (.xMapped (1 + r)))
        (offset c.hiddenMats (r * TENS_HIDDEN * TENS_HIDDEN)) TENS_HIDDEN TENS_HIDDEN c.state
        c.nextState <;> rfl

theorem tensHashPrecomputed_heap (alloc : Alloc Site) (input : Buf U8) (ctx : TensHashContext)
    (output : Buf U8) (h : Heap) :
    ∃ h', tensHashPrecomputed alloc h =
        ((Ternary.tensHashPrecomputed alloc input ctx output).map (fun _ => ()), h') ∧
        Owns h h' [] := by
  obtain ⟨h₁, hl, ho₁⟩ := layerForward_heap alloc 0 ctx.expansionMat INPUT_BITS TENS_HIDDEN
    (loadInput input ctx.state) ctx.nextState h
  cases hv : Ternary.layerForward (alloc (.xMapped 0)) ctx.expansionMat INPUT_BITS TENS_HIDDEN
    (loadInput input ctx.state) ctx.nextState with
  | error e =>
    exact ⟨h₁, by simp only [tensHashPrecomputed, Ternary.tensHashPrecomputed, hl, hv,
      Except.map, bind, Except.bind], ho₁⟩
  | ok next =>
  obtain ⟨h₂, hr, ho₂⟩ := hiddenRounds_heap alloc
    { ctx with state := next, nextState := loadInput input ctx.state } NUM_HIDDEN_LAYERS h₁
  cases hvr : Ternary.hiddenRounds alloc
    { ctx with state := next, nextState := loadInput input ctx.state } NUM_HIDDEN_LAYERS with
  | error e =>
    exact ⟨h₂, by simp only [tensHashPrecomputed, Ternary.tensHashPrecomputed, hl, hv, hr, hvr,
      Except.map, bind, Except.bind], ho₁.trans ho₂⟩
  | ok c =>
  obtain ⟨h₃, hc, ho₃⟩ := layerForward_heap alloc (1 + NUM_HIDDEN_LAYERS) c.compressionMat
    TENS_HIDDEN INPUT_BITS c.state c.nextState h₂
  refine ⟨h₃, ?_, (ho₁.trans ho₂).trans ho₃⟩
  simp only [tensHashPrecomputed, Ternary.tensHashPrecomputed, hl, hv, hr, hvr, hc, Except.map,
    bind, Except.bind]
  cases Ternary.layerForward (alloc (.xMapped (1 + NUM_HIDDEN_LAYERS))) c.compressionMat
    TENS_HIDDEN INPUT_BITS c.state c.nextState <;> rfl

/-! ## The context -/

/-- `alloc_context_buffers` succeeds exactly when the value-level function does, with five
non-null buffers; whatever the outcome, the heap gains the buffers that were allocated. -/
theorem allocContextBuffers_cases (alloc : Alloc Site) (ctx : Nat) (h : Heap) :
    (allocContextBuffers alloc ctx h).1 = (Ternary.allocContextBuffers alloc).isSome ∧
      (allocContextBuffers alloc ctx h).2.1.ctx = ctx ∧
      ((allocContextBuffers alloc ctx h).1 = true →
        ∀ q ∈ (allocContextBuffers alloc ctx h).2.1.buffers, q.isSome) ∧
      Owns h (allocContextBuffers alloc ctx h).2.2
        (allocContextBuffers alloc ctx h).2.1.buffers.reduceOption := by
  have ho := (((((Owns.refl h).malloc alloc .expansionMat).malloc alloc .hiddenMats).malloc alloc
    .compressionMat).malloc alloc .state).malloc alloc .nextState
  refine ⟨?_, rfl, ?_, by simpa [allocContextBuffers, ContextPtrs.buffers, reduceOption_cons]
    using ho⟩
  · simp only [allocContextBuffers, malloc_fst_isSome, Ternary.allocContextBuffers]
    cases alloc .expansionMat <;> cases alloc .hiddenMats <;> cases alloc .compressionMat <;>
      cases alloc .state <;> cases alloc .nextState <;> rfl
  · intro hok q hq
    simp only [allocContextBuffers, Bool.and_eq_true, ContextPtrs.buffers, List.mem_cons,
      List.mem_singleton, List.not_mem_nil, or_false] at hok hq
    obtain ⟨⟨⟨⟨he, hh⟩, hc⟩, hs⟩, hn⟩ := hok
    rcases hq with rfl | rfl | rfl | rfl | rfl <;> assumption

/-- Every outcome of `tens_hash_init`, whatever the allocator: `NULL` with the heap as before,
whichever allocation failed; a context whose struct and five buffers are added to the heap; or
the `std::bad_alloc` of a vector, with those six blocks still allocated. The value-level function
takes the same branch. -/
theorem tensHashInit_cases (chacha : ChaCha20) (seed : Buf U8) (alloc : Alloc Site) (h : Heap) :
    (∃ h', tensHashInit alloc h = (.ok none, h') ∧
        Ternary.tensHashInit chacha alloc seed = .ok none ∧ Owns h h' []) ∨
      (∃ (p : ContextPtrs) (h' : Heap), tensHashInit alloc h = (.ok (some p), h') ∧
        (∃ ctx, Ternary.tensHashInit chacha alloc seed = .ok (some ctx)) ∧
        (∀ q ∈ p.buffers, q.isSome) ∧ Owns h h' (p.ctx :: p.buffers.reduceOption)) ∨
      ∃ (p : ContextPtrs) (h' : Heap), tensHashInit alloc h = (.error .badAlloc, h') ∧
        Ternary.tensHashInit chacha alloc seed = .error .badAlloc ∧
        (∀ q ∈ p.buffers, q.isSome) ∧ Owns h h' (p.ctx :: p.buffers.reduceOption) := by
  cases hc : alloc .ctx with
  | none =>
    exact .inl ⟨h, by simp [tensHashInit, malloc_of_none _ hc], by
      simp [Ternary.tensHashInit, hc], Owns.refl h⟩
  | some _ =>
  obtain ⟨hok, hctx, hall, ho₁⟩ := allocContextBuffers_cases alloc h.next h.handOut
  generalize hab : allocContextBuffers alloc h.next h.handOut = ab at hok hctx hall ho₁
  obtain ⟨ok, p, h₁⟩ := ab
  simp only at hok hctx hall ho₁
  have ho₂ : Owns h h₁ (p.ctx :: p.buffers.reduceOption) := by
    rw [hctx]; exact (Owns.refl h).handOut.trans ho₁
  cases ok with
  | false =>
    refine .inl ⟨h₁.freeAll (p.buffers ++ [some p.ctx]), by
      simp [tensHashInit, malloc_of_some _ hc, hab, tensHashFree], ?_, ho₂.freeAll_all ?_⟩
    · cases hv : Ternary.allocContextBuffers alloc with
      | none => simp [Ternary.tensHashInit, hc, hv]
      | some _ => simp [hv] at hok
    · simp [List.reduceOption_append]
  | true =>
  obtain ⟨ctxv, hv⟩ := Option.isSome_iff_exists.mp hok.symm
  have hinit : Ternary.tensHashInit chacha alloc seed =
      some <$> Ternary.generateAllMatrices chacha alloc ctxv (swapSeed seed) := by
    simp [Ternary.tensHashInit, hc, hv]
  obtain ⟨h₂, hg, ho₃⟩ := generateAllMatrices_heap chacha alloc ctxv (swapSeed seed) h₁
  have hpre : tensHashInit alloc h =
      match ((Ternary.generateAllMatrices chacha alloc ctxv (swapSeed seed)).map (fun _ => ()), h₂)
        with
      | (.error e, h) => (.error e, h)
      | (.ok (), h) => (.ok (some p), h) := by
    simp only [tensHashInit, malloc_of_some _ hc, hab, hg]
  rw [hinit]
  cases hgv : Ternary.generateAllMatrices chacha alloc ctxv (swapSeed seed) with
  | error e =>
    cases e
    simp only [hgv, Except.map] at hpre
    exact .inr (.inr ⟨p, h₂, hpre, rfl, hall rfl, ho₂.trans_nil ho₃⟩)
  | ok c =>
    simp only [hgv, Except.map] at hpre
    exact .inr (.inl ⟨p, h₂, hpre, ⟨c, rfl⟩, hall rfl, ho₂.trans_nil ho₃⟩)

/-- `tens_hash_init` and `tens_hash_free` undo each other on the heap, for every allocator: a
`NULL` return leaves the heap as it was (its own `tens_hash_free` frees the buffers that were
allocated), and `tens_hash_free` on a returned context gives back the heap of before the call,
with no bad `free`; when a vector throws, the context and its five buffers stay allocated.
`tens_hash_init` returns or throws as the value-level function does. -/
theorem tensHashInit_tensHashFree (chacha : ChaCha20) (seed : Buf U8) (alloc : Alloc Site)
    (h : Heap) :
    (tensHashInit alloc h).1.map Option.isSome =
        (Ternary.tensHashInit chacha alloc seed).map Option.isSome ∧
      ((∃ h', tensHashInit alloc h = (.ok none, h') ∧ Owns h h' []) ∨
        (∃ p h', tensHashInit alloc h = (.ok (some p), h') ∧ Owns h (tensHashFree p h') []) ∨
        ∃ (p : ContextPtrs) (h' : Heap), tensHashInit alloc h = (.error .badAlloc, h') ∧
          (∀ q ∈ p.buffers, q.isSome) ∧ Owns h h' (p.ctx :: p.buffers.reduceOption)) := by
  rcases tensHashInit_cases chacha seed alloc h with
    ⟨h', hi, hv, ho⟩ | ⟨p, h', hi, ⟨ctx, hv⟩, -, ho⟩ | ⟨p, h', hi, hv, hall, ho⟩
  · exact ⟨by rw [hi, hv]; rfl, .inl ⟨h', hi, ho⟩⟩
  · refine ⟨by rw [hi, hv]; rfl, .inr (.inl ⟨p, h', hi, ho.freeAll_all ?_⟩)⟩
    simp [List.reduceOption_append]
  · exact ⟨by rw [hi, hv]; rfl, .inr (.inr ⟨p, h', hi, hall, ho⟩)⟩

/-! ## The one-shot `tens_hash` -/

/-- The one-shot `tens_hash` ends as the value-level one does, never frees a block that is not
live, and leaves the heap as it found it whenever it returns. When a `std::bad_alloc` escapes it,
exactly six blocks are left allocated, the context and its five buffers, with nothing pointing to
them. -/
theorem tensHash_restores_or_leaks (chacha : ChaCha20) (alloc : Alloc Site)
    (input seed output : Buf U8) (h : Heap) :
    (tensHash alloc h).1 = (Ternary.tensHash chacha alloc input seed output).map (fun _ => ()) ∧
      ∃ own, Owns h (tensHash alloc h).2 own ∧
        ((tensHash alloc h).1 = .ok () → own = []) ∧
        ((tensHash alloc h).1 = .error (.inl .badAlloc) → own.length = 6) := by
  rcases tensHashInit_cases chacha seed alloc h with
    ⟨h₁, hi, hv, ho₁⟩ | ⟨p, h₁, hi, ⟨ctx, hv⟩, hall, ho₁⟩ | ⟨p, h₁, hi, hv, hall, ho₁⟩
  · simp only [tensHash, Ternary.tensHash, hi, hv]
    exact ⟨rfl, [], ho₁, fun _ => rfl, (fun h => nomatch h)⟩
  · obtain ⟨h₂, hp, ho₂⟩ := tensHashPrecomputed_heap alloc input ctx output h₁
    cases hpv : Ternary.tensHashPrecomputed alloc input ctx output with
    | error e =>
      simp only [tensHash, Ternary.tensHash, hi, hv, hp, hpv, Except.map]
      exact ⟨trivial, _, ho₁.trans_nil ho₂, (fun h => nomatch h), (fun h => nomatch h)⟩
    | ok r =>
      simp only [tensHash, Ternary.tensHash, hi, hv, hp, hpv, Except.map]
      refine ⟨trivial, [], (ho₁.trans_nil ho₂).freeAll_all ?_, fun _ => rfl, (fun h => nomatch h)⟩
      simp [List.reduceOption_append]
  · simp only [tensHash, Ternary.tensHash, hi, hv]
    refine ⟨rfl, _, ho₁, (fun h => nomatch h), fun _ => ?_⟩
    rw [List.length_cons, List.reduceOption_length_eq_iff.mpr hall]
    rfl

end Mem
end Ternary
end TensHash

import TensHash.TestPow
import TensHash.Node.Memory

/-!
# TensHash.TestPow.Memory

Who owns which block in the stand-alone tool (`src/test_pow/tens_hash.c`): its
`precompute_matrices` (lines 157–231), which gives each matrix one data block behind its pointer
array, with a cleanup at each of its seven failure points; `generate_matrices`' `data` block
(lines 65–89); `free_matrices` (lines 234–255); and the one-shot `tens_hash` (lines 132–149),
which builds, evaluates once and frees. The definitions here, in namespace `TestPow.Mem`, follow
the code's `malloc` and `free` calls on `Heap`.

* `precomputeMatrices_cases`: whichever allocation fails, `NULL` comes back with the heap as
  before; on success exactly the blocks `free_matrices` frees are added; the value-level function
  takes the same branch.
* `tensHash_restores_heap`: the one-shot `tens_hash` ends as the value-level one does, never
  frees a block that is not live, and, except at the `exit(1)` inside `generate_matrices`, leaves
  the heap as it found it.
-/

namespace TensHash
namespace TestPow
namespace Mem

open Heap

/-- The blocks of a set the tool's `precompute_matrices` returns: the struct, and for each matrix
its pointer array and its data block. -/
structure MatricesPtrs where
  matrices : Nat
  expandMat : Nat
  expandBlock : Nat
  middleMats : Nat → Nat
  middleBlocks : Nat → Nat
  compressMat : Nat
  compressBlock : Nat

/-- The cleanup of the middle matrices `j < r`:
`for (j = 0; j < r; j++) { free(matrices->middle_mats[j][0]); free(matrices->middle_mats[j]); }` -/
def roundFrees (mats blocks : Nat → Nat) (r : Nat) : List Ptr :=
  (List.range r).flatMap fun j => [some (blocks j), some (mats j)]

/-- The blocks of the middle matrices `j < r`, in the order they are allocated. -/
def roundBlocks (mats blocks : Nat → Nat) (r : Nat) : List Nat :=
  (List.range r).flatMap fun j => [mats j, blocks j]

/-- `free_matrices(matrices)` on a set `precompute_matrices` returned, every pointer non-null. -/
def matricesFrees (m : MatricesPtrs) : List Ptr :=
  [some m.expandBlock, some m.expandMat] ++ roundFrees m.middleMats m.middleBlocks ROUNDS ++
    [some m.compressBlock, some m.compressMat, some m.matrices]

/-- `free_matrices(matrices)`. -/
def freeMatrices (m : MatricesPtrs) (h : Heap) : Heap := h.freeAll (matricesFrees m)

/-- The round loop of `precompute_matrices` for `r < n`: the pointer array of `middle_mats[r]`,
then its block. On a `NULL` the cleanup the code writes there runs; `.error` carries the heap
after it. -/
def mallocMiddle (alloc : Alloc Site) (matrices expandMat expandBlock : Nat) :
    Nat → Heap → Except Heap ((Nat → Nat) × (Nat → Nat) × Heap)
  | 0, h => .ok (fun _ => 0, fun _ => 0, h)
  | r + 1, h =>
    match mallocMiddle alloc matrices expandMat expandBlock r h with
    | .error h => .error h
    | .ok (mats, blocks, h) =>
      match h.malloc alloc (.middleMats r) with
      | (none, h) => .error (h.freeAll (roundFrees mats blocks r ++
          [some expandBlock, some expandMat, some matrices]))
      | (some p, h) =>
        match h.malloc alloc (.middleBlock r) with
        | (none, h) => .error (h.freeAll (roundFrees mats blocks r ++
            [some p, some expandBlock, some expandMat, some matrices]))
        | (some b, h) => .ok (Function.update mats r p, Function.update blocks r b, h)

/-- `generate_matrices`' own block: `data`, freed before it returns; `exit(1)` when it cannot be
allocated. -/
def generateMatrices (alloc : Alloc Site) (h : Heap) : Except Exit Unit × Heap :=
  match h.malloc alloc .data with
  | (none, h) => (.error ⟨1, "Memory allocation error in generate_matrices\n"⟩, h)
  | (some d, h) => (.ok (), h.freeAll [some d])

/-- `precompute_matrices(seed)`: the set's blocks, `NULL` after the cleanup of the failure point,
or the `exit(1)` of `generate_matrices`, with the heap afterwards. -/
def precomputeMatrices (alloc : Alloc Site) (h : Heap) :
    Except Exit (Option MatricesPtrs) × Heap :=
  match h.malloc alloc .matrices with
  | (none, h) => (.ok none, h)
  | (some m, h) =>
    match h.malloc alloc .expandMat with
    | (none, h) => (.ok none, h.freeAll [some m])
    | (some e, h) =>
      match h.malloc alloc .expandBlock with
      | (none, h) => (.ok none, h.freeAll [some e, some m])
      | (some eb, h) =>
        match mallocMiddle alloc m e eb ROUNDS h with
        | .error h => (.ok none, h)
        | .ok (mats, blocks, h) =>
          match h.malloc alloc .compressMat with
          | (none, h) => (.ok none, h.freeAll (roundFrees mats blocks ROUNDS ++
              [some eb, some e, some m]))
          | (some c, h) =>
            match h.malloc alloc .compressBlock with
            | (none, h) => (.ok none, h.freeAll (roundFrees mats blocks ROUNDS ++
                [some c, some eb, some e, some m]))
            | (some cb, h) =>
              match generateMatrices alloc h with
              | (.error err, h) => (.error err, h)
              | (.ok (), h) => (.ok (some ⟨m, e, eb, mats, blocks, c, cb⟩), h)

/-- `init_hash_buffers()`. -/
def initHashBuffers (alloc : Alloc Site) : Heap → Option BuffersPtrs × Heap :=
  initBuffers alloc .buffers .state .nextState .noise

/-- `tens_hash(input, seed, output)`: build, evaluate once, free; how it ends, and the heap. -/
def tensHash (alloc : Alloc Site) (h : Heap) : Except Exit Unit × Heap :=
  match precomputeMatrices alloc h with
  | (.error e, h) => (.error e, h)
  | (.ok none, h) => (.error ⟨1, "Failed to precompute matrices.\n"⟩, h)
  | (.ok (some m), h) =>
    match initHashBuffers alloc h with
    | (none, h) => (.error ⟨1, "Failed to initialize hash buffers.\n"⟩, freeMatrices m h)
    | (some b, h) => (.ok (), freeHashBuffers b (freeMatrices m h))

/-! ## Block lists -/

/-- The middle matrices' cleanup frees the blocks they were allocated with. -/
theorem roundFrees_perm (mats blocks : Nat → Nat) (r : Nat) :
    (roundFrees mats blocks r).reduceOption.Perm (roundBlocks mats blocks r) := by
  induction r with
  | zero => rfl
  | succ r ih =>
    simp only [roundFrees, roundBlocks, List.range_succ, List.flatMap_append] at ih ⊢
    simp only [List.flatMap_cons, List.flatMap_nil, List.append_nil, List.reduceOption_append,
      List.reduceOption_cons_of_some, List.reduceOption_nil]
    exact ih.append (List.Perm.swap _ _ _)

theorem roundBlocks_update (mats blocks : Nat → Nat) (r p b : Nat) :
    roundBlocks (Function.update mats r p) (Function.update blocks r b) (r + 1) =
      roundBlocks mats blocks r ++ [p, b] := by
  simp only [roundBlocks, List.range_succ, List.flatMap_append, List.flatMap_cons,
    List.flatMap_nil, List.append_nil, Function.update_same]
  congr 1
  refine List.flatMap_congr fun j hj => ?_
  have hj : j ≠ r := (List.mem_range.mp hj).ne
  rw [Function.update_noteq hj, Function.update_noteq hj]

/-! ## `precompute_matrices` -/

/-- Every outcome of the round loop, after the expansion is allocated: all `n` middle matrices
allocated and owned, or a `NULL` after whose cleanup the heap is as before the call; the
value-level loop takes the same branch. -/
theorem mallocMiddle_cases (alloc : Alloc Site) {h₀ h : Heap} {m e eb : Nat}
    (ho : Owns h₀ h [m, e, eb]) (n : Nat) :
    (∃ h', mallocMiddle alloc m e eb n h = .error h' ∧ allocMiddle alloc n = none ∧
        Owns h₀ h' []) ∨
      ∃ mats blocks h', mallocMiddle alloc m e eb n h = .ok (mats, blocks, h') ∧
        (allocMiddle alloc n).isSome ∧ Owns h₀ h' ([m, e, eb] ++ roundBlocks mats blocks n) := by
  induction n with
  | zero => exact .inr ⟨_, _, h, rfl, rfl, by simpa [roundBlocks] using ho⟩
  | succ r ih =>
    rcases ih with ⟨h₁, hr, hv, ho₁⟩ | ⟨mats, blocks, h₁, hr, hv, ho₁⟩
    · exact .inl ⟨h₁, by simp [mallocMiddle, hr], by simp [allocMiddle, hv], ho₁⟩
    obtain ⟨mv, hmv⟩ := Option.isSome_iff_exists.mp hv
    have hperm := (roundFrees_perm mats blocks r).count_eq
    cases hp : alloc (.middleMats r) with
    | none =>
      refine .inl ⟨h₁.freeAll (roundFrees mats blocks r ++ [some eb, some e, some m]),
        by simp [mallocMiddle, hr, malloc_of_none _ hp], by simp [allocMiddle, hmv, hp],
        ho₁.freeAll_all (List.perm_iff_count.mpr fun a => ?_)⟩
      simp only [List.reduceOption_append, List.reduceOption_cons_of_some,
        List.reduceOption_nil, List.cons_append, List.count_append, List.count_cons,
        List.count_nil, hperm a]
      omega
    | some _ =>
    have ho₂ := ho₁.handOut
    cases hb : alloc (.middleBlock r) with
    | none =>
      refine .inl ⟨h₁.handOut.freeAll (roundFrees mats blocks r ++
          [some h₁.next, some eb, some e, some m]),
        by simp [mallocMiddle, hr, malloc_of_some _ hp, malloc_of_none _ hb], by
          simp [allocMiddle, hmv, hp, hb], ho₂.freeAll_all (List.perm_iff_count.mpr fun a => ?_)⟩
      simp only [List.reduceOption_append, List.reduceOption_cons_of_some,
        List.reduceOption_nil, List.cons_append, List.count_append, List.count_cons,
        List.count_nil, hperm a]
      omega
    | some _ =>
      refine .inr ⟨Function.update mats r h₁.next, Function.update blocks r h₁.handOut.next,
        h₁.handOut.handOut, by simp [mallocMiddle, hr, malloc_of_some _ hp, malloc_of_some _ hb],
        by simp [allocMiddle, hmv, hp, hb], ?_⟩
      rw [roundBlocks_update]
      simpa using ho₂.handOut

/-- Every outcome of `generate_matrices`: it returns with `data` freed, or exits having allocated
nothing; the value-level function takes the same branch. -/
theorem generateMatrices_cases (sodium : SodiumChaCha20) (alloc : Alloc Site)
    (m : PrecomputedMatrices) (seed : Buf U8) (h : Heap) :
    (∃ h', generateMatrices alloc h = (.ok (), h') ∧ Owns h h' [] ∧
        ∃ mv, TestPow.generateMatrices sodium alloc m seed = .ok mv) ∨
      generateMatrices alloc h = (.error ⟨1, "Memory allocation error in generate_matrices\n"⟩, h) ∧
        TestPow.generateMatrices sodium alloc m seed =
          .error ⟨1, "Memory allocation error in generate_matrices\n"⟩ := by
  cases hd : alloc .data with
  | none =>
    exact .inr ⟨by simp [generateMatrices, malloc_of_none _ hd], by
      simp [TestPow.generateMatrices, hd]⟩
  | some _ =>
    exact .inl ⟨h.handOut.freeAll [some h.next], by simp [generateMatrices, malloc_of_some _ hd],
      (Owns.refl h).handOut.freeAll_all (by simp), _, by simp [TestPow.generateMatrices, hd]; rfl⟩

/-- Every outcome of the tool's `precompute_matrices`, whichever allocation fails: on `NULL` the
heap is as before the call; on success the blocks added are exactly the ones `free_matrices`
frees; at the `exit(1)` of `generate_matrices` they are still allocated. The value-level function
takes the same branch. -/
theorem precomputeMatrices_cases (sodium : SodiumChaCha20) (seed : Buf U8) (alloc : Alloc Site)
    (h : Heap) :
    (∃ h', precomputeMatrices alloc h = (.ok none, h') ∧
        TestPow.precomputeMatrices sodium alloc seed = .ok none ∧ Owns h h' []) ∨
      (∃ ptrs h' own, precomputeMatrices alloc h = (.ok (some ptrs), h') ∧
        (∃ mv, TestPow.precomputeMatrices sodium alloc seed = .ok (some mv)) ∧
        own.Perm (matricesFrees ptrs).reduceOption ∧ Owns h h' own) ∨
      ∃ h' own, precomputeMatrices alloc h =
          (.error ⟨1, "Memory allocation error in generate_matrices\n"⟩, h') ∧
        TestPow.precomputeMatrices sodium alloc seed =
          .error ⟨1, "Memory allocation error in generate_matrices\n"⟩ ∧ Owns h h' own := by
  generalize hp : precomputeMatrices alloc h = p
  cases hm : alloc .matrices with
  | none =>
    simp only [precomputeMatrices, malloc_of_none _ hm] at hp
    subst hp
    exact .inl ⟨_, rfl, by simp [TestPow.precomputeMatrices, allocMatrices, hm], Owns.refl h⟩
  | some _ =>
  simp only [precomputeMatrices, malloc_of_some _ hm] at hp
  have ho₁ : Owns h h.handOut [h.next] := (Owns.refl h).handOut
  cases he : alloc .expandMat with
  | none =>
    simp only [malloc_of_none _ he] at hp
    subst hp
    exact .inl ⟨_, rfl, by simp [TestPow.precomputeMatrices, allocMatrices, hm, he],
      ho₁.freeAll_all (by simp)⟩
  | some _ =>
  simp only [malloc_of_some _ he] at hp
  have ho₂ : Owns h h.handOut.handOut [h.next, h.handOut.next] := ho₁.handOut
  cases heb : alloc .expandBlock with
  | none =>
    simp only [malloc_of_none _ heb] at hp
    subst hp
    exact .inl ⟨_, rfl, by simp [TestPow.precomputeMatrices, allocMatrices, hm, he, heb],
      ho₂.freeAll_all (List.Perm.swap _ _ _)⟩
  | some ebv =>
  simp only [malloc_of_some _ heb] at hp
  have ho₃ : Owns h h.handOut.handOut.handOut
      [h.next, h.handOut.next, h.handOut.handOut.next] := ho₂.handOut
  rcases mallocMiddle_cases alloc ho₃ ROUNDS with
    ⟨h₄, hmid, hv, ho₄⟩ | ⟨mats, blocks, h₄, hmid, hv, ho₄⟩
  · simp only [hmid] at hp
    subst hp
    exact .inl ⟨_, rfl, by simp [TestPow.precomputeMatrices, allocMatrices, hm, he, heb, hv], ho₄⟩
  simp only [hmid] at hp
  obtain ⟨mv, hmv⟩ := Option.isSome_iff_exists.mp hv
  have hperm := (roundFrees_perm mats blocks ROUNDS).count_eq
  cases hc : alloc .compressMat with
  | none =>
    simp only [malloc_of_none _ hc] at hp
    subst hp
    refine .inl ⟨_, rfl, by simp [TestPow.precomputeMatrices, allocMatrices, hm, he, heb, hmv, hc],
      ho₄.freeAll_all (List.perm_iff_count.mpr fun a => ?_)⟩
    simp only [List.reduceOption_append, List.reduceOption_cons_of_some, List.reduceOption_nil,
      List.cons_append, List.count_append, List.count_cons, List.count_nil, hperm a]
    omega
  | some _ =>
  simp only [malloc_of_some _ hc] at hp
  have ho₅ := ho₄.handOut
  cases hcb : alloc .compressBlock with
  | none =>
    simp only [malloc_of_none _ hcb] at hp
    subst hp
    refine .inl ⟨_, rfl, by
      simp [TestPow.precomputeMatrices, allocMatrices, hm, he, heb, hmv, hc, hcb],
      ho₅.freeAll_all (List.perm_iff_count.mpr fun a => ?_)⟩
    simp only [List.reduceOption_append, List.reduceOption_cons_of_some, List.reduceOption_nil,
      List.cons_append, List.count_append, List.count_cons, List.count_nil, hperm a]
    omega
  | some cbv =>
  simp only [malloc_of_some _ hcb] at hp
  have ho₆ := ho₅.handOut
  have hval : TestPow.precomputeMatrices sodium alloc seed =
      some <$> TestPow.generateMatrices sodium alloc ⟨ebv, mv, cbv⟩ seed := by
    simp [TestPow.precomputeMatrices, allocMatrices, hm, he, heb, hmv, hc, hcb]
  rw [hval]
  rcases generateMatrices_cases sodium alloc ⟨ebv, mv, cbv⟩ seed h₄.handOut.handOut with
    ⟨h₇, hg, ho₇, gv, hgv⟩ | ⟨hg, hgv⟩
  · simp only [hg] at hp
    subst hp
    refine .inr (.inl ⟨_, _, _, rfl, ⟨gv, by rw [hgv]; rfl⟩, List.perm_iff_count.mpr fun a => ?_,
      ho₆.trans ho₇⟩)
    simp only [matricesFrees, List.reduceOption_append, List.reduceOption_cons_of_some,
      List.reduceOption_nil, List.cons_append, List.nil_append, List.append_nil,
      List.count_append, List.count_cons, List.count_nil, hperm a]
    omega
  · simp only [hg] at hp
    subst hp
    exact .inr (.inr ⟨_, _, rfl, by rw [hgv]; rfl, ho₆⟩)

/-- The tool's `precompute_matrices` and `free_matrices` undo each other on the heap, for every
allocator: a `NULL` return leaves the heap as it was, whichever of the allocations failed, and
`free_matrices` on a returned set gives back the heap of before the call, with no bad `free`;
only at the `exit(1)` of `generate_matrices` are blocks still allocated. `precompute_matrices`
returns or exits as the value-level function does. -/
theorem precomputeBlocks_freeMatrices (sodium : SodiumChaCha20) (seed : Buf U8)
    (alloc : Alloc Site) (h : Heap) :
    (precomputeMatrices alloc h).1.map Option.isSome =
        (TestPow.precomputeMatrices sodium alloc seed).map Option.isSome ∧
      ((∃ h', precomputeMatrices alloc h = (.ok none, h') ∧ Owns h h' []) ∨
        (∃ ptrs h', precomputeMatrices alloc h = (.ok (some ptrs), h') ∧
          Owns h (freeMatrices ptrs h') []) ∨
        ∃ h', precomputeMatrices alloc h =
          (.error ⟨1, "Memory allocation error in generate_matrices\n"⟩, h')) := by
  rcases precomputeMatrices_cases sodium seed alloc h with
    ⟨h', hp, hv, ho⟩ | ⟨ptrs, h', own, hp, ⟨mv, hv⟩, hperm, ho⟩ | ⟨h', own, hp, hv, ho⟩
  · exact ⟨by rw [hp, hv]; rfl, .inl ⟨h', hp, ho⟩⟩
  · exact ⟨by rw [hp, hv]; rfl, .inr (.inl ⟨ptrs, h', hp, ho.freeAll_all hperm.symm⟩)⟩
  · exact ⟨by rw [hp, hv]; rfl, .inr (.inr ⟨h', hp⟩)⟩

/-! ## The one-shot `tens_hash` -/

/-- The one-shot `tens_hash` ends as the value-level one does (the same `exit` status and
message), never frees a block that is not live, and, at every end but the `exit(1)` inside
`generate_matrices`, leaves the heap as it found it: each block it allocates is freed once. -/
theorem tensHash_restores_heap (sodium : SodiumChaCha20) (sodiumSha : Sha256) (alloc : Alloc Site)
    (input seed output : Buf U8) (h : Heap) :
    (tensHash alloc h).1 =
        (TestPow.tensHash sodium sodiumSha alloc input seed output).map (fun _ => ()) ∧
      ∃ own, Owns h (tensHash alloc h).2 own ∧
        ((tensHash alloc h).1 ≠ .error ⟨1, "Memory allocation error in generate_matrices\n"⟩ →
          own = []) := by
  rcases precomputeMatrices_cases sodium seed alloc h with
    ⟨h₁, hp, hpv, ho₁⟩ | ⟨ptrs, h₁, own₁, hp, ⟨mv, hpv⟩, hperm, ho₁⟩ | ⟨h₁, own₁, hp, hpv, ho₁⟩
  · simp only [tensHash, TestPow.tensHash, hp, hpv]
    exact ⟨rfl, [], ho₁, fun _ => rfl⟩
  · rcases Node.Mem.initHashBuffersAt_cases alloc .buffers .state .nextState .noise h₁ with
      ⟨h₂, hb, hbv, ho₂⟩ | ⟨b, h₂, hb, hbv, ho₂⟩
    · simp only [tensHash, TestPow.tensHash, hp, hpv, initHashBuffers, TestPow.initHashBuffers, hb,
        hbv, freeMatrices]
      refine ⟨rfl, [], (ho₁.trans ho₂).freeAll_perm ?_, fun _ => rfl⟩
      simpa using hperm
    · obtain ⟨bv, hbv⟩ := Option.isSome_iff_exists.mp hbv
      simp only [tensHash, TestPow.tensHash, hp, hpv, initHashBuffers, TestPow.initHashBuffers, hb,
        hbv, freeMatrices, freeHashBuffers]
      have ho₃ : Owns h (h₂.freeAll (matricesFrees ptrs))
          [b.buffers, b.state, b.nextState, b.noise] :=
        (ho₁.trans ho₂).freeAll_perm ((hperm.append_right _).trans List.perm_append_comm)
      exact ⟨rfl, [], ho₃.freeAll_all (buffersFrees_perm b), fun _ => rfl⟩
  · simp only [tensHash, TestPow.tensHash, hp, hpv]
    exact ⟨rfl, own₁, ho₁, fun h => absurd rfl h⟩

end Mem
end TestPow
end TensHash

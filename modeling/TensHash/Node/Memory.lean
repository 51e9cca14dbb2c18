import TensHash.Node.Cache
import TensHash.Heap

/-!
# TensHash.Node.Memory

Who owns which block in the node file (`src/unnamed/part_000`): `precompute_matrices` with its
cleanup chains (lines 126–206), the blocks of `generate_all_matrices` (lines 29–80),
`init_hash_buffers` and the two `free_*` functions (lines 96–124, 208–229), and the statics of
`tens_hash` (lines 254–308). The definitions here, in namespace `Node.Mem`, follow the code's
`malloc` and `free` calls on `Heap`; what the blocks hold is the value-level model's.

* `precomputeMatrices_cases`: whichever allocation fails, `precompute_matrices` returning `NULL`
  leaves the heap as it found it, each block allocated before the failure freed exactly once; on
  success it adds exactly the blocks `free_matrices` frees; when `generate_all_matrices` throws,
  blocks stay allocated. The value-level function takes the same branch.
* `initHashBuffersAt_cases`: the same for `init_hash_buffers`, in the node file and in the tool.
* `runCalls_heap`: over every run of the cached `tens_hash`, the heap-level statics follow the
  value-level ones, no `free` is ever bad, and the heap holds exactly the statics' blocks and the
  blocks leaked by calls that threw.
-/

namespace TensHash
namespace Node
namespace Mem

open Heap

/-- The blocks of a set `precompute_matrices` returns: the struct, the pointer array and the rows
of the expansion, of each middle matrix and of the compression. -/
structure MatricesPtrs where
  matrices : Nat
  expandMat : Nat
  expandRows : Nat → Nat
  middleMats : Nat → Nat
  middleRows : Nat → Nat → Nat
  compressMat : Nat
  compressRows : Nat → Nat

/-- `for (j = 0; j < n; j++) free(rows[j]);` -/
def rowFrees (rows : Nat → Nat) (n : Nat) : List Ptr := ((List.range n).map rows).map some

/-- `for (i = 0; i < HIDDEN; i++) free(matrices->expand_mat[i]); free(matrices->expand_mat);` -/
def expandFrees (expandRows : Nat → Nat) (expandMat : Nat) : List Ptr :=
  rowFrees expandRows HIDDEN ++ [some expandMat]

/-- The middle matrices `j < r`, each its `HIDDEN` rows then its pointer array. -/
def roundFrees (middleMats : Nat → Nat) (middleRows : Nat → Nat → Nat) (r : Nat) : List Ptr :=
  (List.range r).flatMap fun j => rowFrees (middleRows j) HIDDEN ++ [some (middleMats j)]

/-- The blocks of the middle matrices `j < r` in the order they are allocated. -/
def roundBlocks (middleMats : Nat → Nat) (middleRows : Nat → Nat → Nat) (r : Nat) : List Nat :=
  (List.range r).flatMap fun j => middleMats j :: (List.range HIDDEN).map (middleRows j)

/-- `free_matrices(matrices)` on a set `precompute_matrices` returned: the expansion, the middle
matrices, the compression's rows and pointer array, the struct. -/
def matricesFrees (m : MatricesPtrs) : List Ptr :=
  expandFrees m.expandRows m.expandMat ++ roundFrees m.middleMats m.middleRows ROUNDS ++
    rowFrees m.compressRows IN_SIZE ++ [some m.compressMat, some m.matrices]

/-- `free_matrices(matrices)`. Every pointer of a set `precompute_matrices` returns is non-null,
so the function's null checks all pass. -/
def freeMatrices (m : MatricesPtrs) (h : Heap) : Heap := h.freeAll (matricesFrees m)

/-- `init_hash_buffers()`. -/
def initHashBuffers (alloc : Alloc Site) : Heap → Option BuffersPtrs × Heap :=
  initBuffers alloc .buffers .state .nextState .noise

/-- A row loop `rows[i] = malloc(...)` for `i < n` up to its cleanup: the rows and the heap, or,
when `malloc` returns `NULL` at row `i`, the index, the rows before it and the heap, for the
cleanup the caller writes at that point. -/
def mallocRows (alloc : Alloc Site) (site : Nat → Site) :
    Nat → Heap → Except (Nat × (Nat → Nat) × Heap) ((Nat → Nat) × Heap)
  | 0, h => .ok (fun _ => 0, h)
  | i + 1, h =>
    match mallocRows alloc site i h with
    | .error e => .error e
    | .ok (rows, h) =>
      match h.malloc alloc (site i) with
      | (some a, h) => .ok (Function.update rows i a, h)
      | (none, h) => .error (i, rows, h)

/-- The round loop of `precompute_matrices` for `r < n`: the pointer array of `middle_mats[r]`,
then its rows. On a `NULL` the cleanup the code writes there runs and the function returns
`NULL`; `.error` carries the heap after that cleanup. -/
def mallocMiddle (alloc : Alloc Site) (matrices expandMat : Nat) (expandRows : Nat → Nat) :
    Nat → Heap → Except Heap ((Nat → Nat) × (Nat → Nat → Nat) × Heap)
  | 0, h => .ok (fun _ => 0, fun _ _ => 0, h)
  | r + 1, h =>
    match mallocMiddle alloc matrices expandMat expandRows r h with
    | .error h => .error h
    | .ok (mats, rows, h) =>
      match h.malloc alloc (.middleMats r) with
      | (none, h) => .error (h.freeAll (expandFrees expandRows expandMat ++
          roundFrees mats rows r ++ [some matrices]))
      | (some p, h) =>
        match mallocRows alloc (.middleRow r) HIDDEN h with
        | .error (i, rs, h) => .error (h.freeAll (rowFrees rs i ++ [some p] ++
            roundFrees mats rows r ++ expandFrees expandRows expandMat ++ [some matrices]))
        | .ok (rs, h) => .ok (Function.update mats r p, Function.update rows r rs, h)

/-- `generate_all_matrices`' own blocks: `all_data`, freed before it returns, and the storage of
the two `std::vector`s, released when they go out of scope, also when the second one throws. -/
def generateAllMatrices (alloc : Alloc Site) (h : Heap) : Except BadAlloc Unit × Heap :=
  match h.malloc alloc .allData with
  | (none, h) => (.ok (), h)
  | (some d, h) =>
    match h.malloc alloc .keyBytes with
    | (none, h) => (.error .badAlloc, h)
    | (some k, h) =>
      match h.malloc alloc .outputBytes with
      | (none, h) => (.error .badAlloc, h.freeAll [some k])
      | (some o, h) => (.ok (), h.freeAll [some d, some o, some k])

/-- `precompute_matrices(seed)`: the set's blocks, `NULL` after the cleanup of the failure point,
or the exception of `generate_all_matrices`, with the heap afterwards. -/
def precomputeMatrices (alloc : Alloc Site) (h : Heap) :
    Except BadAlloc (Option MatricesPtrs) × Heap :=
  match h.malloc alloc .matrices with
  | (none, h) => (.ok none, h)
  | (some m, h) =>
    match h.malloc alloc .expandMat with
    | (none, h) => (.ok none, h.freeAll [some m])
    | (some e, h) =>
      match mallocRows alloc .expandRow HIDDEN h with
      | .error (i, er, h) => (.ok none, h.freeAll (rowFrees er i ++ [some e, some m]))
      | .ok (er, h) =>
        match mallocMiddle alloc m e er ROUNDS h with
        | .error h => (.ok none, h)
        | .ok (mats, rows, h) =>
          match h.malloc alloc .compressMat with
          | (none, h) => (.ok none, h.freeAll (roundFrees mats rows ROUNDS ++ expandFrees er e ++
              [some m]))
          | (some c, h) =>
            match mallocRows alloc .compressRow IN_SIZE h with
            | .error (i, cr, h) => (.ok none, h.freeAll (rowFrees cr i ++ [some c] ++
                roundFrees mats rows ROUNDS ++ expandFrees er e ++ [some m]))
            | .ok (cr, h) =>
              match generateAllMatrices alloc h with
              | (.error err, h) => (.error err, h)
              | (.ok (), h) => (.ok (some ⟨m, e, er, mats, rows, c, cr⟩), h)

/-! ## Block lists -/

@[simp] theorem reduceOption_rowFrees (rows : Nat → Nat) (n : Nat) :
    (rowFrees rows n).reduceOption = (List.range n).map rows :=
  reduceOption_map_some _

theorem map_range_update {α : Type} (rows : Nat → α) (n : Nat) (a : α) :
    (List.range (n + 1)).map (Function.update rows n a) = (List.range n).map rows ++ [a] := by
  rw [List.range_succ, List.map_append, List.map_singleton, Function.update_same]
  congr 1
  exact List.map_congr_left fun i hi => Function.update_noteq (List.mem_range.mp hi).ne _ _

/-- The middle matrices' cleanup frees the blocks they were allocated with. -/
theorem roundFrees_perm (mats : Nat → Nat) (rows : Nat → Nat → Nat) (r : Nat) :
    (roundFrees mats rows r).reduceOption.Perm (roundBlocks mats rows r) := by
  induction r with
  | zero => rfl
  | succ r ih =>
    simp only [roundFrees, roundBlocks, List.range_succ, List.flatMap_append] at ih ⊢
    simp only [List.flatMap_cons, List.flatMap_nil, List.append_nil, List.reduceOption_append,
      reduceOption_rowFrees, List.reduceOption_cons_of_some, List.reduceOption_nil]
    exact ih.append (List.perm_append_singleton _ _)

theorem roundBlocks_update (mats : Nat → Nat) (rows : Nat → Nat → Nat) (r p : Nat)
    (rs : Nat → Nat) :
    roundBlocks (Function.update mats r p) (Function.update rows r rs) (r + 1) =
      roundBlocks mats rows r ++ p :: (List.range HIDDEN).map rs := by
  simp only [roundBlocks, List.range_succ, List.flatMap_append, List.flatMap_cons,
    List.flatMap_nil, List.append_nil, Function.update_same]
  congr 1
  refine List.flatMap_congr fun j hj => ?_
  have hj : j ≠ r := (List.mem_range.mp hj).ne
  rw [Function.update_noteq hj, Function.update_noteq hj]

/-! ## The loops -/

/-- Every outcome of a row loop: all rows allocated, owned in order, or a `NULL` at row `i`
with the rows before it owned; the value-level loop takes the same branch. -/
theorem mallocRows_cases (alloc : Alloc Site) (site : Nat → Site) (n : Nat) (h : Heap) :
    (∃ rows h', mallocRows alloc site n h = .ok (rows, h') ∧ (allocRows alloc site n).isSome ∧
        Owns h h' ((List.range n).map rows)) ∨
      ∃ i rows h', mallocRows alloc site n h = .error (i, rows, h') ∧
        allocRows alloc site n = none ∧ Owns h h' ((List.range i).map rows) := by
  induction n with
  | zero => exact .inl ⟨_, h, rfl, rfl, Owns.refl h⟩
  | succ n ih =>
    rcases ih with ⟨rows, h₁, hr, hv, ho⟩ | ⟨i, rows, h₁, hr, hv, ho⟩
    · obtain ⟨rv, hrv⟩ := Option.isSome_iff_exists.mp hv
      cases hs : alloc (site n) with
      | none =>
        exact .inr ⟨n, rows, h₁, by simp [mallocRows, hr, malloc_of_none _ hs],
          by simp [allocRows, hrv, hs], ho⟩
      | some b =>
        refine .inl ⟨Function.update rows n h₁.next, h₁.handOut,
          by simp [mallocRows, hr, malloc_of_some _ hs], by simp [allocRows, hrv, hs], ?_⟩
        rw [map_range_update]
        exact ho.handOut
    · exact .inr ⟨i, rows, h₁, by simp [mallocRows, hr], by simp [allocRows, hv], ho⟩

/-- Every outcome of the round loop, after the expansion is allocated: all `n` middle matrices
allocated and owned in order, or a `NULL` after whose cleanup the heap is as before the call;
the value-level loop takes the same branch. -/
theorem mallocMiddle_cases (alloc : Alloc Site) {h₀ h : Heap} {m e : Nat} {er : Nat → Nat}
    (ho : Owns h₀ h ([m, e] ++ (List.range HIDDEN).map er)) (n : Nat) :
    (∃ h', mallocMiddle alloc m e er n h = .error h' ∧ allocMiddle alloc n = none ∧
        Owns h₀ h' []) ∨
      ∃ mats rows h', mallocMiddle alloc m e er n h = .ok (mats, rows, h') ∧
        (allocMiddle alloc n).isSome ∧
        Owns h₀ h' ([m, e] ++ (List.range HIDDEN).map er ++ roundBlocks mats rows n) := by
  induction n with
  | zero => exact .inr ⟨_, _, h, rfl, rfl, by simpa [roundBlocks] using ho⟩
  | succ r ih =>
    rcases ih with ⟨h₁, hr, hv, ho₁⟩ | ⟨mats, rows, h₁, hr, hv, ho₁⟩
    · exact .inl ⟨h₁, by simp [mallocMiddle, hr], by simp [allocMiddle, hv], ho₁⟩
    obtain ⟨mv, hmv⟩ := Option.isSome_iff_exists.mp hv
    have hperm := (roundFrees_perm mats rows r).count_eq
    cases hp : alloc (.middleMats r) with
    | none =>
      refine .inl ⟨h₁.freeAll (expandFrees er e ++ roundFrees mats rows r ++ [some m]),
        by simp [mallocMiddle, hr, malloc_of_none _ hp], by simp [allocMiddle, hmv, hp], ?_⟩
      refine ho₁.freeAll_all (List.perm_iff_count.mpr fun a => ?_)
      simp only [expandFrees, List.reduceOption_append, reduceOption_rowFrees,
        List.reduceOption_cons_of_some, List.reduceOption_nil, List.cons_append, List.count_append,
        List.count_cons, List.count_nil, hperm a]
      omega
    | some b =>
      have ho₂ := ho₁.handOut
      rcases mallocRows_cases alloc (.middleRow r) HIDDEN h₁.handOut with
        ⟨rs, h₂, hrs, hvr, ho₃⟩ | ⟨i, rs, h₂, hrs, hvr, ho₃⟩
      · obtain ⟨rv, hrv⟩ := Option.isSome_iff_exists.mp hvr
        refine .inr ⟨Function.update mats r h₁.next, Function.update rows r rs, h₂,
          by simp [mallocMiddle, hr, malloc_of_some _ hp, hrs], by
          simp [allocMiddle, hmv, hp, hrv], ?_⟩
        rw [roundBlocks_update, ← List.append_assoc]
        simpa using ho₂.trans ho₃
      · refine .inl ⟨h₂.freeAll (rowFrees rs i ++ [some h₁.next] ++ roundFrees mats rows r ++
          expandFrees er e ++ [some m]), by simp [mallocMiddle, hr, malloc_of_some _ hp, hrs], by
          simp [allocMiddle, hmv, hp, hvr], ?_⟩
        refine (ho₂.trans ho₃).freeAll_all (List.perm_iff_count.mpr fun a => ?_)
        simp only [expandFrees, List.reduceOption_append, reduceOption_rowFrees,
          List.reduceOption_cons_of_some, List.reduceOption_nil, List.cons_append,
          List.count_append, List.count_cons, List.count_nil, hperm a]
        omega

/-! ## `precompute_matrices` -/

/-- Every outcome of `generate_all_matrices`: it returns with its own blocks freed, or throws with
`all_data` still allocated; the value-level function takes the same branch. -/
theorem generateAllMatrices_cases (chacha : ChaCha20) (alloc : Alloc Site)
    (m : PrecomputedMatrices) (seed : Buf U8) (h : Heap) :
    (∃ h', generateAllMatrices alloc h = (.ok (), h') ∧ Owns h h' [] ∧
        ∃ mv, Node.generateAllMatrices chacha alloc m seed = .ok mv) ∨
      ∃ h', generateAllMatrices alloc h = (.error .badAlloc, h') ∧ Owns h h' [h.next] ∧
        Node.generateAllMatrices chacha alloc m seed = .error .badAlloc := by
  generalize hg : generateAllMatrices alloc h = g
  have ho₁ : Owns h h.handOut [h.next] := (Owns.refl h).handOut
  cases hd : alloc .allData with
  | none =>
    simp only [generateAllMatrices, malloc_of_none _ hd] at hg
    subst hg
    exact .inl ⟨_, rfl, Owns.refl h, m, by simp [Node.generateAllMatrices, hd]⟩
  | some _ =>
  simp only [generateAllMatrices, malloc_of_some _ hd] at hg
  cases hk : alloc .keyBytes with
  | none =>
    simp only [malloc_of_none _ hk] at hg
    subst hg
    exact .inr ⟨_, rfl, ho₁, by simp [Node.generateAllMatrices, hd, hk]⟩
  | some _ =>
  simp only [malloc_of_some _ hk] at hg
  cases ho : alloc .outputBytes with
  | none =>
    simp only [malloc_of_none _ ho] at hg
    subst hg
    exact .inr ⟨_, rfl, ho₁.handOut.freeAll (by simp), by
      simp [Node.generateAllMatrices, hd, hk, ho]⟩
  | some _ =>
    simp only [malloc_of_some _ ho] at hg
    subst hg
    refine .inl ⟨_, rfl, ho₁.handOut.handOut.freeAll_all ?_, _, by
      simp [Node.generateAllMatrices, hd, hk, ho]; rfl⟩
    simpa using List.Perm.swap _ _ _

/-- Every outcome of `precompute_matrices`, whichever allocation fails: on `NULL` the heap is as
before the call, each block allocated before the failure freed exactly once; on success the
blocks added are exactly the ones `free_matrices` frees; when `generate_all_matrices` throws,
blocks stay allocated. The value-level function takes the same branch. -/
theorem precomputeMatrices_cases (chacha : ChaCha20) (seed : Buf U8) (alloc : Alloc Site)
    (h : Heap) :
    (∃ h', precomputeMatrices alloc h = (.ok none, h') ∧
        Node.precomputeMatrices chacha alloc seed = .ok none ∧ Owns h h' []) ∨
      (∃ ptrs h' own, precomputeMatrices alloc h = (.ok (some ptrs), h') ∧
        (∃ mv, Node.precomputeMatrices chacha alloc seed = .ok (some mv)) ∧
        own.Perm (matricesFrees ptrs).reduceOption ∧ Owns h h' own) ∨
      ∃ h' own, precomputeMatrices alloc h = (.error .badAlloc, h') ∧
        Node.precomputeMatrices chacha alloc seed = .error .badAlloc ∧ own ≠ [] ∧
        Owns h h' own := by
  generalize hp : precomputeMatrices alloc h = p
  cases hm : alloc .matrices with
  | none =>
    simp only [precomputeMatrices, malloc_of_none _ hm] at hp
    subst hp
    exact .inl ⟨_, rfl, by simp [Node.precomputeMatrices, allocMatrices, hm], Owns.refl h⟩
  | some _ =>
  simp only [precomputeMatrices, malloc_of_some _ hm] at hp
  have ho₁ : Owns h h.handOut [h.next] := (Owns.refl h).handOut
  cases he : alloc .expandMat with
  | none =>
    simp only [malloc_of_none _ he] at hp
    subst hp
    exact .inl ⟨_, rfl, by simp [Node.precomputeMatrices, allocMatrices, hm, he],
      ho₁.freeAll_all (by simp)⟩
  | some _ =>
  simp only [malloc_of_some _ he] at hp
  have ho₂ : Owns h h.handOut.handOut [h.next, h.handOut.next] := ho₁.handOut
  rcases mallocRows_cases alloc .expandRow HIDDEN h.handOut.handOut with
    ⟨er, h₃, hr, hv, ho₃⟩ | ⟨i, er, h₃, hr, hv, ho₃⟩
  rotate_left
  · simp only [hr] at hp
    subst hp
    refine .inl ⟨_, rfl, by simp [Node.precomputeMatrices, allocMatrices, hm, he, hv],
      (ho₂.trans ho₃).freeAll_all (List.perm_iff_count.mpr fun a => ?_)⟩
    simp only [List.reduceOption_append, reduceOption_rowFrees, List.reduceOption_cons_of_some,
      List.reduceOption_nil, List.cons_append, List.count_append, List.count_cons, List.count_nil]
    omega
  simp only [hr] at hp
  obtain ⟨erv, herv⟩ := Option.isSome_iff_exists.mp hv
  rcases mallocMiddle_cases alloc (ho₂.trans ho₃) ROUNDS with
    ⟨h₄, hmid, hv, ho₄⟩ | ⟨mats, rows, h₄, hmid, hv, ho₄⟩
  · simp only [hmid] at hp
    subst hp
    exact .inl ⟨_, rfl, by simp [Node.precomputeMatrices, allocMatrices, hm, he, herv, hv], ho₄⟩
  simp only [hmid] at hp
  obtain ⟨mv, hmv⟩ := Option.isSome_iff_exists.mp hv
  have hperm := (roundFrees_perm mats rows ROUNDS).count_eq
  cases hc : alloc .compressMat with
  | none =>
    simp only [malloc_of_none _ hc] at hp
    subst hp
    refine .inl ⟨_, rfl, by simp [Node.precomputeMatrices, allocMatrices, hm, he, herv, hmv, hc],
      ho₄.freeAll_all (List.perm_iff_count.mpr fun a => ?_)⟩
    simp only [expandFrees, List.reduceOption_append, reduceOption_rowFrees,
      List.reduceOption_cons_of_some, List.reduceOption_nil, List.cons_append, List.count_append,
      List.count_cons, List.count_nil, hperm a]
    omega
  | some _ =>
  simp only [malloc_of_some _ hc] at hp
  have ho₅ := ho₄.handOut
  rcases mallocRows_cases alloc .compressRow IN_SIZE h₄.handOut with
    ⟨cr, h₆, hcr, hv, ho₆⟩ | ⟨i, cr, h₆, hcr, hv, ho₆⟩
  rotate_left
  · simp only [hcr] at hp
    subst hp
    refine .inl ⟨_, rfl, by
      simp [Node.precomputeMatrices, allocMatrices, hm, he, herv, hmv, hc, hv],
      (ho₅.trans ho₆).freeAll_all (List.perm_iff_count.mpr fun a => ?_)⟩
    simp only [expandFrees, List.reduceOption_append, reduceOption_rowFrees,
      List.reduceOption_cons_of_some, List.reduceOption_nil, List.cons_append, List.count_append,
      List.count_cons, List.count_nil, hperm a]
    omega
  simp only [hcr] at hp
  obtain ⟨crv, hcrv⟩ := Option.isSome_iff_exists.mp hv
  have hval : Node.precomputeMatrices chacha alloc seed =
      some <$> Node.generateAllMatrices chacha alloc ⟨erv, mv, crv⟩ seed := by
    simp [Node.precomputeMatrices, allocMatrices, hm, he, herv, hmv, hc, hcrv]
  rcases generateAllMatrices_cases chacha alloc ⟨erv, mv, crv⟩ seed h₆ with
    ⟨h₇, hg, ho₇, gv, hgv⟩ | ⟨h₇, hg, ho₇, hgv⟩
  · simp only [hg] at hp
    subst hp
    refine .inr (.inl ⟨_, _, _, rfl, ⟨gv, by rw [hval, hgv]; rfl⟩, ?_, (ho₅.trans ho₆).trans ho₇⟩)
    refine List.perm_iff_count.mpr fun a => ?_
    simp only [matricesFrees, expandFrees, List.reduceOption_append, reduceOption_rowFrees,
      List.reduceOption_cons_of_some, List.reduceOption_nil, List.cons_append, List.append_nil,
      List.count_append, List.count_cons, List.count_nil, hperm a]
    omega
  · simp only [hg] at hp
    subst hp
    exact .inr (.inr ⟨_, _, rfl, by rw [hval, hgv]; rfl,
      List.append_ne_nil_of_right_ne_nil _ (List.cons_ne_nil _ _), (ho₅.trans ho₆).trans ho₇⟩)

/-- `precompute_matrices` and `free_matrices` undo each other on the heap, for every allocator:
a `NULL` return leaves the heap as it was, whichever allocation failed, and `free_matrices` on a
returned set gives back the heap of before the call, with no bad `free` on the way; only an
exception of `generate_all_matrices` leaves blocks behind. `precompute_matrices` returns or throws
as the value-level function does. -/
theorem precomputeMatrices_freeMatrices (chacha : ChaCha20) (seed : Buf U8) (alloc : Alloc Site)
    (h : Heap) :
    (precomputeMatrices alloc h).1.map Option.isSome =
        (Node.precomputeMatrices chacha alloc seed).map Option.isSome ∧
      ((∃ h', precomputeMatrices alloc h = (.ok none, h') ∧ Owns h h' []) ∨
        (∃ ptrs h', precomputeMatrices alloc h = (.ok (some ptrs), h') ∧
          Owns h (freeMatrices ptrs h') []) ∨
        ∃ own h', precomputeMatrices alloc h = (.error .badAlloc, h') ∧ own ≠ [] ∧
          Owns h h' own) := by
  rcases precomputeMatrices_cases chacha seed alloc h with
    ⟨h', hp, hv, ho⟩ | ⟨ptrs, h', own, hp, ⟨mv, hv⟩, hperm, ho⟩ | ⟨h', own, hp, hv, hne, ho⟩
  · exact ⟨by rw [hp, hv]; rfl, .inl ⟨h', hp, ho⟩⟩
  · exact ⟨by rw [hp, hv]; rfl, .inr (.inl ⟨ptrs, h', hp, ho.freeAll_all hperm.symm⟩)⟩
  · exact ⟨by rw [hp, hv]; rfl, .inr (.inr ⟨own, h', hp, hne, ho⟩)⟩

/-! ## `init_hash_buffers` -/

/-- Every outcome of `init_hash_buffers`, in the node file and in the tool: `NULL` with the heap
as before, whichever allocation failed, or the four blocks `free_hash_buffers` frees; the
value-level function takes the same branch. -/
theorem initHashBuffersAt_cases {σ : Type} (alloc : Alloc σ) (buffers state nextState noise : σ)
    (h : Heap) :
    (∃ h', initBuffers alloc buffers state nextState noise h = (none, h') ∧
        initHashBuffersAt alloc buffers state nextState noise = none ∧ Owns h h' []) ∨
      ∃ b h', initBuffers alloc buffers state nextState noise h = (some b, h') ∧
        (initHashBuffersAt alloc buffers state nextState noise).isSome ∧
        Owns h h' [b.buffers, b.state, b.nextState, b.noise] := by
  rcases initBuffers_cases alloc buffers state nextState noise h with
    ⟨h', hi, hv, ho⟩ | ⟨b, h', hi, hv, ho⟩
  · exact .inl ⟨h', hi, Option.not_isSome_iff_eq_none.mp
      (mt (initHashBuffersAt_isSome _ _ _ _ _).mp hv), ho⟩
  · exact .inr ⟨b, h', hi, (initHashBuffersAt_isSome _ _ _ _ _).mpr hv, ho⟩

/-! ## The static cache of `tens_hash` -/

/-- The static variables of `tens_hash`, with the blocks `cachedMatrices` and `cachedBuffers`
point to. -/
structure CachePtrs where
  cacheInitialized : Bool
  cachedSeed : Bytes32
  cachedMatrices : Option MatricesPtrs
  cachedBuffers : Option BuffersPtrs

/-- The statics before the first call. -/
def CachePtrs.init : CachePtrs := ⟨false, fun _ => 0, none, none⟩

/-- The blocks the statics hold. -/
def CachePtrs.blocks (c : CachePtrs) : List Nat :=
  (c.cachedMatrices.elim [] fun m => (matricesFrees m).reduceOption) ++
    c.cachedBuffers.elim [] fun b => (buffersFrees b).reduceOption

/-- The start of a rebuild: `if (cachedMatrices) free_matrices(cachedMatrices);`, then
`if (cachedBuffers) free_hash_buffers(cachedBuffers);`. -/
def freeCached (c : CachePtrs) (h : Heap) : Heap :=
  let h := match c.cachedMatrices with
    | some m => freeMatrices m h
    | none => h
  match c.cachedBuffers with
  | some b => freeHashBuffers b h
  | none => h

/-- `tens_hash(input, seed, output)` on the heap: the statics and the heap after the call, and
whether it returned or threw. On a miss the old pair is freed and the new one built; an
exception of `precompute_matrices` leaves both pointers null. As in `Node.tensHash`, the
`std::string`s of the hex dumps and of `LogPrintf`, each freed before the call ends, are left
out: the model is the code on runs where their allocations succeed. -/
def tensHash (call : Call) (c : CachePtrs) (h : Heap) : CachePtrs × Heap × Except BadAlloc Unit :=
  let seedMatches := c.cacheInitialized && decide (c.cachedSeed = bytes32 call.seed)
  if !c.cacheInitialized || !seedMatches then
    match precomputeMatrices call.alloc (freeCached c h) with
    | (.error e, h) => (⟨true, bytes32 call.seed, none, none⟩, h, .error e)
    | (.ok ms, h) =>
      let bs := initHashBuffers call.alloc h
      (⟨true, bytes32 call.seed, ms, bs.1⟩, bs.2, .ok ())
  else (c, h, .ok ())

/-- A sequence of calls: the final statics and heap, and how each call ended. -/
def runCalls : CachePtrs → Heap → List Call → CachePtrs × Heap × List (Except BadAlloc Unit)
  | c, h, [] => (c, h, [])
  | c, h, call :: calls =>
    let r := tensHash call c h
    let rest := runCalls r.1 r.2.1 calls
    (rest.1, rest.2.1, r.2.2 :: rest.2.2)

/-- The statics of the two models agree: the same flag and seed, and the same pointers null. -/
def Agrees (c : CachePtrs) (cv : Cache) : Prop :=
  c.cacheInitialized = cv.cacheInitialized ∧ c.cachedSeed = cv.cachedSeed ∧
    c.cachedMatrices.isSome = cv.cachedMatrices.isSome ∧
    c.cachedBuffers.isSome = cv.cachedBuffers.isSome

theorem Agrees.evalCached {c : CachePtrs} {cv : Cache} (hag : Agrees c cv) (sha : Sha256)
    (input output : Buf U8) : Agrees c (evalCached sha input output cv).1 := by
  unfold Node.evalCached
  split
  · rename_i hb
    exact ⟨hag.1, hag.2.1, hag.2.2.1, by rw [hag.2.2.2, hb]; rfl⟩
  · exact hag

/-- The rebuild frees exactly the blocks the statics hold. -/
theorem freeCached_owns {c : CachePtrs} {h₀ h : Heap} {own leak : List Nat} (ho : Owns h₀ h own)
    (hc : own.Perm (c.blocks ++ leak)) : Owns h₀ (freeCached c h) leak := by
  cases hm : c.cachedMatrices <;> cases hb : c.cachedBuffers <;>
    simp only [CachePtrs.blocks, freeCached, freeMatrices, freeHashBuffers, hm, hb, Option.elim,
      List.nil_append, List.append_nil] at hc ⊢
  · exact ho.perm hc
  · exact ho.freeAll_perm (hc.trans List.perm_append_comm)
  · exact ho.freeAll_perm (hc.trans List.perm_append_comm)
  · exact (ho.freeAll_perm (hc.trans (by rw [List.append_assoc]; exact List.perm_append_comm))
      ).freeAll_perm List.perm_append_comm

/-- One call in both models: the statics keep agreeing, the call returns in one model exactly
when it returns in the other, and the heap keeps holding the statics' blocks and the earlier
leaks; the leak grows by `leak'`, empty exactly when the call returns. -/
theorem tensHash_simulates (chacha : ChaCha20) (sha : Sha256) (call : Call) {c : CachePtrs}
    {cv : Cache} {h₀ h : Heap} {own leak : List Nat} (hag : Agrees c cv) (ho : Owns h₀ h own)
    (hc : own.Perm (c.blocks ++ leak)) :
    Agrees (tensHash call c h).1 (Node.tensHash chacha sha call cv).1 ∧
      (tensHash call c h).2.2.isOk = (Node.tensHash chacha sha call cv).2.isOk ∧
      ∃ leak' own', own'.Perm ((tensHash call c h).1.blocks ++ (leak ++ leak')) ∧
        Owns h₀ (tensHash call c h).2.1 own' ∧ (leak' = [] ↔ (tensHash call c h).2.2.isOk) := by
  have hcond : (!c.cacheInitialized || !(c.cacheInitialized &&
      decide (c.cachedSeed = bytes32 call.seed))) = (!cv.cacheInitialized ||
      !(cv.cacheInitialized && decide (cv.cachedSeed = bytes32 call.seed))) := by
    rw [hag.1, hag.2.1]
  cases hmiss : (!cv.cacheInitialized ||
      !(cv.cacheInitialized && decide (cv.cachedSeed = bytes32 call.seed))) with
  | false =>
    simp only [tensHash, Node.tensHash, hcond, hmiss, Bool.false_eq_true, if_false]
    exact ⟨hag.evalCached sha _ _, rfl, [], own, by simpa using hc, ho, by simp [Except.isOk,
      Except.toBool]⟩
  | true =>
  have ho₁ := freeCached_owns ho hc
  have hstart :
      Agrees ⟨true, bytes32 call.seed, none, none⟩ ⟨true, bytes32 call.seed, none, none⟩ :=
    ⟨rfl, rfl, rfl, rfl⟩
  rcases precomputeMatrices_cases chacha call.seed call.alloc (freeCached c h) with
    ⟨h₂, hp, hpv, ho₂⟩ | ⟨ptrs, h₂, own₂, hp, ⟨mv, hpv⟩, hperm, ho₂⟩ | ⟨h₂, own₂, hp, hpv, hne, ho₂⟩
  · rcases initHashBuffersAt_cases call.alloc .buffers .state .nextState .noise h₂ with
      ⟨h₃, hb, hbv, ho₃⟩ | ⟨b, h₃, hb, hbv, ho₃⟩
    · simp only [tensHash, Node.tensHash, hcond, hmiss, if_true, hp, hpv, initHashBuffers,
        Node.initHashBuffers, hb, hbv]
      refine ⟨hstart.evalCached sha _ _, rfl, [], leak, by simp [CachePtrs.blocks],
        by simpa using ho₁.trans (ho₂.trans ho₃), by simp [Except.isOk, Except.toBool]⟩
    · obtain ⟨bv, hbv⟩ := Option.isSome_iff_exists.mp hbv
      simp only [tensHash, Node.tensHash, hcond, hmiss, if_true, hp, hpv, initHashBuffers,
        Node.initHashBuffers, hb, hbv]
      refine ⟨Agrees.evalCached ⟨rfl, rfl, rfl, rfl⟩ sha _ _, rfl, [], _, ?_,
        ho₁.trans (ho₂.trans ho₃), by simp [Except.isOk, Except.toBool]⟩
      simpa [CachePtrs.blocks] using
        List.perm_append_comm.trans ((buffersFrees_perm b).symm.append_right leak)
  · rcases initHashBuffersAt_cases call.alloc .buffers .state .nextState .noise h₂ with
      ⟨h₃, hb, hbv, ho₃⟩ | ⟨b, h₃, hb, hbv, ho₃⟩
    · simp only [tensHash, Node.tensHash, hcond, hmiss, if_true, hp, hpv, initHashBuffers,
        Node.initHashBuffers, hb, hbv]
      refine ⟨Agrees.evalCached ⟨rfl, rfl, rfl, rfl⟩ sha _ _, rfl, [], _, ?_,
        ho₁.trans (ho₂.trans ho₃), by simp [Except.isOk, Except.toBool]⟩
      simpa [CachePtrs.blocks] using List.perm_append_comm.trans (hperm.append_right leak)
    · obtain ⟨bv, hbv⟩ := Option.isSome_iff_exists.mp hbv
      simp only [tensHash, Node.tensHash, hcond, hmiss, if_true, hp, hpv, initHashBuffers,
        Node.initHashBuffers, hb, hbv]
      refine ⟨Agrees.evalCached ⟨rfl, rfl, rfl, rfl⟩ sha _ _, rfl, [], _, ?_,
        ho₁.trans (ho₂.trans ho₃), by simp [Except.isOk, Except.toBool]⟩
      simpa [CachePtrs.blocks, List.append_assoc] using
        List.perm_append_comm.trans ((hperm.append (buffersFrees_perm b).symm).append_right leak)
  · simp only [tensHash, Node.tensHash, hcond, hmiss, if_true, hp, hpv]
    exact ⟨hstart, rfl, own₂, _, by simp [CachePtrs.blocks], ho₁.trans ho₂, by
      simpa [Except.isOk, Except.toBool] using hne⟩

theorem runCalls_simulates (chacha : ChaCha20) (sha : Sha256) {h₀ : Heap} (calls : List Call) :
    ∀ {c : CachePtrs} {cv : Cache} {h : Heap} {own leak : List Nat}, Agrees c cv →
      Owns h₀ h own → own.Perm (c.blocks ++ leak) →
      Agrees (runCalls c h calls).1 (Node.runCalls chacha sha cv calls).1 ∧
        (runCalls c h calls).2.2.map Except.isOk =
          (Node.runCalls chacha sha cv calls).2.map Except.isOk ∧
        ∃ leak' own', own'.Perm ((runCalls c h calls).1.blocks ++ (leak ++ leak')) ∧
          Owns h₀ (runCalls c h calls).2.1 own' ∧
          (leak' = [] ↔ ∀ r ∈ (runCalls c h calls).2.2, r.isOk) := by
  induction calls with
  | nil =>
    intro c cv h own leak hag ho hc
    exact ⟨hag, rfl, [], own, by simpa using hc, ho, by simp [runCalls]⟩
  | cons call calls ih =>
    intro c cv h own leak hag ho hc
    obtain ⟨hag₁, hok₁, leak₁, own₁, hc₁, ho₁, hl₁⟩ := tensHash_simulates chacha sha call hag ho hc
    obtain ⟨hag₂, hok₂, leak₂, own₂, hc₂, ho₂, hl₂⟩ := ih hag₁ ho₁ hc₁
    refine ⟨hag₂, by simp only [runCalls, Node.runCalls, List.map_cons, hok₁, hok₂],
      leak₁ ++ leak₂, own₂, by simpa only [List.append_assoc] using hc₂, ho₂, ?_⟩
    simp only [runCalls, List.append_eq_nil, hl₁, hl₂, List.forall_mem_cons]

/-- Over every sequence of calls from the initial statics, the heap-level model of the cached
`tens_hash` follows the value-level one (the statics agree, and each call returns or throws in
both), no `free` is ever given a block that is not live, and the heap afterwards is the heap
before with exactly the blocks the statics hold and the blocks leaked by exceptions added;
blocks leak exactly when some call throws. -/
theorem runCalls_heap (chacha : ChaCha20) (sha : Sha256) (calls : List Call) (h : Heap) :
    Agrees (runCalls CachePtrs.init h calls).1 (Node.runCalls chacha sha Cache.init calls).1 ∧
      (runCalls CachePtrs.init h calls).2.2.map Except.isOk =
        (Node.runCalls chacha sha Cache.init calls).2.map Except.isOk ∧
      ∃ leak own, own.Perm ((runCalls CachePtrs.init h calls).1.blocks ++ leak) ∧
        Owns h (runCalls CachePtrs.init h calls).2.1 own ∧
        (leak = [] ↔ ∀ r ∈ (runCalls CachePtrs.init h calls).2.2, r.isOk) := by
  obtain ⟨hag, hok, leak, own, hc, ho, hl⟩ := runCalls_simulates chacha sha calls
    (⟨rfl, rfl, rfl, rfl⟩ : Agrees CachePtrs.init Cache.init) (Owns.refl h)
    (List.Perm.refl [] : List.Perm [] (CachePtrs.init.blocks ++ []))
  exact ⟨hag, hok, leak, own, by simpa using hc, ho, hl⟩

end Mem
end Node
end TensHash

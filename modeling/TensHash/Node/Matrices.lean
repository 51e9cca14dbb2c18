import TensHash.Node.Layer

/-!
# TensHash.Node.Matrices

Building the matrices and buffers of the node file (`src/unnamed/part_000`, lines 29–206):
`precompute_matrices` allocates the rows one `malloc` at a time, then `generate_all_matrices`
draws `totalSize` keystream bytes into `all_data` and copies them row by row, advancing
`curr_pos`; `init_hash_buffers` allocates the two state vectors and the noise vector.

* `copyRows_eq`, `copyMiddle_eq`: the `curr_pos` loops in closed form.
* `generateAllMatrices_filled`: when `all_data` and the two vectors are allocated, every
  coefficient is its keystream byte (`Filled`): `KS[32·i + j]` for the expansion,
  `KS[32768 + 2^20·r + 1024·i + j]` for middle matrix `r`, `KS[32768 + 2^26 + 1024·i + j]` for
  the compression.
* `precomputeMatrices_allOk`: with every allocation succeeding, a filled set is returned.
* `precomputeMatrices_allData_fail`: when only `all_data` cannot be allocated,
  `generate_all_matrices` returns at `if (!all_data) return;` and `precompute_matrices` still
  returns the set, whose rows hold whatever `malloc` left in them.
-/

namespace TensHash
namespace Node

/-- `PrecomputedMatrices`: the row pointers `expand_mat[i]`, `middle_mats[r][i]`,
`compress_mat[i]`, each row a block of its own. -/
structure PrecomputedMatrices where
  expandMat : Nat → Buf U8
  middleMats : Nat → Nat → Buf U8
  compressMat : Nat → Buf U8

/-- `HashBuffers`: the ping-pong state vectors and the noise vector. -/
structure HashBuffers where
  state : Buf U8
  nextState : Buf U8
  noise : Buf I8

/-- The allocations of `precompute_matrices`, `generate_all_matrices` and
`init_hash_buffers`. -/
inductive Site where
  | matrices
  | expandMat
  | expandRow (i : Nat)
  | middleMats (r : Nat)
  | middleRow (r i : Nat)
  | compressMat
  | compressRow (i : Nat)
  | allData
  | keyBytes
  | outputBytes
  | buffers
  | state
  | nextState
  | noise
  deriving DecidableEq

/-- `total_size`: the keystream bytes drawn for one seed. -/
def totalSize : Nat := HIDDEN * IN_SIZE + ROUNDS * HIDDEN * HIDDEN + IN_SIZE * HIDDEN

/-- The keystream `generate_all_matrices` draws: the seed's 32 bytes as the key, the zero
`Nonce96`, block counter 0. -/
def keystream (chacha : ChaCha20) (seed : Buf U8) : Buf U8 := chacha (bytes32 seed) (0, 0)

/-- `for (i = 0; i < n; i++) { memcpy(rows[i], curr_pos, len); curr_pos += len; }` with
`curr_pos = data + pos`: the rows after the loop, and the offset `curr_pos` has reached. -/
def copyRows (data : Buf U8) (len : Nat) (rows : Nat → Buf U8) (pos : Nat) :
    Nat → (Nat → Buf U8) × Nat
  | 0 => (rows, pos)
  | i + 1 =>
    let r := copyRows data len rows pos i
    (Function.update r.1 i (memcpy (r.1 i) (fun k => data (r.2 + k)) len), r.2 + len)

/-- The middle-matrix loop: for each round `r`, the `HIDDEN` rows of `middle_mats[r]`. -/
def copyMiddle (data : Buf U8) (mats : Nat → Nat → Buf U8) (pos : Nat) :
    Nat → (Nat → Nat → Buf U8) × Nat
  | 0 => (mats, pos)
  | r + 1 =>
    let m := copyMiddle data mats pos r
    let rows := copyRows data HIDDEN (m.1 r) m.2 HIDDEN
    (Function.update m.1 r rows.1, rows.2)

/-- `generate_all_matrices(matrices, seed)`. `all_data` is `malloc`ed first; on failure the
function returns with the matrices untouched. The two `std::vector`s throw on failure. -/
def generateAllMatrices (chacha : ChaCha20) (alloc : Alloc Site) (m : PrecomputedMatrices)
    (seed : Buf U8) : Except BadAlloc PrecomputedMatrices :=
  match alloc .allData with
  | none => .ok m
  | some junk =>
    match alloc .keyBytes, alloc .outputBytes with
    | some _, some _ =>
      let allData := memcpy junk (keystream chacha seed) totalSize
      let e := copyRows allData IN_SIZE m.expandMat 0 HIDDEN
      let h := copyMiddle allData m.middleMats e.2 ROUNDS
      let c := copyRows allData HIDDEN m.compressMat h.2 IN_SIZE
      .ok ⟨e.1, h.1, c.1⟩
    | _, _ => .error .badAlloc

/-- The row loop of `precompute_matrices`: `rows[i] = malloc(...)` for `i < n`, stopping at
the first failure (after freeing what was allocated). -/
def allocRows (alloc : Alloc Site) (site : Nat → Site) : Nat → Option (Nat → Buf U8)
  | 0 => some fun _ _ => 0
  | i + 1 => do
    let rows ← allocRows alloc site i
    let row ← alloc (site i)
    pure (Function.update rows i row)

/-- The round loop of `precompute_matrices`: the pointer array of `middle_mats[r]`, then its
`HIDDEN` rows. -/
def allocMiddle (alloc : Alloc Site) : Nat → Option (Nat → Nat → Buf U8)
  | 0 => some fun _ _ _ => 0
  | r + 1 => do
    let mats ← allocMiddle alloc r
    let _ ← alloc (.middleMats r)
    let rows ← allocRows alloc (.middleRow r) HIDDEN
    pure (Function.update mats r rows)

/-- The allocations of `precompute_matrices`, in order: the struct, the pointer array and rows
of the expansion, of each middle matrix, of the compression; `none` at the first failure. -/
def allocMatrices (alloc : Alloc Site) : Option PrecomputedMatrices := do
  let _ ← alloc .matrices
  let _ ← alloc .expandMat
  let e ← allocRows alloc .expandRow HIDDEN
  let h ← allocMiddle alloc ROUNDS
  let _ ← alloc .compressMat
  let c ← allocRows alloc .compressRow IN_SIZE
  pure ⟨e, h, c⟩

/-- `precompute_matrices(seed)`: `none` is the null pointer returned on an allocation failure;
an exception from `generate_all_matrices` propagates. -/
def precomputeMatrices (chacha : ChaCha20) (alloc : Alloc Site) (seed : Buf U8) :
    Except BadAlloc (Option PrecomputedMatrices) :=
  match allocMatrices alloc with
  | none => .ok none
  | some m => some <$> generateAllMatrices chacha alloc m seed

/-- `init_hash_buffers()` over its four allocation sites, the same code in the node file and in
the tool (`src/test_pow/tens_hash.c`): `calloc` zeroes the state vectors, the noise vector is
`malloc`ed; `NULL` when any of the four allocations fails. -/
def initHashBuffersAt {σ : Type} (alloc : Alloc σ) (buffers state nextState noise : σ) :
    Option HashBuffers :=
  match alloc buffers, alloc state, alloc nextState, alloc noise with
  | some _, some _, some _, some n => some ⟨fun _ => 0, fun _ => 0, n⟩
  | _, _, _, _ => none

/-- `init_hash_buffers()` of the node file. -/
def initHashBuffers (alloc : Alloc Site) : Option HashBuffers :=
  initHashBuffersAt alloc .buffers .state .nextState .noise

/-- Every coefficient the cascade reads is its keystream byte. -/
def Filled (ks : Buf U8) (m : PrecomputedMatrices) : Prop :=
  (∀ i < HIDDEN, ∀ j < IN_SIZE, m.expandMat i j = ks (IN_SIZE * i + j)) ∧
  (∀ r < ROUNDS, ∀ i < HIDDEN, ∀ j < HIDDEN,
    m.middleMats r i j = ks (HIDDEN * IN_SIZE + HIDDEN * HIDDEN * r + HIDDEN * i + j)) ∧
  (∀ i < IN_SIZE, ∀ j < HIDDEN,
    m.compressMat i j = ks (HIDDEN * IN_SIZE + ROUNDS * HIDDEN * HIDDEN + HIDDEN * i + j))

/-- The matrix set a keystream slices into: the expansion, the `ROUNDS` middle matrices and the
compression, in that order, each row-major. -/
def matricesOf (ks : Buf U8) : PrecomputedMatrices where
  expandMat i j := ks (IN_SIZE * i + j)
  middleMats r i j := ks (HIDDEN * IN_SIZE + HIDDEN * HIDDEN * r + HIDDEN * i + j)
  compressMat i j := ks (HIDDEN * IN_SIZE + ROUNDS * HIDDEN * HIDDEN + HIDDEN * i + j)

theorem copyRows_eq (data : Buf U8) (len : Nat) (rows : Nat → Buf U8) (pos n : Nat) :
    copyRows data len rows pos n =
      (fun i => if i < n then memcpy (rows i) (fun k => data (pos + len * i + k)) len
        else rows i, pos + len * n) := by
  induction n with
  | zero => simp [copyRows]
  | succ n ih =>
    simp only [copyRows, ih, Prod.mk.injEq]
    refine ⟨funext fun i => ?_, by rw [Nat.mul_succ, Nat.add_assoc]⟩
    by_cases hi : i = n
    · subst hi; simp
    · simp only [Function.update_noteq hi]
      congr 1
      exact propext ⟨fun h => by omega, fun h => by omega⟩

theorem copyMiddle_eq (data : Buf U8) (mats : Nat → Nat → Buf U8) (pos n : Nat) :
    copyMiddle data mats pos n =
      (fun r => if r < n then fun i => if i < HIDDEN then
          memcpy (mats r i) (fun k => data (pos + HIDDEN * HIDDEN * r + HIDDEN * i + k)) HIDDEN
          else mats r i
        else mats r, pos + HIDDEN * HIDDEN * n) := by
  induction n with
  | zero => simp [copyMiddle]
  | succ n ih =>
    simp only [copyMiddle, ih, copyRows_eq, Prod.mk.injEq]
    refine ⟨funext fun r => ?_, by rw [Nat.mul_succ, Nat.add_assoc]⟩
    by_cases hr : r = n
    · subst hr; simp [Nat.add_assoc]
    · simp only [Function.update_noteq hr]
      congr 1
      exact propext ⟨fun h => by omega, fun h => by omega⟩

theorem generateAllMatrices_filled (chacha : ChaCha20) (alloc : Alloc Site)
    (m : PrecomputedMatrices) (seed : Buf U8) (h1 : (alloc .allData).isSome)
    (h2 : (alloc .keyBytes).isSome) (h3 : (alloc .outputBytes).isSome) :
    ∃ m', generateAllMatrices chacha alloc m seed = .ok m' ∧
      Filled (keystream chacha seed) m' := by
  obtain ⟨junk, hj⟩ := Option.isSome_iff_exists.mp h1
  obtain ⟨_, hk⟩ := Option.isSome_iff_exists.mp h2
  obtain ⟨_, ho⟩ := Option.isSome_iff_exists.mp h3
  refine ⟨_, by simp only [generateAllMatrices, hj, hk, ho]; rfl, ?_⟩
  simp only [Filled, copyRows_eq, copyMiddle_eq, memcpy_apply, totalSize, HIDDEN_eq, IN_SIZE_eq,
    ROUNDS_eq]
  refine ⟨fun i hi j hj => ?_, fun r hr i hi j hj => ?_, fun i hi j hj => ?_⟩
  · rw [if_pos hi, memcpy_apply, if_pos hj, if_pos (by omega)]; congr 1; omega
  · rw [if_pos hr, if_pos hi, memcpy_apply, if_pos hj, if_pos (by omega)]
  · rw [if_pos hi, memcpy_apply, if_pos hj, if_pos (by omega)]

theorem allocRows_some {alloc : Alloc Site} {site : Nat → Site} {n : Nat}
    (h : ∀ i < n, (alloc (site i)).isSome) :
    ∃ rows, allocRows alloc site n = some rows ∧ ∀ i < n, alloc (site i) = some (rows i) := by
  induction n with
  | zero => exact ⟨_, rfl, fun i hi => absurd hi (Nat.not_lt_zero i)⟩
  | succ n ih =>
    obtain ⟨rows, hrows, hall⟩ := ih fun i hi => h i (by omega)
    obtain ⟨row, hrow⟩ := Option.isSome_iff_exists.mp (h n (by omega))
    refine ⟨Function.update rows n row, by simp [allocRows, hrows, hrow], fun i hi => ?_⟩
    by_cases hin : i = n
    · subst hin; simpa using hrow
    · rw [Function.update_noteq hin]; exact hall i (by omega)

theorem allocMiddle_isSome {alloc : Alloc Site} {n : Nat}
    (h : ∀ r < n, (alloc (.middleMats r)).isSome ∧ ∀ i < HIDDEN, (alloc (.middleRow r i)).isSome) :
    (allocMiddle alloc n).isSome := by
  induction n with
  | zero => rfl
  | succ n ih =>
    obtain ⟨mats, hmats⟩ := Option.isSome_iff_exists.mp (ih fun r hr => h r (by omega))
    obtain ⟨p, hp⟩ := Option.isSome_iff_exists.mp (h n (by omega)).1
    obtain ⟨rows, hrows, -⟩ := allocRows_some (h n (by omega)).2
    simp [allocMiddle, hmats, hp, hrows]

/-- The allocations `precompute_matrices` makes itself, before `generate_all_matrices`. -/
def Site.ofPrecompute : Site → Bool
  | .matrices | .expandMat | .expandRow _ | .middleMats _ | .middleRow _ _ | .compressMat
  | .compressRow _ => true
  | _ => false

/-- When its own allocations succeed, `precompute_matrices` hands the fresh rows to
`generate_all_matrices` and returns what that leaves. -/
theorem precomputeMatrices_of_rows (chacha : ChaCha20) (alloc : Alloc Site) (seed : Buf U8)
    (h : ∀ s, s.ofPrecompute = true → (alloc s).isSome) :
    ∃ m, precomputeMatrices chacha alloc seed = some <$> generateAllMatrices chacha alloc m seed ∧
      ∀ i < HIDDEN, alloc (.expandRow i) = some (m.expandMat i) := by
  obtain ⟨_, h1⟩ := Option.isSome_iff_exists.mp (h .matrices rfl)
  obtain ⟨_, h2⟩ := Option.isSome_iff_exists.mp (h .expandMat rfl)
  obtain ⟨e, he, hall⟩ := @allocRows_some alloc .expandRow HIDDEN fun i _ => h _ rfl
  obtain ⟨mid, hm⟩ := Option.isSome_iff_exists.mp
    (@allocMiddle_isSome alloc ROUNDS fun r _ => ⟨h _ rfl, fun i _ => h _ rfl⟩)
  obtain ⟨_, h3⟩ := Option.isSome_iff_exists.mp (h .compressMat rfl)
  obtain ⟨c, hc, -⟩ := @allocRows_some alloc .compressRow IN_SIZE fun i _ => h _ rfl
  exact ⟨⟨e, mid, c⟩, by simp [precomputeMatrices, allocMatrices, h1, h2, he, hm, h3, hc], hall⟩

/-- With every allocation succeeding, `precompute_matrices` returns a filled set. -/
theorem precomputeMatrices_allOk (chacha : ChaCha20) (alloc : Alloc Site) (seed : Buf U8)
    (ha : alloc.AllOk) :
    ∃ m, precomputeMatrices chacha alloc seed = .ok (some m) ∧ Filled (keystream chacha seed) m := by
  obtain ⟨m, hm, -⟩ := precomputeMatrices_of_rows chacha alloc seed fun s _ => ha s
  obtain ⟨m', hg, hf⟩ := generateAllMatrices_filled chacha alloc m seed (ha _) (ha _) (ha _)
  exact ⟨m', by rw [hm, hg]; rfl, hf⟩

/-- `init_hash_buffers` returns buffers exactly when its four allocations succeed. -/
theorem initHashBuffersAt_isSome {σ : Type} (alloc : Alloc σ) (buffers state nextState noise : σ) :
    (initHashBuffersAt alloc buffers state nextState noise).isSome ↔
      (alloc buffers).isSome ∧ (alloc state).isSome ∧ (alloc nextState).isSome ∧
        (alloc noise).isSome := by
  unfold initHashBuffersAt
  cases alloc buffers <;> cases alloc state <;> cases alloc nextState <;> cases alloc noise <;>
    simp

theorem initHashBuffersAt_allOk {σ : Type} {alloc : Alloc σ} (ha : alloc.AllOk)
    (buffers state nextState noise : σ) :
    ∃ b, initHashBuffersAt alloc buffers state nextState noise = some b :=
  Option.isSome_iff_exists.mp ((initHashBuffersAt_isSome _ _ _ _ _).mpr ⟨ha _, ha _, ha _, ha _⟩)

/-- The allocator under which only `all_data` fails and every block `malloc` hands out holds
the byte `v`. -/
def allDataFails (v : U8) : Alloc Site := fun s => if s = .allData then none else some fun _ => v

/-- `precompute_matrices` returns an unfilled set as a success: when `malloc(total_size)` in
`generate_all_matrices` fails and everything else succeeds, the set comes back with the rows as
`malloc` left them, here one byte off the keystream at `expand_mat[0][0]`. -/
theorem precomputeMatrices_allData_fail (chacha : ChaCha20) (seed : Buf U8) :
    ∃ m, precomputeMatrices chacha (allDataFails (keystream chacha seed 0 + 1)) seed =
        .ok (some m) ∧
      m.expandMat 0 0 ≠ keystream chacha seed 0 ∧ ¬ Filled (keystream chacha seed) m := by
  set v := keystream chacha seed 0 + 1 with hv
  obtain ⟨m, hm, hrow⟩ := precomputeMatrices_of_rows chacha (allDataFails v) seed
    fun s hs => by cases s <;> simp_all [allDataFails, Site.ofPrecompute]
  have hg : generateAllMatrices chacha (allDataFails v) m seed = .ok m := by
    simp [generateAllMatrices, allDataFails]
  have h00 : m.expandMat 0 0 = v := by
    have := hrow 0 (by rw [HIDDEN_eq]; decide)
    simp only [allDataFails, reduceCtorEq, if_false, Option.some.injEq] at this
    rw [← this]
  have hne : m.expandMat 0 0 ≠ keystream chacha seed 0 := by rw [h00, hv]; bv_omega
  exact ⟨m, by rw [hm, hg]; rfl, hne, fun hf => hne (hf.1 0 (by rw [HIDDEN_eq]; decide) 0
    (by rw [IN_SIZE_eq]; decide))⟩

end Node
end TensHash

import Mathlib.Algebra.BigOperators.Fin
import Mathlib.Logic.Function.Basic
import Mathlib.Tactic.Linarith

/-!
# TensHash.Basic

The vocabulary shared by the three implementations of TensHash in the repository: the node's
cached byte cascade (`src/unnamed/part_000`, namespace `TensHash.Node`), the stand-alone tool
(`src/test_pow/tens_hash.c`, `TensHash.TestPow`) and the ternary cascade
(`src/src/crypto/tens_pow/tens_hash.cpp`, `TensHash.Ternary`).

* Fixed-width C types are bit vectors: `uint8_t` and `int8_t` are both `BitVec 8`, read with
  `toNat` where the C code promotes an unsigned byte and with `toInt` where it promotes a signed
  one. `int32_t` accumulators are exact integers; that they stay inside the `int32_t` range is a
  theorem where it matters (`Node.matrixMultiply_int32_safe`).
* A pointer is the function from offsets to the bytes it points at (`Buf`). Distinct `malloc`
  blocks never alias, so a record of buffers is a record of such functions.
* ChaCha20 and SHA-256 come from Bitcoin's `crypto/` and from libsodium, neither of which is in
  the sources: they are parameters (`ChaCha20`, `Sha256`).
* An allocation that may fail is a call to an oracle (`Alloc`), one answer per allocation site.
* Every loop that writes entry `i` at iteration `i` is put in closed form through one step lemma,
  `update_prefix_apply`; row-major indices are bounded by `row_major_lt`.
-/

namespace TensHash

/-- `IN_SIZE`: the bytes of a seed, an input and a digest (`#define IN_SIZE 32`). -/
@[irreducible] def IN_SIZE : Nat := 32

/-- `HIDDEN`: the length of the state vector (`#define HIDDEN 1024`). -/
@[irreducible] def HIDDEN : Nat := 1024

/-- `ROUNDS`: the number of middle matrices (`#define ROUNDS 64`). -/
@[irreducible] def ROUNDS : Nat := 64

theorem IN_SIZE_eq : IN_SIZE = 32 := by unfold IN_SIZE; rfl

theorem HIDDEN_eq : HIDDEN = 1024 := by unfold HIDDEN; rfl

theorem ROUNDS_eq : ROUNDS = 64 := by unfold ROUNDS; rfl

/-- `uint8_t`. -/
abbrev U8 := BitVec 8

/-- `int8_t`: the same eight bits, read as a signed value with `BitVec.toInt`. -/
abbrev I8 := BitVec 8

/-- The contents of memory at a pointer: `p i` is `p[i]`. Only a prefix is the block the
pointer came from, and the model never reads past it. -/
abbrev Buf (α : Type) := Nat → α

/-- `memset(p, v, n)`. -/
def memset {α : Type} (p : Buf α) (v : α) (n : Nat) : Buf α := fun i => if i < n then v else p i

/-- `memcpy(dst, src, n)`. -/
def memcpy {α : Type} (dst src : Buf α) (n : Nat) : Buf α := fun i => if i < n then src i else dst i

@[simp] theorem memset_apply {α : Type} (p : Buf α) (v : α) (n i : Nat) :
    memset p v n i = if i < n then v else p i := rfl

@[simp] theorem memcpy_apply {α : Type} (dst src : Buf α) (n i : Nat) :
    memcpy dst src n i = if i < n then src i else dst i := rfl

/-- An `int8_t` lies in `[-128, 127]`. -/
theorem toInt_bounds (e : I8) : -128 ≤ e.toInt ∧ e.toInt ≤ 127 := by
  have := e.isLt
  rw [BitVec.toInt_eq_toNat_cond]
  split <;> omega

/-- The memory at `p + off`. -/
def offset {α : Type} (p : Buf α) (off : Nat) : Buf α := fun i => p (off + i)

/-- The memory at `p` after the block at `p + off` has been rewritten to `q`. -/
def writeAt {α : Type} (p : Buf α) (off : Nat) (q : Buf α) : Buf α :=
  fun k => if off ≤ k then q (k - off) else p k

@[simp] theorem offset_apply {α : Type} (p : Buf α) (off i : Nat) : offset p off i = p (off + i) :=
  rfl

@[simp] theorem writeAt_apply {α : Type} (p : Buf α) (off : Nat) (q : Buf α) (k : Nat) :
    writeAt p off q k = if off ≤ k then q (k - off) else p k := rfl

/-- The step of a loop whose iteration `n` writes entry `n`: a buffer holding `f` below `n` and `g`
from there on, updated at `n` with `f n`, holds `f` below `n + 1`. -/
theorem update_prefix_apply {α : Type} {p f g : Nat → α} {n k : Nat}
    (h : p k = if k < n then f k else g k) :
    Function.update p n (f n) k = if k < n + 1 then f k else g k := by
  rw [Function.update_apply]
  by_cases hk : k = n
  · simp [hk]
  · rw [if_neg hk, h]
    congr 1
    exact propext ⟨fun h => by omega, fun h => by omega⟩

/-- Entry `i < cols` of row `j < rows` of a row-major block lies inside the block. -/
theorem row_major_lt {rows cols j i : Nat} (hj : j < rows) (hi : i < cols) :
    j * cols + i < rows * cols :=
  calc j * cols + i < j * cols + cols := Nat.add_lt_add_left hi _
    _ = (j + 1) * cols := (Nat.succ_mul j cols).symm
    _ ≤ rows * cols := Nat.mul_le_mul_right cols hj

/-- A 32-byte value held by value: a ChaCha20 key, a SHA-256 digest, the cached seed. -/
abbrev Bytes32 := Fin 32 → U8

/-- The 32 bytes a pointer points at, as `memcpy(key, p, 32)` takes them. -/
def bytes32 (p : Buf U8) : Bytes32 := fun i => p i

@[simp] theorem bytes32_apply (p : Buf U8) (i : Fin 32) : bytes32 p i = p i := rfl

/-- Bitcoin's `ChaCha20::Nonce96`, a `std::pair<uint32_t, uint64_t>`. -/
abbrev Nonce96 := BitVec 32 × BitVec 64

/-- Bitcoin's `ChaCha20`: `chacha key nonce k` is byte `k` of what `Keystream` writes after
`ChaCha20 chacha(key); chacha.Seek(nonce, 0)`. -/
abbrev ChaCha20 := Bytes32 → Nonce96 → Buf U8

/-- SHA-256 of a 32-byte message (`CSHA256().Write(input, 32).Finalize(digest)`, or libsodium's
`crypto_hash_sha256(digest, input, 32)`). -/
abbrev Sha256 := Bytes32 → Bytes32

/-- The allocator during one call, site by site: `none` when the allocation fails (`malloc`
returns null, a `std::vector` throws), `some b` for a fresh block whose bytes are `b`. -/
abbrev Alloc (σ : Type) := σ → Option (Buf U8)

/-- `std::bad_alloc`, thrown by a `std::vector` whose allocation fails. -/
inductive BadAlloc where
  | badAlloc
  deriving DecidableEq, Repr

/-- `fprintf(stderr, message); exit(status)`. -/
structure Exit where
  status : Nat
  message : String
  deriving DecidableEq, Repr

/-- The allocator that never fails and hands out zeroed blocks. -/
def Alloc.fresh {σ : Type} : Alloc σ := fun _ => some fun _ => 0

/-- Every allocation of the call succeeds. -/
def Alloc.AllOk {σ : Type} (a : Alloc σ) : Prop := ∀ s, (a s).isSome

theorem Alloc.AllOk.exists_eq_some {σ : Type} {a : Alloc σ} (ha : a.AllOk) (s : σ) :
    ∃ b, a s = some b :=
  Option.isSome_iff_exists.mp (ha s)

theorem Alloc.AllOk.ne_none {σ : Type} {a : Alloc σ} (ha : a.AllOk) (s : σ) : a s ≠ none :=
  Option.isSome_iff_ne_none.mp (ha s)

/-- `int32_t sum = 0; for (j = 0; j < n; j++) sum += f(j);`: the accumulator after `n`
iterations, in exact arithmetic. -/
def accumulate (f : Nat → Int) : Nat → Int
  | 0 => 0
  | n + 1 => accumulate f n + f n

@[simp] theorem accumulate_zero (f : Nat → Int) : accumulate f 0 = 0 := rfl

@[simp] theorem accumulate_succ (f : Nat → Int) (n : Nat) :
    accumulate f (n + 1) = accumulate f n + f n := rfl

theorem accumulate_eq_sum (f : Nat → Int) (n : Nat) :
    accumulate f n = ∑ j ∈ Finset.range n, f j := by
  induction n with
  | zero => rfl
  | succ n ih => rw [accumulate_succ, ih, Finset.sum_range_succ]

/-- The accumulator only reads `f` below the loop bound. -/
theorem accumulate_congr {f g : Nat → Int} {n : Nat} (h : ∀ j < n, f j = g j) :
    accumulate f n = accumulate g n := by
  induction n with
  | zero => rfl
  | succ n ih =>
    rw [accumulate_succ, accumulate_succ, ih fun j hj => h j (by omega), h n (by omega)]

/-- Bounds on every term give bounds on every partial sum. -/
theorem accumulate_bounds {f : Nat → Int} {lo hi : Int} {n : Nat}
    (h : ∀ j < n, lo ≤ f j ∧ f j ≤ hi) :
    ∀ k ≤ n, k * lo ≤ accumulate f k ∧ accumulate f k ≤ k * hi := by
  intro k hk
  induction k with
  | zero => simp
  | succ k ih =>
    obtain ⟨h1, h2⟩ := ih (by omega)
    obtain ⟨h3, h4⟩ := h k (by omega)
    simp only [accumulate_succ, Nat.cast_succ]
    constructor <;> linarith

end TensHash

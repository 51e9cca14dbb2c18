import TensHash.Basic
import Mathlib.Data.Finset.Basic
import Mathlib.Data.List.Perm.Basic
import Mathlib.Data.List.ReduceOption

/-!
# TensHash.Heap

The C heap as the three implementations use it, for the ownership of their blocks. `malloc` and
`calloc` hand out a fresh block or `NULL`, `free` takes a live block back, and `free(NULL)` does
nothing. A block is named by the counter `next`, which only grows, so a block handed out by one
call is never confused with a block handed out later.
What the blocks hold is the business of the value-level model; here only which blocks are live
matters.

A `free` of a block that is not live (freed before, or never handed out) is undefined behaviour
in C. The model records it in `badFree`, so that a theorem can say it never happens.

* `Owns h₀ h own`: `h` is `h₀` with the blocks `own` handed out since and still live, and no bad
  `free`. `Owns.handOut`, `Owns.malloc` and `Owns.trans` build it up.
* `Owns.freeAll`: a cleanup that frees, in any order, a permutation of the last blocks handed out
  takes the heap back to owning the others; with `own = []` the heap is as it was.
-/

namespace TensHash

/-- A pointer `malloc` returned: `none` is `NULL`. -/
abbrev Ptr := Option Nat

/-- The heap: the blocks handed out and not yet freed (`live`), the name the next block gets,
and whether a `free` was ever given a block that was not live. A live block has been handed out,
so its name is below `next`. -/
structure Heap where
  next : Nat
  live : Finset Nat
  badFree : Bool
  live_lt : ∀ a ∈ live, a < next

namespace Heap

/-- The heap after block `next` is handed out. -/
def handOut (h : Heap) : Heap where
  next := h.next + 1
  live := insert h.next h.live
  badFree := h.badFree
  live_lt a ha := by
    rcases Finset.mem_insert.mp ha with rfl | ha
    · omega
    · exact Nat.lt_succ_of_lt (h.live_lt a ha)

/-- `malloc` or `calloc` at allocation site `s`: a fresh block, or `NULL` where the allocator
fails. -/
def malloc {σ : Type} (alloc : Alloc σ) (s : σ) (h : Heap) : Ptr × Heap :=
  match alloc s with
  | some _ => (some h.next, h.handOut)
  | none => (none, h)

/-- `free(p)`: nothing for `NULL`; a live block is taken back; any other block is a bad `free`. -/
def free (p : Ptr) (h : Heap) : Heap :=
  match p with
  | none => h
  | some a =>
    if a ∈ h.live then ⟨h.next, h.live.erase a, h.badFree,
      fun b hb => h.live_lt b (Finset.mem_of_mem_erase hb)⟩
    else { h with badFree := true }

/-- The `free` calls of a cleanup, in order. -/
def freeAll (ps : List Ptr) (h : Heap) : Heap := ps.foldl (fun h p => h.free p) h

theorem malloc_of_some {σ : Type} {alloc : Alloc σ} {s : σ} {b : Buf U8} (h : Heap)
    (hs : alloc s = some b) : h.malloc alloc s = (some h.next, h.handOut) := by
  simp [malloc, hs]

theorem malloc_of_none {σ : Type} {alloc : Alloc σ} {s : σ} (h : Heap) (hs : alloc s = none) :
    h.malloc alloc s = (none, h) := by
  simp [malloc, hs]

@[simp] theorem freeAll_nil (h : Heap) : h.freeAll [] = h := rfl

theorem freeAll_append (ps qs : List Ptr) (h : Heap) :
    h.freeAll (ps ++ qs) = (h.freeAll ps).freeAll qs := by
  simp [freeAll, List.foldl_append]

theorem reduceOption_cons (p : Ptr) (ps : List Ptr) :
    (p :: ps).reduceOption = p.toList ++ ps.reduceOption := by
  cases p <;> rfl

@[simp] theorem reduceOption_map_some (l : List Nat) : (l.map some).reduceOption = l := by
  induction l with
  | nil => rfl
  | cons a l ih => simp [List.reduceOption_cons_of_some, ih]

/-- Freeing distinct live blocks (and `NULL`s) takes exactly those blocks back. -/
theorem freeAll_live (ps : List Ptr) (h : Heap) (hnd : ps.reduceOption.Nodup)
    (hlive : ∀ a ∈ ps.reduceOption, a ∈ h.live) :
    (h.freeAll ps).live = h.live \ ps.reduceOption.toFinset ∧
      (h.freeAll ps).badFree = h.badFree ∧ (h.freeAll ps).next = h.next := by
  induction ps generalizing h with
  | nil => simp
  | cons p ps ih =>
    cases p with
    | none =>
      rw [List.reduceOption_cons_of_none] at hnd hlive ⊢
      exact ih h hnd hlive
    | some a =>
      rw [List.reduceOption_cons_of_some] at hnd hlive ⊢
      obtain ⟨hna, hnd⟩ := List.nodup_cons.mp hnd
      have ha := hlive a (List.mem_cons_self _ _)
      have hfree : h.free (some a) = ⟨h.next, h.live.erase a, h.badFree,
          fun b hb => h.live_lt b (Finset.mem_of_mem_erase hb)⟩ := by simp [free, ha]
      obtain ⟨h1, h2, h3⟩ := ih (h.free (some a)) hnd fun b hb => by
        rw [hfree]
        exact Finset.mem_erase.mpr ⟨fun hab => hna (hab ▸ hb), hlive b (List.mem_cons_of_mem _ hb)⟩
      refine ⟨?_, h2.trans (by rw [hfree]), h3.trans (by rw [hfree])⟩
      rw [freeAll, List.foldl_cons, ← freeAll, h1, hfree, List.toFinset_cons, Finset.sdiff_insert,
        Finset.erase_sdiff_comm]

/-! ## Ownership since a given heap -/

/-- `h` is `h₀` with the blocks `own` handed out since and still live, and no bad `free`. -/
structure Owns (h₀ h : Heap) (own : List Nat) : Prop where
  live : h.live = h₀.live ∪ own.toFinset
  nodup : own.Nodup
  fresh : ∀ a ∈ own, h₀.next ≤ a
  next_le : h₀.next ≤ h.next
  badFree : h.badFree = h₀.badFree

theorem Owns.refl (h : Heap) : Owns h h [] := ⟨by simp, List.nodup_nil, by simp, le_rfl, rfl⟩

theorem Owns.lt_next {h₀ h : Heap} {own : List Nat} (ho : Owns h₀ h own) {a : Nat}
    (ha : a ∈ own) : a < h.next :=
  h.live_lt a (by rw [ho.live]; exact Finset.mem_union_right _ (List.mem_toFinset.mpr ha))

theorem Owns.handOut {h₀ h : Heap} {own : List Nat} (ho : Owns h₀ h own) :
    Owns h₀ h.handOut (own ++ [h.next]) where
  live := by
    ext a
    simp only [Heap.handOut, ho.live, Finset.mem_insert, Finset.mem_union, List.mem_toFinset,
      List.mem_append, List.mem_singleton]
    tauto
  nodup := List.nodup_append.mpr ⟨ho.nodup, List.nodup_singleton _, fun a ha hb => by
    rw [List.mem_singleton.mp hb] at ha
    exact absurd (ho.lt_next ha) (lt_irrefl _)⟩
  fresh a ha := by
    rcases List.mem_append.mp ha with ha | ha
    · exact ho.fresh a ha
    · rw [List.mem_singleton.mp ha]; exact ho.next_le
  next_le := Nat.le_succ_of_le ho.next_le
  badFree := ho.badFree

/-- A `malloc` adds the block it returns, if any. -/
theorem Owns.malloc {σ : Type} {h₀ h : Heap} {own : List Nat} (ho : Owns h₀ h own)
    (alloc : Alloc σ) (s : σ) :
    Owns h₀ (h.malloc alloc s).2 (own ++ (h.malloc alloc s).1.toList) := by
  cases hs : alloc s with
  | none => simpa [malloc_of_none _ hs] using ho
  | some _ => simpa [malloc_of_some _ hs] using ho.handOut

theorem Owns.perm {h₀ h : Heap} {own own' : List Nat} (ho : Owns h₀ h own)
    (hp : own.Perm own') : Owns h₀ h own' where
  live := by rw [ho.live, List.toFinset_eq_of_perm _ _ hp]
  nodup := hp.nodup_iff.mp ho.nodup
  fresh a ha := ho.fresh a (hp.mem_iff.mpr ha)
  next_le := ho.next_le
  badFree := ho.badFree

theorem Owns.trans {h₀ h₁ h : Heap} {own own' : List Nat} (h₁o : Owns h₀ h₁ own)
    (ho : Owns h₁ h own') : Owns h₀ h (own ++ own') where
  live := by rw [ho.live, h₁o.live, List.toFinset_append, Finset.union_assoc]
  nodup := List.nodup_append.mpr ⟨h₁o.nodup, ho.nodup, fun a ha hb =>
    absurd (ho.fresh a hb) (Nat.not_le.mpr (h₁o.lt_next ha))⟩
  fresh a ha := by
    rcases List.mem_append.mp ha with ha | ha
    · exact h₁o.fresh a ha
    · exact le_trans h₁o.next_le (ho.fresh a ha)
  next_le := le_trans h₁o.next_le ho.next_le
  badFree := ho.badFree.trans h₁o.badFree

/-- A stretch that leaves the heap as it found it keeps what was owned before it. -/
theorem Owns.trans_nil {h₀ h₁ h : Heap} {own : List Nat} (h₁o : Owns h₀ h₁ own)
    (ho : Owns h₁ h []) : Owns h₀ h own := by
  simpa using h₁o.trans ho

/-- A cleanup that frees a permutation of the last blocks handed out leaves the heap owning the
others: every block freed exactly once, no bad `free`. -/
theorem Owns.freeAll {h₀ h : Heap} {own rest : List Nat} (ho : Owns h₀ h (own ++ rest))
    {ps : List Ptr} (hp : ps.reduceOption.Perm rest) : Owns h₀ (h.freeAll ps) own := by
  obtain ⟨hnd, hnd', hdisj⟩ := List.nodup_append.mp ho.nodup
  obtain ⟨hl, hb, hn⟩ := freeAll_live ps h (hp.nodup_iff.mpr hnd') fun a ha => by
    rw [ho.live]
    exact Finset.mem_union_right _
      (List.mem_toFinset.mpr (List.mem_append_right _ (hp.mem_iff.mp ha)))
  refine ⟨?_, hnd, fun a ha => ho.fresh a (List.mem_append_left _ ha), hn ▸ ho.next_le,
    hb.trans ho.badFree⟩
  ext a
  simp only [hl, ho.live, Finset.mem_sdiff, Finset.mem_union, List.mem_toFinset, List.mem_append,
    hp.mem_iff]
  constructor
  · rintro ⟨h₁ | h₁ | h₁, h₂⟩
    · exact .inl h₁
    · exact .inr h₁
    · exact absurd h₁ h₂
  · rintro (h₁ | h₁)
    · exact ⟨.inl h₁, fun h₂ => absurd (ho.fresh a (List.mem_append_right _ h₂))
        (Nat.not_le.mpr (h₀.live_lt a h₁))⟩
    · exact ⟨.inr (.inl h₁), hdisj h₁⟩

/-- A cleanup that frees some of the blocks handed out since `h₀` leaves the heap owning the
others. -/
theorem Owns.freeAll_perm {h₀ h : Heap} {own keep : List Nat} (ho : Owns h₀ h own) {ps : List Ptr}
    (hp : own.Perm (keep ++ ps.reduceOption)) : Owns h₀ (h.freeAll ps) keep :=
  (ho.perm hp).freeAll (.refl _)

/-- A cleanup that frees a permutation of all the blocks handed out since `h₀` leaves the heap as
it was at `h₀`. -/
theorem Owns.freeAll_all {h₀ h : Heap} {rest : List Nat} (ho : Owns h₀ h rest) {ps : List Ptr}
    (hp : ps.reduceOption.Perm rest) : Owns h₀ (h.freeAll ps) [] :=
  have ho : Owns h₀ h ([] ++ rest) := ho
  ho.freeAll hp

theorem malloc_fst_isSome {σ : Type} (alloc : Alloc σ) (s : σ) (h : Heap) :
    (h.malloc alloc s).1.isSome = (alloc s).isSome := by
  cases hs : alloc s <;> simp [malloc, hs]

end Heap

/-! ## Hash buffers

`init_hash_buffers` and `free_hash_buffers` are the same code in the node file and in the tool
(`src/test_pow/tens_hash.c`, whose `if (p) free(p)` is `free(p)` on `NULL`); they are written
once here, over the four allocation sites. -/

section HashBuffers

open Heap

/-- The blocks of a `HashBuffers`: the struct and its three vectors. -/
structure BuffersPtrs where
  buffers : Nat
  state : Nat
  nextState : Nat
  noise : Nat

/-- The `free` calls of `free_hash_buffers(buffers)` on buffers `init_hash_buffers` returned. -/
def buffersFrees (b : BuffersPtrs) : List Ptr :=
  [some b.state, some b.nextState, some b.noise, some b.buffers]

/-- `free_hash_buffers` frees the four blocks `init_hash_buffers` allocates. -/
theorem buffersFrees_perm (b : BuffersPtrs) :
    (buffersFrees b).reduceOption.Perm [b.buffers, b.state, b.nextState, b.noise] :=
  List.perm_append_singleton b.buffers [b.state, b.nextState, b.noise]

/-- `free_hash_buffers(buffers)`, its `if (buffers)` passed. -/
def freeHashBuffers (b : BuffersPtrs) (h : Heap) : Heap := h.freeAll (buffersFrees b)

/-- `init_hash_buffers()` over its allocation sites: the struct, then the two `calloc`ed state
vectors and the noise vector; if any of the three is `NULL`, the three pointers and the struct
are freed. -/
def initBuffers {σ : Type} (alloc : Alloc σ) (buffers state nextState noise : σ) (h : Heap) :
    Option BuffersPtrs × Heap :=
  match h.malloc alloc buffers with
  | (none, h) => (none, h)
  | (some b, h) =>
    let s := h.malloc alloc state
    let t := s.2.malloc alloc nextState
    let n := t.2.malloc alloc noise
    match s.1, t.1, n.1 with
    | some s, some t, some n' => (some ⟨b, s, t, n'⟩, n.2)
    | _, _, _ => (none, n.2.freeAll [s.1, t.1, n.1, some b])

/-- Every outcome of `init_hash_buffers`: `NULL` with the heap as before, whichever allocation
failed, or, when all four succeed, the four blocks. -/
theorem initBuffers_cases {σ : Type} (alloc : Alloc σ) (buffers state nextState noise : σ)
    (h : Heap) :
    (∃ h', initBuffers alloc buffers state nextState noise h = (none, h') ∧
        ¬((alloc buffers).isSome ∧ (alloc state).isSome ∧ (alloc nextState).isSome ∧
          (alloc noise).isSome) ∧ Owns h h' []) ∨
      ∃ b h', initBuffers alloc buffers state nextState noise h = (some b, h') ∧
        ((alloc buffers).isSome ∧ (alloc state).isSome ∧ (alloc nextState).isSome ∧
          (alloc noise).isSome) ∧ Owns h h' [b.buffers, b.state, b.nextState, b.noise] := by
  cases hb : alloc buffers with
  | none => exact .inl ⟨h, by simp [initBuffers, malloc_of_none _ hb], by simp, Owns.refl h⟩
  | some _ =>
  have ho := (((Owns.refl h).handOut.malloc alloc state).malloc alloc nextState).malloc alloc
    noise
  have hs := malloc_fst_isSome alloc state h.handOut
  have ht := malloc_fst_isSome alloc nextState (h.handOut.malloc alloc state).2
  have hn := malloc_fst_isSome alloc noise ((h.handOut.malloc alloc state).2.malloc alloc
    nextState).2
  simp only [initBuffers, malloc_of_some _ hb]
  split
  · rename_i s t n es et en
    rw [es] at ho hs
    rw [et] at ho ht
    rw [en] at ho hn
    exact .inr ⟨_, _, rfl, ⟨rfl, hs.symm, ht.symm, hn.symm⟩, by simpa using ho⟩
  · rename_i hfail
    refine .inl ⟨_, rfl, fun ⟨_, hs', ht', hn'⟩ => ?_,
      ho.freeAll_all (List.perm_iff_count.mpr fun a => ?_)⟩
    · obtain ⟨_, es⟩ := Option.isSome_iff_exists.mp (hs.trans hs')
      obtain ⟨_, et⟩ := Option.isSome_iff_exists.mp (ht.trans ht')
      obtain ⟨_, en⟩ := Option.isSome_iff_exists.mp (hn.trans hn')
      exact hfail _ _ _ es et en
    · simp only [reduceOption_cons, List.reduceOption_nil, Option.toList_some, List.cons_append,
        List.nil_append, List.append_nil, List.count_append, List.count_cons, List.count_nil]
      omega

end HashBuffers

end TensHash

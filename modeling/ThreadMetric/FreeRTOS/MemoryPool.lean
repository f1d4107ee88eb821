import Mathlib.Data.List.Nodup
import Mathlib.Data.List.Perm.Basic
import ThreadMetric.Library.ByteMemory
import ThreadMetric.Library.Transition

/-!
# The memory pool of the FreeRTOS port

The pool area is cut into sixteen blocks, and the free blocks are linked through their first bytes,
inside the memory that the client may overwrite while it holds a block. `Stack` is what the pool is
for: a stack of free blocks and a collection of held ones that together are all blocks. The
relation `Represents` ties a stack to the bytes of the area; `represents_next` shows that every
operation, including a write of the client, is the operation of the stack.
-/

namespace ThreadMetric.FreeRTOS

open ByteMemory Transition

/-- `TM_BLOCK_SIZE`. -/
def tmBlockSize : ℕ := 128

/-- `TM_POOL_SIZE`. -/
def tmPoolSize : ℕ := 2048

/-- `TM_BLOCK_COUNT`. -/
def tmBlockCount : ℕ := tmPoolSize / tmBlockSize

/-- `TM_FREERTOS_MAX_POOLS`. -/
def tmFreertosMaxPools : ℤ := 1

/-- `TM_SUCCESS` and `TM_ERROR`. -/
inductive Status where
  | success
  | error
  deriving DecidableEq

/-- Where the pool area lies: pointers have four or eight bytes, and the area is an object in the
address space, so that its addresses are not null and fit into a pointer. -/
structure Layout where
  width : ℕ
  base : ℕ
  width_eq : width = 4 ∨ width = 8
  base_pos : 0 < base
  fits : base + tmPoolSize ≤ 256 ^ width

namespace Layout

variable (L : Layout)

/-- `base + i * TM_BLOCK_SIZE`. -/
def block (i : ℕ) : ℕ := L.base + i * tmBlockSize

/-- The starts of all blocks of the area. -/
def blocks : List ℕ := (List.range tmBlockCount).map L.block

end Layout

/-- The memory and the freelist head `tm_pool_free[0]`. -/
structure Pool where
  memory : Memory
  free : ℕ

/-- `pool_id < 0 || pool_id >= TM_FREERTOS_MAX_POOLS`. -/
def invalidPool (poolId : ℤ) : Bool :=
  decide (poolId < 0) || decide (tmFreertosMaxPools ≤ poolId)

/-- The loop of `tm_memory_pool_create`: block `i` gets a pointer to block `i + 1`. -/
def linkBlocks (L : Layout) (memory : Memory) : Memory :=
  (List.range (tmBlockCount - 1)).foldl
    (fun memory i ↦ store L.width memory (L.block i) (L.block (i + 1))) memory

/-- `tm_memory_pool_create`. -/
def tmMemoryPoolCreate (L : Layout) (poolId : ℤ) (pool : Pool) : Status × Pool :=
  if invalidPool poolId then (.error, pool)
  else
    (.success,
      { memory := store L.width (linkBlocks L pool.memory) (L.block (tmBlockCount - 1)) 0
        free := L.base })

/-- `tm_memory_pool_allocate`; `memoryPtr` is the value of `*memory_ptr` before and after. -/
def tmMemoryPoolAllocate (L : Layout) (poolId : ℤ) (memoryPtr : ℕ) (pool : Pool) :
    Status × ℕ × Pool :=
  if invalidPool poolId then (.error, memoryPtr, pool)
  else
    let block := pool.free
    if block = 0 then (.error, memoryPtr, pool)
    else (.success, block, { pool with free := load L.width pool.memory block })

/-- `tm_memory_pool_deallocate`. -/
def tmMemoryPoolDeallocate (L : Layout) (poolId : ℤ) (memoryPtr : ℕ) (pool : Pool) :
    Status × Pool :=
  if invalidPool poolId then (.error, pool)
  else
    (.success,
      { memory := store L.width pool.memory memoryPtr pool.free
        free := memoryPtr })

/-! ## Clients -/

/-- What a client does: allocate, deallocate a block, or write a byte of a block. -/
inductive Op where
  | allocate
  | deallocate (block : ℕ)
  | write (block offset : ℕ) (byte : BitVec 8)

/-- The pool together with its client: the blocks the client holds and its variable
`memory_ptr`. -/
structure Client where
  pool : Pool
  held : List ℕ
  memoryPtr : ℕ

/-- One operation of a client that deallocates only blocks it holds and writes only inside
them. -/
def Client.next (L : Layout) (s : Client) : Op → Option Client
  | .allocate =>
      match tmMemoryPoolAllocate L 0 s.memoryPtr s.pool with
      | (.success, memoryPtr, pool) =>
          some { pool := pool, held := memoryPtr :: s.held, memoryPtr := memoryPtr }
      | (.error, memoryPtr, pool) => some { s with pool := pool, memoryPtr := memoryPtr }
  | .deallocate block =>
      if block ∈ s.held then
        some { s with
          pool := (tmMemoryPoolDeallocate L 0 block s.pool).2
          held := s.held.erase block }
      else none
  | .write block offset byte =>
      if block ∈ s.held ∧ offset < tmBlockSize then
        some { s with
          pool :=
            { s.pool with memory := Function.update s.pool.memory (block + offset) byte } }
      else none

/-- A client that holds nothing, after `tm_memory_pool_create(0)` on arbitrary memory. -/
def Client.start (L : Layout) (pool : Pool) (memoryPtr : ℕ) : Client :=
  { pool := (tmMemoryPoolCreate L 0 pool).2, held := [], memoryPtr := memoryPtr }

/-! ## The stack of free blocks -/

/-- Free and held blocks are together exactly the given ones: no block is lost and none is in two
places. -/
structure Stack (blocks : List ℕ) where
  free : List ℕ
  held : List ℕ
  memoryPtr : ℕ
  complete : (free ++ held).Perm blocks

namespace Stack

variable {blocks : List ℕ}

/-- All blocks are free. -/
def start (blocks : List ℕ) (memoryPtr : ℕ) : Stack blocks where
  free := blocks
  held := []
  memoryPtr := memoryPtr
  complete := by rw [List.append_nil]

/-- Take the block on top of the stack, if there is one. -/
def allocate : Stack blocks → Stack blocks
  | ⟨[], held, memoryPtr, complete⟩ => ⟨[], held, memoryPtr, complete⟩
  | ⟨block :: rest, held, _, complete⟩ =>
      { free := rest
        held := block :: held
        memoryPtr := block
        complete := List.perm_middle.trans complete }

/-- Put a held block on top of the stack. -/
def deallocate (stack : Stack blocks) (block : ℕ) (hheld : block ∈ stack.held) : Stack blocks where
  free := block :: stack.free
  held := stack.held.erase block
  memoryPtr := stack.memoryPtr
  complete :=
    (List.perm_middle.symm.trans (List.Perm.append_left _ (List.perm_cons_erase hheld).symm)).trans
      stack.complete

/-- One operation; writing to a held block means nothing to the stack. -/
def next (stack : Stack blocks) : Op → Option (Stack blocks)
  | .allocate => some stack.allocate
  | .deallocate block =>
      if hheld : block ∈ stack.held then some (stack.deallocate block hheld) else none
  | .write block offset _ =>
      if block ∈ stack.held ∧ offset < tmBlockSize then some stack else none

end Stack

namespace Layout

variable {L : Layout} {b b' : ℕ}

/-- A block is one of sixteen. -/
theorem mem_blocks : b ∈ L.blocks ↔ ∃ i < tmBlockCount, L.block i = b := by
  simp [blocks]

/-- The blocks are different. -/
theorem blocks_nodup : L.blocks.Nodup := by
  refine List.Nodup.map (fun i j hij ↦ ?_) List.nodup_range
  simp only [block, tmBlockSize] at hij
  omega

/-- A block lies inside the area. -/
theorem block_bounds {i : ℕ} (hi : i < tmBlockCount) :
    0 < L.block i ∧ L.block i + tmBlockSize ≤ 256 ^ L.width := by
  have hbase := L.base_pos
  have hfits := L.fits
  simp only [block, tmBlockSize, tmBlockCount, tmPoolSize] at *
  omega

/-- The start of a block is not null and fits into a pointer. -/
theorem block_valid (hb : b ∈ L.blocks) : b ≠ 0 ∧ b < 256 ^ L.width := by
  obtain ⟨i, hi, rfl⟩ := mem_blocks.mp hb
  have hbounds := L.block_bounds hi
  simp only [tmBlockSize] at hbounds
  omega

/-- Different blocks do not overlap. -/
theorem blocks_apart (hb : b ∈ L.blocks) (hb' : b' ∈ L.blocks) (hne : b ≠ b') :
    b + tmBlockSize ≤ b' ∨ b' + tmBlockSize ≤ b := by
  obtain ⟨i, -, rfl⟩ := mem_blocks.mp hb
  obtain ⟨j, -, rfl⟩ := mem_blocks.mp hb'
  have hij : i ≠ j := fun heq ↦ hne (congrArg L.block heq)
  simp only [block, tmBlockSize] at *
  omega

/-- A pointer fits into a block. -/
theorem width_le : L.width ≤ tmBlockSize := by
  have hwidth := L.width_eq
  simp only [tmBlockSize]
  omega

end Layout

/-! ## Creation -/

/-- After `n` passes of the loop the first `n` blocks point to their successors. -/
theorem load_link (L : Layout) (memory : Memory) {n : ℕ} (hn : n < tmBlockCount) :
    ∀ i < n, load L.width ((List.range n).foldl
      (fun memory i ↦ store L.width memory (L.block i) (L.block (i + 1))) memory) (L.block i) =
      L.block (i + 1) := by
  induction n with
  | zero =>
      intro i hi
      exact absurd hi (Nat.not_lt_zero i)
  | succ n ih =>
      intro i hi
      rw [List.range_succ, List.foldl_append, List.foldl_cons, List.foldl_nil]
      rcases Nat.lt_succ_iff_lt_or_eq.mp hi with hlt | rfl
      · have hapart : L.block i + L.width ≤ L.block n := by
          have hwidth := L.width_le
          simp only [Layout.block, tmBlockSize] at *
          omega
        rw [load_store_other (.inl hapart)]
        exact ih (Nat.lt_of_succ_lt hn) i hlt
      · exact load_store_same (Layout.block_valid (Layout.mem_blocks.mpr ⟨i + 1, hn, rfl⟩)).2

/-- `tm_memory_pool_create` links all blocks, whatever the memory held before. -/
theorem chain_create (L : Layout) (pool : Pool) :
    Chain L.width (tmMemoryPoolCreate L 0 pool).2.memory (tmMemoryPoolCreate L 0 pool).2.free
      L.blocks := by
  have hbase : L.base = L.block 0 := by
    simp [Layout.block]
  show Chain L.width (store L.width (linkBlocks L pool.memory) (L.block (tmBlockCount - 1)) 0)
    L.base ((List.range (tmBlockCount - 1 + 1)).map L.block)
  rw [hbase]
  refine Chain.of_links L.block (tmBlockCount - 1) ?_ ?_ ?_
  · intro i hi
    exact (L.block_bounds (Nat.lt_of_le_of_lt hi (by decide))).1.ne'
  · intro i hi
    have hapart : L.block i + L.width ≤ L.block (tmBlockCount - 1) := by
      have hwidth := L.width_le
      simp only [Layout.block, tmBlockSize] at *
      omega
    rw [load_store_other (.inl hapart)]
    exact load_link L pool.memory (by decide) i hi
  · exact load_store_same (Nat.pow_pos (by decide))

/-! ## Refinement -/

/-- The bytes of the area and the client represent a stack: the freelist is the stack of free
blocks from its top on. -/
structure Represents (L : Layout) (s : Client) (stack : Stack L.blocks) : Prop where
  chain : Chain L.width s.pool.memory s.pool.free stack.free
  held : s.held = stack.held
  memoryPtr : s.memoryPtr = stack.memoryPtr

namespace Stack

variable {L : Layout} (stack : Stack L.blocks) {b b' : ℕ}

/-- No block occurs twice. -/
theorem nodup : (stack.free ++ stack.held).Nodup :=
  stack.complete.nodup_iff.mpr L.blocks_nodup

/-- Every block is free or held. -/
theorem mem_iff : b ∈ stack.free ∨ b ∈ stack.held ↔ b ∈ L.blocks := by
  rw [← stack.complete.mem_iff, List.mem_append]

/-- Free blocks and held blocks do not overlap. -/
theorem apart (hb : b ∈ stack.free) (hb' : b' ∈ stack.held) :
    b + tmBlockSize ≤ b' ∨ b' + tmBlockSize ≤ b := by
  have hne : b ≠ b' := fun heq ↦ List.disjoint_of_nodup_append stack.nodup hb (heq ▸ hb')
  exact Layout.blocks_apart (stack.mem_iff.mp (.inl hb)) (stack.mem_iff.mp (.inr hb')) hne

end Stack

namespace Represents

variable {L : Layout} {s s' : Client} {stack : Stack L.blocks}

/-- The freelist head fits into a pointer. -/
theorem free_lt (h : Represents L s stack) : s.pool.free < 256 ^ L.width := by
  rcases h.chain.head_mem with hnull | hmem
  · rw [hnull]
    exact Nat.pow_pos (by decide)
  · exact (Layout.block_valid (stack.mem_iff.mp (.inl hmem))).2

/-- On an empty stack an allocation fails and changes nothing. -/
theorem allocate_of_nil (h : Represents L s stack) (hfree : stack.free = []) :
    tmMemoryPoolAllocate L 0 s.memoryPtr s.pool = (.error, s.memoryPtr, s.pool) := by
  have hnull : s.pool.free = 0 := h.chain.head_mem.resolve_right (by simp [hfree])
  simp [tmMemoryPoolAllocate, invalidPool, tmFreertosMaxPools, hnull]

/-- On a nonempty stack an allocation returns its top and leaves the rest. -/
theorem allocate_of_cons (h : Represents L s stack) {block : ℕ} {rest : List ℕ}
    (hfree : stack.free = block :: rest) :
    tmMemoryPoolAllocate L 0 s.memoryPtr s.pool =
        (.success, block, { s.pool with free := load L.width s.pool.memory block }) ∧
      Chain L.width s.pool.memory (load L.width s.pool.memory block) rest := by
  have hchain := h.chain
  rw [hfree] at hchain
  generalize hhead : s.pool.free = head at hchain
  cases hchain with
  | cons hne hrest =>
      refine ⟨?_, hrest⟩
      simp [tmMemoryPoolAllocate, invalidPool, tmFreertosMaxPools, hhead, hne]

/-- Writing inside a held block leaves the chain of free blocks alone. -/
theorem chain_write (h : Represents L s stack) {block offset : ℕ} {byte : BitVec 8}
    (hheld : block ∈ stack.held) (hoffset : offset < tmBlockSize) :
    Chain L.width (Function.update s.pool.memory (block + offset) byte) s.pool.free
      stack.free := by
  refine h.chain.congr fun node hnode ↦ load_update_other ?_
  have hapart := stack.apart hnode hheld
  have hwidth := L.width_le
  omega

/-- Pushing a held block links it in front of the chain of free blocks. -/
theorem chain_deallocate (h : Represents L s stack) {block : ℕ} (hheld : block ∈ stack.held) :
    Chain L.width (store L.width s.pool.memory block s.pool.free) block (block :: stack.free) := by
  have hvalid := Layout.block_valid (stack.mem_iff.mp (.inr hheld))
  refine .cons hvalid.1 ?_
  rw [load_store_same h.free_lt]
  refine h.chain.congr fun node hnode ↦ load_store_other ?_
  have hapart := stack.apart hnode hheld
  have hwidth := L.width_le
  omega

/-- Every operation of the client is the operation of the stack. -/
theorem next (h : Represents L s stack) {op : Op} (hnext : s.next L op = some s') :
    ∃ stack', stack.next op = some stack' ∧ Represents L s' stack' := by
  cases op with
  | allocate =>
      refine ⟨stack.allocate, rfl, ?_⟩
      obtain ⟨free, held, memoryPtr, complete⟩ := stack
      cases free with
      | nil =>
          simp only [Client.next, h.allocate_of_nil rfl, Option.some.injEq] at hnext
          subst hnext
          exact h
      | cons block rest =>
          obtain ⟨hallocate, hrest⟩ := h.allocate_of_cons rfl
          simp only [Client.next, hallocate, Option.some.injEq] at hnext
          subst hnext
          exact ⟨hrest, congrArg (block :: ·) h.held, rfl⟩
  | deallocate block =>
      simp only [Client.next, Option.ite_none_right_eq_some, Option.some.injEq] at hnext
      obtain ⟨hheld, rfl⟩ := hnext
      rw [h.held] at hheld
      refine ⟨stack.deallocate block hheld, dif_pos hheld, ?_⟩
      exact ⟨h.chain_deallocate hheld, congrArg (·.erase block) h.held, h.memoryPtr⟩
  | write block offset byte =>
      simp only [Client.next, Option.ite_none_right_eq_some, Option.some.injEq] at hnext
      obtain ⟨⟨hheld, hoffset⟩, rfl⟩ := hnext
      rw [h.held] at hheld
      refine ⟨stack, if_pos ⟨hheld, hoffset⟩, ?_⟩
      exact ⟨h.chain_write hheld hoffset, h.held, h.memoryPtr⟩

/-- A whole run of the client is a run of the stack. -/
theorem run (h : Represents L s stack) {ops : List Op}
    (hrun : Transition.run (Client.next L) ops s = some s') :
    ∃ stack', Transition.run Stack.next ops stack = some stack' ∧ Represents L s' stack' := by
  induction ops generalizing s stack with
  | nil =>
      cases hrun
      exact ⟨stack, rfl, h⟩
  | cons op ops ih =>
      simp only [Transition.run, Option.bind_eq_bind, Option.bind_eq_some_iff] at hrun ⊢
      obtain ⟨middle, hnext, hrest⟩ := hrun
      obtain ⟨stack₁, hstack, hmiddle⟩ := h.next hnext
      obtain ⟨stack', hstack', hfinish⟩ := ih hmiddle hrest
      exact ⟨stack', ⟨stack₁, hstack, hstack'⟩, hfinish⟩

end Represents

/-- What an allocation on a represented stack returns. -/
theorem Represents.allocate {L : Layout} {s : Client} {stack : Stack L.blocks}
    (h : Represents L s stack) {status : Status} {ptr : ℕ} {pool : Pool}
    (hallocate : tmMemoryPoolAllocate L 0 s.memoryPtr s.pool = (status, ptr, pool)) :
    (status = .error ↔ ∀ b ∈ L.blocks, b ∈ s.held) ∧
      (status = .error → ptr = s.memoryPtr ∧ pool = s.pool) ∧
      (status = .success → ptr ∈ L.blocks ∧
        ∀ b ∈ s.held, ptr + tmBlockSize ≤ b ∨ b + tmBlockSize ≤ ptr) := by
  have hheld := h.held
  cases hfree : stack.free with
  | nil =>
      rw [h.allocate_of_nil hfree] at hallocate
      obtain ⟨rfl, rfl, rfl⟩ := hallocate
      refine ⟨⟨fun _ b hb ↦ ?_, fun _ ↦ rfl⟩, fun _ ↦ ⟨rfl, rfl⟩, nofun⟩
      have hmem := stack.mem_iff.mpr hb
      rw [hfree, ← hheld] at hmem
      exact hmem.resolve_left List.not_mem_nil
  | cons block rest =>
      rw [(h.allocate_of_cons hfree).1] at hallocate
      obtain ⟨rfl, rfl, rfl⟩ := hallocate
      have hmem : ptr ∈ stack.free := by
        rw [hfree]
        exact List.mem_cons_self ..
      have hblock := stack.mem_iff.mp (.inl hmem)
      refine ⟨⟨nofun, fun hall ↦ ?_⟩, nofun, fun _ ↦ ⟨hblock, fun b hb ↦ ?_⟩⟩
      · have hboth := hall ptr hblock
        rw [hheld] at hboth
        exact absurd hboth (List.disjoint_of_nodup_append stack.nodup hmem)
      · rw [hheld] at hb
        exact stack.apart hmem hb

/-- An allocation right after a deallocation returns the deallocated block. -/
theorem Represents.allocate_deallocate {L : Layout} {s : Client} {stack : Stack L.blocks}
    (h : Represents L s stack) {block : ℕ} (hheld : block ∈ s.held) :
    ∃ pool, tmMemoryPoolAllocate L 0 s.memoryPtr (tmMemoryPoolDeallocate L 0 block s.pool).2 =
      (.success, block, pool) := by
  have hnext : s.next L (.deallocate block) = some _ := if_pos hheld
  obtain ⟨stack', hstack, hrepresents⟩ := h.next hnext
  rw [h.held] at hheld
  obtain rfl := Option.some.inj ((dif_pos hheld).symm.trans hstack)
  exact ⟨_, (hrepresents.allocate_of_cons rfl).1⟩

/-- After any sequence of operations on a pool created on arbitrary memory, the same operations
lead from the full stack to a stack that the pool represents: the freelist is its stack of free
blocks, and free and held blocks are together exactly the blocks of the area, none of them twice.
An allocation fails exactly if all blocks are held, and then it changes nothing; a successful one
returns a block of the area that overlaps no held block; and an allocation right after a
deallocation returns the deallocated block. -/
theorem pool_refines_stack {L : Layout} {pool : Pool} {memoryPtr : ℕ} {ops : List Op} {s : Client}
    (hrun : run (Client.next L) ops (Client.start L pool memoryPtr) = some s) :
    ∃ stack : Stack L.blocks, run Stack.next ops (Stack.start L.blocks memoryPtr) = some stack ∧
      Chain L.width s.pool.memory s.pool.free stack.free ∧
      s.held = stack.held ∧ s.memoryPtr = stack.memoryPtr ∧
      (stack.free ++ s.held).Nodup ∧ (∀ b, b ∈ stack.free ∨ b ∈ s.held ↔ b ∈ L.blocks) ∧
      (∀ status ptr pool', tmMemoryPoolAllocate L 0 s.memoryPtr s.pool = (status, ptr, pool') →
        (status = .error ↔ ∀ b ∈ L.blocks, b ∈ s.held) ∧
        (status = .error → ptr = s.memoryPtr ∧ pool' = s.pool) ∧
        (status = .success → ptr ∈ L.blocks ∧
          ∀ b ∈ s.held, ptr + tmBlockSize ≤ b ∨ b + tmBlockSize ≤ ptr)) ∧
      ∀ p ∈ s.held, ∃ pool', tmMemoryPoolAllocate L 0 s.memoryPtr
        (tmMemoryPoolDeallocate L 0 p s.pool).2 = (.success, p, pool') := by
  have hstart : Represents L (Client.start L pool memoryPtr) (Stack.start L.blocks memoryPtr) :=
    ⟨chain_create L pool, rfl, rfl⟩
  obtain ⟨stack, hstack, h⟩ := hstart.run hrun
  refine ⟨stack, hstack, h.chain, h.held, h.memoryPtr, ?_, ?_, ?_, ?_⟩
  · rw [h.held]
    exact stack.nodup
  · intro b
    rw [h.held]
    exact stack.mem_iff
  · intro status ptr pool' hallocate
    exact h.allocate hallocate
  · intro p hp
    exact h.allocate_deallocate hp

/-- Pointers of eight bytes and an area at address 4096. -/
def exampleLayout : Layout where
  width := 8
  base := 4096
  width_eq := .inr rfl
  base_pos := by decide
  fits := by decide

/-- On memory full of ones: two allocations, a write over the old link of the first block, and its
deallocation. -/
theorem pool_refines_stack_overwritten :
    ∃ (s : Client) (stack : Stack exampleLayout.blocks),
      run (Client.next exampleLayout)
        [.allocate, .allocate, .write 4096 0 7, .deallocate 4096]
        (Client.start exampleLayout ⟨fun _ ↦ 255, 1⟩ 0) = some s ∧
      run Stack.next [.allocate, .allocate, .write 4096 0 7, .deallocate 4096]
        (Stack.start exampleLayout.blocks 0) = some stack ∧
      Chain exampleLayout.width s.pool.memory s.pool.free stack.free ∧
      (stack.free ++ s.held).Nodup ∧
      ∀ p ∈ s.held, ∃ pool', tmMemoryPoolAllocate exampleLayout 0 s.memoryPtr
        (tmMemoryPoolDeallocate exampleLayout 0 p s.pool).2 = (.success, p, pool') := by
  have hsome : (run (Client.next exampleLayout)
      [.allocate, .allocate, .write 4096 0 7, .deallocate 4096]
      (Client.start exampleLayout ⟨fun _ ↦ 255, 1⟩ 0)).isSome = true := by
    decide +kernel
  obtain ⟨s, hrun⟩ := Option.isSome_iff_exists.mp hsome
  obtain ⟨stack, hstack, hchain, -, -, hnodup, -, -, hlifo⟩ := pool_refines_stack hrun
  exact ⟨s, stack, hrun, hstack, hchain, hnodup, hlifo⟩

end ThreadMetric.FreeRTOS

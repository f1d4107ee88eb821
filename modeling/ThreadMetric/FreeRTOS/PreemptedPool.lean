import ThreadMetric.FreeRTOS.MemoryPool

/-!
# The memory pool of the FreeRTOS port under preemption

The pool has no lock. A thread of lower priority makes its accesses one at a time, and between any
two of them a thread of higher priority may make whole calls. `Intact` is what the pool should
keep: every block of the area is free or held by one of the threads, and only one of these. A call
of the lower thread ends with a write of the head that relies on what it has read before;
`intact_iff_current` says that the pool stays intact exactly as long as what was read is still
current there.
-/

namespace ThreadMetric.FreeRTOS.Preempted

open ByteMemory Transition

/-- Program points of the lower thread, with its local variables: outside of calls; in
`tm_memory_pool_allocate` before it reads the head, before it reads the link of the block and before
it writes the head; and in `tm_memory_pool_deallocate` before it reads the head, before it writes
the link of the block and before it writes the head. -/
inductive Pc where
  | idle
  | allocateRead
  | allocateLink (block : ℕ)
  | allocateWrite (block link : ℕ)
  | deallocateRead (block : ℕ)
  | deallocateLink (block head : ℕ)
  | deallocateWrite (block head : ℕ)
  deriving DecidableEq

/-- The pool, the blocks that each thread holds, and the variable `memory_ptr` of the higher one. -/
structure State where
  pool : Pool
  pc : Pc
  low : List ℕ
  high : List ℕ
  memoryPtr : ℕ

/-- The lower thread calls, writes to a block between two calls or makes the next access of its
call; the higher thread makes a whole call, or a write of its own. -/
inductive Event where
  | allocate
  | deallocate (block : ℕ)
  | write (block offset : ℕ) (byte : BitVec 8)
  | access
  | high (op : Op)

/-- The next access of the lower thread. -/
def access (L : Layout) (s : State) : Option State :=
  match s.pc with
  | .idle => none
  | .allocateRead =>
      let block := s.pool.free
      some { s with pc := if block = 0 then .idle else .allocateLink block }
  | .allocateLink block =>
      some { s with pc := .allocateWrite block (load L.width s.pool.memory block) }
  | .allocateWrite block link =>
      some { s with
        pool := { s.pool with free := link }
        pc := .idle
        low := block :: s.low }
  | .deallocateRead block => some { s with pc := .deallocateLink block s.pool.free }
  | .deallocateLink block head =>
      some { s with
        pool := { s.pool with memory := store L.width s.pool.memory block head }
        pc := .deallocateWrite block head }
  | .deallocateWrite block _ =>
      some { s with
        pool := { s.pool with free := block }
        pc := .idle
        low := s.low.erase block }

/-- The higher thread as a client of the pool. -/
def State.highClient (s : State) : Client := ⟨s.pool, s.high, s.memoryPtr⟩

/-- One event; each thread deallocates only blocks it holds and writes only inside them. -/
def next (L : Layout) (s : State) : Event → Option State
  | .allocate => if s.pc = .idle then some { s with pc := .allocateRead } else none
  | .deallocate block =>
      if s.pc = .idle ∧ block ∈ s.low then some { s with pc := .deallocateRead block } else none
  | .write block offset byte =>
      if s.pc = .idle ∧ block ∈ s.low ∧ offset < tmBlockSize then
        some { s with
          pool := { s.pool with memory := Function.update s.pool.memory (block + offset) byte } }
      else none
  | .access => access L s
  | .high op =>
      (s.highClient.next L op).map fun client ↦
        { s with pool := client.pool, high := client.held, memoryPtr := client.memoryPtr }

/-- The pool after `tm_memory_pool_create(0)` on arbitrary memory; no thread holds a block. -/
def start (L : Layout) (pool : Pool) (memoryPtr : ℕ) : State :=
  ⟨(tmMemoryPoolCreate L 0 pool).2, .idle, [], [], memoryPtr⟩

/-- Every block of the area is on the freelist, or held by the higher thread, or held by the lower
one, and only one of these. -/
def Intact (L : Layout) (s : State) : Prop :=
  ∃ free, Chain L.width s.pool.memory s.pool.free free ∧ (free ++ (s.high ++ s.low)).Nodup ∧
    ∀ b, b ∈ L.blocks ↔ b ∈ free ∨ b ∈ s.high ∨ b ∈ s.low

/-- Where the lower thread writes the head, what it has read of the head and of the link is still
there. -/
def Current (L : Layout) (s : State) : Event → Prop
  | .access =>
      match s.pc with
      | .allocateWrite block link =>
          s.pool.free = block ∧ load L.width s.pool.memory block = link
      | .deallocateWrite _ head => s.pool.free = head
      | _ => True
  | _ => True

variable {L : Layout} {s s' : State}

/-- Free and held blocks are together the blocks of the area. -/
theorem intact_iff_perm : Intact L s ↔
    ∃ free, Chain L.width s.pool.memory s.pool.free free ∧
      (free ++ (s.high ++ s.low)).Perm L.blocks := by
  constructor
  · rintro ⟨free, hchain, hnodup, hmem⟩
    refine ⟨free, hchain, (List.perm_ext_iff_of_nodup hnodup Layout.blocks_nodup).mpr fun b ↦ ?_⟩
    rw [hmem b, List.mem_append, List.mem_append]
  · rintro ⟨free, hchain, hperm⟩
    refine ⟨free, hchain, hperm.nodup_iff.mpr Layout.blocks_nodup, fun b ↦ ?_⟩
    rw [← hperm.mem_iff, List.mem_append, List.mem_append]

/-- The accesses of an allocation, not preempted, are the allocation. -/
theorem access_allocate (hpc : s.pc = .idle) (ptr : ℕ) :
    ∃ events s', run (next L) (.allocate :: events) s = some s' ∧ s'.pc = .idle ∧
      (tmMemoryPoolAllocate L 0 ptr s.pool = (.error, ptr, s'.pool) ∧ s'.low = s.low ∨
        ∃ block, tmMemoryPoolAllocate L 0 ptr s.pool = (.success, block, s'.pool) ∧
          s'.low = block :: s.low) := by
  obtain ⟨⟨memory, free⟩, pc, low, high, memoryPtr⟩ := s
  obtain rfl : pc = .idle := hpc
  by_cases hfree : free = 0
  · refine ⟨[.access], ⟨⟨memory, free⟩, .idle, low, high, memoryPtr⟩, ?_, rfl, .inl ⟨?_, rfl⟩⟩
    · simp [run, next, access, hfree]
    · simp [tmMemoryPoolAllocate, invalidPool, tmFreertosMaxPools, hfree]
  · refine ⟨[.access, .access, .access],
      ⟨⟨memory, load L.width memory free⟩, .idle, free :: low, high, memoryPtr⟩, ?_, rfl,
      .inr ⟨free, ?_, rfl⟩⟩
    · simp [run, next, access, hfree]
    · simp [tmMemoryPoolAllocate, invalidPool, tmFreertosMaxPools, hfree]

/-- The accesses of a deallocation, not preempted, are the deallocation. -/
theorem access_deallocate (hpc : s.pc = .idle) {block : ℕ} (hblock : block ∈ s.low) :
    ∃ s', run (next L) [.deallocate block, .access, .access, .access] s = some s' ∧
      s'.pc = .idle ∧ tmMemoryPoolDeallocate L 0 block s.pool = (.success, s'.pool) ∧
      s'.low = s.low.erase block := by
  obtain ⟨⟨memory, free⟩, pc, low, high, memoryPtr⟩ := s
  obtain rfl : pc = .idle := hpc
  refine ⟨⟨⟨store L.width memory block free, block⟩, .idle, low.erase block, high, memoryPtr⟩, ?_,
    rfl, ?_, rfl⟩
  · simp_all [run, next, access]
  · simp [tmMemoryPoolDeallocate, invalidPool, tmFreertosMaxPools]

/-! ## What current accesses keep -/

/-- What the lower thread knows inside a call. -/
def Known (L : Layout) (s : State) : Prop :=
  match s.pc with
  | .idle | .allocateRead => True
  | .allocateLink block | .allocateWrite block _ => block ≠ 0
  | .deallocateRead block => block ∈ s.low
  | .deallocateLink block head => block ∈ s.low ∧ head < 256 ^ L.width
  | .deallocateWrite block head => block ∈ s.low ∧ load L.width s.pool.memory block = head

/-- The pool is intact, and the lower thread is where it knows to be. -/
structure Inv (L : Layout) (s : State) : Prop where
  intact : ∃ free, Chain L.width s.pool.memory s.pool.free free ∧
    (free ++ (s.high ++ s.low)).Perm L.blocks
  known : Known L s

/-- The start is intact. -/
theorem start_inv (L : Layout) (pool : Pool) (memoryPtr : ℕ) : Inv L (start L pool memoryPtr) :=
  ⟨⟨L.blocks, chain_create L pool, by simp [start]⟩, trivial⟩

/-- Both threads together as one client of the pool. -/
theorem Inv.represents (h : Inv L s) :
    ∃ stack : Stack L.blocks, stack.held = s.high ++ s.low ∧
      Represents L ⟨s.pool, s.high ++ s.low, s.memoryPtr⟩ stack := by
  obtain ⟨free, hchain, hperm⟩ := h.intact
  exact ⟨⟨free, s.high ++ s.low, s.memoryPtr, hperm⟩, rfl, hchain, rfl, rfl⟩

/-- Holding more blocks does not change what an operation does. -/
theorem next_append {client client' : Client} {op : Op} (hnext : client.next L op = some client')
    (others : List ℕ) :
    Client.next L { client with held := client.held ++ others } op =
      some { client' with held := client'.held ++ others } := by
  cases op with
  | allocate =>
      simp only [Client.next] at hnext ⊢
      split at hnext
      · cases hnext
        rfl
      · cases hnext
        rfl
  | deallocate block =>
      simp only [Client.next, Option.ite_none_right_eq_some, Option.some.injEq] at hnext ⊢
      obtain ⟨hheld, rfl⟩ := hnext
      exact ⟨List.mem_append_left _ hheld, by rw [List.erase_append_left _ hheld]⟩
  | write block offset byte =>
      simp only [Client.next, Option.ite_none_right_eq_some, Option.some.injEq] at hnext ⊢
      obtain ⟨⟨hheld, hoffset⟩, rfl⟩ := hnext
      exact ⟨⟨List.mem_append_left _ hheld, hoffset⟩, rfl⟩

/-- An operation of a client does not write to a block of the area that the client does not hold. -/
theorem load_next {client client' : Client} {op : Op} (hnext : client.next L op = some client')
    (hheld : ∀ b ∈ client.held, b ∈ L.blocks) {b : ℕ} (hb : b ∈ L.blocks)
    (hother : b ∉ client.held) :
    load L.width client'.pool.memory b = load L.width client.pool.memory b := by
  have hwidth := L.width_le
  cases op with
  | allocate =>
      simp only [Client.next, tmMemoryPoolAllocate] at hnext
      split_ifs at hnext <;> cases hnext <;> rfl
  | deallocate block =>
      simp only [Client.next, Option.ite_none_right_eq_some, Option.some.injEq] at hnext
      obtain ⟨hblock, rfl⟩ := hnext
      have hne : b ≠ block := fun heq ↦ hother (heq ▸ hblock)
      have hapart := Layout.blocks_apart hb (hheld block hblock) hne
      exact load_store_other (by omega)
  | write block offset byte =>
      simp only [Client.next, Option.ite_none_right_eq_some, Option.some.injEq] at hnext
      obtain ⟨⟨hblock, hoffset⟩, rfl⟩ := hnext
      have hne : b ≠ block := fun heq ↦ hother (heq ▸ hblock)
      have hapart := Layout.blocks_apart hb (hheld block hblock) hne
      exact load_update_other (by omega)

/-- A block that the lower thread holds is one of the area, and the higher one does not hold it. -/
theorem Inv.low_apart (h : Inv L s) {block : ℕ} (hblock : block ∈ s.low) :
    block ∈ L.blocks ∧ block ∉ s.high := by
  obtain ⟨free, hchain, hperm⟩ := h.intact
  have hheld : (s.high ++ s.low).Nodup :=
    (List.nodup_append.mp (hperm.nodup_iff.mpr Layout.blocks_nodup)).2.1
  refine ⟨hperm.mem_iff.mp ?_, fun hmem ↦ List.disjoint_of_nodup_append hheld hmem hblock⟩
  exact List.mem_append_right _ (List.mem_append_right _ hblock)

/-- A call of the higher thread keeps the pool intact, and what the lower thread knows. -/
theorem Inv.high (h : Inv L s) {op : Op} (hnext : next L s (.high op) = some s') : Inv L s' := by
  obtain ⟨client, hclient, rfl⟩ := Option.map_eq_some_iff.mp hnext
  obtain ⟨stack, hheld, hrepresents⟩ := h.represents
  obtain ⟨stack', -, h'⟩ := hrepresents.next (next_append hclient s.low)
  refine ⟨⟨stack'.free, h'.chain, ?_⟩, ?_⟩
  · have hcomplete := stack'.complete
    rwa [← h'.held] at hcomplete
  · have hknown := h.known
    obtain ⟨free, hchain, hperm⟩ := h.intact
    cases hpc : s.pc with
    | deallocateWrite block head =>
        simp only [Known, hpc] at hknown ⊢
        obtain ⟨hblock, hlink⟩ := hknown
        obtain ⟨hmem, hother⟩ := h.low_apart hblock
        refine ⟨hblock, ?_⟩
        rw [load_next hclient (fun b hb ↦ hperm.mem_iff.mp ?_) hmem hother]
        · exact hlink
        · exact List.mem_append_right _ (List.mem_append_left _ hb)
    | idle | allocateRead => simp only [Known]
    | _ => simpa only [Known, hpc] using hknown

/-- A write of the lower thread inside a block that it holds keeps the pool intact. -/
theorem Inv.write (h : Inv L s) {block offset : ℕ} {byte : BitVec 8}
    (hnext : next L s (.write block offset byte) = some s') : Inv L s' := by
  simp only [next, Option.ite_none_right_eq_some, Option.some.injEq] at hnext
  obtain ⟨⟨hpc, hblock, hoffset⟩, rfl⟩ := hnext
  obtain ⟨stack, hheld, hrepresents⟩ := h.represents
  have hmem : block ∈ stack.held := by
    rw [hheld]
    exact List.mem_append_right _ hblock
  have hcomplete := stack.complete
  rw [hheld] at hcomplete
  refine ⟨⟨stack.free, hrepresents.chain_write hmem hoffset, hcomplete⟩, ?_⟩
  simp only [Known, hpc]

/-- An access of the lower thread that relies on current values keeps the pool intact. -/
theorem Inv.access (h : Inv L s) (hcurrent : Current L s .access)
    (hnext : next L s .access = some s') : Inv L s' := by
  have hknown := h.known
  obtain ⟨free, hchain, hperm⟩ := h.intact
  obtain ⟨⟨memory, head⟩, pc, low, high, memoryPtr⟩ := s
  cases pc with
  | idle => cases hnext
  | allocateRead =>
      cases hnext
      refine ⟨⟨free, hchain, hperm⟩, ?_⟩
      by_cases hzero : head = 0
      · simp only [Known, if_pos hzero]
      · simp only [Known, if_neg hzero]
        exact hzero
  | allocateLink block =>
      cases hnext
      exact ⟨⟨free, hchain, hperm⟩, hknown⟩
  | allocateWrite block link =>
      cases hnext
      obtain ⟨hhead, hlink⟩ := hcurrent
      dsimp only at hhead hlink hchain hperm hknown
      subst hhead hlink
      cases hchain with
      | nil => exact absurd rfl hknown
      | cons hne hrest =>
          refine ⟨⟨_, hrest, List.Perm.trans ?_ hperm⟩, trivial⟩
          rw [← List.append_assoc, ← List.append_assoc]
          exact List.perm_middle
  | deallocateRead block =>
      cases hnext
      refine ⟨⟨free, hchain, hperm⟩, hknown, ?_⟩
      obtain ⟨stack, -, hrepresents⟩ := h.represents
      exact hrepresents.free_lt
  | deallocateLink block first =>
      cases hnext
      obtain ⟨hblock, hfirst⟩ := hknown
      obtain ⟨hmem, -⟩ := h.low_apart hblock
      refine ⟨⟨free, hchain.congr fun node hnode ↦ load_store_other ?_, hperm⟩, hblock,
        load_store_same hfirst⟩
      -- The block is held, so it is none of the free ones.
      have hne : node ≠ block := by
        rintro rfl
        exact List.disjoint_of_nodup_append (hperm.nodup_iff.mpr Layout.blocks_nodup) hnode
          (List.mem_append_right _ hblock)
      have hapart := Layout.blocks_apart (hperm.mem_iff.mp (List.mem_append_left _ hnode)) hmem hne
      have hwidth := L.width_le
      omega
  | deallocateWrite block first =>
      cases hnext
      obtain ⟨hblock, hlink⟩ := hknown
      obtain ⟨hmem, -⟩ := h.low_apart hblock
      obtain rfl : head = first := hcurrent
      refine ⟨⟨block :: free, .cons (Layout.block_valid hmem).1 ?_, ?_⟩, trivial⟩
      · rwa [show load L.width memory block = head from hlink]
      · refine List.Perm.trans ?_ hperm
        rw [List.cons_append, ← List.append_assoc, ← List.append_assoc]
        exact List.perm_middle.symm.trans
          (List.Perm.append_left _ (List.perm_cons_erase hblock).symm)

/-- Every event keeps the pool intact, if what the lower thread relies on is current. -/
theorem Inv.next (h : Inv L s) {event : Event} (hcurrent : Current L s event)
    (hnext : next L s event = some s') : Inv L s' := by
  cases event with
  | allocate =>
      simp only [Preempted.next, Option.ite_none_right_eq_some, Option.some.injEq] at hnext
      obtain ⟨-, rfl⟩ := hnext
      exact ⟨h.intact, trivial⟩
  | deallocate block =>
      simp only [Preempted.next, Option.ite_none_right_eq_some, Option.some.injEq] at hnext
      obtain ⟨⟨-, hblock⟩, rfl⟩ := hnext
      exact ⟨h.intact, hblock⟩
  | write block offset byte => exact h.write hnext
  | access => exact h.access hcurrent hnext
  | high op => exact h.high hnext

/-! ## What other accesses break -/

/-- Two ways to place the same blocks that differ in one of them. -/
theorem perm_cons_of_moved {free free' high low : List ℕ} {block : ℕ}
    (hperm : (free ++ (high ++ low)).Perm L.blocks)
    (hperm' : (free' ++ (high ++ block :: low)).Perm L.blocks) : free.Perm (block :: free') := by
  have hmoved : (free' ++ (high ++ block :: low)).Perm (block :: free' ++ (high ++ low)) := by
    rw [← List.append_assoc, List.cons_append, ← List.append_assoc]
    exact List.perm_middle
  exact (List.perm_append_right_iff _).mp ((hperm.trans hperm'.symm).trans hmoved)

/-- If the pool is intact after an allocation has written the head, the head was the block and its
link the one that was read. -/
theorem Inv.current_of_allocate (h : Inv L s) {block link : ℕ}
    (hpc : s.pc = .allocateWrite block link) {free' : List ℕ}
    (hchain' : Chain L.width s.pool.memory link free')
    (hperm' : (free' ++ (s.high ++ block :: s.low)).Perm L.blocks) : Current L s .access := by
  obtain ⟨free, hchain, hperm⟩ := h.intact
  have hfree := perm_cons_of_moved hperm hperm'
  have hnodup : free.Nodup :=
    (List.nodup_append.mp (hperm.nodup_iff.mpr Layout.blocks_nodup)).1
  have hblock : block ∉ free' := (List.nodup_cons.mp (hfree.nodup_iff.mp hnodup)).1
  simp only [Current, hpc]
  generalize hhead : s.pool.free = head at hchain
  cases hchain with
  | nil => exact absurd hfree.length_eq (by simp)
  | @cons _ rest hne hrest =>
      have hsame : head = block := by
        by_contra hother
        -- The old head is free afterwards, with the whole old chain behind it.
        have hmem : head ∈ free' := by
          have hcons := hfree.mem_iff.mp (List.mem_cons_self ..)
          exact (List.mem_cons.mp hcons).resolve_left hother
        obtain ⟨before, after, rfl, hafter⟩ := hchain'.from_node hmem
        have hchains : head :: rest = head :: after := Chain.unique (.cons hne hrest) hafter
        have hold : block ∈ head :: after := by
          rw [← hchains]
          exact hfree.mem_iff.mpr (List.mem_cons_self ..)
        exact hblock (List.mem_append_right _ hold)
      subst hsame
      exact ⟨rfl, hrest.head_eq_of_perm hchain' hfree.cons_inv⟩

/-- If the pool is intact after a deallocation has written the head, the head was the one that was
read. -/
theorem Inv.current_of_deallocate (h : Inv L s) {block first : ℕ}
    (hpc : s.pc = .deallocateWrite block first) {free' : List ℕ}
    (hchain' : Chain L.width s.pool.memory block free')
    (hperm' : (free' ++ (s.high ++ s.low.erase block)).Perm L.blocks) :
    Current L s .access := by
  obtain ⟨free, hchain, hperm⟩ := h.intact
  have hknown := h.known
  simp only [Known, hpc] at hknown
  obtain ⟨hblock, hlink⟩ := hknown
  obtain ⟨hmem, -⟩ := h.low_apart hblock
  have herase : (free ++ (s.high ++ block :: s.low.erase block)).Perm L.blocks := by
    refine List.Perm.trans ?_ hperm
    exact (List.Perm.append_left _ (List.Perm.append_left _ (List.perm_cons_erase hblock).symm))
  have hfree := perm_cons_of_moved hperm' herase
  simp only [Current, hpc]
  cases hchain' with
  | nil => exact absurd rfl (Layout.block_valid hmem).1
  | cons hne hrest =>
      rw [hlink] at hrest
      exact (hrest.head_eq_of_perm hchain hfree.cons_inv).symm

/-- If the pool is intact after a step, the step has relied on current values only. -/
theorem Inv.current_of_intact (h : Inv L s) {event : Event}
    (hnext : Preempted.next L s event = some s') (hintact : Intact L s') :
    Current L s event := by
  obtain ⟨free', hchain', hperm'⟩ := intact_iff_perm.mp hintact
  cases event with
  | access =>
      cases hpc : s.pc with
      | allocateWrite block link =>
          simp only [Preempted.next, Preempted.access, hpc, Option.some.injEq] at hnext
          subst hnext
          exact h.current_of_allocate hpc hchain' hperm'
      | deallocateWrite block first =>
          simp only [Preempted.next, Preempted.access, hpc, Option.some.injEq] at hnext
          subst hnext
          exact h.current_of_deallocate hpc hchain' hperm'
      | _ => simp only [Current, hpc]
  | _ => trivial

/-- For every interleaving of the accesses of the lower thread with whole calls of the higher one,
on a pool created on arbitrary memory: every block is on the freelist or held by one of the threads,
and only one of these, in all states of the run, exactly if the head, and for an allocation the link
of the block, are what the lower thread has read wherever it writes the head. -/
theorem intact_iff_current (L : Layout) (pool : Pool) (memoryPtr : ℕ) (events : List Event) :
    Throughout (next L) (Intact L) events (start L pool memoryPtr) ↔
      EveryStep (next L) (Current L) events (start L pool memoryPtr) :=
  throughout_iff (Inv L) (fun _ h ↦ intact_iff_perm.mpr h.intact)
    (fun _ _ _ h hcurrent hnext ↦ h.next hcurrent hnext)
    (fun _ _ _ h hnext hintact ↦ h.current_of_intact hnext hintact) events
    (start_inv L pool memoryPtr)

/-- The lower thread has read the head when the higher one allocates: both get the first block. -/
theorem both_hold_block :
    ¬ ∀ (L : Layout) (pool : Pool) (memoryPtr : ℕ) (events : List Event) (s : State),
      run (next L) events (start L pool memoryPtr) = some s →
      (∀ b ∈ s.low, b ∉ s.high) ∧
        ∃ free, Chain L.width s.pool.memory s.pool.free free ∧
          ∀ b ∈ L.blocks, b ∈ free ∨ b ∈ s.high ∨ b ∈ s.low := by
  intro h
  obtain ⟨s, hrun, hlow, hhigh⟩ : ∃ s,
      run (next exampleLayout) [.allocate, .access, .high .allocate, .access, .access]
        (start exampleLayout ⟨fun _ ↦ 0, 0⟩ 0) = some s ∧ s.low = [4096] ∧ s.high = [4096] :=
    ⟨_, rfl, rfl, rfl⟩
  obtain ⟨happart, -⟩ := h _ _ _ _ s hrun
  rw [hlow, hhigh] at happart
  exact happart 4096 (List.mem_singleton_self _) (List.mem_singleton_self _)

end ThreadMetric.FreeRTOS.Preempted

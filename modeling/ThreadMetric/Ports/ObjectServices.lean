import ThreadMetric.FreeRTOS.MemoryPool
import ThreadMetric.Library.Services

/-!
# Queues, semaphores and memory pools of the ports

The services of tm_api.h in both ports, over kernels that are only known by their documentation.
`Session.next` is what one thread sees of a port. `Api.Lawful` is the documentation that tm_api.h
gets from the kernels: the ThreadX port inherits all of it, and in the FreeRTOS port the pool is the
freelist of the port itself.
-/

namespace ThreadMetric.Ports

open FreeRTOS Services

/-- The data models that the ports are built for. -/
inductive Abi where
  | ilp32
  | lp64
  deriving DecidableEq

namespace Abi

/-- `sizeof(unsigned long)`. -/
def sizeofLong : Abi → ℕ
  | ilp32 => 4
  | lp64 => 8

/-- `sizeof(void *)`. -/
def sizeofPointer : Abi → ℕ
  | ilp32 => 4
  | lp64 => 8

/-- `sizeof(ULONG)`: `ULONG` is `unsigned int` where `long` has eight bytes. -/
def sizeofULong : Abi → ℕ
  | ilp32 => 4
  | lp64 => 4

end Abi

variable {abi : Abi} {Q S P Q' S' : Type} {Code : Type} [DecidableEq Code]

/-- What all services do: refuse an id outside the array of the objects, ask the kernel, and turn
its code into a status. -/
def checked {σ : Type} (objects : ℤ) (ok : Code) (id : ℤ) (service : Code × σ) (unchanged : σ) :
    Status × σ :=
  if id < 0 ∨ objects ≤ id then (.error, unchanged)
  else (if service.1 = ok then .success else .error, service.2)

/-! ## The ThreadX port -/

def tmThreadxMaxQueues : ℤ := 1

def tmThreadxMaxSemaphores : ℤ := 1

def tmThreadxMaxMemoryPools : ℤ := 1

/-- `TM_THREADX_QUEUE_SIZE`, in bytes. -/
def tmThreadxQueueSize : ℕ := 400

/-- `TM_THREADX_QUEUE_MSG_WORDS`. -/
def tmThreadxQueueMsgWords (abi : Abi) : ℕ := 4 * abi.sizeofLong / abi.sizeofULong

/-- `TM_THREADX_MEMORY_POOL_SIZE`. -/
def tmThreadxMemoryPoolSize : ℕ := 2048

def txSuccess : ℕ := 0

def txNoWait : ℕ := 0

/-- The services of the ThreadX kernel, on the control blocks of the objects. -/
structure ThreadXKernel (Q S P : Type) where
  txQueueCreate (messageWords queueSize : ℕ) : Q → ℕ × Q
  txQueueSend (wait : ℕ) : Buffer → Q → ℕ × Q
  txQueueReceive (wait : ℕ) : Buffer → Q → ℕ × Buffer × Q
  txSemaphoreCreate (initialCount : ℕ) : S → ℕ × S
  txSemaphoreGet (wait : ℕ) : S → ℕ × S
  txSemaphorePut : S → ℕ × S
  txBlockPoolCreate (blockSize poolSize : ℕ) : P → ℕ × P
  txBlockAllocate (wait : ℕ) : ℕ → P → ℕ × ℕ × P
  txBlockRelease : ℕ → P → ℕ × P

namespace ThreadXKernel

variable (k : ThreadXKernel Q S P)

/-- `tm_queue_create`. -/
def tmQueueCreate (abi : Abi) (queueId : ℤ) (q : Q) : Status × Q :=
  checked tmThreadxMaxQueues txSuccess queueId
    (k.txQueueCreate (tmThreadxQueueMsgWords abi) tmThreadxQueueSize q) q

/-- `tm_queue_send`. -/
def tmQueueSend (queueId : ℤ) (message : Buffer) (q : Q) : Status × Q :=
  checked tmThreadxMaxQueues txSuccess queueId (k.txQueueSend txNoWait message q) q

/-- `tm_queue_receive`; the buffer is that at `message_ptr`, before and after. -/
def tmQueueReceive (queueId : ℤ) (message : Buffer) (q : Q) : Status × Buffer × Q :=
  checked tmThreadxMaxQueues txSuccess queueId (k.txQueueReceive txNoWait message q) (message, q)

/-- `tm_semaphore_create`. -/
def tmSemaphoreCreate (semaphoreId : ℤ) (s : S) : Status × S :=
  checked tmThreadxMaxSemaphores txSuccess semaphoreId (k.txSemaphoreCreate 1 s) s

/-- `tm_semaphore_get`. -/
def tmSemaphoreGet (semaphoreId : ℤ) (s : S) : Status × S :=
  checked tmThreadxMaxSemaphores txSuccess semaphoreId (k.txSemaphoreGet txNoWait s) s

/-- `tm_semaphore_put` of a thread. -/
def tmSemaphorePut (semaphoreId : ℤ) (s : S) : Status × S :=
  checked tmThreadxMaxSemaphores txSuccess semaphoreId (k.txSemaphorePut s) s

/-- `tm_memory_pool_create`. -/
def tmMemoryPoolCreate (poolId : ℤ) (p : P) : Status × P :=
  checked tmThreadxMaxMemoryPools txSuccess poolId
    (k.txBlockPoolCreate 128 tmThreadxMemoryPoolSize p) p

/-- `tm_memory_pool_allocate`; the pointer is `*memory_ptr`, before and after. -/
def tmMemoryPoolAllocate (poolId : ℤ) (memoryPtr : ℕ) (p : P) : Status × ℕ × P :=
  checked tmThreadxMaxMemoryPools txSuccess poolId (k.txBlockAllocate txNoWait memoryPtr p)
    (memoryPtr, p)

/-- `tm_memory_pool_deallocate`. -/
def tmMemoryPoolDeallocate (poolId : ℤ) (memoryPtr : ℕ) (p : P) : Status × P :=
  checked tmThreadxMaxMemoryPools txSuccess poolId (k.txBlockRelease memoryPtr p) p

/-- The documented behaviour of the ThreadX objects. A message has one to sixteen words, and a queue
holds as many as fit into its area; the count of a semaphore is not limited; and a block costs a
pointer more than its size, which is a multiple of that of a pointer. -/
structure Documented (abi : Abi) where
  queue : FifoQueue txSuccess (k.txQueueSend txNoWait) (k.txQueueReceive txNoWait)
  semaphore : CountingSemaphore txSuccess (k.txSemaphoreGet txNoWait) k.txSemaphorePut
  pool : BlockPool txSuccess (k.txBlockAllocate txNoWait) k.txBlockRelease
  queue_create : ∀ {words size q q'}, 1 ≤ words → words ≤ 16 →
    k.txQueueCreate words size q = (txSuccess, q') →
    queue.holds (words * abi.sizeofULong) (size / (words * abi.sizeofULong)) [] q'
  semaphore_create : ∀ {count s s'}, k.txSemaphoreCreate count s = (txSuccess, s') →
    semaphore.holds .unlimited count s'
  pool_create : ∀ {blockSize size p p'}, abi.sizeofPointer ∣ blockSize →
    k.txBlockPoolCreate blockSize size p = (txSuccess, p') →
    pool.holds (size / (blockSize + abi.sizeofPointer)) [] p'

end ThreadXKernel

/-! ## The FreeRTOS port -/

def tmFreertosMaxQueues : ℤ := 1

def tmFreertosMaxSemaphores : ℤ := 1

def tmFreertosQueueDepth : ℕ := 10

/-- `TM_FREERTOS_QUEUE_MSG_SIZE`. -/
def tmFreertosQueueMsgSize (abi : Abi) : ℕ := 4 * abi.sizeofLong

def pdTrue : ℤ := 1

/-- The services of the FreeRTOS kernel, on the objects that handles point to; `none` is the null
handle. -/
structure FreeRTOSKernel (Q S : Type) where
  xQueueCreate (length itemSize : ℕ) : Option Q
  xQueueSendToBack (wait : ℕ) : Buffer → Q → ℤ × Q
  xQueueReceive (wait : ℕ) : Buffer → Q → ℤ × Buffer × Q
  xSemaphoreCreateBinary : Option S
  xSemaphoreTake (wait : ℕ) : S → ℤ × S
  xSemaphoreGive : S → ℤ × S

namespace FreeRTOSKernel

variable (k : FreeRTOSKernel Q' S')

/-- `tm_queue_create`; the handle is `tm_queue_array[queue_id]`, before and after. -/
def tmQueueCreate (abi : Abi) (queueId : ℤ) (handle : Option Q') : Status × Option Q' :=
  if queueId < 0 ∨ tmFreertosMaxQueues ≤ queueId then (.error, handle)
  else
    match k.xQueueCreate tmFreertosQueueDepth (tmFreertosQueueMsgSize abi) with
    | none => (.error, none)
    | some q => (.success, some q)

/-- `tm_queue_send`. -/
def tmQueueSend (queueId : ℤ) (message : Buffer) (q : Q') : Status × Q' :=
  checked tmFreertosMaxQueues pdTrue queueId (k.xQueueSendToBack 0 message q) q

/-- `tm_queue_receive`. -/
def tmQueueReceive (queueId : ℤ) (message : Buffer) (q : Q') : Status × Buffer × Q' :=
  checked tmFreertosMaxQueues pdTrue queueId (k.xQueueReceive 0 message q) (message, q)

/-- `tm_semaphore_create`: the new semaphore is given once. -/
def tmSemaphoreCreate (semaphoreId : ℤ) (handle : Option S') : Status × Option S' :=
  if semaphoreId < 0 ∨ tmFreertosMaxSemaphores ≤ semaphoreId then (.error, handle)
  else
    match k.xSemaphoreCreateBinary with
    | none => (.error, none)
    | some s => (.success, some (k.xSemaphoreGive s).2)

/-- `tm_semaphore_get`. -/
def tmSemaphoreGet (semaphoreId : ℤ) (s : S') : Status × S' :=
  checked tmFreertosMaxSemaphores pdTrue semaphoreId (k.xSemaphoreTake 0 s) s

/-- `tm_semaphore_put` of a thread. -/
def tmSemaphorePut (semaphoreId : ℤ) (s : S') : Status × S' :=
  checked tmFreertosMaxSemaphores pdTrue semaphoreId (k.xSemaphoreGive s) s

/-- The documented behaviour of the FreeRTOS objects: a queue holds as many items as it was created
for, and a binary semaphore is created empty and refuses a give when full. -/
structure Documented where
  queue : FifoQueue pdTrue (k.xQueueSendToBack 0) (k.xQueueReceive 0)
  semaphore : CountingSemaphore pdTrue (k.xSemaphoreTake 0) k.xSemaphoreGive
  queue_create : ∀ {length itemSize q}, k.xQueueCreate length itemSize = some q →
    queue.holds itemSize length [] q
  semaphore_create : ∀ {s}, k.xSemaphoreCreateBinary = some s → semaphore.holds (.upTo 1) 0 s

end FreeRTOSKernel

/-! ## A thread and its calls -/

/-- Four numbers of type `unsigned long`. -/
abbrev Message (abi : Abi) := { buffer : Buffer // buffer.length = 4 * abi.sizeofLong }

/-- The calls of a thread. A block is named by its place among those that the thread holds, the one
allocated last first. -/
inductive Call (abi : Abi) where
  | queueSend (queueId : ℤ) (message : Message abi)
  | queueReceive (queueId : ℤ) (destination : Message abi)
  | semaphoreGet (semaphoreId : ℤ)
  | semaphorePut (semaphoreId : ℤ)
  | poolAllocate (poolId : ℤ)
  | poolDeallocate (poolId : ℤ) (place : ℕ)

/-- The status of a call and the message of a successful receive. -/
structure Outcome where
  status : Status
  message : Option Buffer
  deriving DecidableEq

/-- The six services of tm_api.h. -/
structure Api (Q S P : Type) where
  tmQueueSend (queueId : ℤ) : Buffer → Q → Status × Q
  tmQueueReceive (queueId : ℤ) : Buffer → Q → Status × Buffer × Q
  tmSemaphoreGet (semaphoreId : ℤ) : S → Status × S
  tmSemaphorePut (semaphoreId : ℤ) : S → Status × S
  tmMemoryPoolAllocate (poolId : ℤ) : ℕ → P → Status × ℕ × P
  tmMemoryPoolDeallocate (poolId : ℤ) : ℕ → P → Status × P

/-- The services of the ThreadX port. -/
def ThreadXKernel.api (k : ThreadXKernel Q S P) : Api Q S P where
  tmQueueSend := k.tmQueueSend
  tmQueueReceive := k.tmQueueReceive
  tmSemaphoreGet := k.tmSemaphoreGet
  tmSemaphorePut := k.tmSemaphorePut
  tmMemoryPoolAllocate := k.tmMemoryPoolAllocate
  tmMemoryPoolDeallocate := k.tmMemoryPoolDeallocate

/-- The services of the FreeRTOS port. -/
def FreeRTOSKernel.api (k : FreeRTOSKernel Q' S') (L : Layout) : Api Q' S' Pool where
  tmQueueSend := k.tmQueueSend
  tmQueueReceive := k.tmQueueReceive
  tmSemaphoreGet := k.tmSemaphoreGet
  tmSemaphorePut := k.tmSemaphorePut
  tmMemoryPoolAllocate := tmMemoryPoolAllocate L
  tmMemoryPoolDeallocate := tmMemoryPoolDeallocate L

/-- The objects of a port and what the thread has of them: the blocks it holds and its variable
`memory_ptr`. -/
structure Session (Q S P : Type) where
  queue : Q
  semaphore : S
  pool : P
  memoryPtr : ℕ
  held : List ℕ

/-- One call of the thread; a thread that deallocates only deallocates a block it holds. -/
def Session.next (api : Api Q S P) (s : Session Q S P) :
    Call abi → Option (Outcome × Session Q S P)
  | .queueSend id message =>
      let r := api.tmQueueSend id message.1 s.queue
      some (⟨r.1, none⟩, { s with queue := r.2 })
  | .queueReceive id destination =>
      let r := api.tmQueueReceive id destination.1 s.queue
      some (⟨r.1, if r.1 = .success then some r.2.1 else none⟩, { s with queue := r.2.2 })
  | .semaphoreGet id =>
      let r := api.tmSemaphoreGet id s.semaphore
      some (⟨r.1, none⟩, { s with semaphore := r.2 })
  | .semaphorePut id =>
      let r := api.tmSemaphorePut id s.semaphore
      some (⟨r.1, none⟩, { s with semaphore := r.2 })
  | .poolAllocate id =>
      let r := api.tmMemoryPoolAllocate id s.memoryPtr s.pool
      some (⟨r.1, none⟩, { s with
        pool := r.2.2
        memoryPtr := r.2.1
        held := if r.1 = .success then r.2.1 :: s.held else s.held })
  | .poolDeallocate id place =>
      if h : place < s.held.length then
        let r := api.tmMemoryPoolDeallocate id s.held[place] s.pool
        some (⟨r.1, none⟩, { s with
          pool := r.2
          held := if r.1 = .success then s.held.eraseIdx place else s.held })
      else none

/-! ## The documentation of the services -/

section Checked

variable {ok : Code}

/-- Queues behind checked ids. -/
def checkedQueue {send : Buffer → Q → Code × Q} {receive : Buffer → Q → Code × Buffer × Q}
    (h : FifoQueue ok send receive) :
    FifoQueue Status.success (fun buffer q ↦ checked 1 ok 0 (send buffer q) q)
      (fun buffer q ↦ checked 1 ok 0 (receive buffer q) (buffer, q)) where
  holds := h.holds
  send_room := by
    intro bytes depth items q buffer hq hbuffer hroom
    obtain ⟨q', hsend, hq'⟩ := h.send_room hq hbuffer hroom
    exact ⟨q', by simp [checked, hsend], hq'⟩
  send_full := by
    intro bytes depth items q buffer hq hfull
    obtain ⟨code, q', hcode, hsend, hq'⟩ := h.send_full buffer hq hfull
    exact ⟨.error, q', by decide, by simp [checked, hsend, hcode], hq'⟩
  receive_item := by
    intro bytes depth item items q buffer hq hbuffer
    obtain ⟨q', hreceive, hq'⟩ := h.receive_item hq hbuffer
    exact ⟨q', by simp [checked, hreceive], hq'⟩
  receive_empty := by
    intro bytes depth q buffer hq
    obtain ⟨code, buffer', q', hcode, hreceive, hq'⟩ := h.receive_empty buffer hq
    exact ⟨.error, buffer', q', by decide, by simp [checked, hreceive, hcode], hq'⟩

/-- Semaphores behind checked ids. -/
def checkedSemaphore {get put : S → Code × S} (h : CountingSemaphore ok get put) :
    CountingSemaphore Status.success (fun s ↦ checked 1 ok 0 (get s) s)
      (fun s ↦ checked 1 ok 0 (put s) s) where
  holds := h.holds
  get_succ := by
    intro limit count s hs
    obtain ⟨s', hget, hs'⟩ := h.get_succ hs
    exact ⟨s', by simp [checked, hget], hs'⟩
  get_zero := by
    intro limit s hs
    obtain ⟨code, s', hcode, hget, hs'⟩ := h.get_zero hs
    exact ⟨.error, s', by decide, by simp [checked, hget, hcode], hs'⟩
  put_room := by
    intro limit count s hs hroom
    obtain ⟨s', hput, hs'⟩ := h.put_room hs hroom
    exact ⟨s', by simp [checked, hput], hs'⟩
  put_full := by
    intro limit count s hs hfull
    obtain ⟨code, s', hcode, hput, hs'⟩ := h.put_full hs hfull
    exact ⟨.error, s', by decide, by simp [checked, hput, hcode], hs'⟩

/-- Pools behind checked ids. -/
def checkedPool {allocate : ℕ → P → Code × ℕ × P} {release : ℕ → P → Code × P}
    (h : BlockPool ok allocate release) :
    BlockPool Status.success (fun ptr p ↦ checked 1 ok 0 (allocate ptr p) (ptr, p))
      (fun ptr p ↦ checked 1 ok 0 (release ptr p) p) where
  holds := h.holds
  allocate_room := by
    intro count held p ptr hp hroom
    obtain ⟨block, p', hblock, hallocate, hp'⟩ := h.allocate_room ptr hp hroom
    exact ⟨block, p', hblock, by simp [checked, hallocate], hp'⟩
  allocate_full := by
    intro count held p ptr hp hfull
    obtain ⟨code, ptr', p', hcode, hallocate, hp'⟩ := h.allocate_full ptr hp hfull
    exact ⟨.error, ptr', p', by decide, by simp [checked, hallocate, hcode], hp'⟩
  release_held := by
    intro count held p place hp hplace
    obtain ⟨p', hrelease, hp'⟩ := h.release_held hp hplace
    exact ⟨p', by simp [checked, hrelease], hp'⟩

end Checked

/-- The freelist of the FreeRTOS port with `held` allocated: it is the stack of free blocks. -/
def FreelistHolds (L : Layout) (count : ℕ) (held : List ℕ) (p : Pool) : Prop :=
  count = tmBlockCount ∧ ∀ ptr, ∃ stack : Stack L.blocks,
    stack.held = held ∧ Represents L ⟨p, held, ptr⟩ stack

section Freelist

variable {L : Layout} {count : ℕ} {held : List ℕ} {p : Pool}

/-- There are as many blocks as counted. -/
theorem FreelistHolds.count_eq (h : FreelistHolds L count held p) {stack : Stack L.blocks}
    (hheld : stack.held = held) : stack.free.length + held.length = count := by
  have hblocks : L.blocks.length = tmBlockCount := by
    rw [Layout.blocks, List.length_map, List.length_range]
  have hlength := stack.complete.length_eq
  rw [List.length_append, hblocks] at hlength
  rw [h.1, ← hheld]
  exact hlength

/-- A block that is not held can be allocated. -/
theorem FreelistHolds.allocate_room (h : FreelistHolds L count held p) (ptr : ℕ)
    (hroom : held.length < count) :
    ∃ block p', block ∉ held ∧ tmMemoryPoolAllocate L 0 ptr p = (.success, block, p') ∧
      FreelistHolds L count (block :: held) p' := by
  obtain ⟨stack, hheld, hrepresents⟩ := h.2 ptr
  have hcount := h.count_eq hheld
  cases hfree : stack.free with
  | nil =>
      rw [hfree, List.length_nil] at hcount
      omega
  | cons block rest =>
      obtain ⟨hallocate, hrest⟩ := hrepresents.allocate_of_cons hfree
      have hcomplete := stack.complete
      rw [hfree, hheld] at hcomplete
      refine ⟨block, _, ?_, hallocate, h.1, fun ptr' ↦ ?_⟩
      · intro hmem
        exact List.disjoint_of_nodup_append (hcomplete.nodup_iff.mpr Layout.blocks_nodup)
          (List.mem_cons_self ..) hmem
      · exact ⟨⟨rest, block :: held, ptr', List.perm_middle.trans hcomplete⟩, rfl, hrest, rfl, rfl⟩

/-- If all blocks are held, none can be allocated. -/
theorem FreelistHolds.allocate_full (h : FreelistHolds L count held p) (ptr : ℕ)
    (hfull : count ≤ held.length) : tmMemoryPoolAllocate L 0 ptr p = (.error, ptr, p) := by
  obtain ⟨stack, hheld, hrepresents⟩ := h.2 ptr
  have hcount := h.count_eq hheld
  have hfree : stack.free = [] := List.eq_nil_of_length_eq_zero (by omega)
  exact hrepresents.allocate_of_nil hfree

/-- A held block can be deallocated. -/
theorem FreelistHolds.release_held (h : FreelistHolds L count held p) {place : ℕ}
    (hplace : place < held.length) :
    ∃ p', tmMemoryPoolDeallocate L 0 held[place] p = (.success, p') ∧
      FreelistHolds L count (held.eraseIdx place) p' := by
  refine ⟨_, rfl, h.1, fun ptr ↦ ?_⟩
  obtain ⟨stack, hheld, hrepresents⟩ := h.2 ptr
  have hcomplete := stack.complete
  rw [hheld] at hcomplete
  have hperm : (held[place] :: stack.free ++ held.eraseIdx place).Perm L.blocks := by
    refine List.Perm.trans ?_ hcomplete
    exact List.perm_middle.symm.trans
      (List.Perm.append_left _ (List.getElem_cons_eraseIdx_perm hplace))
  have hmem : held[place] ∈ stack.held := by
    rw [hheld]
    exact List.getElem_mem hplace
  exact ⟨⟨_, _, ptr, hperm⟩, rfl, hrepresents.chain_deallocate hmem, rfl, rfl⟩

/-- The freelist of the FreeRTOS port is a pool of sixteen blocks. -/
def freelistPool (L : Layout) :
    BlockPool Status.success (tmMemoryPoolAllocate L 0) (tmMemoryPoolDeallocate L 0) where
  holds := FreelistHolds L
  allocate_room ptr h hroom := h.allocate_room ptr hroom
  allocate_full ptr h hfull := ⟨.error, ptr, _, by decide, h.allocate_full ptr hfull, h⟩
  release_held h hplace := h.release_held hplace

end Freelist

/-- Of the pools only zero exists. -/
theorem invalid_pool_of_ne {id : ℤ} (hid : id ≠ 0) : invalidPool id = true := by
  rw [invalidPool, Bool.or_eq_true, decide_eq_true_eq, decide_eq_true_eq]
  show id < 0 ∨ 1 ≤ id
  omega

/-- Behind ids of which only zero exists, a port serves a queue, a semaphore and a pool. -/
structure Api.Lawful (api : Api Q S P) where
  queue : FifoQueue Status.success (api.tmQueueSend 0) (api.tmQueueReceive 0)
  semaphore : CountingSemaphore Status.success (api.tmSemaphoreGet 0) (api.tmSemaphorePut 0)
  pool : BlockPool Status.success (api.tmMemoryPoolAllocate 0) (api.tmMemoryPoolDeallocate 0)
  send_invalid : ∀ {id} buffer q, id ≠ 0 → api.tmQueueSend id buffer q = (.error, q)
  receive_invalid : ∀ {id} buffer q, id ≠ 0 →
    api.tmQueueReceive id buffer q = (.error, buffer, q)
  get_invalid : ∀ {id} s, id ≠ 0 → api.tmSemaphoreGet id s = (.error, s)
  put_invalid : ∀ {id} s, id ≠ 0 → api.tmSemaphorePut id s = (.error, s)
  allocate_invalid : ∀ {id} ptr p, id ≠ 0 → api.tmMemoryPoolAllocate id ptr p = (.error, ptr, p)
  deallocate_invalid : ∀ {id} ptr p, id ≠ 0 → api.tmMemoryPoolDeallocate id ptr p = (.error, p)

/-- Of one object only the id zero exists. -/
theorem checked_invalid {σ : Type} {ok : Code} {id : ℤ} (hid : id ≠ 0) (service : Code × σ)
    (unchanged : σ) : checked 1 ok id service unchanged = (.error, unchanged) := by
  have hout : id < 0 ∨ 1 ≤ id := by omega
  exact if_pos hout

/-- The ThreadX port is lawful. -/
def ThreadXKernel.Documented.lawful {k : ThreadXKernel Q S P} (h : k.Documented abi) :
    k.api.Lawful where
  queue := checkedQueue h.queue
  semaphore := checkedSemaphore h.semaphore
  pool := checkedPool h.pool
  send_invalid _ _ hid := checked_invalid hid ..
  receive_invalid _ _ hid := checked_invalid hid ..
  get_invalid _ hid := checked_invalid hid ..
  put_invalid _ hid := checked_invalid hid ..
  allocate_invalid _ _ hid := checked_invalid hid ..
  deallocate_invalid _ _ hid := checked_invalid hid ..

/-- The FreeRTOS port is lawful. -/
def FreeRTOSKernel.Documented.lawful {k : FreeRTOSKernel Q' S'} (h : k.Documented) (L : Layout) :
    (k.api L).Lawful where
  queue := checkedQueue h.queue
  semaphore := checkedSemaphore h.semaphore
  pool := freelistPool L
  send_invalid _ _ hid := checked_invalid hid ..
  receive_invalid _ _ hid := checked_invalid hid ..
  get_invalid _ hid := checked_invalid hid ..
  put_invalid _ hid := checked_invalid hid ..
  allocate_invalid _ _ hid := if_pos (invalid_pool_of_ne hid)
  deallocate_invalid _ _ hid := if_pos (invalid_pool_of_ne hid)

end ThreadMetric.Ports

import ThreadMetric.Benchmarks.DeadWorker
import ThreadMetric.Ports.Interchange

/-!
# Workers over the services of a port

Three workers leave their loop when a service fails: those of the message, the synchronization and
the memory allocation test. Here they run over the services of a port instead of arbitrary outcomes.
`Stage` says what the objects of the port and the messages of the worker hold before each statement,
and `workers_never_stop` that no service fails, on either port, however long the test runs.
-/

namespace ThreadMetric.ServiceWorkers

open ByteMemory FreeRTOS Kernel Ports Report Services Transition

variable {abi : Abi} {Q S P Q' S' : Type}

/-! ## Messages -/

/-- `unsigned long tm_message_sent[4]`. -/
abbrev Words (abi : Abi) := Fin 4 → BitVec (8 * abi.sizeofLong)

/-- The bytes of the array. -/
def encode (words : Words abi) : Message abi where
  val := bytes abi.sizeofLong (words 0).toNat ++ (bytes abi.sizeofLong (words 1).toNat ++
    (bytes abi.sizeofLong (words 2).toNat ++ bytes abi.sizeofLong (words 3).toNat))
  property := by
    simp only [List.length_append, bytes_length]
    omega

/-- `tm_message_received[3]`, where the bytes are those of the array. -/
def lastWord (abi : Abi) (received : Buffer) : BitVec (8 * abi.sizeofLong) :=
  BitVec.ofNat _ (ofBytes ((received.drop (3 * abi.sizeofLong)).take abi.sizeofLong))

/-- The last word of the bytes is that of the array. -/
theorem last_word_encode (words : Words abi) : lastWord abi (encode words).1 = words 3 := by
  have hdrop : (encode words).1.drop (3 * abi.sizeofLong) =
      bytes abi.sizeofLong (words 3).toNat := by
    have hlength : (bytes abi.sizeofLong (words 0).toNat ++ (bytes abi.sizeofLong
        (words 1).toNat ++ bytes abi.sizeofLong (words 2).toNat)).length =
        3 * abi.sizeofLong := by
      simp only [List.length_append, bytes_length]
      omega
    have hsplit : (encode words).1 = (bytes abi.sizeofLong (words 0).toNat ++
        (bytes abi.sizeofLong (words 1).toNat ++ bytes abi.sizeofLong (words 2).toNat)) ++
        bytes abi.sizeofLong (words 3).toNat := by
      simp only [encode, List.append_assoc]
    rw [hsplit, ← hlength, List.drop_left]
  have htake : (bytes abi.sizeofLong (words 3).toNat).take abi.sizeofLong =
      bytes abi.sizeofLong (words 3).toNat :=
    List.take_of_length_le (Nat.le_of_eq (bytes_length _ _))
  have hfits : (words 3).toNat < 256 ^ abi.sizeofLong := by
    have hpow : 256 ^ abi.sizeofLong = 2 ^ (8 * abi.sizeofLong) :=
      (Nat.pow_mul 2 8 abi.sizeofLong).symm
    rw [hpow]
    exact (words 3).isLt
  rw [lastWord, hdrop, htake, of_bytes_bytes hfits, BitVec.ofNat_toNat, BitVec.setWidth_eq]

/-- The source message. -/
def sourceMessage (abi : Abi) : Words abi
  | 0 => 0x11112222
  | 1 => 0x33334444
  | 2 => 0x55556666
  | 3 => 0x77778888

/-- The message after `n` increments of its last word. -/
def message (abi : Abi) (n : ℕ) : Words abi :=
  Function.update (sourceMessage abi) 3 (sourceMessage abi 3 + BitVec.ofNat _ n)

/-- Without an increment it is the source message. -/
theorem message_zero (abi : Abi) : message abi 0 = sourceMessage abi := by
  rw [message]
  show Function.update (sourceMessage abi) 3 (sourceMessage abi 3 + 0#_) = _
  rw [BitVec.add_zero, Function.update_eq_self]

/-- One more increment. -/
theorem message_succ (abi : Abi) (n : ℕ) :
    Function.update (message abi n) 3 (message abi n 3 + 1) = message abi (n + 1) := by
  have hlast : message abi n 3 = sourceMessage abi 3 + BitVec.ofNat _ n := Function.update_self ..
  have hone : BitVec.ofNat (8 * abi.sizeofLong) n + 1 = BitVec.ofNat _ (n + 1) :=
    (BitVec.ofNat_add ..).symm
  rw [hlast, BitVec.add_assoc, hone, message, Function.update_idem, message]

/-! ## The workers -/

/-- The tests with such a worker. -/
inductive Test where
  | messageProcessing
  | synchronizationProcessing
  | memoryAllocation
  deriving DecidableEq

/-- The statements of the workers. -/
inductive Stmt where
  | initializeMessage
  | queueSend
  | queueReceive
  | compareMessages
  | incrementMessage
  | semaphoreGet
  | semaphorePut
  | memoryPoolAllocate
  | memoryPoolDeallocate
  | incrementCounter

/-- The entry function of the worker. -/
def Test.program : Test → Program Stmt
  | messageProcessing =>
      { entry := [.initializeMessage]
        loop := [.queueSend, .queueReceive, .compareMessages, .incrementMessage,
          .incrementCounter] }
  | synchronizationProcessing =>
      { entry := []
        loop := [.semaphoreGet, .semaphorePut, .incrementCounter] }
  | memoryAllocation =>
      { entry := []
        loop := [.memoryPoolAllocate, .memoryPoolDeallocate, .incrementCounter] }

/-- A worker with its variables and the objects of the port: its position, `none` once it has left
its entry function, the two arrays of the message test, `memory_ptr`, and the true value of the
counter of its test. -/
structure Worker (abi : Abi) (Q S P : Type) where
  pc : Option ℕ
  sent : Words abi
  received : Buffer
  memoryPtr : ℕ
  count : ℕ
  queue : Q
  semaphore : S
  pool : P

namespace Worker

/-- The worker before its first statement; global variables are zero. -/
def start (abi : Abi) (memoryPtr : ℕ) (queue : Q) (semaphore : S) (pool : P) : Worker abi Q S P :=
  ⟨some 0, fun _ ↦ 0, (zeros abi).1, memoryPtr, 0, queue, semaphore, pool⟩

/-- Go on if the status is `TM_SUCCESS`, and leave the loop otherwise. -/
def check (program : Program Stmt) (m : Worker abi Q S P) (position : ℕ) (status : Status) :
    Worker abi Q S P :=
  { m with pc := if status = .success then some (program.advance position) else none }

/-- Go on. -/
def goOn (program : Program Stmt) (m : Worker abi Q S P) (position : ℕ) : Worker abi Q S P :=
  { m with pc := some (program.advance position) }

/-- Execute the statement at `position`. -/
def execute (api : Api Q S P) (program : Program Stmt) (m : Worker abi Q S P) (position : ℕ) :
    Stmt → Worker abi Q S P
  | .initializeMessage => { m.goOn program position with sent := sourceMessage abi }
  | .queueSend =>
      let r := api.tmQueueSend 0 (encode m.sent).1 m.queue
      { m.check program position r.1 with queue := r.2 }
  | .queueReceive =>
      let r := api.tmQueueReceive 0 m.received m.queue
      { m.check program position r.1 with received := r.2.1, queue := r.2.2 }
  | .compareMessages =>
      { m with
        pc := if lastWord abi m.received ≠ m.sent 3 then none else some (program.advance position) }
  | .incrementMessage =>
      { m.goOn program position with sent := Function.update m.sent 3 (m.sent 3 + 1) }
  | .semaphoreGet =>
      let r := api.tmSemaphoreGet 0 m.semaphore
      { m.check program position r.1 with semaphore := r.2 }
  | .semaphorePut =>
      let r := api.tmSemaphorePut 0 m.semaphore
      { m.check program position r.1 with semaphore := r.2 }
  | .memoryPoolAllocate =>
      let r := api.tmMemoryPoolAllocate 0 m.memoryPtr m.pool
      { m.check program position r.1 with memoryPtr := r.2.1, pool := r.2.2 }
  | .memoryPoolDeallocate =>
      let r := api.tmMemoryPoolDeallocate 0 m.memoryPtr m.pool
      { m.check program position r.1 with pool := r.2 }
  | .incrementCounter => { m.goOn program position with count := m.count + 1 }

/-- One step of the worker. -/
def next (api : Api Q S P) (program : Program Stmt) (m : Worker abi Q S P) (_ : Unit) :
    Option (Worker abi Q S P) := do
  let position ← m.pc
  let stmt ← program.fetch position
  pure (m.execute api program position stmt)

/-- The statement at the worker's position is executed. -/
theorem next_of_fetch {api : Api Q S P} {program : Program Stmt} {m : Worker abi Q S P}
    {position : ℕ} {stmt : Stmt} (hpc : m.pc = some position)
    (hfetch : program.fetch position = some stmt) :
    m.next api program () = some (m.execute api program position stmt) := by
  simp only [next, hpc, hfetch, Option.bind_eq_bind, Option.bind_some, Option.pure_def]

end Worker

/-- The worker side of a test. The worker has priority 10 and the reporter priority 2. -/
def workers (api : Api Q S P) (port : Port) (test : Test) :
    Workers (Worker abi Q S P) Unit where
  next := Worker.next api test.program
  counters m := [m.count]
  outranked _ := port.outranks 2 10
  preempted := id
  preempted_cases _ := .inl rfl
  counters_preempted _ := rfl

/-- The reporter of the test. -/
def Test.report (w : ℕ) : Test → ReportSpec w
  | messageProcessing => tmMessageProcessingThreadReport w
  | synchronizationProcessing => tmSynchronizationProcessingThreadReport w
  | memoryAllocation => tmMemoryAllocationThreadReport w

/-! ## The stages of a worker -/

/-- What the worker and its objects hold before each statement. -/
inductive Stage {api : Api Q S P} (h : api.Lawful) (limits : Limits) :
    Test → Worker abi Q S P → Prop where
  | blank {m : Worker abi Q S P} (hpc : m.pc = some 0) (hcount : m.count = 0)
      (hlength : m.received.length = 4 * abi.sizeofLong)
      (hqueue : h.queue.holds (4 * abi.sizeofLong) limits.queue [] m.queue) :
      Stage h limits .messageProcessing m
  | send {m : Worker abi Q S P} (hpc : m.pc = some 1) (hsent : m.sent = message abi m.count)
      (hlength : m.received.length = 4 * abi.sizeofLong)
      (hqueue : h.queue.holds (4 * abi.sizeofLong) limits.queue [] m.queue) :
      Stage h limits .messageProcessing m
  | receive {m : Worker abi Q S P} (hpc : m.pc = some 2) (hsent : m.sent = message abi m.count)
      (hlength : m.received.length = 4 * abi.sizeofLong)
      (hqueue : h.queue.holds (4 * abi.sizeofLong) limits.queue [(encode m.sent).1] m.queue) :
      Stage h limits .messageProcessing m
  | received {m : Worker abi Q S P} (hpc : m.pc = some 3 ∨ m.pc = some 4)
      (hsent : m.sent = message abi m.count) (hreceived : m.received = (encode m.sent).1)
      (hqueue : h.queue.holds (4 * abi.sizeofLong) limits.queue [] m.queue) :
      Stage h limits .messageProcessing m
  | incremented {m : Worker abi Q S P} (hpc : m.pc = some 5)
      (hsent : m.sent = message abi (m.count + 1))
      (hreceived : m.received = (encode (message abi m.count)).1)
      (hqueue : h.queue.holds (4 * abi.sizeofLong) limits.queue [] m.queue) :
      Stage h limits .messageProcessing m
  | available {m : Worker abi Q S P} (hpc : m.pc = some 0 ∨ m.pc = some 2)
      (hsemaphore : h.semaphore.holds limits.semaphore 1 m.semaphore) :
      Stage h limits .synchronizationProcessing m
  | taken {m : Worker abi Q S P} (hpc : m.pc = some 1)
      (hsemaphore : h.semaphore.holds limits.semaphore 0 m.semaphore) :
      Stage h limits .synchronizationProcessing m
  | free {m : Worker abi Q S P} (hpc : m.pc = some 0 ∨ m.pc = some 2)
      (hpool : h.pool.holds limits.blocks [] m.pool) : Stage h limits .memoryAllocation m
  | held {m : Worker abi Q S P} (hpc : m.pc = some 1)
      (hpool : h.pool.holds limits.blocks [m.memoryPtr] m.pool) :
      Stage h limits .memoryAllocation m

namespace Stage

variable {api : Api Q S P} {h : api.Lawful} {limits : Limits} {test : Test} {m : Worker abi Q S P}

/-- A statement of the loop is executed, and the worker goes on. -/
structure Advances (api : Api Q S P) (test : Test) (m m' : Worker abi Q S P) (position : ℕ) :
    Prop where
  next : m.next api test.program () = some m'
  pc : m'.pc = some (test.program.advance position)
  count : m'.count = if position + 1 = (test.program.entry ++ test.program.loop).length then
    m.count + 1 else m.count

/-- In every stage the next statement succeeds and leads to the next stage. -/
theorem advance (hstage : Stage h limits test m) (hqueue : 1 ≤ limits.queue)
    (hsemaphore : limits.semaphore.Room 0) (hblocks : 1 ≤ limits.blocks) :
    ∃ position m', m.pc = some position ∧ Advances api test m m' position ∧
      Stage h limits test m' := by
  cases hstage with
  | blank hpc hcount hlength hholds =>
      refine ⟨0, _, hpc, ⟨Worker.next_of_fetch hpc rfl, rfl, rfl⟩, ?_⟩
      refine .send rfl ?_ hlength hholds
      show sourceMessage abi = message abi m.count
      rw [hcount, message_zero]
  | send hpc hsent hlength hholds =>
      obtain ⟨q', hsend, hq'⟩ := h.queue.send_room hholds (encode m.sent).2.ge hqueue
      rw [List.nil_append, List.take_of_length_le (encode m.sent).2.le] at hq'
      have hnext : m.next api Test.messageProcessing.program () =
          some { m.check Test.messageProcessing.program 1 .success with queue := q' } := by
        rw [Worker.next_of_fetch hpc rfl, Worker.execute, hsend]
      exact ⟨1, _, hpc, ⟨hnext, rfl, rfl⟩, .receive rfl hsent hlength hq'⟩
  | receive hpc hsent hlength hholds =>
      obtain ⟨q', hreceive, hq'⟩ := h.queue.receive_item hholds hlength.ge
      rw [List.drop_of_length_le hlength.le, List.append_nil] at hreceive
      have hnext : m.next api Test.messageProcessing.program () =
          some { m.check Test.messageProcessing.program 2 .success with
            received := (encode m.sent).1, queue := q' } := by
        rw [Worker.next_of_fetch hpc rfl, Worker.execute, hreceive]
      exact ⟨2, _, hpc, ⟨hnext, rfl, rfl⟩, .received (.inl rfl) hsent rfl hq'⟩
  | received hpc hsent hreceived hholds =>
      rcases hpc with hpc | hpc
      · have hsame : lastWord abi m.received = m.sent 3 := by
          rw [hreceived, last_word_encode]
        have hnext : m.next api Test.messageProcessing.program () =
            some { m with pc := some (Test.messageProcessing.program.advance 3) } := by
          rw [Worker.next_of_fetch hpc rfl, Worker.execute, if_neg (not_not_intro hsame)]
        exact ⟨3, _, hpc, ⟨hnext, rfl, rfl⟩, .received (.inr rfl) hsent hreceived hholds⟩
      · refine ⟨4, _, hpc, ⟨Worker.next_of_fetch hpc rfl, rfl, rfl⟩, ?_⟩
        refine .incremented rfl ?_ ?_ hholds
        · show Function.update m.sent 3 (m.sent 3 + 1) = message abi (m.count + 1)
          rw [hsent, message_succ]
        · show m.received = _
          rw [hreceived, hsent]
          rfl
  | incremented hpc hsent hreceived hholds =>
      refine ⟨5, _, hpc, ⟨Worker.next_of_fetch hpc rfl, rfl, rfl⟩, ?_⟩
      refine .send rfl hsent ?_ hholds
      show m.received.length = _
      rw [hreceived, (encode _).2]
  | available hpc hholds =>
      rcases hpc with hpc | hpc
      · obtain ⟨s', hget, hs'⟩ := h.semaphore.get_succ hholds
        have hnext : m.next api Test.synchronizationProcessing.program () =
            some { m.check Test.synchronizationProcessing.program 0 .success with
              semaphore := s' } := by
          rw [Worker.next_of_fetch hpc rfl, Worker.execute, hget]
        exact ⟨0, _, hpc, ⟨hnext, rfl, rfl⟩, .taken rfl hs'⟩
      · exact ⟨2, _, hpc, ⟨Worker.next_of_fetch hpc rfl, rfl, rfl⟩, .available (.inl rfl) hholds⟩
  | taken hpc hholds =>
      obtain ⟨s', hput, hs'⟩ := h.semaphore.put_room hholds hsemaphore
      have hnext : m.next api Test.synchronizationProcessing.program () =
          some { m.check Test.synchronizationProcessing.program 1 .success with
            semaphore := s' } := by
        rw [Worker.next_of_fetch hpc rfl, Worker.execute, hput]
      exact ⟨1, _, hpc, ⟨hnext, rfl, rfl⟩, .available (.inr rfl) hs'⟩
  | free hpc hholds =>
      rcases hpc with hpc | hpc
      · obtain ⟨block, p', -, hallocate, hp'⟩ := h.pool.allocate_room m.memoryPtr hholds hblocks
        have hnext : m.next api Test.memoryAllocation.program () =
            some { m.check Test.memoryAllocation.program 0 .success with
              memoryPtr := block, pool := p' } := by
          rw [Worker.next_of_fetch hpc rfl, Worker.execute, hallocate]
        exact ⟨0, _, hpc, ⟨hnext, rfl, rfl⟩, .held rfl hp'⟩
      · exact ⟨2, _, hpc, ⟨Worker.next_of_fetch hpc rfl, rfl, rfl⟩, .free (.inl rfl) hholds⟩
  | held hpc hholds =>
      obtain ⟨p', hrelease, hp'⟩ := h.pool.release_held hholds Nat.zero_lt_one
      have hnext : m.next api Test.memoryAllocation.program () =
          some { m.check Test.memoryAllocation.program 1 .success with pool := p' } := by
        have hdeallocate : api.tmMemoryPoolDeallocate 0 m.memoryPtr m.pool = (.success, p') :=
          hrelease
        rw [Worker.next_of_fetch hpc rfl, Worker.execute, hdeallocate]
      exact ⟨1, _, hpc, ⟨hnext, rfl, rfl⟩, .free (.inr rfl) hp'⟩

end Stage

/-! ## Runs -/

namespace Test

/-- The position after `n` statements. -/
def position (test : Test) (n : ℕ) : ℕ :=
  if n < test.program.entry.length then n
  else test.program.entry.length + (n - test.program.entry.length) % test.program.loop.length

/-- The complete iterations after `n` statements. -/
def iterations (test : Test) (n : ℕ) : ℕ :=
  (n - test.program.entry.length) / test.program.loop.length

/-- One more statement. -/
theorem position_succ (test : Test) (n : ℕ) :
    test.program.advance (test.position n) = test.position (n + 1) ∧
      test.iterations (n + 1) = test.iterations n +
        if test.position n + 1 = (test.program.entry ++ test.program.loop).length then 1
        else 0 := by
  cases test with
  | messageProcessing =>
      simp only [position, iterations, Program.advance, program, List.length_cons, List.length_nil,
        List.cons_append, List.nil_append, Nat.zero_add, Nat.reduceAdd]
      constructor <;> split_ifs <;> omega
  | synchronizationProcessing | memoryAllocation =>
      simp only [position, iterations, Program.advance, program, List.length_cons, List.length_nil,
        List.nil_append, Nat.zero_add, Nat.reduceAdd, Nat.not_lt_zero, if_false, Nat.sub_zero]
      constructor <;> split_ifs <;> omega

end Test

section Runs

/-- The event is a step of the worker. -/
def isWork : Event Unit → Bool
  | .work _ => true
  | _ => false

variable {api : Api Q S P} {limits : Limits} {q : Q} {s : S} {p : P} {memoryPtr : ℕ}

/-- One step of the test. -/
abbrev next (api : Api Q S P) (port : Port) (test : Test) (policy : Policy) (w : ℕ)
    (params : Params) :
    Bench (Worker abi Q S P) w → Event Unit → Option (Bench (Worker abi Q S P) w) :=
  Bench.next (workers api port test) (test.report w) params policy

/-- The object of the test after its create: an empty queue, an available semaphore, or a pool
without a block that is held. -/
def Ready (h : api.Lawful) (abi : Abi) (limits : Limits) (q : Q) (s : S) (p : P) : Test → Prop
  | .messageProcessing => h.queue.holds (4 * abi.sizeofLong) limits.queue [] q
  | .synchronizationProcessing => h.semaphore.holds limits.semaphore 1 s
  | .memoryAllocation => h.pool.holds limits.blocks [] p

/-- The worker at its start, with the object of its test just created. -/
theorem stage_start {h : api.Lawful} {test : Test} (hready : Ready h abi limits q s p test) :
    Stage h limits test (Worker.start abi memoryPtr q s p) := by
  cases test with
  | messageProcessing => exact .blank rfl rfl (zeros abi).2 hready
  | synchronizationProcessing => exact .available (.inl rfl) hready
  | memoryAllocation => exact .free (.inl rfl) hready

/-- The worker after `n` statements: what its stage says, its position in the loop, and a counter
that has counted every complete iteration. -/
structure After {api : Api Q S P} (h : api.Lawful) (limits : Limits) (test : Test) (n : ℕ)
    (m : Worker abi Q S P) : Prop where
  stage : Stage h limits test m
  pc : m.pc = some (test.position n)
  count : m.count = test.iterations n

/-- One more statement. -/
theorem After.advance {h : api.Lawful} {test : Test} {n : ℕ} {m : Worker abi Q S P}
    (hafter : After h limits test n m) (hqueue : 1 ≤ limits.queue)
    (hsemaphore : limits.semaphore.Room 0) (hblocks : 1 ≤ limits.blocks) :
    ∃ m', m.next api test.program () = some m' ∧ After h limits test (n + 1) m' := by
  obtain ⟨position, m', hpc, hadvance, hstage⟩ := hafter.stage.advance hqueue hsemaphore hblocks
  obtain rfl : test.position n = position := Option.some.inj (hafter.pc.symm.trans hpc)
  obtain ⟨hposition, hiterations⟩ := test.position_succ n
  refine ⟨m', hadvance.next, hstage, hadvance.pc.trans (congrArg some hposition), ?_⟩
  rw [hadvance.count, hiterations, hafter.count]
  split <;> rfl

/-- With room in every object the worker is where the number of its steps puts it, and it can
execute its next statement. -/
theorem runs_on (h : api.Lawful) (hqueue : 1 ≤ limits.queue)
    (hsemaphore : limits.semaphore.Room 0) (hblocks : 1 ≤ limits.blocks)
    {test : Test} (hready : Ready h abi limits q s p test) {port : Port} {policy : Policy} {w : ℕ}
    {params : Params} {events : List (Event Unit)} {t : Bench (Worker abi Q S P) w}
    (hrun : run (next api port test policy w params) events
      ⟨.start abi memoryPtr q s p, .start⟩ = some t) :
    After h limits test (events.countP isWork) t.workers ∧
      ∃ m, t.workers.next api test.program () = some m := by
  suffices hafter : After h limits test (events.countP isWork) t.workers by
    obtain ⟨m, hnext, -⟩ := hafter.advance hqueue hsemaphore hblocks
    exact ⟨hafter, m, hnext⟩
  refine run_history (fun events (t : Bench (Worker abi Q S P) w) ↦
    After h limits test (events.countP isWork) t.workers) ?_ ?_ hrun
  · refine ⟨stage_start hready, ?_, ?_⟩
    · cases test <;> rfl
    · cases test <;> rfl
  · intro events t event t' hafter hnext
    rw [List.countP_append, List.countP_singleton]
    rcases Bench.next_cases hnext with ⟨choice, m', rfl, -, hwork, rfl⟩ | ⟨_, rfl, -, -, rfl⟩ |
      ⟨rfl, -, rfl⟩
    · obtain ⟨m, hstep, hlater⟩ := hafter.advance hqueue hsemaphore hblocks
      obtain rfl : m = m' := Option.some.inj (hstep.symm.trans hwork)
      exact hlater
    · exact hafter
    · exact hafter

end Runs

section Both

variable {k : ThreadXKernel Q S P} {k' : FreeRTOSKernel Q' S'}

/-- The object with which the ThreadX port runs the test comes from the create of the test; the
others are arbitrary. -/
def ThreadXCreates (k : ThreadXKernel Q S P) (abi : Abi) (q : Q) (s : S) (p : P) : Test → Prop
  | .messageProcessing => ∃ q₀, k.tmQueueCreate abi 0 q₀ = (.success, q)
  | .synchronizationProcessing => ∃ s₀, k.tmSemaphoreCreate 0 s₀ = (.success, s)
  | .memoryAllocation => ∃ p₀, k.tmMemoryPoolCreate 0 p₀ = (.success, p)

/-- The same for the FreeRTOS port. -/
def FreeRTOSCreates (k : FreeRTOSKernel Q' S') (L : Layout) (abi : Abi) (q : Q') (s : S')
    (p : Pool) : Test → Prop
  | .messageProcessing => ∃ q₀, k.tmQueueCreate abi 0 q₀ = (.success, some q)
  | .synchronizationProcessing => ∃ s₀, k.tmSemaphoreCreate 0 s₀ = (.success, some s)
  | .memoryAllocation => ∃ p₀, tmMemoryPoolCreate L 0 p₀ = (.success, p)

/-- What the ThreadX port has created is ready. -/
theorem ready_of_thread_x_creates (hk : k.Documented abi) {q : Q} {s : S} {p : P} {test : Test}
    (hcreates : ThreadXCreates k abi q s p test) :
    Ready hk.lawful abi (threadXLimits abi) q s p test := by
  cases test with
  | messageProcessing => exact hk.queue_created hcreates.choose_spec
  | synchronizationProcessing => exact hk.semaphore_created hcreates.choose_spec
  | memoryAllocation => exact hk.pool_created hcreates.choose_spec

/-- So is what the FreeRTOS port has created. -/
theorem ready_of_free_rtos_creates (hk' : k'.Documented) {L : Layout} {q : Q'} {s : S'} {p : Pool}
    {test : Test} (hcreates : FreeRTOSCreates k' L abi q s p test) :
    Ready (hk'.lawful L) abi freeRTOSLimits q s p test := by
  cases test with
  | messageProcessing => exact hk'.queue_created L hcreates.choose_spec
  | synchronizationProcessing => exact hk'.semaphore_created L hcreates.choose_spec
  | memoryAllocation => exact hk'.pool_created L hcreates.choose_spec

/-- After the create of a test has succeeded, its worker never leaves its loop, on either port and
in whatever order it, its reporter and the ends of the reporter's sleep take their steps: no service
fails, the message received is the message sent, every round of the loop counts once, and the next
statement can be executed. -/
theorem workers_never_stop (hk : k.Documented abi) (hk' : k'.Documented) (L : Layout) (test : Test)
    {q : Q} {s : S} {p : P} (hcreates : ThreadXCreates k abi q s p test) {q' : Q'} {s' : S'}
    {p' : Pool} (hcreates' : FreeRTOSCreates k' L abi q' s' p' test) (memoryPtr : ℕ)
    (policy : Policy) (w : ℕ) (params : Params) (events : List (Event Unit)) :
    (∀ t, run (next k.api .threadX test policy w params) events
        ⟨.start abi memoryPtr q s p, .start⟩ = some t →
      After hk.lawful (threadXLimits abi) test (events.countP isWork) t.workers ∧
        ∃ m, t.workers.next k.api test.program () = some m) ∧
    ∀ t, run (next (k'.api L) .freeRTOS test policy w params) events
        ⟨.start abi memoryPtr q' s' p', .start⟩ = some t →
      After (hk'.lawful L) freeRTOSLimits test (events.countP isWork) t.workers ∧
        ∃ m, t.workers.next (k'.api L) test.program () = some m := by
  constructor
  · intro t hrun
    have hmessages : 1 ≤ (threadXLimits abi).queue := by
      cases abi <;> decide
    have hblocks : 1 ≤ (threadXLimits abi).blocks := by
      cases abi <;> decide
    have hroom : (threadXLimits abi).semaphore.Room 0 := trivial
    exact runs_on hk.lawful hmessages hroom hblocks (ready_of_thread_x_creates hk hcreates) hrun
  · intro t hrun
    exact runs_on (hk'.lawful L) (by decide) (by decide) (by decide)
      (ready_of_free_rtos_creates hk' hcreates') hrun

/-- The message worker over the lists of both ports, after its first seven statements: it has
counted one message. The other objects have not been created. -/
theorem message_worker_goes_on :
    (∃ t m, run (next (listThreadX .lp64).api .threadX .messageProcessing .strict 32
        ⟨30, 0⟩) (.report :: .report :: List.replicate 7 (.work ()))
        ⟨.start .lp64 0 ⟨32, 12, []⟩ ⟨.unlimited, 0⟩ ⟨[]⟩, .start⟩ = some t ∧
      t.workers.count = 1 ∧
      t.workers.next (listThreadX .lp64).api Test.messageProcessing.program () = some m) ∧
    ∃ t m, run (next (listFreeRTOS.api exampleLayout) .freeRTOS .messageProcessing
        .strict 32 ⟨30, 0⟩) (.report :: .report :: List.replicate 7 (.work ()))
        ⟨.start .lp64 0 ⟨32, 10, []⟩ ⟨.upTo 1, 0⟩ ⟨fun _ ↦ 0, 0⟩, .start⟩ = some t ∧
      t.workers.count = 1 ∧
      t.workers.next (listFreeRTOS.api exampleLayout) Test.messageProcessing.program () =
        some m := by
  have hcreates : ThreadXCreates (listThreadX .lp64) .lp64 ⟨32, 12, []⟩ ⟨.unlimited, 0⟩ ⟨[]⟩
      .messageProcessing := ⟨⟨0, 0, []⟩, rfl⟩
  have hcreates' : FreeRTOSCreates listFreeRTOS exampleLayout .lp64 ⟨32, 10, []⟩ ⟨.upTo 1, 0⟩
      ⟨fun _ ↦ 0, 0⟩ .messageProcessing := ⟨none, rfl⟩
  have h := workers_never_stop (listThreadXDocumented .lp64) listFreeRTOSDocumented exampleLayout
    .messageProcessing hcreates hcreates' 0 .strict 32 ⟨30, 0⟩
    (.report :: .report :: List.replicate 7 (.work ()))
  constructor
  · obtain ⟨-, m, hm⟩ := h.1 _ rfl
    exact ⟨_, m, rfl, rfl, hm⟩
  · obtain ⟨-, m, hm⟩ := h.2 _ rfl
    exact ⟨_, m, rfl, rfl, hm⟩

end Both

end ThreadMetric.ServiceWorkers

import Mathlib.Order.MinMax
import ThreadMetric.Ports.ObjectServices

/-!
# The two ports behind tm_api.h

`Objects` is what a port is for: a queue, a semaphore and a pool of given capacities. `Models.next`
shows that each port is a server for such objects, and `Objects.outcomes_eq_iff` compares two of
them that differ in their capacities: they give the same outcomes exactly as long as no call exceeds
a capacity.
-/

namespace ThreadMetric.Ports

open FreeRTOS Services

variable {abi : Abi} {Q S P Q' S' : Type} {Code : Type} [DecidableEq Code]

/-! ## What the ports are for -/

/-- How many messages are queued, how far the semaphore counts and how many blocks there are. -/
structure Limits where
  queue : ℕ
  semaphore : Limit
  blocks : ℕ

/-- What two ports both have room for. -/
def Limits.inf (limits limits' : Limits) : Limits where
  queue := min limits.queue limits'.queue
  semaphore := limits.semaphore.inf limits'.semaphore
  blocks := min limits.blocks limits'.blocks

namespace Call

/-- The id that a call names. -/
def id : Call abi → ℤ
  | queueSend id _ | queueReceive id _ | semaphoreGet id | semaphorePut id | poolAllocate id
  | poolDeallocate id _ => id

/-- A thread that holds `held` blocks may make the call. -/
def legal (held : ℕ) : Call abi → Bool
  | poolDeallocate _ place => decide (place < held)
  | _ => true

end Call

/-- The queued messages, the oldest first, the count of the semaphore and the number of blocks that
the thread holds. -/
structure Objects where
  queued : List Buffer
  count : ℕ
  held : ℕ

namespace Objects

/-- The objects after the three creates. -/
def start : Objects := ⟨[], 1, 0⟩

/-- A call for an object that exists. -/
def serve (limits : Limits) (o : Objects) : Call abi → Outcome × Objects
  | .queueSend _ message =>
      if o.queued.length < limits.queue then
        (⟨.success, none⟩, { o with queued := o.queued ++ [message.1] })
      else (⟨.error, none⟩, o)
  | .queueReceive _ _ =>
      match o.queued with
      | [] => (⟨.error, none⟩, o)
      | item :: items => (⟨.success, some item⟩, { o with queued := items })
  | .semaphoreGet _ =>
      match o.count with
      | 0 => (⟨.error, none⟩, o)
      | count + 1 => (⟨.success, none⟩, { o with count := count })
  | .semaphorePut _ =>
      if limits.semaphore.Room o.count then
        (⟨.success, none⟩, { o with count := o.count + 1 })
      else (⟨.error, none⟩, o)
  | .poolAllocate _ =>
      if o.held < limits.blocks then (⟨.success, none⟩, { o with held := o.held + 1 })
      else (⟨.error, none⟩, o)
  | .poolDeallocate _ _ => (⟨.success, none⟩, { o with held := o.held - 1 })

/-- Any call: an object that does not exist is an error. -/
def next (limits : Limits) (o : Objects) (call : Call abi) : Option (Outcome × Objects) :=
  if call.legal o.held then
    some (if call.id = 0 then o.serve limits call else (⟨.error, none⟩, o))
  else none

/-- A call that adds to an object finds room. -/
def room (limits : Limits) (o : Objects) : Call abi → Bool
  | .queueSend _ _ => decide (o.queued.length < limits.queue)
  | .semaphorePut _ => decide (limits.semaphore.Room o.count)
  | .poolAllocate _ => decide (o.held < limits.blocks)
  | _ => true

/-- The thread deallocates only what it holds, and no call exceeds a capacity. -/
def within (limits : Limits) : List (Call abi) → Objects → Bool
  | [], _ => true
  | call :: calls, o =>
      (decide (call.id ≠ 0) || o.room limits call) &&
        (o.next limits call).any fun answer ↦ within limits calls answer.2

end Objects

/-! ## Ports are servers for their objects -/

/-- The objects of a session are those of the abstract port. -/
structure Models {api : Api Q S P} (h : api.Lawful) (abi : Abi) (limits : Limits)
    (s : Session Q S P) (o : Objects) : Prop where
  queue : h.queue.holds (4 * abi.sizeofLong) limits.queue o.queued s.queue
  semaphore : h.semaphore.holds limits.semaphore o.count s.semaphore
  pool : h.pool.holds limits.blocks s.held s.pool
  held : s.held.length = o.held

namespace Models

variable {api : Api Q S P} {h : api.Lawful} {limits : Limits} {s : Session Q S P} {o : Objects}

/-- What the answers of a port and of the abstract port have in common. -/
abbrev Agree (h : api.Lawful) (abi : Abi) (limits : Limits)
    (answer : Outcome × Session Q S P) (answer' : Outcome × Objects) : Prop :=
  answer.1 = answer'.1 ∧ Models h abi limits answer.2 answer'.2

/-- A port and the abstract port agree on a call. -/
abbrev Answers (h : api.Lawful) (abi : Abi) (limits : Limits) (s : Session Q S P) (o : Objects)
    (call : Call abi) : Prop :=
  ∃ answer, s.next api call = some answer ∧ Agree h abi limits answer (o.serve limits call)

/-- A code other than success is the error. -/
theorem eq_error {code : Status} (hcode : code ≠ .success) : code = .error := by
  cases code with
  | success => exact absurd rfl hcode
  | error => rfl

/-- A message is queued if there is room. -/
theorem queueSend (hm : Models h abi limits s o) (message : Message abi) :
    Answers h abi limits s o (.queueSend 0 message) := by
  obtain ⟨hqueue, hsemaphore, hpool, hheld⟩ := hm
  refine ⟨_, rfl, ?_⟩
  by_cases hroom : o.queued.length < limits.queue
  · obtain ⟨q', hsend, hq'⟩ := h.queue.send_room hqueue message.2.ge hroom
    rw [List.take_of_length_le message.2.le] at hq'
    simp only [Objects.serve, if_pos hroom, hsend]
    exact ⟨rfl, hq', hsemaphore, hpool, hheld⟩
  · obtain ⟨code, q', hcode, hsend, hq'⟩ :=
      h.queue.send_full message.1 hqueue (Nat.not_lt.mp hroom)
    obtain rfl := eq_error hcode
    simp only [Objects.serve, if_neg hroom, hsend]
    exact ⟨rfl, hq', hsemaphore, hpool, hheld⟩

/-- The oldest message is received. -/
theorem queueReceive (hm : Models h abi limits s o) (destination : Message abi) :
    Answers h abi limits s o (.queueReceive 0 destination) := by
  obtain ⟨hqueue, hsemaphore, hpool, hheld⟩ := hm
  refine ⟨_, rfl, ?_⟩
  obtain ⟨queued, count, held⟩ := o
  cases queued with
  | nil =>
      obtain ⟨code, buffer', q', hcode, hreceive, hq'⟩ :=
        h.queue.receive_empty destination.1 hqueue
      obtain rfl := eq_error hcode
      simp only [Objects.serve, hreceive]
      exact ⟨rfl, hq', hsemaphore, hpool, hheld⟩
  | cons item items =>
      obtain ⟨q', hreceive, hq'⟩ := h.queue.receive_item hqueue destination.2.ge
      rw [List.drop_of_length_le destination.2.le, List.append_nil] at hreceive
      simp only [Objects.serve, hreceive]
      exact ⟨rfl, hq', hsemaphore, hpool, hheld⟩

/-- A positive count is lowered. -/
theorem semaphoreGet (hm : Models h abi limits s o) :
    Answers h abi limits s o (.semaphoreGet 0) := by
  obtain ⟨hqueue, hsemaphore, hpool, hheld⟩ := hm
  refine ⟨_, rfl, ?_⟩
  obtain ⟨queued, count, held⟩ := o
  cases count with
  | zero =>
      obtain ⟨code, s', hcode, hget, hs'⟩ := h.semaphore.get_zero hsemaphore
      obtain rfl := eq_error hcode
      simp only [Objects.serve, hget]
      exact ⟨rfl, hqueue, hs', hpool, hheld⟩
  | succ count =>
      obtain ⟨s', hget, hs'⟩ := h.semaphore.get_succ hsemaphore
      simp only [Objects.serve, hget]
      exact ⟨rfl, hqueue, hs', hpool, hheld⟩

/-- The count is raised if there is room. -/
theorem semaphorePut (hm : Models h abi limits s o) :
    Answers h abi limits s o (.semaphorePut 0) := by
  obtain ⟨hqueue, hsemaphore, hpool, hheld⟩ := hm
  refine ⟨_, rfl, ?_⟩
  by_cases hroom : limits.semaphore.Room o.count
  · obtain ⟨s', hput, hs'⟩ := h.semaphore.put_room hsemaphore hroom
    simp only [Objects.serve, if_pos hroom, hput]
    exact ⟨rfl, hqueue, hs', hpool, hheld⟩
  · obtain ⟨code, s', hcode, hput, hs'⟩ := h.semaphore.put_full hsemaphore hroom
    obtain rfl := eq_error hcode
    simp only [Objects.serve, if_neg hroom, hput]
    exact ⟨rfl, hqueue, hs', hpool, hheld⟩

/-- A block is handed out if one is free. -/
theorem poolAllocate (hm : Models h abi limits s o) :
    Answers h abi limits s o (.poolAllocate 0) := by
  obtain ⟨hqueue, hsemaphore, hpool, hheld⟩ := hm
  refine ⟨_, rfl, ?_⟩
  by_cases hroom : o.held < limits.blocks
  · obtain ⟨block, p', -, hallocate, hp'⟩ :=
      h.pool.allocate_room s.memoryPtr hpool (hheld.trans_lt hroom)
    simp only [Objects.serve, if_pos hroom, hallocate]
    exact ⟨rfl, hqueue, hsemaphore, hp', congrArg (· + 1) hheld⟩
  · obtain ⟨code, ptr', p', hcode, hallocate, hp'⟩ :=
      h.pool.allocate_full s.memoryPtr hpool ((Nat.not_lt.mp hroom).trans hheld.ge)
    obtain rfl := eq_error hcode
    simp only [Objects.serve, if_neg hroom, hallocate]
    exact ⟨rfl, hqueue, hsemaphore, hp', hheld⟩

/-- A held block is taken back. -/
theorem poolDeallocate (hm : Models h abi limits s o) {place : ℕ} (hlt : place < o.held) :
    Answers h abi limits s o (.poolDeallocate 0 place) := by
  obtain ⟨hqueue, hsemaphore, hpool, hheld⟩ := hm
  have hplace : place < s.held.length := hheld ▸ hlt
  refine ⟨_, dif_pos hplace, ?_⟩
  obtain ⟨p', hrelease, hp'⟩ := h.pool.release_held hpool hplace
  simp only [Objects.serve, hrelease]
  refine ⟨rfl, hqueue, hsemaphore, hp', ?_⟩
  show (s.held.eraseIdx place).length = o.held - 1
  rw [List.length_eraseIdx_of_lt hplace, hheld]

/-- A call for an object that exists. -/
theorem serve (hm : Models h abi limits s o) {call : Call abi} (hid : call.id = 0)
    (hlegal : call.legal o.held = true) : Answers h abi limits s o call := by
  cases call with
  | queueSend id message =>
      obtain rfl : id = 0 := hid
      exact hm.queueSend message
  | queueReceive id destination =>
      obtain rfl : id = 0 := hid
      exact hm.queueReceive destination
  | semaphoreGet id =>
      obtain rfl : id = 0 := hid
      exact hm.semaphoreGet
  | semaphorePut id =>
      obtain rfl : id = 0 := hid
      exact hm.semaphorePut
  | poolAllocate id =>
      obtain rfl : id = 0 := hid
      exact hm.poolAllocate
  | poolDeallocate id place =>
      obtain rfl : id = 0 := hid
      exact hm.poolDeallocate (of_decide_eq_true hlegal)

/-- A call for an object that does not exist. -/
theorem refuse (hm : Models h abi limits s o) {call : Call abi} (hid : call.id ≠ 0)
    (hlegal : call.legal o.held = true) : s.next api call = some (⟨.error, none⟩, s) := by
  cases call with
  | queueSend id message =>
      replace hid : id ≠ 0 := hid
      simp only [Session.next, h.send_invalid _ _ hid]
  | queueReceive id destination =>
      replace hid : id ≠ 0 := hid
      simp [Session.next, h.receive_invalid _ _ hid]
  | semaphoreGet id =>
      replace hid : id ≠ 0 := hid
      simp only [Session.next, h.get_invalid _ hid]
  | semaphorePut id =>
      replace hid : id ≠ 0 := hid
      simp only [Session.next, h.put_invalid _ hid]
  | poolAllocate id =>
      replace hid : id ≠ 0 := hid
      simp [Session.next, h.allocate_invalid _ _ hid]
  | poolDeallocate id place =>
      replace hid : id ≠ 0 := hid
      have hplace : place < s.held.length := hm.held ▸ of_decide_eq_true hlegal
      simp [Session.next, hplace, h.deallocate_invalid _ _ hid]

/-- A port answers as the abstract port. -/
theorem next (hm : Models h abi limits s o) (call : Call abi) :
    Option.Rel (Agree h abi limits) (s.next api call) (o.next limits call) := by
  by_cases hlegal : call.legal o.held = true
  · by_cases hid : call.id = 0
    · obtain ⟨answer, hnext, hagree⟩ := hm.serve hid hlegal
      rw [hnext, Objects.next, if_pos hlegal, if_pos hid]
      exact .some hagree
    · rw [hm.refuse hid hlegal, Objects.next, if_pos hlegal, if_neg hid]
      exact .some ⟨rfl, hm⟩
  · rw [Objects.next, if_neg hlegal]
    cases call with
    | poolDeallocate id place =>
        have hplace : ¬ place < s.held.length := by
          rw [hm.held]
          exact fun hlt ↦ hlegal (decide_eq_true hlt)
        rw [show s.next api (.poolDeallocate id place : Call abi) = none from dif_neg hplace]
        exact .none
    | _ => exact absurd rfl hlegal

/-- A port has the outcomes of the abstract port. -/
theorem outcomes (hm : Models h abi limits s o) (calls : List (Call abi)) :
    Services.outcomes (Session.next api) calls s =
      Services.outcomes (Objects.next limits) calls o :=
  outcomes_eq_of_simulation (Models h abi limits) (fun call hm ↦ hm.next call) calls hm

end Models

/-! ## Two ports -/

namespace Objects

variable {limits limits' : Limits} {o : Objects}

/-- No object is fuller than its capacity. -/
structure Fits (limits : Limits) (o : Objects) : Prop where
  queued : o.queued.length ≤ limits.queue
  count : limits.semaphore.Fits o.count
  held : o.held ≤ limits.blocks

/-- Ports that both have room for a call serve it alike. -/
theorem serve_of_room {call : Call abi} (hroom : o.room (limits.inf limits') call = true) :
    o.serve limits call = o.serve limits' call := by
  cases call with
  | queueSend id message =>
      have hlt := lt_min_iff.mp (of_decide_eq_true hroom)
      simp only [serve, if_pos hlt.1, if_pos hlt.2]
  | semaphorePut id =>
      have hlt := Limit.room_inf_iff.mp (of_decide_eq_true hroom)
      simp only [serve, if_pos hlt.1, if_pos hlt.2]
  | poolAllocate id =>
      have hlt := lt_min_iff.mp (of_decide_eq_true hroom)
      simp only [serve, if_pos hlt.1, if_pos hlt.2]
  | _ => rfl

/-- So does the port that has only as much room as both. -/
theorem serve_inf_of_room {call : Call abi} (hroom : o.room (limits.inf limits') call = true) :
    o.serve (limits.inf limits') call = o.serve limits call := by
  have hboth : o.room ((limits.inf limits').inf limits) call = true := by
    cases call with
    | queueSend id message =>
        have hlt := of_decide_eq_true hroom
        exact decide_eq_true (lt_min hlt (lt_min_iff.mp hlt).1)
    | semaphorePut id =>
        have hlt := of_decide_eq_true hroom
        exact decide_eq_true (Limit.room_inf_iff.mpr ⟨hlt, (Limit.room_inf_iff.mp hlt).1⟩)
    | poolAllocate id =>
        have hlt := of_decide_eq_true hroom
        exact decide_eq_true (lt_min hlt (lt_min_iff.mp hlt).1)
    | _ => rfl
  exact serve_of_room hboth

/-- A call that finds room keeps the objects inside their capacities. -/
theorem Fits.serve (hfits : o.Fits limits) {call : Call abi} (hroom : o.room limits call = true) :
    (o.serve limits call).2.Fits limits := by
  obtain ⟨queued, count, held⟩ := o
  obtain ⟨hqueued, hcount, hheld⟩ := hfits
  cases call with
  | queueSend id message =>
      have hlt := of_decide_eq_true hroom
      simp only [Objects.serve, if_pos hlt]
      refine ⟨?_, hcount, hheld⟩
      rw [List.length_append]
      exact hlt
  | queueReceive id destination =>
      cases queued with
      | nil => exact ⟨hqueued, hcount, hheld⟩
      | cons item items => exact ⟨Nat.le_of_succ_le hqueued, hcount, hheld⟩
  | semaphoreGet id =>
      cases count with
      | zero => exact ⟨hqueued, hcount, hheld⟩
      | succ count => exact ⟨hqueued, hcount.of_succ, hheld⟩
  | semaphorePut id =>
      have hlt := of_decide_eq_true hroom
      simp only [Objects.serve, if_pos hlt]
      exact ⟨hqueued, hlt.succ_fits, hheld⟩
  | poolAllocate id =>
      have hlt := of_decide_eq_true hroom
      simp only [Objects.serve, if_pos hlt]
      exact ⟨hqueued, hcount, hlt⟩
  | poolDeallocate id place =>
      exact ⟨hqueued, hcount, (Nat.sub_le ..).trans hheld⟩

/-- Of two different capacities, only the smaller is exhausted first. -/
theorem exhausted_first {x a b : ℕ} (hle : x ≤ min a b) (hfull : ¬ x < min a b) (hne : a ≠ b) :
    x < a ∧ ¬ x < b ∨ ¬ x < a ∧ x < b := by
  omega

/-- So it is with limits. -/
theorem limit_exhausted_first {count : ℕ} {a b : Limit} (hfits : (a.inf b).Fits count)
    (hfull : ¬ (a.inf b).Room count) (hne : a ≠ b) :
    a.Room count ∧ ¬ b.Room count ∨ ¬ a.Room count ∧ b.Room count := by
  cases a with
  | unlimited => exact .inl ⟨trivial, hfull⟩
  | upTo m =>
      cases b with
      | unlimited => exact .inr ⟨hfull, trivial⟩
      | upTo n => exact exhausted_first hfits hfull fun heq ↦ hne (congrArg Limit.upTo heq)

/-- A call for which one of two ports of different capacities has no room is refused by just one
of them. -/
theorem serve_ne_of_full (hqueue : limits.queue ≠ limits'.queue)
    (hsemaphore : limits.semaphore ≠ limits'.semaphore) (hblocks : limits.blocks ≠ limits'.blocks)
    (hfits : o.Fits (limits.inf limits')) {call : Call abi}
    (hfull : o.room (limits.inf limits') call ≠ true) :
    (o.serve limits call).1 ≠ (o.serve limits' call).1 := by
  cases call with
  | queueSend id message =>
      rcases exhausted_first hfits.queued (fun hlt ↦ hfull (decide_eq_true hlt)) hqueue with h | h
      · simp [serve, h.1, h.2]
      · simp [serve, h.1, h.2]
  | semaphorePut id =>
      rcases limit_exhausted_first hfits.count (fun hlt ↦ hfull (decide_eq_true hlt)) hsemaphore
        with h | h
      · simp [serve, h.1, h.2]
      · simp [serve, h.1, h.2]
  | poolAllocate id =>
      rcases exhausted_first hfits.held (fun hlt ↦ hfull (decide_eq_true hlt)) hblocks with h | h
      · simp [serve, h.1, h.2]
      · simp [serve, h.1, h.2]
  | _ => exact absurd rfl hfull

/-- Two ports of different capacities go through the same calls with the same outcomes exactly if
no call exceeds the smaller capacity. -/
theorem outcomes_eq_iff (hqueue : limits.queue ≠ limits'.queue)
    (hsemaphore : limits.semaphore ≠ limits'.semaphore) (hblocks : limits.blocks ≠ limits'.blocks)
    (calls : List (Call abi)) (hfits : o.Fits (limits.inf limits')) :
    (∃ bs, outcomes (next limits) calls o = some bs ∧
      outcomes (next limits') calls o = some bs) ↔
    within (limits.inf limits') calls o = true := by
  induction calls generalizing o with
  | nil => exact ⟨fun _ ↦ rfl, fun _ ↦ ⟨[], rfl, rfl⟩⟩
  | cons call calls ih =>
      by_cases hlegal : call.legal o.held = true
      · by_cases hid : call.id = 0
        · have hserve (m : Limits) : o.next m call = some (o.serve m call) := by
            rw [next, if_pos hlegal, if_pos hid]
          by_cases hroom : o.room (limits.inf limits') call = true
          · have hsame := serve_of_room hroom
            have hstep := hfits.serve hroom
            rw [serve_inf_of_room hroom] at hstep
            rw [agree_cons_iff calls (hserve limits) (hserve limits') (congrArg Prod.fst hsame),
              ← hsame, ih hstep]
            simp only [within, hroom, hserve, serve_inf_of_room hroom, Bool.or_true, Bool.true_and,
              Option.any_some]
          · refine iff_of_false (not_agree_cons calls (hserve limits) (hserve limits') ?_) ?_
            · exact serve_ne_of_full hqueue hsemaphore hblocks hfits hroom
            · simp [within, hroom, hid]
        · have hrefuse (m : Limits) : o.next m call = some (⟨.error, none⟩, o) := by
            rw [next, if_pos hlegal, if_neg hid]
          rw [agree_cons_iff calls (hrefuse limits) (hrefuse limits') rfl, ih hfits]
          simp [within, hid, hrefuse]
      · have hnone (m : Limits) : o.next m call = none := if_neg hlegal
        simp [outcomes, within, hnone]

end Objects

/-- The capacities of the ThreadX port. -/
def threadXLimits (abi : Abi) : Limits where
  queue := tmThreadxQueueSize / (tmThreadxQueueMsgWords abi * abi.sizeofULong)
  semaphore := .unlimited
  blocks := tmThreadxMemoryPoolSize / (128 + abi.sizeofPointer)

/-- The capacities of the FreeRTOS port. -/
def freeRTOSLimits : Limits where
  queue := tmFreertosQueueDepth
  semaphore := .upTo 1
  blocks := tmBlockCount

/-- What both ports have room for, whatever the data model. -/
theorem limits_inf (abi : Abi) : (threadXLimits abi).inf freeRTOSLimits = ⟨10, .upTo 1, 15⟩ := by
  cases abi <;> rfl

/-- A service behind a checked id succeeds if the kernel does. -/
theorem checked_eq_success {σ : Type} {ok : Code} {service : Code × σ} {unchanged s : σ}
    (h : checked 1 ok 0 service unchanged = (.success, s)) : service = (ok, s) := by
  obtain ⟨code, s'⟩ := service
  by_cases hcode : code = ok
  · obtain rfl : s' = s := by simpa [checked, hcode] using h
    rw [hcode]
  · simp [checked, hcode] at h

section Created

variable {k : ThreadXKernel Q S P} {k' : FreeRTOSKernel Q' S'}

namespace ThreadXKernel.Documented

/-- A queue of the ThreadX port. -/
theorem queue_created (h : k.Documented abi) {q₀ q : Q}
    (hcreate : k.tmQueueCreate abi 0 q₀ = (.success, q)) :
    h.lawful.queue.holds (4 * abi.sizeofLong) (threadXLimits abi).queue [] q := by
  have hwords : 1 ≤ tmThreadxQueueMsgWords abi ∧ tmThreadxQueueMsgWords abi ≤ 16 ∧
      tmThreadxQueueMsgWords abi * abi.sizeofULong = 4 * abi.sizeofLong := by
    cases abi <;> decide
  rw [← hwords.2.2]
  exact h.queue_create hwords.1 hwords.2.1 (checked_eq_success hcreate)

/-- A semaphore of the ThreadX port. -/
theorem semaphore_created (h : k.Documented abi) {s₀ s : S}
    (hcreate : k.tmSemaphoreCreate 0 s₀ = (.success, s)) :
    h.lawful.semaphore.holds (threadXLimits abi).semaphore 1 s :=
  h.semaphore_create (checked_eq_success hcreate)

/-- A memory pool of the ThreadX port. -/
theorem pool_created (h : k.Documented abi) {p₀ p : P}
    (hcreate : k.tmMemoryPoolCreate 0 p₀ = (.success, p)) :
    h.lawful.pool.holds (threadXLimits abi).blocks [] p := by
  have hdvd : abi.sizeofPointer ∣ 128 := by
    cases abi <;> decide
  exact h.pool_create hdvd (checked_eq_success hcreate)

/-- The ThreadX port after its creates. -/
theorem created (h : k.Documented abi) {q₀ q : Q} {s₀ s : S} {p₀ p : P}
    (hqueue : k.tmQueueCreate abi 0 q₀ = (.success, q))
    (hsemaphore : k.tmSemaphoreCreate 0 s₀ = (.success, s))
    (hpool : k.tmMemoryPoolCreate 0 p₀ = (.success, p)) (memoryPtr : ℕ) :
    Models h.lawful abi (threadXLimits abi) ⟨q, s, p, memoryPtr, []⟩ Objects.start :=
  ⟨h.queue_created hqueue, h.semaphore_created hsemaphore, h.pool_created hpool, rfl⟩

end ThreadXKernel.Documented

namespace FreeRTOSKernel.Documented

/-- A queue of the FreeRTOS port. -/
theorem queue_created (h : k'.Documented) (L : Layout) {q₀ : Option Q'} {q : Q'}
    (hqueue : k'.tmQueueCreate abi 0 q₀ = (.success, some q)) :
    (h.lawful L).queue.holds (4 * abi.sizeofLong) freeRTOSLimits.queue [] q := by
  cases hcreate : k'.xQueueCreate tmFreertosQueueDepth (tmFreertosQueueMsgSize abi) with
  | none => simp [FreeRTOSKernel.tmQueueCreate, tmFreertosMaxQueues, hcreate] at hqueue
  | some created =>
      obtain rfl : created = q := by
        simpa [FreeRTOSKernel.tmQueueCreate, tmFreertosMaxQueues, hcreate] using hqueue
      exact h.queue_create hcreate

/-- A semaphore of the FreeRTOS port. -/
theorem semaphore_created (h : k'.Documented) (L : Layout) {s₀ : Option S'} {s : S'}
    (hsemaphore : k'.tmSemaphoreCreate 0 s₀ = (.success, some s)) :
    (h.lawful L).semaphore.holds freeRTOSLimits.semaphore 1 s := by
  cases hcreate : k'.xSemaphoreCreateBinary with
  | none =>
      simp [FreeRTOSKernel.tmSemaphoreCreate, tmFreertosMaxSemaphores, hcreate] at hsemaphore
  | some created =>
      obtain rfl : (k'.xSemaphoreGive created).2 = s := by
        simpa [FreeRTOSKernel.tmSemaphoreCreate, tmFreertosMaxSemaphores, hcreate] using hsemaphore
      obtain ⟨s', hgive, hs'⟩ := h.semaphore.put_room (h.semaphore_create hcreate) (by decide)
      rw [hgive]
      exact hs'

/-- A memory pool of the FreeRTOS port. -/
theorem pool_created (h : k'.Documented) (L : Layout) {p₀ p : Pool}
    (hpool : tmMemoryPoolCreate L 0 p₀ = (.success, p)) :
    (h.lawful L).pool.holds freeRTOSLimits.blocks [] p := by
  refine ⟨rfl, fun ptr ↦ ⟨Stack.start L.blocks ptr, rfl, ?_, rfl, rfl⟩⟩
  obtain rfl : (tmMemoryPoolCreate L 0 p₀).2 = p := congrArg Prod.snd hpool
  exact chain_create L p₀

/-- The FreeRTOS port after its creates. -/
theorem created (h : k'.Documented) (L : Layout) {q₀ : Option Q'} {q : Q'} {s₀ : Option S'}
    {s : S'} {p₀ p : Pool} (hqueue : k'.tmQueueCreate abi 0 q₀ = (.success, some q))
    (hsemaphore : k'.tmSemaphoreCreate 0 s₀ = (.success, some s))
    (hpool : tmMemoryPoolCreate L 0 p₀ = (.success, p)) (memoryPtr : ℕ) :
    Models (h.lawful L) abi freeRTOSLimits ⟨q, s, p, memoryPtr, []⟩ Objects.start :=
  ⟨h.queue_created L hqueue, h.semaphore_created L hsemaphore, h.pool_created L hpool, rfl⟩

end FreeRTOSKernel.Documented

/-- After the creates of both ports have succeeded: a sequence of calls that a thread may make gets
the same status and the same messages from both ports exactly if no message is sent while ten are
queued, the semaphore is not put while it is available, and no block is allocated while fifteen are
held. -/
theorem ports_agree_iff (hk : k.Documented abi) (hk' : k'.Documented) (L : Layout)
    {q₀ q : Q} {s₀ s : S} {p₀ p : P} (hqueue : k.tmQueueCreate abi 0 q₀ = (.success, q))
    (hsemaphore : k.tmSemaphoreCreate 0 s₀ = (.success, s))
    (hpool : k.tmMemoryPoolCreate 0 p₀ = (.success, p))
    {q₀' : Option Q'} {q' : Q'} {s₀' : Option S'} {s' : S'} {p₀' p' : Pool}
    (hqueue' : k'.tmQueueCreate abi 0 q₀' = (.success, some q'))
    (hsemaphore' : k'.tmSemaphoreCreate 0 s₀' = (.success, some s'))
    (hpool' : tmMemoryPoolCreate L 0 p₀' = (.success, p'))
    (memoryPtr memoryPtr' : ℕ) (calls : List (Call abi)) :
    (∃ bs, outcomes (Session.next k.api) calls ⟨q, s, p, memoryPtr, []⟩ = some bs ∧
      outcomes (Session.next (k'.api L)) calls ⟨q', s', p', memoryPtr', []⟩ = some bs) ↔
    Objects.within ⟨10, .upTo 1, 15⟩ calls Objects.start = true := by
  rw [(hk.created hqueue hsemaphore hpool memoryPtr).outcomes calls,
    (hk'.created L hqueue' hsemaphore' hpool' memoryPtr').outcomes calls, ← limits_inf abi]
  refine Objects.outcomes_eq_iff ?_ ?_ ?_ calls ?_
  · cases abi <;> decide
  · exact fun heq ↦ by cases heq
  · cases abi <;> decide
  · rw [limits_inf abi]
    exact ⟨Nat.zero_le _, le_refl 1, Nat.zero_le _⟩

end Created

/-! ## Ports over lists -/

/-- A ThreadX kernel whose objects are lists. -/
def listThreadX (abi : Abi) : ThreadXKernel ListQueue Counter ListPool where
  txQueueCreate words size _ :=
    (txSuccess, ⟨words * abi.sizeofULong, size / (words * abi.sizeofULong), []⟩)
  txQueueSend _ := ListQueue.send txSuccess 0x0B
  txQueueReceive _ := ListQueue.receive txSuccess 0x0A
  txSemaphoreCreate count _ := (txSuccess, ⟨.unlimited, count⟩)
  txSemaphoreGet _ := Counter.get txSuccess 0x0D
  txSemaphorePut := Counter.put txSuccess 0x21
  txBlockPoolCreate blockSize size _ :=
    let cost := blockSize + abi.sizeofPointer
    (txSuccess, ⟨(List.range (size / cost)).map fun i ↦ i * cost + abi.sizeofPointer⟩)
  txBlockAllocate _ := ListPool.allocate txSuccess 0x10
  txBlockRelease := ListPool.release txSuccess

/-- It behaves as documented. -/
def listThreadXDocumented (abi : Abi) : (listThreadX abi).Documented abi where
  queue := ListQueue.fifoQueue (by decide) (by decide)
  semaphore := Counter.countingSemaphore (by decide) (by decide)
  pool := ListPool.blockPool (by decide)
  queue_create := by
    intro words size q q' _ _ hcreate
    exact (congrArg Prod.snd hcreate).symm
  semaphore_create := by
    intro count s s' hcreate
    exact (congrArg Prod.snd hcreate).symm
  pool_create := by
    intro blockSize size p p' _ hcreate
    obtain rfl := congrArg Prod.snd hcreate
    refine ⟨?_, by simp [listThreadX]⟩
    rw [List.append_nil]
    refine List.Nodup.map (fun i j hij ↦ ?_) List.nodup_range
    have hcost : 0 < blockSize + abi.sizeofPointer := by
      cases abi <;> simp [Abi.sizeofPointer]
    exact Nat.eq_of_mul_eq_mul_right hcost (Nat.add_right_cancel hij)

/-- A FreeRTOS kernel whose objects are lists. -/
def listFreeRTOS : FreeRTOSKernel ListQueue Counter where
  xQueueCreate length itemSize := some ⟨itemSize, length, []⟩
  xQueueSendToBack _ := ListQueue.send pdTrue 0
  xQueueReceive _ := ListQueue.receive pdTrue 0
  xSemaphoreCreateBinary := some ⟨.upTo 1, 0⟩
  xSemaphoreTake _ := Counter.get pdTrue 0
  xSemaphoreGive := Counter.put pdTrue 0

/-- It behaves as documented. -/
def listFreeRTOSDocumented : listFreeRTOS.Documented where
  queue := ListQueue.fifoQueue (by decide) (by decide)
  semaphore := Counter.countingSemaphore (by decide) (by decide)
  queue_create := by
    intro length itemSize q hcreate
    exact (Option.some.inj hcreate).symm
  semaphore_create := by
    intro s hcreate
    exact (Option.some.inj hcreate).symm

/-- A message of zeros. -/
def zeros (abi : Abi) : Message abi := ⟨List.replicate _ 0, List.length_replicate⟩

/-- A message goes through the queue, and a block that is deallocated is allocated again. -/
def sampleCalls : List (Call .lp64) :=
  [.queueSend 0 (zeros .lp64), .poolAllocate 0, .semaphoreGet 0, .queueReceive 0 (zeros .lp64),
    .poolDeallocate 0 0, .queueReceive 0 (zeros .lp64), .poolAllocate 0, .semaphorePut 0]

/-- Both ports over lists give the same outcomes. -/
theorem ports_agree_iff_list :
    ∃ bs,
      outcomes (Session.next (listThreadX .lp64).api) sampleCalls
        ⟨⟨32, 12, []⟩, ⟨.unlimited, 1⟩, ((listThreadX .lp64).tmMemoryPoolCreate 0 ⟨[]⟩).2, 0, []⟩ =
          some bs ∧
      outcomes (Session.next (listFreeRTOS.api exampleLayout)) sampleCalls
        ⟨⟨32, 10, []⟩, ⟨.upTo 1, 1⟩, (tmMemoryPoolCreate exampleLayout 0 ⟨fun _ ↦ 0, 0⟩).2, 0, []⟩ =
          some bs := by
  have hqueue : (listThreadX .lp64).tmQueueCreate .lp64 0 ⟨0, 0, []⟩ =
      (.success, ⟨32, 12, []⟩) := rfl
  have hsemaphore : (listThreadX .lp64).tmSemaphoreCreate 0 ⟨.unlimited, 0⟩ =
      (.success, ⟨.unlimited, 1⟩) := rfl
  have hpool : (listThreadX .lp64).tmMemoryPoolCreate 0 ⟨[]⟩ = (.success, _) := rfl
  have hqueue' : listFreeRTOS.tmQueueCreate .lp64 0 none = (.success, some ⟨32, 10, []⟩) := rfl
  have hsemaphore' : listFreeRTOS.tmSemaphoreCreate 0 none = (.success, some ⟨.upTo 1, 1⟩) := rfl
  have hpool' : tmMemoryPoolCreate exampleLayout 0 ⟨fun _ ↦ 0, 0⟩ = (.success, _) := rfl
  exact (ports_agree_iff (listThreadXDocumented .lp64) listFreeRTOSDocumented exampleLayout hqueue
    hsemaphore hpool hqueue' hsemaphore' hpool' 0 0 sampleCalls).mpr (by decide)

/-- A put of the semaphore right after its creation: the count of ThreadX becomes two, and FreeRTOS
refuses. -/
theorem second_put_differs :
    ¬ ∀ (abi : Abi) (Q S P Q' S' : Type) (k : ThreadXKernel Q S P) (k' : FreeRTOSKernel Q' S')
      (_ : k.Documented abi) (_ : k'.Documented) (L : Layout) (q₀ q : Q) (s₀ s : S) (p₀ p : P)
      (q₀' : Option Q') (q' : Q') (s₀' : Option S') (s' : S') (p₀' p' : Pool)
      (memoryPtr memoryPtr' : ℕ) (calls : List (Call abi)) (xs ys : List Outcome),
      k.tmQueueCreate abi 0 q₀ = (.success, q) → k.tmSemaphoreCreate 0 s₀ = (.success, s) →
      k.tmMemoryPoolCreate 0 p₀ = (.success, p) →
      k'.tmQueueCreate abi 0 q₀' = (.success, some q') →
      k'.tmSemaphoreCreate 0 s₀' = (.success, some s') →
      tmMemoryPoolCreate L 0 p₀' = (.success, p') →
      outcomes (Session.next k.api) calls ⟨q, s, p, memoryPtr, []⟩ = some xs →
      outcomes (Session.next (k'.api L)) calls ⟨q', s', p', memoryPtr', []⟩ = some ys →
      xs = ys := by
  intro h
  have hsame := h .lp64 ListQueue Counter ListPool ListQueue Counter (listThreadX .lp64)
    listFreeRTOS (listThreadXDocumented .lp64) listFreeRTOSDocumented exampleLayout
    ⟨0, 0, []⟩ _ ⟨.unlimited, 0⟩ _ ⟨[]⟩ _ none _ none _ ⟨fun _ ↦ 0, 0⟩ _ 0 0 [.semaphorePut 0]
    [⟨.success, none⟩] [⟨.error, none⟩] rfl rfl rfl rfl rfl rfl rfl rfl
  exact absurd hsame (by decide)

end ThreadMetric.Ports

import Mathlib.Data.List.Nodup
import Mathlib.Data.List.Perm.Basic
import Mathlib.Data.Option.Basic
import Mathlib.Order.MinMax

/-!
# Non-blocking services of a kernel

A server answers a request with an outcome: `next : σ → α → Option (β × σ)`, where `none` is a
request that must not be made. `outcomes_eq_of_simulation` compares two servers.

The documentation of a kernel speaks of the contents of its objects, not of their representation.
`FifoQueue`, `CountingSemaphore` and `BlockPool` state such a documentation for services that
return a code, where `ok` means success: a predicate `holds` ties the representation to the
contents, and every service is described on the contents. Lists and counters meet them.
-/

namespace Services

universe u v w

section Servers

variable {σ τ α β : Type*}

/-- The outcomes of the requests in order. -/
def outcomes (next : σ → α → Option (β × σ)) : List α → σ → Option (List β)
  | [], _ => some []
  | request :: requests, state =>
      (next state request).bind fun answer ↦
        (outcomes next requests answer.2).map (answer.1 :: ·)

/-- The state after the requests. -/
def final (next : σ → α → Option (β × σ)) : List α → σ → Option σ
  | [], state => some state
  | request :: requests, state =>
      (next state request).bind fun answer ↦ final next requests answer.2

variable {next : σ → α → Option (β × σ)} {next' : τ → α → Option (β × τ)}

/-- Servers whose related states give equal outcomes and related successors have equal outcomes
throughout. -/
theorem outcomes_eq_of_simulation (related : σ → τ → Prop)
    (hstep : ∀ {s t} request, related s t →
      Option.Rel (fun answer answer' ↦ answer.1 = answer'.1 ∧ related answer.2 answer'.2)
        (next s request) (next' t request))
    (requests : List α) {s : σ} {t : τ} (hrelated : related s t) :
    outcomes next requests s = outcomes next' requests t := by
  induction requests generalizing s t with
  | nil => rfl
  | cons request requests ih =>
      have hrel := hstep request hrelated
      simp only [outcomes]
      cases hs : next s request with
      | none =>
          rw [hs] at hrel
          cases ht : next' t request with
          | none => rfl
          | some answer' =>
              rw [ht] at hrel
              cases hrel
      | some answer =>
          rw [hs] at hrel
          cases ht : next' t request with
          | none =>
              rw [ht] at hrel
              cases hrel
          | some answer' =>
              rw [ht] at hrel
              cases hrel with
              | some heq =>
                  simp only [Option.bind_some]
                  rw [ih heq.2, heq.1]

/-- Related states of such servers lead to related states. -/
theorem final_of_simulation (related : σ → τ → Prop)
    (hstep : ∀ {s t} request, related s t →
      Option.Rel (fun answer answer' ↦ answer.1 = answer'.1 ∧ related answer.2 answer'.2)
        (next s request) (next' t request))
    (requests : List α) {s : σ} {t : τ} (hrelated : related s t) :
    Option.Rel related (final next requests s) (final next' requests t) := by
  induction requests generalizing s t with
  | nil => exact .some hrelated
  | cons request requests ih =>
      have hrel := hstep request hrelated
      simp only [final]
      cases hs : next s request with
      | none =>
          rw [hs] at hrel
          cases ht : next' t request with
          | none => exact .none
          | some answer' =>
              rw [ht] at hrel
              cases hrel
      | some answer =>
          rw [hs] at hrel
          cases ht : next' t request with
          | none =>
              rw [ht] at hrel
              cases hrel
          | some answer' =>
              rw [ht] at hrel
              cases hrel with
              | some heq => exact ih heq.2

/-- After equal outcomes, servers agree exactly if they agree from then on. -/
theorem agree_cons_iff {request : α} (requests : List α) {s : σ} {t : τ} {answer : β × σ}
    {answer' : β × τ} (hs : next s request = some answer) (ht : next' t request = some answer')
    (hsame : answer.1 = answer'.1) :
    (∃ bs, outcomes next (request :: requests) s = some bs ∧
      outcomes next' (request :: requests) t = some bs) ↔
    ∃ bs, outcomes next requests answer.2 = some bs ∧
      outcomes next' requests answer'.2 = some bs := by
  simp only [outcomes, hs, ht, Option.bind_some, Option.map_eq_some_iff]
  constructor
  · rintro ⟨bs, ⟨rest, hrest, rfl⟩, rest', hrest', heq⟩
    obtain rfl : rest' = rest := (List.cons.inj heq).2
    exact ⟨rest', hrest, hrest'⟩
  · rintro ⟨rest, hrest, hrest'⟩
    exact ⟨answer.1 :: rest, ⟨rest, hrest, rfl⟩, rest, hrest', by rw [hsame]⟩

/-- After different outcomes they do not agree. -/
theorem not_agree_cons {request : α} (requests : List α) {s : σ} {t : τ} {answer : β × σ}
    {answer' : β × τ} (hs : next s request = some answer) (ht : next' t request = some answer')
    (hne : answer.1 ≠ answer'.1) :
    ¬ ∃ bs, outcomes next (request :: requests) s = some bs ∧
      outcomes next' (request :: requests) t = some bs := by
  simp only [outcomes, hs, ht, Option.bind_some, Option.map_eq_some_iff]
  rintro ⟨bs, ⟨rest, -, rfl⟩, rest', -, heq⟩
  exact hne (List.cons.inj heq).1.symm

end Servers

/-- The bytes that a message pointer points to. -/
abbrev Buffer := List (BitVec 8)

/-- A first-in first-out queue: `holds bytes depth items q` means that `q` has room for `depth`
items of `bytes` bytes and contains `items`, the oldest first. A send copies from the buffer, a
receive copies into it. -/
structure FifoQueue {Q : Type u} {Code : Type v} (ok : Code) (send : Buffer → Q → Code × Q)
    (receive : Buffer → Q → Code × Buffer × Q) where
  holds : ℕ → ℕ → List Buffer → Q → Prop
  send_room : ∀ {bytes depth items q buffer}, holds bytes depth items q →
    bytes ≤ buffer.length → items.length < depth →
    ∃ q', send buffer q = (ok, q') ∧ holds bytes depth (items ++ [buffer.take bytes]) q'
  send_full : ∀ {bytes depth items q} buffer, holds bytes depth items q →
    depth ≤ items.length →
    ∃ code q', code ≠ ok ∧ send buffer q = (code, q') ∧ holds bytes depth items q'
  receive_item : ∀ {bytes depth item items q buffer}, holds bytes depth (item :: items) q →
    bytes ≤ buffer.length →
    ∃ q', receive buffer q = (ok, item ++ buffer.drop bytes, q') ∧ holds bytes depth items q'
  receive_empty : ∀ {bytes depth q} buffer, holds bytes depth [] q →
    ∃ code buffer' q', code ≠ ok ∧ receive buffer q = (code, buffer', q') ∧
      holds bytes depth [] q'

/-- How far a count may grow. -/
inductive Limit where
  | unlimited
  | upTo (n : ℕ)

namespace Limit

/-- The count may grow by one. -/
def Room : Limit → ℕ → Prop
  | unlimited, _ => True
  | upTo n, count => count < n

instance (limit : Limit) (count : ℕ) : Decidable (limit.Room count) :=
  match limit with
  | unlimited => inferInstanceAs (Decidable True)
  | upTo n => inferInstanceAs (Decidable (count < n))

/-- The count has not grown too far. -/
def Fits : Limit → ℕ → Prop
  | unlimited, _ => True
  | upTo n, count => count ≤ n

/-- As far as both limits allow. -/
def inf : Limit → Limit → Limit
  | unlimited, limit => limit
  | limit, unlimited => limit
  | upTo m, upTo n => upTo (min m n)

variable {limit limit' : Limit} {count : ℕ}

/-- Both limits have to leave room. -/
theorem room_inf_iff : (limit.inf limit').Room count ↔ limit.Room count ∧ limit'.Room count := by
  cases limit with
  | unlimited => exact ⟨fun h ↦ ⟨trivial, h⟩, And.right⟩
  | upTo m =>
      cases limit' with
      | unlimited => exact ⟨fun h ↦ ⟨h, trivial⟩, And.left⟩
      | upTo n => exact lt_min_iff

/-- With room for one more, one more fits. -/
theorem Room.succ_fits (h : limit.Room count) : limit.Fits (count + 1) := by
  cases limit with
  | unlimited => trivial
  | upTo n => exact h

/-- What fits also fits after a decrement. -/
theorem Fits.of_succ (h : limit.Fits (count + 1)) : limit.Fits count := by
  cases limit with
  | unlimited => trivial
  | upTo n => exact Nat.le_of_succ_le h

end Limit

/-- A counting semaphore: `holds limit count s` means that the count of `s` is `count` and may
grow as far as `limit`. -/
structure CountingSemaphore {S : Type u} {Code : Type v} (ok : Code) (get put : S → Code × S) where
  holds : Limit → ℕ → S → Prop
  get_succ : ∀ {limit count s}, holds limit (count + 1) s →
    ∃ s', get s = (ok, s') ∧ holds limit count s'
  get_zero : ∀ {limit s}, holds limit 0 s →
    ∃ code s', code ≠ ok ∧ get s = (code, s') ∧ holds limit 0 s'
  put_room : ∀ {limit count s}, holds limit count s → limit.Room count →
    ∃ s', put s = (ok, s') ∧ holds limit (count + 1) s'
  put_full : ∀ {limit count s}, holds limit count s → ¬ limit.Room count →
    ∃ code s', code ≠ ok ∧ put s = (code, s') ∧ holds limit count s'

/-- A pool of blocks: `holds count held p` means that `p` has `count` blocks of which those at the
addresses `held` are allocated, the latest first. -/
structure BlockPool {P : Type u} {Code : Type v} (ok : Code)
    (allocate : ℕ → P → Code × ℕ × P) (release : ℕ → P → Code × P) where
  holds : ℕ → List ℕ → P → Prop
  allocate_room : ∀ {count held p} ptr, holds count held p → held.length < count →
    ∃ block p', block ∉ held ∧ allocate ptr p = (ok, block, p') ∧ holds count (block :: held) p'
  allocate_full : ∀ {count held p} ptr, holds count held p → count ≤ held.length →
    ∃ code ptr' p', code ≠ ok ∧ allocate ptr p = (code, ptr', p') ∧ holds count held p'
  release_held : ∀ {count held p place}, holds count held p → (h : place < held.length) →
    ∃ p', release held[place] p = (ok, p') ∧ holds count (held.eraseIdx place) p'

/-! ## Lists and counters -/

variable {Code : Type v} (ok full empty : Code)

/-- A queue as the list of its items. -/
structure ListQueue where
  bytes : ℕ
  depth : ℕ
  items : List Buffer

namespace ListQueue

def send (buffer : Buffer) (q : ListQueue) : Code × ListQueue :=
  if q.items.length < q.depth then
    (ok, { q with items := q.items ++ [buffer.take q.bytes] })
  else (full, q)

def receive (buffer : Buffer) (q : ListQueue) : Code × Buffer × ListQueue :=
  match q.items with
  | [] => (empty, buffer, q)
  | item :: items => (ok, item ++ buffer.drop q.bytes, { q with items := items })

variable {ok full empty}

/-- A list is a queue. -/
def fifoQueue (hfullCode : full ≠ ok) (hemptyCode : empty ≠ ok) :
    FifoQueue ok (send ok full) (receive ok empty) where
  holds bytes depth items q := q = ⟨bytes, depth, items⟩
  send_room := by
    rintro bytes depth items q buffer rfl - hroom
    exact ⟨_, if_pos hroom, rfl⟩
  send_full := by
    rintro bytes depth items q buffer rfl hfull
    exact ⟨full, _, hfullCode, if_neg (Nat.not_lt.mpr hfull), rfl⟩
  receive_item := by
    rintro bytes depth item items q buffer rfl -
    exact ⟨_, rfl, rfl⟩
  receive_empty := by
    rintro bytes depth q buffer rfl
    exact ⟨empty, buffer, _, hemptyCode, rfl, rfl⟩

end ListQueue

/-- A semaphore as its count and its limit. -/
structure Counter where
  limit : Limit
  count : ℕ

namespace Counter

def get (s : Counter) : Code × Counter :=
  match s.count with
  | 0 => (empty, s)
  | count + 1 => (ok, { s with count := count })

def put (s : Counter) : Code × Counter :=
  if s.limit.Room s.count then (ok, { s with count := s.count + 1 }) else (full, s)

variable {ok full empty}

/-- A counter is a semaphore. -/
def countingSemaphore (hfullCode : full ≠ ok) (hemptyCode : empty ≠ ok) :
    CountingSemaphore ok (get ok empty) (put ok full) where
  holds limit count s := s = ⟨limit, count⟩
  get_succ := by
    rintro limit count s rfl
    exact ⟨_, rfl, rfl⟩
  get_zero := by
    rintro limit s rfl
    exact ⟨empty, _, hemptyCode, rfl, rfl⟩
  put_room := by
    rintro limit count s rfl hroom
    exact ⟨_, if_pos hroom, rfl⟩
  put_full := by
    rintro limit count s rfl hfull
    exact ⟨full, _, hfullCode, if_neg hfull, rfl⟩

end Counter

/-- A pool as the list of its available blocks. -/
structure ListPool where
  available : List ℕ

namespace ListPool

def allocate (ptr : ℕ) (p : ListPool) : Code × ℕ × ListPool :=
  match p.available with
  | [] => (empty, ptr, p)
  | block :: available => (ok, block, ⟨available⟩)

def release (block : ℕ) (p : ListPool) : Code × ListPool :=
  (ok, ⟨block :: p.available⟩)

variable {ok empty}

/-- A list of different blocks is a pool. -/
def blockPool (hemptyCode : empty ≠ ok) : BlockPool ok (allocate ok empty) (release ok) where
  holds count held p := (p.available ++ held).Nodup ∧ (p.available ++ held).length = count
  allocate_room := by
    rintro count held ⟨available⟩ ptr ⟨hnodup, hcount⟩ hroom
    cases available with
    | nil => exact absurd hcount (Nat.ne_of_lt hroom)
    | cons block available =>
        have hperm : (available ++ block :: held).Perm (block :: available ++ held) :=
          List.perm_middle
        refine ⟨block, ⟨available⟩, ?_, rfl, hperm.nodup_iff.mpr hnodup, ?_⟩
        · exact fun hmem ↦ (List.nodup_cons.mp hnodup).1 (List.mem_append_right _ hmem)
        · exact hperm.length_eq.trans hcount
  allocate_full := by
    rintro count held ⟨available⟩ ptr ⟨hnodup, hcount⟩ hfull
    cases available with
    | nil => exact ⟨empty, ptr, ⟨[]⟩, hemptyCode, rfl, hnodup, hcount⟩
    | cons block available =>
        simp only [List.cons_append, List.length_cons, List.length_append] at hcount
        omega
  release_held := by
    rintro count held ⟨available⟩ place ⟨hnodup, hcount⟩ h
    have hperm : (held[place] :: available ++ held.eraseIdx place).Perm (available ++ held) :=
      List.perm_middle.symm.trans
        (List.Perm.append_left _ (List.getElem_cons_eraseIdx_perm h))
    exact ⟨_, rfl, hperm.nodup_iff.mpr hnodup, hperm.length_eq.trans hcount⟩

end ListPool

end Services

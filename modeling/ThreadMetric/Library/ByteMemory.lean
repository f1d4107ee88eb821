import Mathlib.Algebra.Group.Nat.Defs
import Mathlib.Data.List.Basic
import Mathlib.Logic.Function.Basic

/-!
# Pointers and linked lists in byte memory

Memory is a function from addresses to bytes. A pointer occupies `width` bytes, least significant
byte first. `load_store_same` and `load_store_other` are the two round trips of a store, and
`Chain` is a null-terminated list linked through the first bytes of its nodes. A chain is
determined by its head, and survives every write that leaves its links alone.
-/

namespace ByteMemory

/-- Byte-addressed memory. -/
abbrev Memory := ℕ → BitVec 8

/-- The number stored in the `width` bytes from `a` on. -/
def load : ℕ → Memory → ℕ → ℕ
  | 0, _, _ => 0
  | width + 1, mem, a => (mem a).toNat + 256 * load width mem (a + 1)

/-- Store `v` in the `width` bytes from `a` on. -/
def store : ℕ → Memory → ℕ → ℕ → Memory
  | 0, mem, _, _ => mem
  | width + 1, mem, a, v =>
      store width (Function.update mem a (BitVec.ofNat 8 v)) (a + 1) (v / 256)

variable {width : ℕ} {mem mem' : Memory} {a b v : ℕ}

/-- A byte outside the written range is untouched. -/
theorem store_outside (h : b < a ∨ a + width ≤ b) : store width mem a v b = mem b := by
  induction width generalizing mem a v with
  | zero => rfl
  | succ width ih =>
      show store width (Function.update mem a (BitVec.ofNat 8 v)) (a + 1) (v / 256) b = mem b
      rw [ih (by omega), Function.update_of_ne (by omega)]

/-- A load depends on the bytes of its range only. -/
theorem load_congr (h : ∀ i < width, mem (a + i) = mem' (a + i)) :
    load width mem a = load width mem' a := by
  induction width generalizing a with
  | zero => rfl
  | succ width ih =>
      show (mem a).toNat + 256 * load width mem (a + 1) =
        (mem' a).toNat + 256 * load width mem' (a + 1)
      have hfirst : mem a = mem' a := h 0 (Nat.succ_pos width)
      have hrest : load width mem (a + 1) = load width mem' (a + 1) := by
        refine ih fun i hi ↦ ?_
        have hi' := h (i + 1) (Nat.succ_lt_succ hi)
        rwa [Nat.add_comm i 1, ← Nat.add_assoc] at hi'
      rw [hfirst, hrest]

/-- Loading what was stored. -/
theorem load_store_same (hv : v < 256 ^ width) : load width (store width mem a v) a = v := by
  induction width generalizing mem a v with
  | zero =>
      rw [Nat.pow_zero, Nat.lt_one_iff] at hv
      exact hv.symm
  | succ width ih =>
      have hquot : v / 256 < 256 ^ width := by
        rw [Nat.pow_succ] at hv
        exact Nat.div_lt_of_lt_mul (by rwa [Nat.mul_comm] at hv)
      show (store width (Function.update mem a (BitVec.ofNat 8 v)) (a + 1) (v / 256) a).toNat +
        256 * load width (store width _ (a + 1) (v / 256)) (a + 1) = v
      rw [ih hquot, store_outside (.inl (Nat.lt_succ_self a)), Function.update_self,
        BitVec.toNat_ofNat]
      exact Nat.mod_add_div v 256

/-- Loading from a range that the store does not touch. -/
theorem load_store_other (h : b + width ≤ a ∨ a + width ≤ b) :
    load width (store width mem a v) b = load width mem b :=
  load_congr fun i hi ↦ store_outside (by omega)

/-- Loading from a range without the byte that is written. -/
theorem load_update_other {byte : BitVec 8} (h : a < b ∨ b + width ≤ a) :
    load width (Function.update mem a byte) b = load width mem b :=
  load_congr fun i hi ↦ Function.update_of_ne (by omega) _ _

/-! ## Copying and clearing -/

/-- A number that is loaded fits its bytes. -/
theorem load_lt (width : ℕ) (mem : Memory) (a : ℕ) : load width mem a < 256 ^ width := by
  induction width generalizing a with
  | zero => exact Nat.one_pos
  | succ width ih =>
      show (mem a).toNat + 256 * load width mem (a + 1) < 256 ^ (width + 1)
      have hbyte : (mem a).toNat < 256 := (mem a).isLt
      have hrest := ih (a + 1)
      rw [Nat.pow_succ]
      omega

/-- A store of a loaded number copies its bytes. -/
theorem store_load_apply (x : ℕ) : store width mem a (load width mem' b) x =
    if a ≤ x ∧ x < a + width then mem' (b + (x - a)) else mem x := by
  induction width generalizing mem a b with
  | zero =>
      rw [if_neg (by omega)]
      rfl
  | succ width ih =>
      have hload : load (width + 1) mem' b = (mem' b).toNat + 256 * load width mem' (b + 1) := rfl
      have hbyte : BitVec.ofNat 8 (load (width + 1) mem' b) = mem' b := by
        apply BitVec.eq_of_toNat_eq
        rw [hload, BitVec.toNat_ofNat, Nat.add_mul_mod_self_left]
        exact Nat.mod_eq_of_lt (mem' b).isLt
      have hrest : load (width + 1) mem' b / 256 = load width mem' (b + 1) := by
        rw [hload, Nat.add_mul_div_left _ _ (by decide), Nat.div_eq_of_lt (mem' b).isLt,
          Nat.zero_add]
      show store width (Function.update mem a (BitVec.ofNat 8 _)) (a + 1) (_ / 256) x = _
      rw [hbyte, hrest, ih]
      by_cases hfirst : x = a
      · subst hfirst
        rw [if_neg (by omega), if_pos (by omega), Function.update_self, Nat.sub_self, Nat.add_zero]
      · rw [Function.update_of_ne hfirst]
        by_cases hin : a + 1 ≤ x ∧ x < a + 1 + width
        · rw [if_pos hin, if_pos (by omega)]
          congr 1
          omega
        · rw [if_neg hin, if_neg (by omega)]

/-- The memory after `n` bytes have been copied from `src` to `dst`. -/
def copied (mem : Memory) (src dst n : ℕ) : Memory :=
  fun x ↦ if dst ≤ x ∧ x < dst + n then mem (src + (x - dst)) else mem x

/-- The memory after `n` bytes from `dst` on have been cleared. -/
def cleared (mem : Memory) (dst n : ℕ) : Memory :=
  fun x ↦ if dst ≤ x ∧ x < dst + n then 0 else mem x

/-- Nothing has been copied yet. -/
theorem copied_zero (mem : Memory) (src dst : ℕ) : copied mem src dst 0 = mem := by
  funext x
  exact if_neg (by omega)

/-- Nothing has been cleared yet. -/
theorem cleared_zero (mem : Memory) (dst : ℕ) : cleared mem dst 0 = mem := by
  funext x
  exact if_neg (by omega)

/-- Copying the next number of a range that is apart from its destination. -/
theorem store_copied (mem : Memory) {src dst n : ℕ}
    (hapart : src + (n + width) ≤ dst ∨ dst + (n + width) ≤ src) :
    store width (copied mem src dst n) (dst + n)
      (load width (copied mem src dst n) (src + n)) = copied mem src dst (n + width) := by
  have hsource : load width (copied mem src dst n) (src + n) = load width mem (src + n) :=
    load_congr fun i hi ↦ if_neg (by omega)
  funext x
  rw [hsource, store_load_apply]
  unfold copied
  by_cases hnew : dst + n ≤ x ∧ x < dst + n + width
  · rw [if_pos hnew, if_pos (by omega)]
    congr 1
    omega
  · rw [if_neg hnew]
    have hold : (dst ≤ x ∧ x < dst + n) ↔ (dst ≤ x ∧ x < dst + (n + width)) := by omega
    simp only [hold]

/-- Clearing the next bytes. -/
theorem store_cleared (mem : Memory) {dst n : ℕ} :
    store width (cleared mem dst n) (dst + n) 0 = cleared mem dst (n + width) := by
  have hzero (a : ℕ) : load width (fun _ ↦ 0) a = 0 := by
    induction width generalizing a with
    | zero => rfl
    | succ width ih =>
        show (0#8).toNat + 256 * load width (fun _ ↦ 0) (a + 1) = 0
        rw [ih]
        rfl
  funext x
  rw [← hzero 0, store_load_apply]
  unfold cleared
  by_cases hnew : dst + n ≤ x ∧ x < dst + n + width
  · rw [if_pos hnew, if_pos (by omega)]
  · rw [if_neg hnew]
    have hold : (dst ≤ x ∧ x < dst + n) ↔ (dst ≤ x ∧ x < dst + (n + width)) := by omega
    simp only [hold]

/-! ## Numbers as lists of bytes -/

/-- The `width` bytes of a number, the least significant one first. -/
def bytes : ℕ → ℕ → List (BitVec 8)
  | 0, _ => []
  | width + 1, v => BitVec.ofNat 8 v :: bytes width (v / 256)

/-- The number that bytes stand for. -/
def ofBytes (bs : List (BitVec 8)) : ℕ :=
  bs.foldr (fun byte rest ↦ byte.toNat + 256 * rest) 0

@[simp] theorem bytes_length (width v : ℕ) : (bytes width v).length = width := by
  induction width generalizing v with
  | zero => rfl
  | succ width ih =>
      show (bytes width (v / 256)).length + 1 = width + 1
      rw [ih]

/-- The bytes of a number stand for it. -/
theorem of_bytes_bytes (hv : v < 256 ^ width) : ofBytes (bytes width v) = v := by
  induction width generalizing v with
  | zero =>
      rw [Nat.pow_zero, Nat.lt_one_iff] at hv
      exact hv.symm
  | succ width ih =>
      have hquot : v / 256 < 256 ^ width := by
        rw [Nat.pow_succ] at hv
        exact Nat.div_lt_of_lt_mul (by rwa [Nat.mul_comm] at hv)
      show (BitVec.ofNat 8 v).toNat + 256 * ofBytes (bytes width (v / 256)) = v
      rw [ih hquot, BitVec.toNat_ofNat]
      exact Nat.mod_add_div v 256

/-! ## Linked lists -/

/-- Following the stored pointers from `head` visits the nodes in order and ends in the null
pointer `0`. -/
inductive Chain (width : ℕ) (mem : Memory) : ℕ → List ℕ → Prop where
  | nil : Chain width mem 0 []
  | cons {head : ℕ} {rest : List ℕ} :
      head ≠ 0 → Chain width mem (load width mem head) rest → Chain width mem head (head :: rest)

variable {head : ℕ} {nodes : List ℕ}

/-- A chain whose links are unchanged is still there. -/
theorem Chain.congr (h : Chain width mem head nodes)
    (hlinks : ∀ node ∈ nodes, load width mem' node = load width mem node) :
    Chain width mem' head nodes := by
  induction h with
  | nil => exact .nil
  | cons hne _ ih =>
      obtain ⟨hfirst, hrest⟩ := List.forall_mem_cons.mp hlinks
      exact .cons hne (hfirst ▸ ih hrest)

/-- The head is null or a node. -/
theorem Chain.head_mem (h : Chain width mem head nodes) : head = 0 ∨ head ∈ nodes := by
  cases h with
  | nil => exact .inl rfl
  | cons _ _ => exact .inr (List.mem_cons_self ..)

/-- The head determines the chain. -/
theorem Chain.unique {nodes' : List ℕ} (h : Chain width mem head nodes)
    (h' : Chain width mem head nodes') : nodes = nodes' := by
  induction h generalizing nodes' with
  | nil =>
      cases h' with
      | nil => rfl
      | cons hne _ => exact absurd rfl hne
  | cons hne _ ih =>
      cases h' with
      | nil => exact absurd rfl hne
      | cons _ hrest => rw [ih hrest]

/-- From each of its nodes on, a chain is a chain. -/
theorem Chain.from_node (h : Chain width mem head nodes) {node : ℕ} (hnode : node ∈ nodes) :
    ∃ before after, nodes = before ++ node :: after ∧ Chain width mem node (node :: after) := by
  induction h with
  | nil => exact absurd hnode List.not_mem_nil
  | @cons first rest hne hrest ih =>
      rcases List.mem_cons.mp hnode with rfl | hmem
      · exact ⟨[], rest, rfl, .cons hne hrest⟩
      · obtain ⟨before, after, rfl, hafter⟩ := ih hmem
        exact ⟨first :: before, after, rfl, hafter⟩

/-- Chains of the same nodes begin with the same node. -/
theorem Chain.head_eq_of_perm {head' : ℕ} {nodes' : List ℕ} (h : Chain width mem head nodes)
    (h' : Chain width mem head' nodes') (hperm : nodes.Perm nodes') : head = head' := by
  cases h with
  | nil =>
      cases h' with
      | nil => rfl
      | cons _ _ => exact absurd hperm.length_eq (by simp)
  | @cons _ rest hne hrest =>
      obtain ⟨before, after, rfl, hafter⟩ :=
        h'.from_node (hperm.mem_iff.mp (List.mem_cons_self ..))
      -- The whole chain from `head` is already the end of the other one.
      have hsame : head :: rest = head :: after := Chain.unique (.cons hne hrest) hafter
      have hlength := hperm.length_eq
      rw [hsame, List.length_append] at hlength
      obtain rfl : before = [] := List.eq_nil_of_length_eq_zero (by omega)
      cases h' with
      | cons _ _ => rfl

/-- Nodes that are linked one after the other form a chain. -/
theorem Chain.of_links (node : ℕ → ℕ) (n : ℕ) (hne : ∀ i ≤ n, node i ≠ 0)
    (hlink : ∀ i < n, load width mem (node i) = node (i + 1))
    (hlast : load width mem (node n) = 0) :
    Chain width mem (node 0) ((List.range (n + 1)).map node) := by
  induction n generalizing node with
  | zero =>
      refine .cons (hne 0 (Nat.le_refl 0)) ?_
      rw [hlast]
      exact .nil
  | succ n ih =>
      rw [List.range_succ_eq_map, List.map_cons, List.map_map]
      refine .cons (hne 0 (Nat.zero_le _)) ?_
      rw [hlink 0 (Nat.succ_pos n)]
      exact ih (fun i ↦ node (i + 1)) (fun i hi ↦ hne _ (Nat.succ_le_succ hi))
        (fun i hi ↦ hlink _ (Nat.succ_lt_succ hi)) hlast

end ByteMemory

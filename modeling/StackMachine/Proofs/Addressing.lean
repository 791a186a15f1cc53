import StackMachine.Proofs.Footprint
import StackMachine.Proofs.Locality

/-!
# Addressing — one access to memory, three ways to name the place

Operations reach guest memory through the current pool, through a pointer, or through an array and
an index. What they do there is the same; they differ in where the address and the width come from.

* `Machine.loadAt`, `Machine.storeAt` — the access itself, at an address that may be missing;
* `Machine.pooled`, `Address.indexed` — the addresses of pools and of arrays;
* `Machine.Ahead` — the instructions that come next;
* `Machine.Equivalent` — two pieces of code that do the same work on their stacks;
* `Machine.Confined` — code that has to do with one region only;
* `Machine.addressing_modes_agree` — code with pointers does what pools and arrays do, as long as an
  index does not leave the offsets of a region, where arrays refuse the access.
-/

namespace StackMachine

/-! ## Addresses of arrays -/

namespace Address

def indexed (base index : Word) : Except Fault Word :=
  match advance? base index with
  | some a => .ok a
  | none => .error .illegalAccess

variable {base index a : Word}

/-- As long as the offset fits, an element is at the sum of base and index. -/
theorem indexed_of_lt (h : offset base + index.toNat < offsets) :
    indexed base index = .ok (base + index) := by
  unfold indexed advance? maxRegionLength
  rw [if_pos (by omega)]

/-- An index that leaves the offsets of the region is refused. -/
theorem indexed_of_le (h : offsets ≤ offset base + index.toNat) :
    indexed base index = .error .illegalAccess := by
  have hpos : 0 < offsets := by decide
  unfold indexed advance? maxRegionLength
  rw [if_neg (by omega)]

/-- An index that does not leave the offsets of a region does not carry into its number. -/
theorem region_of_indexed (h : indexed base index = .ok a) : region a = region base := by
  rcases Nat.lt_or_ge (offset base + index.toNat) offsets with hlt | hge
  · cases (indexed_of_lt hlt).symm.trans h
    have hbase : base.toNat < 18446744073709551616 := base.toNat_lt
    unfold offset offsets at hlt
    unfold region offsets
    rw [UInt64.toNat_add]
    omega
  · cases (indexed_of_le hge).symm.trans h

end Address

namespace Heap

variable {h h' : Heap} {a : Word}

/-- A read depends on the region of its address only. -/
theorem read_congr (hlookup : h.lookup (Address.region a) = h'.lookup (Address.region a))
    (width : Word) : h.read a width = h'.read a width := by
  unfold read slice
  rw [region?_eq_lookup, region?_eq_lookup, hlookup]

/-- Whether bytes can be written depends on the region of the address only. -/
theorem writable_congr (hlookup : h.lookup (Address.region a) = h'.lookup (Address.region a))
    (width : Word) : h.writable a width = h'.writable a width := by
  unfold writable covers
  rw [region?_eq_lookup, region?_eq_lookup, hlookup]

end Heap

namespace Machine

variable {table : Interrupt.Table} {m n : Machine} {operand : Word} {rest : List Word}

/-! ## Accesses -/

def pooled (m : Machine) (offset : Word) : Except Fault Word := do
  Address.indexed (← m.pools.top) offset

/-- What a load makes of a machine: the number at the address is put on the rest of the stack. -/
def loadAt (m : Machine) (address : Except Fault Word) (width : Word) (rest : List Word) :
    EStateM.Result Fault Machine Unit :=
  match address >>= fun a => m.heap.read a width with
  | .ok value => .ok () { m with stack := m.stack.withItems (value :: rest) }
  | .error e => .error e m

/-- What a store makes of a machine: the value is written to the address, and the rest of the stack
is left. -/
def storeAt (m : Machine) (address : Except Fault Word) (value width : Word) (rest : List Word) :
    EStateM.Result Fault Machine Unit :=
  match address >>= fun a => m.heap.write a value width with
  | .ok heap => .ok () { m with heap, stack := m.stack.withItems rest }
  | .error e => .error e m

/-- Advancing and indexing find the same address. -/
theorem advance_eq_attempt (base index : Word) :
    advance base index = attempt (Address.indexed base index) := by
  unfold advance Address.indexed
  cases Address.advance? base index with
  | none => rfl
  | some a => rfl

/-- The address in the pool is found without a change of the machine. -/
theorem poolAddress_bind (offset : Word) (f : Word → Action Unit) (m : Machine) :
    (poolAddress offset >>= f) m = (attempt (m.pooled offset) >>= f) m := by
  have hpool : poolAddress offset m = attempt (m.pooled offset) m := by
    unfold poolAddress pooled currentPool
    simp only [advance_eq_attempt]
    cases htop : m.pools.top with
    | error e =>
      refine bind_error_iff.2 (.inl ?_)
      rw [get_bind, htop]
      rfl
    | ok a =>
      refine bind_of_ok ?_
      rw [get_bind, htop]
      rfl
  show EStateM.bind _ f m = EStateM.bind _ f m
  unfold EStateM.bind
  rw [hpool]

/-- All loads end in the same way, whatever puts the number on the stack. -/
theorem read_bind_eq_loadAt {f : Word → Action Unit} (address : Except Fault Word) (width : Word)
    (hf : ∀ value, f value m = .ok () { m with stack := m.stack.withItems (value :: rest) }) :
    (do let a ← attempt address; f (← readMemory a width)) m = m.loadAt address width rest := by
  unfold loadAt
  cases address with
  | error e => rfl
  | ok a =>
    show (attempt (m.heap.read a width) >>= f) m = _
    simp only [bind, Except.bind]
    cases m.heap.read a width with
    | error e => rfl
    | ok value => exact hf value

/-- A write that ends in taking words off is a store with the words below them left. -/
theorem write_bind_eq_storeAt (dropped : List Word) (address : Except Fault Word)
    (value width : Word) (hitems : m.stack.items = dropped ++ rest) :
    (do let a ← attempt address; writeMemory a value width; drop dropped.length) m =
      m.storeAt address value width rest := by
  unfold storeAt
  cases address with
  | error e => rfl
  | ok a =>
    show (do writeMemory a value width; drop dropped.length : Action Unit) m = _
    simp only [bind, Except.bind, Heap.write]
    by_cases hwritable : m.heap.writable a width = true
    · have hwrite : writeMemory a value width m =
          .ok () { m with heap := m.heap.store a value width } :=
        writeMemory_ok_iff.2 ⟨hwritable, rfl⟩
      rw [if_pos hwritable]
      refine (bind_of_ok hwrite).trans (drop_ok_iff.2 ⟨?_, ?_⟩)
      · simp [hitems]
      · simp [hitems]
    · have hwrite : writeMemory a value width m = .error .illegalAccess m := by
        unfold writeMemory
        rw [get_bind, if_neg hwritable]
        rfl
      rw [if_neg hwritable]
      exact bind_error_iff.2 (.inl hwrite)

theorem replace_top {w value : Word} (hitems : m.stack.items = w :: rest) :
    replace 0 value m = .ok () { m with stack := m.stack.withItems (value :: rest) } :=
  replace_ok_iff.2 ⟨by simp [hitems], by simp [hitems]⟩

theorem replace_drop {w w' value : Word} (hitems : m.stack.items = w :: w' :: rest) :
    (do replace 1 value; drop 1) m =
      .ok () { m with stack := m.stack.withItems (value :: rest) } := by
  have hreplace : replace 1 value m =
      .ok () { m with stack := m.stack.withItems (w :: value :: rest) } :=
    replace_ok_iff.2 ⟨by simp [hitems], by simp [hitems]⟩
  exact (bind_of_ok hreplace).trans (drop_ok_iff.2 ⟨by simp, rfl⟩)

theorem peek_of_items {depth : Nat} {w : Word} (h : m.stack.items[depth]? = some w) :
    peek depth m = .ok w m := peek_ok_iff.2 ⟨h, rfl⟩

theorem require_of_items {height : Nat} (h : height ≤ m.stack.items.length) :
    require height m = .ok () m := require_ok_iff.2 ⟨h, rfl⟩

/-- A load from the pool, as a change of the machine. -/
theorem perform_load {width : Word} (hitems : m.stack.items = width :: rest) :
    perform table .load operand m = m.loadAt (m.pooled operand) width rest := by
  have hwidth : peek 0 m = .ok width m := peek_of_items (by simp [hitems])
  simp only [perform, bind_of_ok hwidth]
  rw [poolAddress_bind]
  exact read_bind_eq_loadAt _ _ fun value => replace_top hitems

theorem perform_loadPtr {a : Word} (hitems : m.stack.items = a :: rest) :
    perform table .loadPtr operand m = m.loadAt (.ok a) operand rest := by
  have ha : peek 0 m = .ok a m := peek_of_items (by simp [hitems])
  simp only [perform, bind_of_ok ha]
  exact read_bind_eq_loadAt (.ok a) _ fun value => replace_top hitems

theorem perform_loadArray {base index : Word} (hitems : m.stack.items = index :: base :: rest) :
    perform table .loadArray operand m =
      m.loadAt (Address.indexed base index) operand rest := by
  have hrequire : require 2 m = .ok () m := require_of_items (by simp [hitems])
  have hbase : peek 1 m = .ok base m := peek_of_items (by simp [hitems])
  have hindex : peek 0 m = .ok index m := peek_of_items (by simp [hitems])
  simp only [perform, bind_of_ok hrequire, bind_of_ok hbase, bind_of_ok hindex,
    advance_eq_attempt]
  exact read_bind_eq_loadAt _ _ fun value => replace_drop hitems

theorem perform_store {value width : Word} (hitems : m.stack.items = width :: value :: rest) :
    perform table .store operand m = m.storeAt (m.pooled operand) value width rest := by
  have hrequire : require 2 m = .ok () m := require_of_items (by simp [hitems])
  have hwidth : peek 0 m = .ok width m := peek_of_items (by simp [hitems])
  have hvalue : peek 1 m = .ok value m := peek_of_items (by simp [hitems])
  simp only [perform, bind_of_ok hrequire, bind_of_ok hwidth, bind_of_ok hvalue]
  rw [poolAddress_bind]
  exact write_bind_eq_storeAt [width, value] _ _ _ hitems

theorem perform_storePtr {a value : Word} (hitems : m.stack.items = value :: a :: rest) :
    perform table .storePtr operand m = m.storeAt (.ok a) value operand rest := by
  have hrequire : require 2 m = .ok () m := require_of_items (by simp [hitems])
  have ha : peek 1 m = .ok a m := peek_of_items (by simp [hitems])
  have hvalue : peek 0 m = .ok value m := peek_of_items (by simp [hitems])
  simp only [perform, bind_of_ok hrequire, bind_of_ok ha, bind_of_ok hvalue]
  exact write_bind_eq_storeAt [value, a] (.ok a) _ _ hitems

theorem perform_storeArray {base index value : Word}
    (hitems : m.stack.items = value :: index :: base :: rest) :
    perform table .storeArray operand m =
      m.storeAt (Address.indexed base index) value operand rest := by
  have hrequire : require 3 m = .ok () m := require_of_items (by simp [hitems])
  have hbase : peek 2 m = .ok base m := peek_of_items (by simp [hitems])
  have hindex : peek 1 m = .ok index m := peek_of_items (by simp [hitems])
  have hvalue : peek 0 m = .ok value m := peek_of_items (by simp [hitems])
  simp only [perform, bind_of_ok hrequire, bind_of_ok hbase, bind_of_ok hindex,
    advance_eq_attempt]
  rw [← write_bind_eq_storeAt [value, index, base] _ _ _ hitems]
  -- the value is looked up behind the address, which is no matter if there is none
  cases Address.indexed base index with
  | error e => rfl
  | ok a => exact bind_of_ok hvalue

/-- A two-word operation puts its value in the place of both words. -/
theorem perform_binary {op : BinaryOp} {a b : Word} (hitems : m.stack.items = b :: a :: rest) :
    perform table (.binary op) operand m =
      .ok () { m with stack := m.stack.withItems (op.eval a b :: rest) } := by
  have hrequire : require 2 m = .ok () m := require_of_items (by simp [hitems])
  have ha : peek 1 m = .ok a m := peek_of_items (by simp [hitems])
  have hb : peek 0 m = .ok b m := peek_of_items (by simp [hitems])
  simp only [perform, bind_of_ok hrequire, bind_of_ok ha, bind_of_ok hb]
  exact replace_drop hitems

/-! ## Code -/

/-- The instructions that come next, with their operands. -/
def Ahead : Machine → List (Opcode × Word) → Prop
  | _, [] => True
  | m, (op, operand) :: ops => m.Next op operand ∧ Ahead m.advanced ops

/-- Which instructions come next is a matter of the modules and the program counter. -/
theorem Ahead.congr {ops : List (Opcode × Word)} (h : m.Ahead ops)
    (hmodules : n.modules = m.modules) (hactive : n.active = m.active) (hpc : n.pc = m.pc) :
    n.Ahead ops := by
  induction ops generalizing m n with
  | nil => exact h
  | cons first ops ih =>
    rcases h with ⟨⟨i, hfetch, hbyte, hoperand⟩, hrest⟩
    rcases fetch_ok_iff.1 hfetch with ⟨⟨module, hmodule, hat⟩, -⟩
    refine ⟨⟨i, fetch_ok_iff.2 ⟨⟨module, ?_, ?_⟩, rfl⟩, hbyte, hoperand⟩,
      ih hrest hmodules hactive (congrArg (· + 1) hpc)⟩
    · rw [module_ok_iff, hmodules, hactive]
      exact module_ok_iff.1 hmodule
    · rw [hpc]
      exact hat

/-- The step executes the first of the instructions that come next. -/
theorem step_of_ahead {op : Opcode} {ops : List (Opcode × Word)}
    (h : m.Ahead ((op, operand) :: ops)) : step table m = perform table op operand m.advanced := by
  rcases h with ⟨⟨i, hfetch, hbyte, rfl⟩, -⟩
  exact step_of_fetch hfetch hbyte

/-- A run executes the first instruction and goes on behind it. -/
theorem run_of_ahead {op : Opcode} {ops : List (Opcode × Word)} (h : m.Ahead ((op, operand) :: ops))
    (count : Nat) : run table (count + 1) m =
      (do perform table op operand; run table count : Action Unit) m.advanced := by
  rw [run_succ]
  show EStateM.bind _ _ m = EStateM.bind _ _ m.advanced
  unfold EStateM.bind
  rw [step_of_ahead h]

theorem run_one_of_ahead {op : Opcode} (h : m.Ahead [(op, operand)]) :
    run table 1 m = perform table op operand m.advanced := by
  rw [run_of_ahead h]
  exact congrFun (bind_pure_unit : perform table op operand >>= (fun _ => pure ()) = _) m.advanced

/-- The machine is about to execute the instructions. The words are on its stack, top last. -/
structure Poised (m : Machine) (ops : List (Opcode × Word)) (words : List Word) : Prop where
  code : m.Ahead ops
  stack : m.stack.toList = words
  fits : words.length ≤ m.stack.capacity

variable {ops ops' : List (Opcode × Word)} {words words' : List Word} {o w v b i : Word}

/-- The words of a poised machine are on its stack, the last one on top. -/
theorem Poised.items (h : m.Poised ops words) : m.advanced.stack.items = words.reverse := by
  rw [← h.stack, Stack.toList, List.reverse_reverse]
  rfl

/-- The words on top are those that an instruction takes, the last one first. -/
theorem Poised.items_append {top : List Word} (h : m.Poised ops (words ++ top)) :
    m.advanced.stack.items = top.reverse ++ words.reverse := by
  rw [h.items, List.reverse_append]

/-- An instruction that only changes the stack leads to the ones behind it. -/
theorem Poised.next {op : Opcode} (h : m.Poised ((op, operand) :: ops) words)
    (hfits : words'.length ≤ m.stack.capacity)
    (hperform : perform table op operand m.advanced =
      .ok () { m.advanced with stack := m.stack.withItems words'.reverse }) (count : Nat) :
    ∃ n, run table (count + 1) m = run table count n ∧ n.Poised ops words' ∧
      n.heap = m.heap ∧ n.stack.capacity = m.stack.capacity := by
  refine ⟨_, (run_of_ahead h.code count).trans (bind_of_ok hperform), ⟨?_, ?_, hfits⟩, rfl, rfl⟩
  · exact h.code.2.congr rfl rfl rfl
  · exact List.reverse_reverse words'

/-- A push on a machine that is poised puts the word behind the others. -/
theorem Poised.push_advanced (h : m.Poised ops words) (hroom : words.length < m.stack.capacity)
    (v : Word) : Machine.push v m.advanced =
      .ok () { m.advanced with stack := m.stack.withItems (words ++ [v]).reverse } := by
  refine push_ok_iff.2 ⟨?_, ?_⟩
  · rw [h.items, List.length_reverse]
    exact hroom
  · rw [h.items, List.reverse_append, List.reverse_singleton, List.singleton_append]
    rfl

/-- After a push the machine is poised with one word more. -/
theorem Poised.push (h : m.Poised ((.push, v) :: ops) words)
    (hroom : words.length < m.stack.capacity) (count : Nat) :
    ∃ n, run table (count + 1) m = run table count n ∧ n.Poised ops (words ++ [v]) ∧
      n.heap = m.heap ∧ n.stack.capacity = m.stack.capacity := by
  refine h.next ?_ (h.push_advanced hroom v) count
  rw [List.length_append]
  exact hroom

/-- After the address of a pool element is pushed the machine is poised with it, unless the pool has
no such address. -/
theorem Poised.pushPtr (h : m.Poised ((.pushPtr, o) :: ops) words)
    (hroom : words.length < m.stack.capacity) (count : Nat) :
    (∃ e, m.pooled o = .error e ∧ run table (count + 1) m = .error e m.advanced) ∨
      ∃ a n, m.pooled o = .ok a ∧ run table (count + 1) m = run table count n ∧
        n.Poised ops (words ++ [a]) ∧ n.heap = m.heap ∧
          n.stack.capacity = m.stack.capacity := by
  have hperform : perform table .pushPtr o m.advanced =
      (attempt (m.pooled o) >>= Machine.push) m.advanced := poolAddress_bind o _ m.advanced
  cases hpooled : m.pooled o with
  | error e =>
    rw [hpooled] at hperform
    exact .inl ⟨e, rfl, (run_of_ahead h.code count).trans (bind_error_iff.2 (.inl hperform))⟩
  | ok a =>
    rw [hpooled] at hperform
    have hfits : (words ++ [a]).length ≤ m.stack.capacity := by
      rw [List.length_append]
      exact hroom
    rcases h.next hfits (hperform.trans (h.push_advanced hroom a)) count with ⟨n, hrun, hn⟩
    exact .inr ⟨a, n, rfl, hrun, hn⟩

/-- After an addition the machine is poised with the sum in place of the two words. -/
theorem Poised.add (h : m.Poised ((.binary (.add .unsigned), operand) :: ops) (words ++ [b, i]))
    (count : Nat) :
    ∃ n, run table (count + 1) m = run table count n ∧ n.Poised ops (words ++ [b + i]) ∧
      n.heap = m.heap ∧ n.stack.capacity = m.stack.capacity := by
  have hsum : words.length + 1 ≤ m.stack.capacity := by
    have hfits := h.fits
    simp only [List.length_append, List.length_cons, List.length_nil] at hfits
    omega
  refine h.next (by simpa using hsum) ?_ count
  rw [perform_binary h.items_append, List.reverse_append]
  rfl

/-! ## Code that ends with an access -/

theorem Poised.load (h : m.Poised [(.load, o)] (words ++ [w])) :
    run table 1 m = m.advanced.loadAt (m.pooled o) w words.reverse := by
  rw [run_one_of_ahead h.code]
  exact perform_load h.items_append

theorem Poised.loadPtr {a : Word} (h : m.Poised [(.loadPtr, w)] (words ++ [a])) :
    run table 1 m = m.advanced.loadAt (.ok a) w words.reverse := by
  rw [run_one_of_ahead h.code]
  exact perform_loadPtr h.items_append

theorem Poised.loadArray (h : m.Poised [(.loadArray, w)] (words ++ [b, i])) :
    run table 1 m = m.advanced.loadAt (Address.indexed b i) w words.reverse := by
  rw [run_one_of_ahead h.code]
  exact perform_loadArray h.items_append

theorem Poised.store (h : m.Poised [(.store, o)] (words ++ [v, w])) :
    run table 1 m = m.advanced.storeAt (m.pooled o) v w words.reverse := by
  rw [run_one_of_ahead h.code]
  exact perform_store h.items_append

theorem Poised.storePtr {a : Word} (h : m.Poised [(.storePtr, w)] (words ++ [a, v])) :
    run table 1 m = m.advanced.storeAt (.ok a) v w words.reverse := by
  rw [run_one_of_ahead h.code]
  exact perform_storePtr h.items_append

theorem Poised.storeArray (h : m.Poised [(.storeArray, w)] (words ++ [b, i, v])) :
    run table 1 m = m.advanced.storeAt (Address.indexed b i) v w words.reverse := by
  rw [run_one_of_ahead h.code]
  exact perform_storeArray h.items_append

/-! ## Code that does the same -/

/-- Both pieces of code succeed and leave machines that are related, or both fail with one fault. -/
inductive Alike (R : Machine → Machine → Prop) :
    EStateM.Result Fault Machine Unit → EStateM.Result Fault Machine Unit → Prop
  | succeed {m' n' : Machine} (h : R m' n') : Alike R (.ok () m') (.ok () n')
  | fail {e : Fault} {m' n' : Machine} : Alike R (.error e m') (.error e n')

/-- The stacks hold the same words and guest memory is the same. -/
def SameWork (m n : Machine) : Prop := m.stack.toList = n.stack.toList ∧ m.heap = n.heap

/-- On machines with the same capacity, pools and guest memory, the two pieces of code do the same
work, each with its own words on the stack. -/
def Equivalent (table : Interrupt.Table) (ops : List (Opcode × Word)) (words : List Word)
    (ops' : List (Opcode × Word)) (words' : List Word) : Prop :=
  ∀ m n : Machine, m.stack.capacity = n.stack.capacity → m.pools = n.pools → m.heap = n.heap →
    m.Poised ops words → n.Poised ops' words' →
      Alike SameWork (run table ops.length m) (run table ops'.length n)

variable {address : Except Fault Word} {R : Machine → Machine → Prop}

/-- Two loads that find the same end alike. -/
theorem alike_loadAt
    (hread : (address >>= fun a => m.heap.read a w) = address >>= fun a => n.heap.read a w)
    (hR : ∀ value, R { m with stack := m.stack.withItems (value :: rest) }
      { n with stack := n.stack.withItems (value :: rest) }) :
    Alike R (m.loadAt address w rest) (n.loadAt address w rest) := by
  unfold loadAt
  rw [hread]
  cases address >>= fun a => n.heap.read a w with
  | error e => exact .fail
  | ok value => exact .succeed (hR value)

theorem alike_loadAt_of_heap (hheap : m.heap = n.heap) :
    Alike SameWork (m.loadAt address w rest) (n.loadAt address w rest) := by
  refine alike_loadAt ?_ fun value => ⟨rfl, hheap⟩
  rw [hheap]

theorem alike_storeAt_of_heap (hheap : m.heap = n.heap) :
    Alike SameWork (m.storeAt address v w rest) (n.storeAt address v w rest) := by
  unfold storeAt
  rw [hheap]
  cases address >>= fun a => n.heap.write a v w with
  | error e => exact .fail
  | ok heap => exact .succeed ⟨rfl, rfl⟩

theorem pooled_congr (hpools : m.pools = n.pools) (o : Word) : m.pooled o = n.pooled o := by
  unfold pooled
  rw [hpools]

/-- A load from the pool is a load through the pointer to it. -/
theorem equivalent_load :
    Equivalent table [(.load, o)] (words ++ [w]) [(.pushPtr, o), (.loadPtr, w)] words := by
  intro m n hcapacity hpools hheap hm hn
  have hroom : words.length < n.stack.capacity := by
    have hfits := hm.fits
    rwa [List.length_append, hcapacity] at hfits
  show Alike SameWork (run table 1 m) (run table 2 n)
  rw [hm.load, pooled_congr hpools]
  -- the pool stack is the same, so that both have an address or neither has
  rcases hn.pushPtr hroom 1 with ⟨e, hpooled, hrun⟩ | ⟨a, n₁, hpooled, hrun, hn₁, hheap₁, -⟩
  · rw [hpooled, hrun]
    exact .fail
  · rw [hpooled, hrun, hn₁.loadPtr]
    exact alike_loadAt_of_heap (hheap.trans hheap₁.symm)

/-- A store to the pool is a store through the pointer to it. -/
theorem equivalent_store :
    Equivalent table [(.store, o)] (words ++ [v, w])
      [(.pushPtr, o), (.push, v), (.storePtr, w)] words := by
  intro m n hcapacity hpools hheap hm hn
  have hroom : words.length + 1 < n.stack.capacity := by
    have hfits := hm.fits
    rwa [List.length_append, hcapacity] at hfits
  show Alike SameWork (run table 1 m) (run table 3 n)
  rw [hm.store, pooled_congr hpools]
  rcases hn.pushPtr (Nat.lt_of_succ_lt hroom) 2 with ⟨e, hpooled, hrun⟩ |
    ⟨a, n₁, hpooled, hrun, hn₁, hheap₁, hcapacity₁⟩
  · rw [hpooled, hrun]
    exact .fail
  · have hroom₁ : (words ++ [a]).length < n₁.stack.capacity := by
      rw [List.length_append, hcapacity₁]
      exact hroom
    -- the value goes on top of the address, where the store expects it
    rcases hn₁.push hroom₁ 1 with ⟨n₂, hrun₂, hn₂, hheap₂, -⟩
    rw [List.append_assoc] at hn₂
    rw [hpooled, hrun, hrun₂, hn₂.storePtr]
    exact alike_storeAt_of_heap (hheap.trans (hheap₂.trans hheap₁).symm)

/-- A load from an array is a load through the sum of base and index. -/
theorem equivalent_loadArray (hin : Address.offset b + i.toNat < Address.offsets) :
    Equivalent table [(.loadArray, w)] (words ++ [b, i])
      [(.binary (.add .unsigned), operand), (.loadPtr, w)] (words ++ [b, i]) := by
  intro m n hcapacity hpools hheap hm hn
  show Alike SameWork (run table 1 m) (run table 2 n)
  -- plain addition wraps around, but an index this small does not reach the region number
  rcases hn.add 1 with ⟨n₁, hrun, hn₁, hheap₁, -⟩
  rw [hm.loadArray, hrun, hn₁.loadPtr, Address.indexed_of_lt hin]
  exact alike_loadAt_of_heap (hheap.trans hheap₁.symm)

/-- A store to an array is a store through the sum of base and index. -/
theorem equivalent_storeArray (hin : Address.offset b + i.toNat < Address.offsets) :
    Equivalent table [(.storeArray, w)] (words ++ [b, i, v])
      [(.storePtr, w)] (words ++ [b + i, v]) := by
  intro m n hcapacity hpools hheap hm hn
  show Alike SameWork (run table 1 m) (run table 1 n)
  rw [hm.storeArray, hn.storePtr, Address.indexed_of_lt hin]
  exact alike_storeAt_of_heap hheap

/-! ## Code that stays inside a region -/

/-- Every run of the code is refused as an illegal access. -/
def Refused (table : Interrupt.Table) (ops : List (Opcode × Word)) (words : List Word) : Prop :=
  ∀ m : Machine, m.Poised ops words → ∃ m', run table ops.length m = .error .illegalAccess m'

/-- The code has to do with no region but the one with the number. -/
structure Confined (table : Interrupt.Table) (ops : List (Opcode × Word)) (words : List Word)
    (number : Nat) : Prop where
  /-- Memory elsewhere makes no difference to it. -/
  sees : ∀ m n : Machine, m.Poised ops words → n.Poised ops words →
    m.heap.lookup number = n.heap.lookup number →
      Alike (fun m' n' => m'.stack.toList = n'.stack.toList ∧
        m'.heap.lookup number = n'.heap.lookup number)
        (run table ops.length m) (run table ops.length n)
  /-- It makes no difference to memory elsewhere. -/
  keeps : ∀ m : Machine, m.Poised ops words → ∀ other, other ≠ number →
    (left (run table ops.length) m).heap.lookup other = m.heap.lookup other

/-- A load leaves guest memory as it is. -/
theorem heap_of_loadAt {x : Action Unit} (hx : x m = n.loadAt address w rest) :
    (left x m).heap = n.heap := by
  unfold loadAt at hx
  cases hread : address >>= fun a => n.heap.read a w with
  | error e =>
    rw [hread] at hx
    rw [left_of_error hx]
  | ok value =>
    rw [hread] at hx
    rw [left_of_ok hx]

/-- A load from an array has to do with the region of the array only. -/
theorem confined_loadArray :
    Confined table [(.loadArray, w)] (words ++ [b, i]) (Address.region b) where
  sees m n hm hn hlookup := by
    show Alike _ (run table 1 m) (run table 1 n)
    rw [hm.loadArray, hn.loadArray]
    refine alike_loadAt ?_ fun value => ⟨rfl, hlookup⟩
    cases haddress : Address.indexed b i with
    | error e => rfl
    | ok a =>
      rw [← Address.region_of_indexed haddress] at hlookup
      exact Heap.read_congr hlookup w
  keeps m hm other _ := by
    have hheap : (left (run table 1) m).heap = m.advanced.heap := heap_of_loadAt hm.loadArray
    exact congrArg (·.lookup other) hheap

/-- A store to bytes that can be written succeeds. -/
theorem storeAt_of_writable {a : Word} (h : m.heap.writable a w = true) :
    m.storeAt (.ok a) v w rest =
      .ok () { m with heap := m.heap.store a v w, stack := m.stack.withItems rest } := by
  unfold storeAt
  simp only [bind, Except.bind, Heap.write, if_pos h]

/-- A store to bytes that cannot be written is refused before anything changes. -/
theorem storeAt_of_not_writable {a : Word} (h : ¬m.heap.writable a w = true) :
    m.storeAt (.ok a) v w rest = .error .illegalAccess m := by
  unfold storeAt
  simp only [bind, Except.bind, Heap.write, if_neg h]

/-- Stores end alike if the region of the address is the same. -/
theorem alike_storeAt_of_lookup {a : Word}
    (hlookup : m.heap.lookup (Address.region a) = n.heap.lookup (Address.region a)) :
    Alike (fun m' n' => m'.stack.toList = n'.stack.toList ∧
        m'.heap.lookup (Address.region a) = n'.heap.lookup (Address.region a))
      (m.storeAt (.ok a) v w rest) (n.storeAt (.ok a) v w rest) := by
  have hsame : m.heap.writable a w = n.heap.writable a w := Heap.writable_congr hlookup w
  by_cases hwritable : m.heap.writable a w = true
  · rw [storeAt_of_writable hwritable, storeAt_of_writable (hsame.symm.trans hwritable)]
    refine .succeed ⟨rfl, ?_⟩
    simp only [Heap.store, Heap.lookup_overwrite, if_pos, hlookup]
  · rw [storeAt_of_not_writable hwritable, storeAt_of_not_writable (by rwa [← hsame])]
    exact .fail

/-- A store leaves all regions but that of the address. -/
theorem lookup_of_storeAt {x : Action Unit} {a : Word} (hx : x m = n.storeAt (.ok a) v w rest)
    {other : Nat} (hother : other ≠ Address.region a) :
    (left x m).heap.lookup other = n.heap.lookup other := by
  by_cases hwritable : n.heap.writable a w = true
  · rw [storeAt_of_writable hwritable] at hx
    rw [left_of_ok hx]
    exact (Heap.lookup_overwrite _ a _ other).trans (if_neg hother)
  · rw [storeAt_of_not_writable hwritable] at hx
    rw [left_of_error hx]

/-- A store to an array has to do with the region of the array only. -/
theorem confined_storeArray :
    Confined table [(.storeArray, w)] (words ++ [b, i, v]) (Address.region b) where
  sees m n hm hn hlookup := by
    show Alike _ (run table 1 m) (run table 1 n)
    rw [hm.storeArray, hn.storeArray]
    cases haddress : Address.indexed b i with
    | error e => exact .fail
    | ok a =>
      rw [← Address.region_of_indexed haddress] at hlookup ⊢
      exact alike_storeAt_of_lookup hlookup
  keeps m hm other hother := by
    have hrun : run table 1 m =
        m.advanced.storeAt (Address.indexed b i) v w words.reverse := hm.storeArray
    cases haddress : Address.indexed b i with
    | error e =>
      -- without an address there is no access
      rw [haddress] at hrun
      exact congrArg (·.heap.lookup other) (left_of_error hrun)
    | ok a =>
      rw [haddress] at hrun
      rw [← Address.region_of_indexed haddress] at hother
      exact lookup_of_storeAt hrun hother

/-- Pools and arrays are reached with pointers too. The code with pointers does the same work as
long as the index does not carry out of the offsets of a region; if it does, arrays refuse the
access, and so they never reach a region but their own. -/
theorem addressing_modes_agree (table : Interrupt.Table) (s : List Word) (o w v b i x : Word) :
    Equivalent table [(.load, o)] (s ++ [w]) [(.pushPtr, o), (.loadPtr, w)] s ∧
    Equivalent table [(.store, o)] (s ++ [v, w]) [(.pushPtr, o), (.push, v), (.storePtr, w)] s ∧
    (Address.offset b + i.toNat < Address.offsets →
      Equivalent table [(.loadArray, w)] (s ++ [b, i])
        [(.binary (.add .unsigned), x), (.loadPtr, w)] (s ++ [b, i]) ∧
      Equivalent table [(.storeArray, w)] (s ++ [b, i, v]) [(.storePtr, w)] (s ++ [b + i, v])) ∧
    (Address.offsets ≤ Address.offset b + i.toNat →
      Refused table [(.loadArray, w)] (s ++ [b, i]) ∧
      Refused table [(.storeArray, w)] (s ++ [b, i, v])) ∧
    Confined table [(.loadArray, w)] (s ++ [b, i]) (Address.region b) ∧
    Confined table [(.storeArray, w)] (s ++ [b, i, v]) (Address.region b) := by
  refine ⟨equivalent_load, equivalent_store,
    fun hin => ⟨equivalent_loadArray hin, equivalent_storeArray hin⟩, fun hout => ⟨?_, ?_⟩,
    confined_loadArray, confined_storeArray⟩
  · intro m hm
    refine ⟨m.advanced, hm.loadArray.trans ?_⟩
    rw [Address.indexed_of_le hout]
    rfl
  · intro m hm
    refine ⟨m.advanced, hm.storeArray.trans ?_⟩
    rw [Address.indexed_of_le hout]
    rfl

/-- Two bytes of a pool are loaded with a pointer as with an offset. The byte behind the last offset
below the first region is not loaded, though its address is the first of the region. -/
theorem addressing_modes_agree_pool :
    let pool := (PoolTable.withCapacity 1).put 0 4
    let direct : Module :=
      { instructions := #[.of .mallocPool 0, .of .push 2, .of .load 1], pool }
    let pointer : Module :=
      { instructions := #[.of .mallocPool 0, .of .pushPtr 1, .of .loadPtr 2], pool }
    let carry : Module :=
      { instructions := #[.of .mallocPool 0, .of .push 4294967295, .of .push 1,
          .of .loadArray 1], pool }
    ∃ first first' first'' m n k : Machine,
      start direct (Loader.registry []) {} {} = .ok first ∧
      start pointer (Loader.registry []) {} {} = .ok first' ∧
      start carry (Loader.registry []) {} {} = .ok first'' ∧
      m = first.after Interrupt.standard [.step, .step] ∧
      n = first'.after Interrupt.standard [.step] ∧
      k = first''.after Interrupt.standard [.step, .step, .step] ∧
      Alike SameWork (run Interrupt.standard 1 m) (run Interrupt.standard 2 n) ∧
      (∃ m', run Interrupt.standard 1 m = .ok () m' ∧ m'.stack.toList = [0]) ∧
      ∃ k', run Interrupt.standard 1 k = .error .illegalAccess k' := by
  intro pool direct pointer carry
  have hrun : ∃ first first' first'' m n k : Machine,
      start direct (Loader.registry []) {} {} = .ok first ∧
      start pointer (Loader.registry []) {} {} = .ok first' ∧
      start carry (Loader.registry []) {} {} = .ok first'' ∧
      m = first.after Interrupt.standard [.step, .step] ∧
      n = first'.after Interrupt.standard [.step] ∧
      k = first''.after Interrupt.standard [.step, .step, .step] ∧
      m.Poised [(.load, 1)] [2] ∧ n.Poised [(.pushPtr, 1), (.loadPtr, 2)] [] ∧
      k.Poised [(.loadArray, 1)] [4294967295, 1] ∧
      m.pools = n.pools ∧ m.heap = n.heap ∧ m.stack.capacity = n.stack.capacity ∧
      (∃ m', run Interrupt.standard 1 m = .ok () m' ∧ m'.stack.toList = [0]) := by
    dsimp only [pool, direct, pointer, carry]
    set_option maxRecDepth 3000 in
    exact ⟨_, _, _, _, _, _, rfl, rfl, rfl, rfl, rfl, rfl,
      ⟨⟨⟨_, rfl, rfl, rfl⟩, trivial⟩, by decide +kernel, by decide +kernel⟩,
      ⟨⟨⟨_, rfl, rfl, rfl⟩, ⟨_, rfl, rfl, rfl⟩, trivial⟩, by decide +kernel, by decide +kernel⟩,
      ⟨⟨⟨_, rfl, rfl, rfl⟩, trivial⟩, by decide +kernel, by decide +kernel⟩,
      rfl, by decide +kernel, rfl, ⟨_, rfl, by decide +kernel⟩⟩
  rcases hrun with ⟨first, first', first'', m, n, k, hfirst, hfirst', hfirst'', hm, hn, hk, hdirect,
    hpointer, hcarry, hpools, hheap, hcapacity, hloaded⟩
  have hpool := addressing_modes_agree Interrupt.standard [] 1 2 0 0 0 0
  have harray := addressing_modes_agree Interrupt.standard [] 0 1 0 4294967295 1 0
  exact ⟨first, first', first'', m, n, k, hfirst, hfirst', hfirst'', hm, hn, hk,
    hpool.1 m n hcapacity hpools hheap hdirect hpointer, hloaded,
    (harray.2.2.2.1 (by decide)).1 k hcarry⟩

end Machine
end StackMachine

import StackMachine.Proofs.Service

/-!
# Run — what calls do to a machine

The owner of a machine steps it, links libraries and unlinks them, in any order and also after
faults. `Machine.after` is the machine after such calls.

* `Machine.Local` — what an operation or service does that leaves the module table alone;
* `Machine.Alters` — a local change, or linking or unlinking around one;
* `Machine.exec_cases` — an instruction is refused, performs its operation or calls a service;
* `Machine.step_cases` — a step stalls, or counts the instruction and alters the machine;
* `Machine.after_induction` — what every call keeps is kept along every run.
-/

namespace StackMachine

/-- Every service of the table is a standard one, under whatever code. -/
def Interrupt.Table.IsStandard (table : Table) : Prop :=
  ∀ {code service}, table.get code = .ok service → ∃ n, Provides n service

/-- The standard table has standard services only. -/
theorem Interrupt.isStandard_standard : standard.IsStandard :=
  fun h => ⟨_, provides_of_get_standard h⟩

namespace Machine

variable {α : Type} {table : Interrupt.Table} {m m' : Machine}

/-! ## Local changes -/

/-- A change that leaves the module table alone: the stacks stay within their capacities, guest
memory changes as guest code can change it, and control stays where it is or goes to an instruction
of a loaded module. -/
structure Local (m m' : Machine) : Prop where
  modules : m'.modules = m.modules
  moduleCapacity : m'.moduleCapacity = m.moduleCapacity
  stackCapacity : m'.stack.capacity = m.stack.capacity
  stack : m.stack.items.length ≤ m.stack.capacity → m'.stack.items.length ≤ m.stack.capacity
  poolCapacity : m'.pools.capacity = m.pools.capacity
  pools : m.pools.items.length ≤ m.pools.capacity → m'.pools.items.length ≤ m.pools.capacity
  heap : Heap.Move m.heap m'.heap
  control : (m'.active = m.active ∧ m'.pc = m.pc) ∨
    ∃ module, m.module m'.active = .ok module ∧ module.contains m'.pc = true

theorem Local.refl (m : Machine) : Local m m :=
  ⟨rfl, rfl, rfl, id, rfl, id, .stay, .inl ⟨rfl, rfl⟩⟩

theorem SameGuest.isLocal (h : SameGuest m m') : Local m m' := by
  rcases h with ⟨host, loader, journal, rfl⟩
  exact { Local.refl m with }

/-- The words on the stack may change, if they do not get too many. -/
theorem Local.withItems (m : Machine) (items : List Word)
    (h : items.length ≤ m.stack.items.length ∨ items.length ≤ m.stack.capacity) :
    Local m { m with stack := m.stack.withItems items } :=
  { Local.refl m with
    stack := by
      rw [Stack.items_withItems]
      omega }

/-- The pools on the stack may change, if they do not get too many. -/
theorem Local.withPools (m : Machine) (items : List Word)
    (h : items.length ≤ m.pools.items.length ∨ items.length ≤ m.pools.capacity) :
    Local m { m with pools := m.pools.withItems items } :=
  { Local.refl m with
    pools := by
      rw [Stack.items_withItems]
      omega }

theorem Branches.isLocal {onZero : Bool} {target : Word} (h : Branches onZero target m m') :
    Local m m' := by
  cases h with
  | @taken condition rest module hitems hcondition hmodule htarget =>
    have hstack := Local.withItems m rest (.inl (by simp [hitems]))
    exact { hstack with control := .inr ⟨module, hmodule, htarget⟩ }
  | @passed condition rest hitems hcondition => exact .withItems m rest (.inl (by simp [hitems]))

/-- An operation changes the machine locally. -/
theorem Performs.isLocal {op : Opcode} {operand : Word} (h : Performs operand m op m') :
    Local m m' := by
  cases h with
  | nop => exact .refl m
  | push hroom => exact .withItems m _ (.inr hroom)
  | pop hitems => exact .withItems m _ (.inl (by simp [hitems]))
  | load hitems => exact .withItems m _ (.inl (by simp [hitems]))
  | @store width value rest pool pools a hitems =>
    have hstack := Local.withItems m rest (.inl (by simp [hitems]; omega))
    exact { hstack with heap := .overwrite a _ }
  | @mallocPool module hroom hmodule =>
    have hpools := Local.withPools m
      ((m.heap.allocate (module.pool.get operand).toUInt64).1 :: m.pools.items) (.inr hroom)
    exact { hpools with heap := .allocate _ }
  | @freePool pool pools heap hpools hrelease =>
    have hpop := Local.withPools m pools (.inl (by simp [hpools]))
    exact { hpop with heap := Heap.move_of_release hrelease }
  | pushPtr hpools haddress hroom => exact .withItems m _ (.inr hroom)
  | loadPtr hitems => exact .withItems m _ (.inl (by simp [hitems]))
  | @storePtr value a rest hitems =>
    have hstack := Local.withItems m rest (.inl (by simp [hitems]; omega))
    exact { hstack with heap := .overwrite a _ }
  | dup hitem hroom => exact .withItems m _ (.inr hroom)
  | @pushArray size rest hitems =>
    have hstack := Local.withItems m ((m.heap.allocate size).1 :: rest) (.inl (by simp [hitems]))
    exact { hstack with heap := .allocate size }
  | loadArray hitems => exact .withItems m _ (.inl (by simp [hitems]))
  | @storeArray value index base rest a hitems =>
    have hstack := Local.withItems m rest (.inl (by simp [hitems]; omega))
    exact { hstack with heap := .overwrite a _ }
  | binary hitems => exact .withItems m _ (.inl (by simp [hitems]))
  | division hitems => exact .withItems m _ (.inl (by simp [hitems]))
  | unary hitems => exact .withItems m _ (.inl (by simp [hitems]))
  | jmp hmodule htarget =>
    exact { Local.refl m with control := .inr ⟨_, hmodule, htarget⟩ }
  | jmpZero hbranch => exact hbranch.isLocal
  | jmpNotZero hbranch => exact hbranch.isLocal
  | call hroom hmodule htarget =>
    have hstack := Local.withItems m (m.pc :: m.active :: m.stack.items) (.inr hroom)
    exact { hstack with control := .inr ⟨_, hmodule, htarget⟩ }
  | @vcall target index rest module hitems hmodule htarget =>
    have hstack := Local.withItems m (m.pc :: m.active :: rest) (.inl (by simp [hitems]))
    exact { hstack with control := .inr ⟨module, hmodule, htarget⟩ }
  | @ret target index rest module hitems hmodule htarget =>
    have hstack := Local.withItems m rest (.inl (by simp [hitems]; omega))
    exact { hstack with control := .inr ⟨module, hmodule, htarget⟩ }
  | loadMemory hmodule hoffset hbase hroom => exact .withItems m _ (.inr hroom)

/-! ## Changes of the module table -/

/-- What a call can do to a machine once the instruction is counted. -/
inductive Alters (m : Machine) : Machine → Prop
  | locally {m₂} (hlocal : Local m m₂) : Alters m m₂
  | links {path index m₁ m₂} (hlinks : Links path m index m₁) (hlocal : Local m₁ m₂) : Alters m m₂
  | unlinks {index m₁ m₂} (hunlinks : Unlinks index m m₁) (hlocal : Local m₁ m₂) : Alters m m₂
  | tears {index m₂} (htears : Tears index m m₂) : Alters m m₂

theorem Serves.alters {code : Nat} (h : Serves m code m') : Alters m m' := by
  cases h with
  | stream hcode hroom => exact .locally (.withItems m _ (.inr hroom))
  | @openFile mode path rest modeText pathText hitems =>
    have hstack := Local.withItems m ((m.host.openPath pathText modeText).1 :: rest)
      (.inl (by simp [hitems]))
    exact .locally { hstack with }
  | @write buffer size count handle rest data host hitems =>
    have hstack := Local.withItems m rest (.inl (by simp [hitems]; omega))
    exact .locally { hstack with }
  | @close handle rest host hitems =>
    have hstack := Local.withItems m rest (.inl (by simp [hitems]))
    exact .locally { hstack with }
  | @malloc size rest hitems =>
    have hstack := Local.withItems m ((m.heap.allocate size).1 :: rest) (.inl (by simp [hitems]))
    exact .locally { hstack with heap := .allocate size }
  | @free a rest heap hitems hrelease =>
    have hstack := Local.withItems m rest (.inl (by simp [hitems]))
    exact .locally { hstack with heap := Heap.move_of_release hrelease }
  | @link path rest text index m₁ hitems htext hlinks =>
    rw [← hlinks.stack_eq] at hitems ⊢
    exact .links hlinks (.withItems m₁ _ (.inl (by simp [hitems])))
  | @unlink index rest m₁ hitems hunlinks =>
    rw [← hunlinks.stack_eq] at hitems ⊢
    exact .unlinks hunlinks (.withItems m₁ _ (.inl (by simp [hitems])))
  | symbol hitems => exact .locally (.withItems m _ (.inl (by simp [hitems])))
  | readNothing hitems => exact .locally (.withItems m _ (.inl (by simp [hitems])))
  | @read buffer size count handle rest bytes host hitems =>
    have hstack := Local.withItems m (UInt64.ofNat (bytes.length / size.toNat) :: rest)
      (.inl (by simp [hitems]))
    exact .locally { hstack with heap := .overwrite buffer bytes }

theorem Falters.alters {code : Nat} (h : Falters m code m') : Alters m m' := by
  cases h with
  | clean hsame => exact .locally hsame.isLocal
  | unlink hitems htears => exact .tears htears
  | @read buffer size count handle rest bytes fault host =>
    exact .locally { Local.refl m with heap := .overwrite buffer bytes }

theorem module_ok_iff {index : Word} {module : Module} :
    m.module index = .ok module ↔ m.modules[index.toNat]? = some (some module) := by
  unfold Machine.module
  rcases m.modules[index.toNat]? with _ | _ | found
  · simp
  · simp
  · simp

/-- A slot that is still loaded after another one was emptied was loaded before. -/
theorem loaded_of_emptied {slots : Array (Option Module)} {emptied index : Nat} {module : Module}
    (h : (slots.setIfInBounds emptied none)[index]? = some (some module)) :
    index ≠ emptied ∧ slots[index]? = some (some module) := by
  rw [Array.getElem?_setIfInBounds] at h
  by_cases heq : emptied = index
  · rw [if_pos heq] at h
    split at h
    · cases h
    · cases h
  · rw [if_neg heq] at h
    exact ⟨Ne.symm heq, h⟩

/-- A loaded module was loaded before, or has just been linked. -/
theorem Alters.loaded (h : Alters m m') {index : Nat} {module : Module}
    (hslot : m'.modules[index]? = some (some module)) :
    m.modules[index]? = some (some module) ∨
      m.modules.size ≤ index ∧ ∃ fresh heap, fresh.Fresh ∧ module = (install heap fresh).1 := by
  cases h with
  | locally hlocal =>
    rw [hlocal.modules] at hslot
    exact .inl hslot
  | links hlinks hlocal =>
    rw [hlocal.modules] at hslot
    cases hlinks with
    | intro hroom hload =>
      rw [Array.getElem?_push] at hslot
      split at hslot
      next hnew =>
        cases hslot
        exact .inr ⟨Nat.le_of_eq hnew.symm, _, _, Linker.fresh_of_load hload, rfl⟩
      next => exact .inl hslot
  | unlinks hunlinks hlocal =>
    rw [hlocal.modules] at hslot
    cases hunlinks
    exact .inl (loaded_of_emptied hslot).2
  | tears htears =>
    cases htears
    exact .inl (loaded_of_emptied hslot).2

/-- Slots are never taken away. -/
theorem Alters.slots_le (h : Alters m m') : m.modules.size ≤ m'.modules.size := by
  cases h with
  | locally hlocal => exact Nat.le_of_eq (congrArg Array.size hlocal.modules).symm
  | links hlinks hlocal =>
    rw [hlocal.modules]
    cases hlinks
    simp
  | unlinks hunlinks hlocal =>
    rw [hlocal.modules]
    cases hunlinks
    simp
  | tears htears =>
    cases htears
    simp

/-! ## Instructions -/

/-- An interrupt is the service at its code. -/
theorem perform_int {operand : Word} :
    perform table .int operand m =
      match table.get operand with
      | .ok service => service m
      | .error e => .error e m := by
  show ((attempt (table.get operand) >>= fun service => service) : Action Unit) m = _
  cases table.get operand with
  | ok service => rfl
  | error e => rfl

def left (x : Action α) (m : Machine) : Machine :=
  match x m with
  | .ok _ m' => m'
  | .error _ m' => m'

theorem left_of_ok {x : Action α} {a : α} (h : x m = .ok a m') : left x m = m' := by
  unfold left
  rw [h]

theorem left_of_error {x : Action α} {e : Fault} (h : x m = .error e m') : left x m = m' := by
  unfold left
  rw [h]

theorem left_congr {x y : Action α} (h : x m = y m') : left x m = left y m' := by
  unfold left
  rw [h]

/-- An action succeeds or fails, and leaves a machine in both cases. -/
theorem left_cases (x : Action α) (m : Machine) :
    (∃ a, x m = .ok a (left x m)) ∨ ∃ e, x m = .error e (left x m) := by
  unfold left
  cases x m with
  | ok a m' => exact .inl ⟨a, rfl⟩
  | error e m' => exact .inr ⟨e, rfl⟩

/-- An instruction is refused, or it performs its operation, or it calls a service. -/
theorem exec_cases (table : Interrupt.Table) (i : Instruction) (m : Machine) :
    (∃ e, exec table i m = .error e m) ∨
      (∃ op, op ≠ .int ∧ Opcode.ofByte? i.opcode = some op ∧
        exec table i m = perform table op i.operand m) ∨
      ∃ service, Opcode.ofByte? i.opcode = some .int ∧ table.get i.operand = .ok service ∧
        exec table i m = service m := by
  unfold exec
  cases Opcode.ofByte? i.opcode with
  | none => exact .inl ⟨_, rfl⟩
  | some op =>
    by_cases hop : op = .int
    · subst hop
      cases hget : table.get i.operand with
      | error e =>
        refine .inl ⟨e, ?_⟩
        show perform table .int i.operand m = .error e m
        rw [perform_int, hget]
      | ok service =>
        refine .inr (.inr ⟨service, rfl, rfl, ?_⟩)
        show perform table .int i.operand m = service m
        rw [perform_int, hget]
    · exact .inr (.inl ⟨op, hop, rfl, rfl⟩)

/-- What an instruction does is one of the changes. -/
theorem alters_exec (htable : table.IsStandard) (i : Instruction) :
    Alters m (left (exec table i) m) := by
  rcases exec_cases table i m with ⟨e, he⟩ | ⟨op, hop, -, hexec⟩ | ⟨service, -, hget, hexec⟩
  · rw [left_of_error he]
    exact .locally (.refl m)
  · rw [left_congr hexec]
    rcases left_cases (perform table op i.operand) m with ⟨_, hok⟩ | ⟨e, he⟩
    · exact .locally (performs_of_ok hop hok).isLocal
    · exact .locally (perform_clean hop e _ he).isLocal
  · rw [left_congr hexec]
    rcases htable hget with ⟨code, hservice⟩
    rcases left_cases service m with ⟨_, hok⟩ | ⟨e, he⟩
    · exact (serves_of_ok hservice hok).alters
    · exact (falters_of_error hservice he).alters

/-! ## Steps -/

/-- There is no instruction at the program counter: the active module is gone, or control is outside
of it. -/
def Stalled (m : Machine) : Prop :=
  ∀ module, m.module m.active = .ok module → module.instructions.size ≤ m.pc.toNat

/-- The machine with the next instruction counted. -/
def advanced (m : Machine) : Machine := { m with pc := m.pc + 1, steps := m.steps + 1 }

theorem reads_fetch : Reads fetch := by
  refine reads_activeModule.bind fun module => reads_get.bind fun s => ?_
  split
  · exact reads_pure _
  · exact reads_throw _

/-- An instruction is fetched from the active module at the program counter. -/
theorem fetch_ok_iff {i : Instruction} :
    fetch m = .ok i m' ↔ (∃ module, m.module m.active = .ok module ∧
      module.instructions[m.pc.toNat]? = some i) ∧ m' = m := by
  simp only [fetch, bind_ok_iff, activeModule_ok_iff, get_bind]
  constructor
  · rintro ⟨module, s, ⟨hmodule, rfl⟩, h⟩
    cases hfound : module.instructions[s.pc.toNat]? with
    | none =>
      rw [hfound] at h
      cases h
    | some found =>
      rw [hfound] at h
      cases h
      exact ⟨⟨module, hmodule, hfound⟩, rfl⟩
  · rintro ⟨⟨module, hmodule, hfound⟩, rfl⟩
    exact ⟨module, _, ⟨hmodule, rfl⟩, by simp [hfound]⟩

/-- A step stalls and changes nothing, or it executes the instruction it has counted. -/
theorem step_cases (table : Interrupt.Table) (m : Machine) :
    (Stalled m ∧ ∃ e, step table m = .error e m) ∨
      ¬Stalled m ∧ ∃ i, fetch m = .ok i m ∧ step table m = exec table i m.advanced := by
  rcases reads_fetch m with ⟨i, hi⟩ | ⟨e, he⟩
  · refine .inr ⟨?_, i, hi, ?_⟩
    · rcases (fetch_ok_iff.1 hi).1 with ⟨module, hmodule, hfound⟩
      have hinside : m.pc.toNat < module.instructions.size :=
        (Array.getElem?_eq_some_iff.1 hfound).1
      intro hstalled
      exact absurd (hstalled module hmodule) (Nat.not_le.2 hinside)
    · exact bind_of_ok hi
  · refine .inl ⟨?_, e, bind_error_iff.2 (.inl he)⟩
    intro module hmodule
    refine Nat.not_lt.1 fun hinside => ?_
    have hok : fetch m = .ok module.instructions[m.pc.toNat] m :=
      fetch_ok_iff.2 ⟨⟨module, hmodule, Array.getElem?_eq_getElem hinside⟩, rfl⟩
    rw [hok] at he
    cases he

/-- A step counts the instruction and performs it. -/
theorem step_of_fetch {i : Instruction} {op : Opcode} (hfetch : fetch m = .ok i m)
    (hop : Opcode.ofByte? i.opcode = some op) :
    step table m = perform table op i.operand m.advanced := by
  have hexec : step table m = exec table i m.advanced := bind_of_ok hfetch
  rw [hexec, exec, hop]

/-- What a step has done when it succeeds. -/
theorem performs_of_step {i : Instruction} {op : Opcode} (hfetch : fetch m = .ok i m)
    (hop : Opcode.ofByte? i.opcode = some op) (hint : op ≠ .int)
    (hstep : step table m = .ok () m') : Performs i.operand m.advanced op m' := by
  rw [step_of_fetch hfetch hop] at hstep
  exact performs_of_ok hint hstep

/-! ## Calls -/

/-- What the owner of a machine can ask of it. -/
inductive Call where
  | step
  | link (path : String)
  | unlink (index : Word)

def Call.apply (table : Interrupt.Table) (m : Machine) : Call → Machine
  | .step => left (Machine.step table) m
  | .link path => left (Machine.link path) m
  | .unlink index => left (Machine.unlink index) m

def after (table : Interrupt.Table) (m : Machine) (calls : List Call) : Machine :=
  calls.foldl (Call.apply table) m

/-- A call stalls, alters the machine, or counts an instruction and then alters the machine. -/
theorem call_cases (htable : table.IsStandard) (call : Call) (m : Machine) :
    Alters m (call.apply table m) ∨
      ¬Stalled m ∧ Alters m.advanced (call.apply table m) := by
  cases call with
  | step =>
    rw [Call.apply]
    rcases step_cases table m with ⟨-, e, he⟩ | ⟨hnext, i, -, hexec⟩
    · rw [left_of_error he]
      exact .inl (.locally (.refl m))
    · rw [left_congr hexec]
      exact .inr ⟨hnext, alters_exec htable i⟩
  | link path =>
    rcases left_cases (link path) m with ⟨index, hok⟩ | ⟨e, he⟩
    · exact .inl (.links (links_of_ok hok) (.refl _))
    · exact .inl (.locally (clean_link path e _ he).isLocal)
  | unlink index =>
    rcases left_cases (unlink index) m with ⟨_, hok⟩ | ⟨e, he⟩
    · exact .inl (.unlinks (unlinks_of_ok hok) (.refl _))
    · rcases unlink_error he with heq | htears
      · rw [Call.apply, heq]
        exact .inl (.locally (.refl m))
      · exact .inl (.tears htears)

/-- No call takes a slot away. -/
theorem slots_le_call (htable : table.IsStandard) (call : Call) :
    m.modules.size ≤ (call.apply table m).modules.size := by
  rcases call_cases htable call m with halters | ⟨-, halters⟩
  · exact halters.slots_le
  · exact halters.slots_le

/-- What every call keeps is kept along every run. -/
theorem after_induction {P : Machine → Prop} (hcall : ∀ m call, P m → P (Call.apply table m call))
    {m : Machine} (hm : P m) (calls : List Call) : P (m.after table calls) := by
  induction calls generalizing m with
  | nil => exact hm
  | cons call calls ih => exact ih (hcall m call hm)

/-- The machine that a program starts with. -/
theorem start_ok {module : Module} {loader : Loader} {capacities : Capacities} {host : Host}
    (h : start module loader capacities host = .ok m) :
    module.contains module.entry = true ∧ m =
      { stack := { role := .evaluation, capacity := capacities.stack.toNat }
        pools := { role := .pool, capacity := capacities.pools.toNat }
        pc := module.entry
        modules := #[some (install capacities.memory module).1]
        moduleCapacity := capacities.modules
        heap := (install capacities.memory module).2
        host
        loader } := by
  unfold start at h
  split at h
  next hentry =>
    cases h
    exact ⟨hentry, rfl⟩
  next => cases h

/-! ## Program counters -/

/-- The instructions of every loaded module can be counted in sixty-four bits. -/
def ProgramsFit (m : Machine) : Prop :=
  ∀ (index : Nat) (module : Module), m.modules[index]? = some (some module) →
    module.instructions.size < UInt64.size

/-- A module keeps its instructions when its memory is mapped. -/
theorem instructions_install (heap : Heap) (module : Module) :
    (install heap module).1.instructions = module.instructions := by
  unfold install
  split
  · rfl
  · rfl
  · rfl

/-- Libraries have as few instructions as programs. -/
theorem ProgramsFit.alters (hm : ProgramsFit m) (h : Alters m m') : ProgramsFit m' := by
  intro index module hslot
  rcases h.loaded hslot with hbefore | ⟨-, fresh, heap, hfresh, rfl⟩
  · exact hm index module hbefore
  · rw [instructions_install]
    exact hfresh.instructions

theorem ProgramsFit.call (htable : table.IsStandard) (hm : ProgramsFit m) (call : Call) :
    ProgramsFit (call.apply table m) := by
  rcases call_cases htable call m with halters | ⟨-, halters⟩
  · exact hm.alters halters
  · have hadvanced : ProgramsFit m.advanced := hm
    exact hadvanced.alters halters

/-- At the start there is the program only. -/
theorem programsFit_start {module : Module} {loader : Loader} {capacities : Capacities}
    {host : Host} (h : start module loader capacities host = .ok m)
    (hfits : module.instructions.size < UInt64.size) : ProgramsFit m := by
  rcases start_ok h with ⟨-, rfl⟩
  intro index found hslot
  cases index with
  | zero =>
    cases hslot
    rw [instructions_install]
    exact hfits
  | succ index => cases hslot

/-- Counting an instruction moves the program counter on by one, without wrapping around. -/
theorem toNat_pc_advanced (hm : ProgramsFit m) {module : Module}
    (hmodule : m.module m.active = .ok module) (hinside : m.pc.toNat < module.instructions.size) :
    m.advanced.pc.toNat = m.pc.toNat + 1 := by
  have hfits : module.instructions.size < UInt64.size :=
    hm _ module (module_ok_iff.1 hmodule)
  show (m.pc + 1).toNat = m.pc.toNat + 1
  rw [UInt64.toNat_add, UInt64.toNat_one, Nat.mod_eq_of_lt]
  unfold UInt64.size at hfits
  omega

end Machine
end StackMachine

import StackMachine.Proofs.Return

/-!
# Slots — a module index keeps its meaning

The module table only grows. Linking appends a slot, unlinking empties one, and nothing fills a slot
that is empty. So an index stands for one module for as long as that module is loaded, and for none
after that.

* `Machine.Continues` — one module table comes after another;
* `Machine.continues_after` — every run continues the module table that it starts with;
* `Machine.Refuses` — an index that stands for no module is refused wherever one is asked for;
* `Machine.ResumesIn` — a frame takes control to the code of one module only;
* `Machine.linksMade` — the number of libraries linked in a run, which is the number of new slots;
* `Machine.module_index_permanent` — all of this for any two machines of a run.
-/

namespace StackMachine
namespace Machine

variable {table : Interrupt.Table} {m m' : Machine} {index target : Word} {rest : List Word}

/-! ## Tables that come after one another -/

/-- The module table of `t` continues that of `s`: no slot is taken away, a module that is loaded in
an old slot was loaded there before, and a slot that is empty stays empty. -/
structure Continues (s t : Machine) : Prop where
  slots : s.modules.size ≤ t.modules.size
  loaded : ∀ {slot : Nat} {module : Module}, slot < s.modules.size →
    t.modules[slot]? = some (some module) → s.modules[slot]? = some (some module)
  empty : ∀ {slot : Nat}, s.modules[slot]? = some none → t.modules[slot]? = some none

/-- No run takes a slot away. -/
theorem slots_le_after (htable : table.IsStandard) (calls : List Call) :
    m.modules.size ≤ (m.after table calls).modules.size := by
  refine after_induction (P := fun t => m.modules.size ≤ t.modules.size) ?_ (Nat.le_refl _) calls
  intro t call hbefore
  exact Nat.le_trans hbefore (slots_le_call htable call)

/-- The module table only continues along a run. -/
theorem continues_after (htable : table.IsStandard) (calls : List Call) :
    Continues m (m.after table calls) where
  slots := slots_le_after htable calls
  loaded hslot hfound := loaded_of_after htable calls hslot hfound
  empty {slot} hempty := by
    have hslot : slot < m.modules.size := (Array.getElem?_eq_some_iff.1 hempty).1
    have hstays : slot < (m.after table calls).modules.size :=
      Nat.lt_of_lt_of_le hslot (slots_le_after htable calls)
    rw [Array.getElem?_eq_getElem hstays]
    cases hfound : (m.after table calls).modules[slot] with
    | none => rfl
    | some module =>
      -- a module in the slot would have been there from the start
      have hlater : (m.after table calls).modules[slot]? = some (some module) := by
        rw [Array.getElem?_eq_getElem hstays, hfound]
      have hbefore := loaded_of_after htable calls hslot hlater
      rw [hempty] at hbefore
      cases hbefore

/-! ## Indices without a module -/

/-- The instruction takes a frame off the stack and goes where the frame says. -/
def TakesFrame (i : Instruction) : Prop :=
  Opcode.ofByte? i.opcode = some .vcall ∨ Opcode.ofByte? i.opcode = some .ret

/-- The index stands for no module: all that takes a module index refuses this one. -/
structure Refuses (table : Interrupt.Table) (index : Word) (m : Machine) : Prop where
  lookup : m.module index = .error (.illegalLibraryIndex index)
  unlink : Machine.unlink index m = .error (.illegalLibraryIndex index) m
  resolve : ∀ name, m.resolve index name = .error (.illegalLibraryIndex index)
  frame : ∀ i target rest, fetch m = .ok i m → TakesFrame i →
    m.stack.items = target :: index :: rest →
    ∃ m', step table m = .error (.illegalLibraryIndex index) m'

/-- A call through the stack reads its frame off the stack before it checks it. -/
theorem perform_vcall {operand : Word} (hitems : m.stack.items = target :: index :: rest) :
    perform table .vcall operand m =
      (do
        frameTarget index target
        let m ← get
        replace 1 m.active
        replace 0 m.pc
        enter index target : Action Unit) m := by
  have hrequire : require 2 m = .ok () m := require_ok_iff.2 ⟨by simp [hitems], rfl⟩
  have hindex : peek 1 m = .ok index m := peek_ok_iff.2 ⟨by simp [hitems], rfl⟩
  have htarget : peek 0 m = .ok target m := peek_ok_iff.2 ⟨by simp [hitems], rfl⟩
  simp only [perform, bind_of_ok hrequire, bind_of_ok hindex, bind_of_ok htarget]

/-- A frame that is refused ends the step. -/
theorem step_of_frameTarget_error {i : Instruction} (hfetch : fetch m = .ok i m)
    (hframe : TakesFrame i) (hitems : m.stack.items = target :: index :: rest) {e : Fault}
    (h : frameTarget index target m.advanced = .error e m.advanced) :
    step table m = .error e m.advanced := by
  have hadvanced : m.advanced.stack.items = target :: index :: rest := hitems
  rcases hframe with hop | hop
  · rw [step_of_fetch hfetch hop, perform_vcall hadvanced]
    exact bind_error_iff.2 (.inl h)
  · rw [step_of_fetch hfetch hop, perform_ret hadvanced]
    exact bind_error_iff.2 (.inl h)

/-- A slot that was emptied stands for no module. -/
theorem refuses_of_empty (hempty : m.modules[index.toNat]? = some none) :
    Refuses table index m := by
  have hnone : ∀ module, m.module index ≠ .ok module := by
    intro module hmodule
    rw [module_ok_iff, hempty] at hmodule
    cases hmodule
  have hlookup : m.module index = .error (.illegalLibraryIndex index) := by
    unfold Machine.module
    rw [hempty]
    rfl
  refine ⟨hlookup, ?_, fun name => ?_, fun i target rest hfetch hframe hitems => ?_⟩
  · refine unlink_of_not_loaded ?_
    rintro ⟨module, -, hmodule⟩
    exact hnone module hmodule
  · unfold resolve
    rw [hlookup]
    split
    · rfl
    · rfl
  · exact ⟨_, step_of_frameTarget_error hfetch hframe hitems (frameTarget_of_not_loaded hnone)⟩

/-! ## Frames -/

/-- A frame with this index takes control, if anywhere, to an instruction of this module. -/
def ResumesIn (table : Interrupt.Table) (index : Word) (module : Module) (m : Machine) : Prop :=
  ∀ i target rest m', fetch m = .ok i m → TakesFrame i →
    m.stack.items = target :: index :: rest → step table m = .ok () m' →
    m'.active = index ∧ m'.pc = target ∧
      ∃ next, module.instructions[target.toNat]? = some next ∧ fetch m' = .ok next m'

/-- A frame that is accepted sends control to its module. -/
theorem Performs.enters {op : Opcode} {operand : Word} (h : Performs operand m op m')
    (hop : op = .vcall ∨ op = .ret) (hitems : m.stack.items = target :: index :: rest) :
    m'.active = index ∧ m'.pc = target ∧ m'.modules = m.modules ∧
      ∃ module, m.module index = .ok module ∧ module.contains target = true := by
  rcases hop with rfl | rfl
  · cases h with
    | vcall hframe hmodule htarget =>
      rw [hitems] at hframe
      cases hframe
      exact ⟨rfl, rfl, rfl, _, hmodule, htarget⟩
  · cases h with
    | ret hframe hmodule htarget =>
      rw [hitems] at hframe
      cases hframe
      exact ⟨rfl, rfl, rfl, _, hmodule, htarget⟩

/-- Control that enters a loaded module fetches one of its instructions next. -/
theorem fetch_of_entered {module : Module} (hmodule : m.module m.active = .ok module)
    (hcontains : module.contains m.pc = true) :
    ∃ next, module.instructions[m.pc.toNat]? = some next ∧ fetch m = .ok next m := by
  have hinside : m.pc.toNat < module.instructions.size := of_decide_eq_true hcontains
  have hnext : module.instructions[m.pc.toNat]? = some module.instructions[m.pc.toNat] :=
    Array.getElem?_eq_getElem hinside
  exact ⟨_, hnext, fetch_ok_iff.2 ⟨⟨module, hmodule, hnext⟩, rfl⟩⟩

/-- A module that an index stood for once is the only one that a frame with this index leads to. -/
theorem Continues.resumesIn {s t : Machine} (h : Continues s t) {module : Module}
    (hmodule : s.module index = .ok module) : ResumesIn table index module t := by
  intro i target rest t' hfetch hframe hitems hstep
  have henters : t'.active = index ∧ t'.pc = target ∧ t'.modules = t.modules ∧
      ∃ found, t.module index = .ok found ∧ found.contains target = true := by
    rcases hframe with hop | hop
    · exact (performs_of_step hfetch hop (by decide) hstep).enters (.inl rfl) hitems
    · exact (performs_of_step hfetch hop (by decide) hstep).enters (.inr rfl) hitems
  rcases henters with ⟨hactive, hpc, hmodules, found, hfound, hcontains⟩
  -- the slot was in use when the module was loaded in it, so it has held no other since
  have hslot : s.modules[index.toNat]? = some (some module) := module_ok_iff.1 hmodule
  have hbefore : s.modules[index.toNat]? = some (some found) :=
    h.loaded (Array.getElem?_eq_some_iff.1 hslot).1 (module_ok_iff.1 hfound)
  rw [hslot] at hbefore
  cases hbefore
  refine ⟨hactive, hpc, ?_⟩
  have hentered : t'.module t'.active = .ok module := by
    rw [hactive, module_ok_iff, hmodules]
    exact module_ok_iff.1 hfound
  subst hpc
  exact fetch_of_entered hentered hcontains

/-! ## Links -/

/-- The call links a library: the owner asks for it and succeeds, or the next instruction calls the
service that links and succeeds. -/
inductive Call.LinksLibrary (table : Interrupt.Table) (m : Machine) : Call → Prop
  | link {path : String} {index : Word} {m' : Machine} (hok : Machine.link path m = .ok index m') :
      LinksLibrary table m (.link path)
  | step {i : Instruction} {m' : Machine} (hfetch : fetch m = .ok i m)
      (hop : Opcode.ofByte? i.opcode = some .int)
      (hservice : table.get i.operand = .ok Interrupt.linkModule)
      (hok : Machine.step table m = .ok () m') : LinksLibrary table m .step

open Classical in
noncomputable def linksMade (table : Interrupt.Table) : Machine → List Call → Nat
  | _, [] => 0
  | m, call :: calls =>
    (if call.LinksLibrary table m then 1 else 0) + linksMade table (call.apply table m) calls

/-- Linking takes one more slot. -/
theorem Links.size_eq {path : String} (h : Links path m index m') :
    m'.modules.size = m.modules.size + 1 := by
  cases h
  exact Array.size_push _

theorem Unlinks.size_eq (h : Unlinks index m m') : m'.modules.size = m.modules.size := by
  cases h
  exact Array.size_setIfInBounds

theorem Tears.size_eq (h : Tears index m m') : m'.modules.size = m.modules.size := by
  cases h
  exact Array.size_setIfInBounds

/-- Only the service that links takes a slot. -/
theorem Serves.size_eq {code : Nat} (h : Serves m code m') :
    m'.modules.size = m.modules.size + if code = 9 then 1 else 0 := by
  cases h with
  | stream hcode =>
    rw [if_neg (by omega)]
    rfl
  | link hitems htext hlinks => exact hlinks.size_eq
  | unlink hitems hunlinks => exact hunlinks.size_eq
  | openFile | write | close | malloc | free | symbol | readNothing | read => rfl

theorem SameGuest.modules_eq (h : SameGuest m m') : m'.modules = m.modules := by
  rcases h with ⟨host, loader, journal, rfl⟩
  rfl

theorem Falters.size_eq {code : Nat} (h : Falters m code m') :
    m'.modules.size = m.modules.size := by
  cases h with
  | clean hsame => rw [hsame.modules_eq]
  | unlink hitems htears => exact htears.size_eq
  | read => rfl

/-- An instruction that fails makes no slot. -/
theorem size_of_exec_error (htable : table.IsStandard) {i : Instruction} {e : Fault}
    (h : exec table i m = .error e m') : m'.modules.size = m.modules.size := by
  rcases exec_cases table i m with ⟨e', he'⟩ | ⟨op, hint, -, hexec⟩ | ⟨service, -, hget, hexec⟩
  · rw [he'] at h
    cases h
    rfl
  · rw [hexec] at h
    rw [(perform_clean hint e m' h).modules_eq]
  · rw [hexec] at h
    rcases htable hget with ⟨code, hservice⟩
    exact (falters_of_error hservice h).size_eq

/-- An instruction that succeeds makes a slot if it calls the service that links, and only then. -/
theorem size_of_exec_ok (htable : table.IsStandard) {i : Instruction}
    (h : exec table i m = .ok () m') :
    Opcode.ofByte? i.opcode = some .int ∧ table.get i.operand = .ok Interrupt.linkModule ∧
        m'.modules.size = m.modules.size + 1 ∨
      ¬(Opcode.ofByte? i.opcode = some .int ∧ table.get i.operand = .ok Interrupt.linkModule) ∧
        m'.modules.size = m.modules.size := by
  rcases exec_cases table i m with ⟨e, he⟩ | ⟨op, hint, hop, hexec⟩ | ⟨service, hop, hget, hexec⟩
  · rw [he] at h
    cases h
  · rw [hexec] at h
    refine .inr ⟨?_, by rw [(performs_of_ok hint h).isLocal.modules]⟩
    rintro ⟨hother, -⟩
    rw [hop] at hother
    cases hother
    exact hint rfl
  · rw [hexec] at h
    by_cases hlink : table.get i.operand = .ok Interrupt.linkModule
    · rw [hget] at hlink
      cases hlink
      exact .inl ⟨hop, hget, (serves_of_ok .link h).size_eq⟩
    · refine .inr ⟨fun hboth => hlink hboth.2, ?_⟩
      rcases htable hget with ⟨code, hservice⟩
      -- the only service with this code is the one that was just ruled out
      have hcode : code ≠ 9 := by
        rintro rfl
        cases hservice
        exact hlink hget
      rw [(serves_of_ok hservice h).size_eq, if_neg hcode, Nat.add_zero]

/-- A step that fails makes no slot. -/
theorem size_of_step_error (htable : table.IsStandard) {e : Fault}
    (h : step table m = .error e m') : m'.modules.size = m.modules.size := by
  rcases step_cases table m with ⟨-, e', he'⟩ | ⟨-, i, -, hexec⟩
  · rw [he'] at h
    cases h
    rfl
  · have hsize : m'.modules.size = m.advanced.modules.size :=
      size_of_exec_error htable (hexec.symm.trans h)
    exact hsize

open Classical in
/-- A step that succeeds takes a slot exactly if it links. -/
theorem size_of_step_ok (htable : table.IsStandard) (h : step table m = .ok () m') :
    m'.modules.size =
      m.modules.size + if Call.LinksLibrary table m .step then 1 else 0 := by
  rcases step_cases table m with ⟨-, e, he⟩ | ⟨-, i, hi, hexec⟩
  · rw [h] at he
    cases he
  · rcases size_of_exec_ok htable (hexec.symm.trans h) with ⟨hop, hget, hsize⟩ | ⟨hother, hsize⟩
    · rw [if_pos (.step hi hop hget h)]
      exact hsize
    · have hnone : ¬Call.LinksLibrary table m .step := by
        intro hlinks
        cases hlinks with
        | step hfetch hop hget _ =>
          rw [hi] at hfetch
          cases hfetch
          exact hother ⟨hop, hget⟩
      rw [if_neg hnone]
      exact hsize

open Classical in
/-- A call that links a library makes a slot, and no other call does. -/
theorem size_call (htable : table.IsStandard) (call : Call) :
    (call.apply table m).modules.size =
      m.modules.size + if call.LinksLibrary table m then 1 else 0 := by
  cases call with
  | step =>
    rw [Call.apply]
    rcases left_cases (step table) m with ⟨_, hok⟩ | ⟨e, he⟩
    · exact size_of_step_ok htable hok
    · have hnone : ¬Call.LinksLibrary table m .step := by
        intro hlinks
        cases hlinks with
        | step _ _ _ hok =>
          rw [he] at hok
          cases hok
      rw [if_neg hnone]
      exact size_of_step_error htable he
  | link path =>
    rw [Call.apply]
    rcases left_cases (link path) m with ⟨index, hok⟩ | ⟨e, he⟩
    · rw [if_pos (.link hok)]
      exact (links_of_ok hok).size_eq
    · have hnone : ¬Call.LinksLibrary table m (.link path) := by
        intro hlinks
        cases hlinks with
        | link hok =>
          rw [he] at hok
          cases hok
      rw [if_neg hnone, (clean_link path e _ he).modules_eq]
      rfl
  | unlink index =>
    have hnone : ¬Call.LinksLibrary table m (.unlink index) := by
      intro hlinks
      cases hlinks
    rw [Call.apply, if_neg hnone]
    rcases left_cases (unlink index) m with ⟨_, hok⟩ | ⟨e, he⟩
    · exact (unlinks_of_ok hok).size_eq
    · rcases unlink_error he with heq | htears
      · rw [heq]
        rfl
      · exact htears.size_eq

/-- There are as many new slots as libraries were linked. -/
theorem size_after (htable : table.IsStandard) (calls : List Call) :
    (m.after table calls).modules.size = m.modules.size + linksMade table m calls := by
  induction calls generalizing m with
  | nil => rfl
  | cons call calls ih =>
    have hrest : ((call.apply table m).after table calls).modules.size =
        (call.apply table m).modules.size + linksMade table (call.apply table m) calls := ih
    calc (m.after table (call :: calls)).modules.size
        = (call.apply table m).modules.size + linksMade table (call.apply table m) calls := hrest
      _ = m.modules.size + linksMade table m (call :: calls) := by
          rw [size_call htable, linksMade, Nat.add_assoc]

/-! ## Room -/

/-- A slot is made only where the capacity leaves room for it. -/
theorem Alters.slots_le_capacity (h : Alters m m') :
    m'.moduleCapacity = m.moduleCapacity ∧
      m'.modules.size ≤ max m.modules.size m.moduleCapacity.toNat := by
  cases h with
  | locally hlocal =>
    rw [hlocal.modules]
    exact ⟨hlocal.moduleCapacity, Nat.le_max_left _ _⟩
  | links hlinks hlocal =>
    rw [hlocal.modules, hlocal.moduleCapacity, hlinks.size_eq]
    cases hlinks with
    | intro hroom hload => exact ⟨rfl, Nat.le_trans hroom (Nat.le_max_right _ _)⟩
  | unlinks hunlinks hlocal =>
    rw [hlocal.modules, hlocal.moduleCapacity, hunlinks.size_eq]
    cases hunlinks
    exact ⟨rfl, Nat.le_max_left _ _⟩
  | tears htears =>
    rw [htears.size_eq]
    cases htears
    exact ⟨rfl, Nat.le_max_left _ _⟩

/-- There are never more slots than the machine has room for. -/
theorem size_after_le {module : Module} {loader : Loader} {capacities : Capacities} {host : Host}
    (hstart : start module loader capacities host = .ok m) (htable : table.IsStandard)
    (calls : List Call) :
    (m.after table calls).modules.size ≤ max 1 capacities.modules.toNat := by
  have hkept : (m.after table calls).moduleCapacity = capacities.modules ∧
      (m.after table calls).modules.size ≤ max 1 capacities.modules.toNat := by
    refine after_induction (P := fun m => m.moduleCapacity = capacities.modules ∧
      m.modules.size ≤ max 1 capacities.modules.toNat) ?_ ?_ calls
    · rintro m call ⟨hcapacity, hslots⟩
      have hcall : (call.apply table m).moduleCapacity = m.moduleCapacity ∧
          (call.apply table m).modules.size ≤ max m.modules.size m.moduleCapacity.toNat := by
        rcases call_cases htable call m with halters | ⟨-, halters⟩
        · exact halters.slots_le_capacity
        · exact halters.slots_le_capacity
      rw [hcapacity] at hcall
      exact ⟨hcall.1, Nat.le_trans hcall.2 (Nat.max_le.2 ⟨hslots, Nat.le_max_right _ _⟩)⟩
    · rcases start_ok hstart with ⟨-, rfl⟩
      exact ⟨rfl, Nat.le_max_left _ _⟩
  exact hkept.2

/-! ## Runs -/

/-- Any two machines of a run, `s` and a later `t`: the module table of `t` continues that of `s`,
an index that is empty in `s` is refused in `t`, and a frame whose index stood for a module in `s`,
as that of every call does, resumes in `t` in no other code. All libraries that a run can link have
to find a slot, so that their number is bounded by the capacity. -/
theorem module_index_permanent {module : Module} {loader : Loader} {capacities : Capacities}
    {host : Host} {first : Machine} (hstart : start module loader capacities host = .ok first)
    {table : Interrupt.Table} (htable : table.IsStandard) (calls later : List Call) (s t : Machine)
    (hs : s = first.after table calls) (ht : t = s.after table later) :
    Continues s t ∧
      (∀ index : Word, s.modules[index.toNat]? = some none → Refuses table index t) ∧
      (∀ index owner, s.module index = .ok owner → ResumesIn table index owner t) ∧
      (∀ i op s', fetch s = .ok i s → Opcode.ofByte? i.opcode = some op → op = .call ∨ op = .vcall →
        step table s = .ok () s' →
        ∃ owner, s.module s.active = .ok owner ∧
          s'.stack.items = (s.pc + 1) :: s.active :: s.stack.items.drop op.takes) ∧
      s.modules.size = 1 + linksMade table first calls ∧
      linksMade table first calls ≤ max 1 capacities.modules.toNat - 1 := by
  have hcontinues : Continues s t := by
    subst ht
    exact continues_after htable later
  have hone : first.modules.size = 1 := by
    rcases start_ok hstart with ⟨-, rfl⟩
    rfl
  have hslots : s.modules.size = 1 + linksMade table first calls := by
    rw [hs, size_after htable, hone]
  have hroom : s.modules.size ≤ max 1 capacities.modules.toNat := by
    rw [hs]
    exact size_after_le hstart htable calls
  refine ⟨hcontinues, ?_, ?_, ?_, hslots, ?_⟩
  · intro index hempty
    exact refuses_of_empty (hcontinues.empty hempty)
  · intro index owner howner
    exact hcontinues.resumesIn howner
  · intro i op s' hfetch hop hcall hstep
    rcases (fetch_ok_iff.1 hfetch).1 with ⟨owner, howner, -⟩
    exact ⟨owner, howner, frame_of_call hfetch hop hcall hstep⟩
  · omega

/-- A library that is unlinked and linked again gets a slot of its own. The index that it had before
is refused from then on, and the program is still where it was. -/
theorem module_index_permanent_relinked :
    let library : Image := { flags := .library, instructions := #[.of .ret 0] }
    let program : Module := { instructions := #[.of .nop 0] }
    let loader : Loader := .registry [("library", some library.encode)]
    ∃ (first s t : Machine) (owner : Module), start program loader {} {} = .ok first ∧
      Interrupt.standard.IsStandard ∧
      s = first.after Interrupt.standard [.link "library", .unlink 1] ∧
      t = s.after Interrupt.standard [.link "library"] ∧ t.modules.size = 3 ∧
      s.modules[1]? = some none ∧ Refuses Interrupt.standard 1 t ∧ s.module 0 = .ok owner ∧
      ResumesIn Interrupt.standard 0 owner t ∧
      linksMade Interrupt.standard first [.link "library", .unlink 1] = 1 := by
  intro library program loader
  have hrun : ∃ (first s t : Machine) (owner : Module), start program loader {} {} = .ok first ∧
      s = first.after Interrupt.standard [.link "library", .unlink 1] ∧
      t = s.after Interrupt.standard [.link "library"] ∧ s.modules[1]? = some none ∧
      t.modules.size = 3 ∧ s.modules.size = 2 ∧ s.module 0 = .ok owner := by
    dsimp only [library, program, loader]
    exact ⟨_, _, _, _, rfl, rfl, rfl, rfl, rfl, rfl, rfl⟩
  rcases hrun with ⟨first, s, t, owner, hstart, hs, ht, hempty, hthree, htwo, howner⟩
  have hpermanent := module_index_permanent hstart Interrupt.isStandard_standard _ _ s t hs ht
  rcases hpermanent with ⟨-, hrefuses, hresumes, -, hslots, -⟩
  have hlinks : linksMade Interrupt.standard first [.link "library", .unlink 1] = 1 := by omega
  exact ⟨first, s, t, owner, hstart, Interrupt.isStandard_standard, hs, ht, hthree, hempty,
    hrefuses 1 hempty, howner, hresumes 0 owner howner, hlinks⟩

end Machine
end StackMachine

import StackMachine.Proofs.RegionStore
import StackMachine.Proofs.Run

/-!
# Footprint — what a step can do to guest memory

All operations and services share one guest memory. A step takes at most one region out of it, adds
at most one, or changes bytes of one region, and the next instruction says which:

* `Machine.Removes` — the regions that a step takes out;
* `Machine.Writes` — the bytes that a step may change;
* `Machine.Adds` — the region that a step adds;
* `Machine.Touches` — guest memory after a step, as a change that the three allow;
* `Machine.step_framed` — everything else stays as it is, in every machine, whether the step
  succeeds or fails.
-/

namespace StackMachine

/-- The place with an offset in a region is among the `length` bytes at an address. -/
def Address.Within (a : Word) (length number offset : Nat) : Prop :=
  Address.region a = number ∧ Address.offset a ≤ offset ∧ offset < Address.offset a + length

/-- Copying bytes into an array changes nothing outside of where they go. -/
theorem Heap.getElem?_splice {target : Array UInt8} {start i : Nat} {bytes : Bytes}
    (houtside : i < start ∨ start + bytes.length ≤ i) :
    (splice target start bytes)[i]? = target[i]? := by
  induction bytes generalizing target start with
  | nil => rfl
  | cons b bs ih =>
    rw [List.length_cons] at houtside
    have hother : start ≠ i := by omega
    rw [splice, ih (by omega), Array.getElem?_setIfInBounds_ne hother]

/-! ## Input -/

/-- A request gets at most as many bytes as are still wanted. -/
theorem Source.length_fillFrom_le (got : Bytes) (n : Nat) (events : List Event) :
    (fillFrom got n events).bytes.length ≤ got.length + n := by
  fun_induction fillFrom got n events with
  | case5 got n rest ih => exact ih
  | case7 got n b bs rest chunk hshort ih =>
    rw [List.length_append] at ih
    omega
  | case8 got n b bs rest chunk hlong =>
    rw [List.length_append, List.length_take]
    omega
  | _ => exact Nat.le_add_right _ _

theorem Source.length_fill_le (s : Source) (n : Nat) : (s.fill n).1.1.length ≤ n := by
  have hfill := length_fillFrom_le [] n s.events
  rwa [List.length_nil, Nat.zero_add] at hfill

/-- A read gets at most as many bytes as were asked for. -/
theorem Host.length_read_le {h host : Host} {handle : Word} {n : Nat} {bytes : Bytes}
    {fault : Option Fault} (hread : h.read handle n = ((bytes, fault), host)) :
    bytes.length ≤ n := by
  unfold Host.read at hread
  split at hread
  · cases hread
    exact Nat.zero_le n
  · cases hread
    exact Nat.zero_le n
  · cases hread
    exact Nat.zero_le n
  · cases hread
    exact Source.length_fill_le _ n
  · cases hread
    exact Source.length_fill_le _ n

/-! ## Libraries -/

/-- A library that was loaded has the memory of its image. -/
theorem Load.image_of_libraryInto {module : Module} {bytes : Bytes}
    (hload : libraryInto {} bytes = (.ok (), module)) :
    ∃ h i, Section.image bytes = .ok ((h, i), []) ∧ module.memory = .detached i.memory := by
  unfold libraryInto at hload
  split at hload
  next header filled hinto =>
    split at hload
    · cases hload
      rcases into_ok_iff.1 hinto with ⟨-, l, i, hbytes, hwrites, rfl⟩
      exact ⟨header, i, Section.image_ok_iff.2 ⟨rfl, l, hbytes, hwrites⟩, rfl⟩
    · cases hload
  next => cases hload

/-- A linked module has the memory of the image that the loader found at the path. -/
theorem Linker.image_of_load {path : String} {l l' : Loader} {module : Module}
    (hload : Linker.load path l = .ok module l') :
    ∃ image h i, l.answer l.history path = .mapped (some image) ∧
      Section.image image = .ok ((h, i), []) ∧ module.memory = .detached i.memory := by
  unfold Linker.load at hload
  split at hload
  next => cases hload
  next image hanswer =>
    cases image with
    | none => cases hload
    | some bytes =>
      dsimp only at hload
      split at hload
      next loaded hlibrary =>
        cases hload
        rcases Load.image_of_libraryInto hlibrary with ⟨h, i, hread, hmemory⟩
        exact ⟨bytes, h, i, hanswer, hread, hmemory⟩
      next => cases hload

namespace Machine

open Interrupt

variable {table : Interrupt.Table} {op : Opcode} {operand : Word} {code : Nat} {m m' : Machine}

theorem install_of_nil {heap : Heap} {module : Module} (hmemory : module.memory = .detached []) :
    (install heap module).2 = heap := by
  unfold install
  rw [hmemory]

/-- The memory of a module gets a region of its own. -/
theorem install_of_ne_nil {heap : Heap} {module : Module} {bytes : Bytes}
    (hmemory : module.memory = .detached bytes) (hbytes : bytes ≠ []) :
    (install heap module).2 = (heap.insert ⟨.module, bytes.toArray⟩).2 := by
  unfold install
  rw [hmemory]
  cases bytes with
  | nil => exact absurd rfl hbytes
  | cons b bs => rfl

/-! ## The next instruction -/

/-- The next instruction performs an operation with an operand. -/
def Next (m : Machine) (op : Opcode) (operand : Word) : Prop :=
  ∃ i, fetch m = .ok i m ∧ Opcode.ofByte? i.opcode = some op ∧ i.operand = operand

/-- The next instruction calls the standard service with a code. -/
def Calls (table : Interrupt.Table) (m : Machine) (code : Nat) : Prop :=
  ∃ operand service, m.Next .int operand ∧ table.get operand = .ok service ∧ Provides code service

def Succeeds (table : Interrupt.Table) (m : Machine) : Prop := ∃ m', step table m = .ok () m'

/-- A step that succeeds does what its operation does. -/
theorem Next.performs (hnext : m.Next op operand) (hop : op ≠ .int)
    (hstep : step table m = .ok () m') : Performs operand m.advanced op m' := by
  rcases hnext with ⟨i, hfetch, hbyte, rfl⟩
  exact performs_of_step hfetch hbyte hop hstep

/-- A step that calls a service is the service. -/
theorem Calls.step_eq (hcalls : m.Calls table code) :
    ∃ service, Provides code service ∧ step table m = service m.advanced := by
  rcases hcalls with ⟨_, service, ⟨i, hfetch, hop, rfl⟩, hget, hprovides⟩
  refine ⟨service, hprovides, ?_⟩
  rw [step_of_fetch hfetch hop, perform_int, hget]

/-- A step that calls a service and succeeds does what the service does. -/
theorem Calls.serves (hcalls : m.Calls table code) (hstep : step table m = .ok () m') :
    Serves m.advanced code m' := by
  rcases hcalls.step_eq with ⟨service, hprovides, heq⟩
  rw [heq] at hstep
  exact serves_of_ok hprovides hstep

theorem Calls.falters {e : Fault} (hcalls : m.Calls table code)
    (hstep : step table m = .error e m') : Falters m.advanced code m' := by
  rcases hcalls.step_eq with ⟨service, hprovides, heq⟩
  rw [heq] at hstep
  exact falters_of_error hprovides hstep

/-- In the standard table every code has its service. -/
theorem calls_standard {code : Word} {service : Action Unit}
    (hfetch : fetch m = .ok (.of .int code) m) (h : services[code.toNat]? = some service) :
    m.Calls standard code.toNat :=
  ⟨code, service, ⟨_, hfetch, rfl, rfl⟩, get_standard h, provides_of_getElem? h⟩

/-! ## Footprints -/

/-- The step takes the region with a number out of guest memory. -/
inductive Removes (table : Interrupt.Table) (m : Machine) (number : Nat) : Prop
  /-- The pool on top is given back. -/
  | freePool {operand pool pools} (hnext : m.Next .freePool operand) (hok : m.Succeeds table)
      (hpools : m.pools.items = pool :: pools) (hguest : m.heap.starts pool .guest = true)
      (hbase : pool.toNat = number * Address.offsets)
  /-- The address on the stack is given back. -/
  | free {a rest} (hcalls : m.Calls table 8) (hok : m.Succeeds table)
      (hitems : m.stack.items = a :: rest) (hguest : m.heap.starts a .guest = true)
      (hbase : a.toNat = number * Address.offsets)
  /-- The module on the stack is unlinked, and this is its memory. -/
  | unlink {index rest module base length} (hcalls : m.Calls table 10) (hok : m.Succeeds table)
      (hitems : m.stack.items = index :: rest) (hmodule : m.module index = .ok module)
      (hmemory : module.memory = .mapped base length) (hstarts : m.heap.starts base .module = true)
      (hbase : base.toNat = number * Address.offsets)

/-- The step may change the byte at an offset of the region with a number. -/
inductive Writes (table : Interrupt.Table) (m : Machine) (number offset : Nat) : Prop
  | store {operand width value rest pool pools a} (hnext : m.Next .store operand)
      (hok : m.Succeeds table) (hitems : m.stack.items = width :: value :: rest)
      (hpools : m.pools.items = pool :: pools) (haddress : Address.advance? pool operand = some a)
      (hwithin : Address.Within a width.toNat number offset)
  | storePtr {operand value a rest} (hnext : m.Next .storePtr operand) (hok : m.Succeeds table)
      (hitems : m.stack.items = value :: a :: rest)
      (hwithin : Address.Within a operand.toNat number offset)
  | storeArray {operand value index base rest a} (hnext : m.Next .storeArray operand)
      (hok : m.Succeeds table) (hitems : m.stack.items = value :: index :: base :: rest)
      (haddress : Address.advance? base index = some a)
      (hwithin : Address.Within a operand.toNat number offset)
  /-- Input that arrived before a fault stays, so that the step need not succeed. -/
  | read {buffer size count handle rest} (hcalls : m.Calls table 12)
      (hitems : m.stack.items = buffer :: size :: count :: handle :: rest)
      (hwithin : Address.Within buffer (count.toNat * size.toNat) number offset)

/-- The step adds a region to guest memory. The host has to provide the bytes of an allocation. -/
inductive Adds (table : Interrupt.Table) (m : Machine) : Region → Prop
  /-- The pool table of the active module gives the size. -/
  | mallocPool {operand module} (hnext : m.Next .mallocPool operand) (hok : m.Succeeds table)
      (hmodule : m.module m.active = .ok module)
      (hprovides : m.heap.provides (module.pool.get operand).toNat = true) :
      Adds table m ⟨.guest, Array.replicate (module.pool.get operand).toNat 0⟩
  | pushArray {operand size rest} (hnext : m.Next .pushArray operand) (hok : m.Succeeds table)
      (hitems : m.stack.items = size :: rest) (hfits : size.toNat ≤ Address.maxRegionLength)
      (hprovides : m.heap.provides size.toNat = true) :
      Adds table m ⟨.guest, Array.replicate size.toNat 0⟩
  | malloc {size rest} (hcalls : m.Calls table 7) (hok : m.Succeeds table)
      (hitems : m.stack.items = size :: rest) (hfits : size.toNat ≤ Address.maxRegionLength)
      (hprovides : m.heap.provides size.toNat = true) :
      Adds table m ⟨.guest, Array.replicate size.toNat 0⟩
  /-- The memory of the image that the loader finds, unless it is empty. -/
  | link {path rest text image h i} (hcalls : m.Calls table 9) (hok : m.Succeeds table)
      (hitems : m.stack.items = path :: rest) (htext : m.heap.cString path = .ok text)
      (hanswer : m.loader.answer m.loader.history (Utf8.lossy text) = .mapped (some image))
      (himage : Section.image image = .ok ((h, i), [])) (hmemory : i.memory ≠ []) :
      Adds table m ⟨.module, i.memory.toArray⟩

inductive Touches (table : Interrupt.Table) (m : Machine) : Heap → Prop
  | stay : Touches table m m.heap
  /-- The host was asked for memory in vain. -/
  | starves {supply} : Touches table m (m.heap.withSupply supply)
  | removes {a owner} (hstarts : m.heap.starts a owner = true)
      (hremoves : m.Removes table (Address.region a)) : Touches table m (m.heap.erase a)
  | writes {a bytes} (hwrites : ∀ offset, Address.Within a bytes.length (Address.region a) offset →
      m.Writes table (Address.region a) offset) : Touches table m (m.heap.overwrite a bytes)
  | adds {r supply} (hadds : m.Adds table r) :
      Touches table m ((m.heap.withSupply supply).insert r).2

/-! ## Steps -/

/-- Giving back an address takes out at most its region. -/
theorem Touches.release {a : Word} {heap : Heap} (hrelease : m.heap.release a = .ok heap)
    (hremoves : m.heap.starts a .guest = true →
      ∀ number, a.toNat = number * Address.offsets → m.Removes table number) :
    Touches table m heap := by
  rcases Heap.release_ok_iff.1 hrelease with ⟨-, rfl⟩ | ⟨-, hstarts, rfl⟩
  · exact .stay
  · rcases Heap.starts_iff.1 hstarts with ⟨r, -, hoffset, -⟩
    exact .removes hstarts (hremoves hstarts _ (Address.toNat_eq_iff.2 ⟨rfl, hoffset⟩))

/-- An allocation adds a region if the size fits and the host provides it. -/
theorem Touches.allocate {size : Word}
    (hadds : size.toNat ≤ Address.maxRegionLength → m.heap.provides size.toNat = true →
      m.Adds table ⟨.guest, Array.replicate size.toNat 0⟩) :
    Touches table m (m.heap.allocate size).2 := by
  rcases m.heap.allocate_cases size with ⟨supply, heq | ⟨hfits, hprovides, heq⟩⟩
  · rw [heq]
    exact .starves
  · rw [heq]
    exact .adds (hadds hfits hprovides)

/-- Storing a value changes as many bytes as the width says. -/
theorem Touches.store {a value width : Word} (hwrites : ∀ offset,
      Address.Within a width.toNat (Address.region a) offset →
        m.Writes table (Address.region a) offset) :
    Touches table m (m.heap.store a value width) := by
  refine .writes fun offset hwithin => hwrites offset ?_
  rwa [Bytes.length_ofNatLE] at hwithin

theorem Branches.heap_eq {onZero : Bool} {target : Word} (h : Branches onZero target m m') :
    m'.heap = m.heap := by
  cases h with
  | taken => rfl
  | passed => rfl

/-- What an operation does to guest memory. -/
theorem Next.touches (hnext : m.Next op operand) (hop : op ≠ .int)
    (hstep : step table m = .ok () m') : Touches table m m'.heap := by
  have hok : m.Succeeds table := ⟨m', hstep⟩
  have hperforms : Performs operand m.advanced op m' := hnext.performs hop hstep
  cases hperforms with
  | store hitems hpools haddress =>
    exact .store fun offset hwithin => .store hnext hok hitems hpools haddress hwithin
  | mallocPool hroom hmodule =>
    refine .allocate fun _ hprovides => ?_
    rw [UInt16.toNat_toUInt64] at hprovides ⊢
    exact .mallocPool hnext hok hmodule hprovides
  | freePool hpools hrelease =>
    -- a pool may be the null address, which is given back without effect
    exact .release hrelease fun hguest number hbase => .freePool hnext hok hpools hguest hbase
  | storePtr hitems =>
    exact .store fun offset hwithin => .storePtr hnext hok hitems hwithin
  | pushArray hitems =>
    exact .allocate fun hfits hprovides => .pushArray hnext hok hitems hfits hprovides
  | storeArray hitems haddress =>
    exact .store fun offset hwithin => .storeArray hnext hok hitems haddress hwithin
  | jmpZero hbranch =>
    rw [hbranch.heap_eq]
    exact .stay
  | jmpNotZero hbranch =>
    rw [hbranch.heap_eq]
    exact .stay
  | _ => exact .stay

/-- Input changes bytes of the buffer only. -/
theorem Calls.touches_read (hcalls : m.Calls table 12) {buffer size count handle : Word}
    {rest : List Word} {bytes : Bytes} {fault : Option Fault} {host : Host}
    (hitems : m.stack.items = buffer :: size :: count :: handle :: rest)
    (hread : m.host.read handle (count.toNat * size.toNat) = ((bytes, fault), host)) :
    Touches table m (m.heap.overwrite buffer bytes) := by
  have hlength : bytes.length ≤ count.toNat * size.toNat := Host.length_read_le hread
  refine .writes fun offset hwithin => .read hcalls hitems ?_
  exact ⟨hwithin.1, hwithin.2.1, Nat.lt_of_lt_of_le hwithin.2.2 (Nat.add_le_add_left hlength _)⟩

/-- A linked library adds its memory. -/
theorem Calls.touches_link (hcalls : m.Calls table 9) (hok : m.Succeeds table) {path index : Word}
    {rest : List Word} {text : Bytes} (hitems : m.stack.items = path :: rest)
    (htext : m.heap.cString path = .ok text)
    (hlinks : Links (Utf8.lossy text) m.advanced index m') : Touches table m m'.heap := by
  cases hlinks with
  | @intro module loader hroom hload =>
    rcases Linker.image_of_load hload with ⟨image, h, i, hanswer, himage, hmemory⟩
    by_cases hempty : i.memory = []
    · -- a library without memory gets no region
      rw [hempty] at hmemory
      rw [install_of_nil hmemory]
      exact .stay
    · rw [install_of_ne_nil hmemory hempty]
      exact @Touches.adds _ _ _ m.heap.supply
        (.link hcalls hok hitems htext hanswer himage hempty)

/-- An unlinked module takes its memory with it. -/
theorem Calls.touches_unlink (hcalls : m.Calls table 10) (hok : m.Succeeds table) {index : Word}
    {rest : List Word} (hitems : m.stack.items = index :: rest)
    (hunlinks : Unlinks index m.advanced m') : Touches table m m'.heap := by
  cases hunlinks with
  | @intro module heap hindex hmodule hunmap =>
    rcases Segment.unmapFrom_cases hunmap with ⟨-, rfl⟩ | ⟨base, length, hmemory, hstarts, rfl⟩
    · exact .stay
    · rcases Heap.starts_iff.1 hstarts with ⟨r, -, hoffset, -⟩
      have hbase : base.toNat = Address.region base * Address.offsets :=
        Address.toNat_eq_iff.2 ⟨rfl, hoffset⟩
      exact .removes hstarts (.unlink hcalls hok hitems hmodule hmemory hstarts hbase)

/-- What a service that succeeds does to guest memory. -/
theorem Calls.touches_of_ok (hcalls : m.Calls table code) (hstep : step table m = .ok () m') :
    Touches table m m'.heap := by
  have hok : m.Succeeds table := ⟨m', hstep⟩
  have hserves : Serves m.advanced code m' := hcalls.serves hstep
  cases hserves with
  | malloc hitems =>
    exact .allocate fun hfits hprovides => .malloc hcalls hok hitems hfits hprovides
  | free hitems hrelease =>
    exact .release hrelease fun hguest number hbase => .free hcalls hok hitems hguest hbase
  | link hitems htext hlinks => exact (hcalls.touches_link hok hitems htext hlinks :)
  | unlink hitems hunlinks => exact (hcalls.touches_unlink hok hitems hunlinks :)
  | read hitems hlength hsome hcovers hread => exact hcalls.touches_read hitems hread
  | _ => exact .stay

theorem Calls.touches_of_error {e : Fault} (hcalls : m.Calls table code)
    (hstep : step table m = .error e m') : Touches table m m'.heap := by
  have hfalters : Falters m.advanced code m' := hcalls.falters hstep
  cases hfalters with
  | clean hsame =>
    rcases hsame with ⟨host, loader, journal, rfl⟩
    exact .stay
  | unlink hitems htears =>
    -- the slot is empty, but the memory of the module is still there
    cases htears
    exact .stay
  | read hitems hcovers hread => exact hcalls.touches_read hitems hread

/-- Every step has one of these footprints. -/
theorem touches_step (htable : table.IsStandard) (m : Machine) :
    Touches table m (left (step table) m).heap := by
  rcases step_cases table m with ⟨-, e, hstalled⟩ | ⟨-, i, hfetch, hstep⟩
  · rw [left_of_error hstalled]
    exact .stay
  rcases exec_cases table i m.advanced with ⟨e, hrefused⟩ | ⟨op, hop, hbyte, hexec⟩ |
    ⟨service, hbyte, hget, -⟩
  · rw [left_of_error (hstep.trans hrefused)]
    exact .stay
  · have hnext : m.Next op i.operand := ⟨i, hfetch, hbyte, rfl⟩
    rcases left_cases (step table) m with ⟨_, hok⟩ | ⟨e, he⟩
    · exact hnext.touches hop hok
    · -- an operation that faults has not changed anything
      have hfault := he
      rw [hstep, hexec] at hfault
      rcases perform_clean hop e _ hfault with ⟨host, loader, journal, heq⟩
      rw [heq]
      exact .stay
  · rcases htable hget with ⟨code, hprovides⟩
    have hcalls : m.Calls table code := ⟨_, service, ⟨i, hfetch, hbyte, rfl⟩, hget, hprovides⟩
    rcases left_cases (step table) m with ⟨_, hok⟩ | ⟨e, he⟩
    · exact hcalls.touches_of_ok hok
    · exact hcalls.touches_of_error he

/-! ## What stays -/

/-- A live region is taken out as the footprint says, or keeps its owner, its length and all bytes
outside of what is written. -/
theorem Touches.kept {heap : Heap} (h : Touches table m heap) {number : Nat} {r : Region}
    (hlive : m.heap.lookup number = some r) :
    heap.lookup number = none ∧ m.Removes table number ∨
      ∃ r', heap.lookup number = some r' ∧ r'.owner = r.owner ∧ r'.bytes.size = r.bytes.size ∧
        ∀ offset, r'.bytes[offset]? ≠ r.bytes[offset]? → m.Writes table number offset := by
  have hsame {heap : Heap} (hlookup : heap.lookup number = m.heap.lookup number) :
      ∃ r', heap.lookup number = some r' ∧ r'.owner = r.owner ∧ r'.bytes.size = r.bytes.size ∧
        ∀ offset, r'.bytes[offset]? ≠ r.bytes[offset]? → m.Writes table number offset :=
    ⟨r, hlookup.trans hlive, rfl, rfl, fun _ hne => absurd rfl hne⟩
  cases h with
  | stay => exact .inr (hsame rfl)
  | starves => exact .inr (hsame rfl)
  | @removes a owner hstarts hremoves =>
    have hlookup := m.heap.lookup_erase a number
    by_cases hnumber : number = Address.region a
    · rw [if_pos hnumber] at hlookup
      rw [← hnumber] at hremoves
      exact .inl ⟨hlookup, hremoves⟩
    · rw [if_neg hnumber] at hlookup
      exact .inr (hsame hlookup)
  | @writes a bytes hwrites =>
    have hlookup := Heap.lookup_overwrite m.heap a bytes number
    by_cases hnumber : number = Address.region a
    · rw [if_pos hnumber, hlive] at hlookup
      refine .inr ⟨_, hlookup, rfl, Heap.size_splice _ _ _, fun offset hne => ?_⟩
      rw [← hnumber] at hwrites
      refine hwrites offset ⟨hnumber.symm, ?_⟩
      -- a byte that differs is one of those that were copied
      by_contra houtside
      exact hne (Heap.getElem?_splice (by omega))
    · rw [if_neg hnumber] at hlookup
      exact .inr (hsame hlookup)
  | @adds new supply hadds =>
    -- the next number is that of no live region, so the new region is none of the old ones
    have hlookup := (m.heap.withSupply supply).lookup_insert new number
    rw [Heap.next_withSupply, if_neg (Heap.ne_next hlive)] at hlookup
    exact .inr (hsame hlookup)

/-- A region that was not there is the one that the footprint adds. -/
theorem Touches.added {heap : Heap} (h : Touches table m heap) {number : Nat} {r : Region}
    (hfree : m.heap.lookup number = none) (hlive : heap.lookup number = some r) :
    number = m.heap.next ∧ m.Adds table r := by
  cases h with
  | stay =>
    rw [hfree] at hlive
    cases hlive
  | starves =>
    cases hfree.symm.trans hlive
  | @removes a owner hstarts hremoves =>
    rw [Heap.lookup_erase, hfree, ite_self] at hlive
    cases hlive
  | @writes a bytes hwrites =>
    rw [Heap.lookup_overwrite, hfree, Option.map_none, ite_self] at hlive
    cases hlive
  | @adds new supply hadds =>
    rw [Heap.lookup_insert] at hlive
    split at hlive
    next hnumber =>
      cases hlive
      exact ⟨hnumber, hadds⟩
    next => cases hfree.symm.trans hlive

/-! ## What changes -/

/-- A region is taken out when its first address is given back. -/
theorem lookup_of_release {heap heap' : Heap} {a : Word} {number : Nat}
    (hguest : heap.starts a .guest = true) (hrelease : heap.release a = .ok heap')
    (hbase : a.toNat = number * Address.offsets) : heap'.lookup number = none := by
  rcases Address.toNat_eq_iff.1 hbase with ⟨rfl, -⟩
  rcases Heap.release_ok_iff.1 hrelease with ⟨rfl | ⟨-, hother⟩, -⟩ | ⟨-, -, rfl⟩
  · cases hguest
  · rw [hother] at hguest
    cases hguest
  · rw [Heap.lookup_erase, if_pos rfl]

theorem Removes.succeeds {number : Nat} (h : m.Removes table number) : m.Succeeds table := by
  cases h with
  | freePool _ hok => exact hok
  | free _ hok => exact hok
  | unlink _ hok => exact hok

theorem Adds.succeeds {r : Region} (h : m.Adds table r) : m.Succeeds table := by
  cases h with
  | mallocPool _ hok => exact hok
  | pushArray _ hok => exact hok
  | malloc _ hok => exact hok
  | link _ hok => exact hok

/-- A region that a step removes is gone. -/
theorem Removes.lookup_eq_none {number : Nat} (h : m.Removes table number)
    (hstep : step table m = .ok () m') : m'.heap.lookup number = none := by
  cases h with
  | freePool hnext _ hpools hguest hbase =>
    cases hnext.performs (by decide) hstep with
    | freePool hpools' hrelease =>
      cases hpools.symm.trans hpools'
      exact lookup_of_release hguest hrelease hbase
  | free hcalls _ hitems hguest hbase =>
    cases hcalls.serves hstep with
    | stream hcode => exact absurd hcode (by decide)
    | free hitems' hrelease =>
      cases hitems.symm.trans hitems'
      exact lookup_of_release hguest hrelease hbase
  | unlink hcalls _ hitems hmodule hmemory hstarts hbase =>
    cases hcalls.serves hstep with
    | stream hcode => exact absurd hcode (by decide)
    | unlink hitems' hunlinks =>
      cases hitems.symm.trans hitems'
      cases hunlinks with
      | intro hindex hmodule' hunmap =>
        cases hmodule.symm.trans hmodule'
        rcases Address.toNat_eq_iff.1 hbase with ⟨rfl, -⟩
        rcases Segment.unmapFrom_cases hunmap with ⟨hnone, -⟩ | ⟨base, length, hsame, -, rfl⟩
        · cases (hnone _ _ hmemory).symm.trans hstarts
        · cases hmemory.symm.trans hsame
          exact (Heap.lookup_erase _ _ _).trans (if_pos rfl)

/-- A region that a step adds is the next one. -/
theorem Adds.heap_eq {r : Region} (h : m.Adds table r) (hstep : step table m = .ok () m') :
    ∃ supply, m'.heap = ((m.heap.withSupply supply).insert r).2 := by
  cases h with
  | @mallocPool operand module hnext _ hmodule hprovides =>
    cases hnext.performs (by decide) hstep with
    | mallocPool hroom hmodule' =>
      cases hmodule.symm.trans hmodule'
      rw [← UInt16.toNat_toUInt64] at hprovides ⊢
      exact ⟨_, congrArg Prod.snd (Heap.allocate_of_provides
        (Heap.toUInt64_le_maxRegionLength _) hprovides)⟩
  | pushArray hnext _ hitems hfits hprovides =>
    cases hnext.performs (by decide) hstep with
    | pushArray hitems' =>
      cases hitems.symm.trans hitems'
      exact ⟨_, congrArg Prod.snd (Heap.allocate_of_provides hfits hprovides)⟩
  | malloc hcalls _ hitems hfits hprovides =>
    cases hcalls.serves hstep with
    | stream hcode => exact absurd hcode (by decide)
    | malloc hitems' =>
      cases hitems.symm.trans hitems'
      exact ⟨_, congrArg Prod.snd (Heap.allocate_of_provides hfits hprovides)⟩
  | link hcalls _ hitems htext hanswer himage hmemory =>
    cases hcalls.serves hstep with
    | stream hcode => exact absurd hcode (by decide)
    | link hitems' htext' hlinks =>
      cases hitems.symm.trans hitems'
      cases htext.symm.trans htext'
      cases hlinks with
      | intro hroom hload =>
        -- the loader gives one answer, and the image one reading
        rcases Linker.image_of_load hload with ⟨image, h, i, hanswer', himage', hdetached⟩
        cases hanswer.symm.trans hanswer'
        cases himage.symm.trans himage'
        exact ⟨m.heap.supply, install_of_ne_nil hdetached hmemory⟩

/-- A step takes out the regions that it removes and no others. A region that stays keeps its owner,
its length and every byte, except those that the step may write. The one region that a step can add
has the next number. This holds of steps that succeed and of steps that fail. -/
theorem step_framed (htable : table.IsStandard) (m : Machine) :
    (∀ number r, m.heap.lookup number = some r →
      ((left (step table) m).heap.lookup number = none ↔ m.Removes table number) ∧
      ∀ r', (left (step table) m).heap.lookup number = some r' →
        r'.owner = r.owner ∧ r'.bytes.size = r.bytes.size ∧
          ∀ offset, r'.bytes[offset]? ≠ r.bytes[offset]? → m.Writes table number offset) ∧
    ∀ number r, m.heap.lookup number = none →
      ((left (step table) m).heap.lookup number = some r ↔
        number = m.heap.next ∧ m.Adds table r) := by
  have htouches : Touches table m (left (step table) m).heap := touches_step htable m
  refine ⟨fun number r hlive => ⟨⟨?_, ?_⟩, ?_⟩, fun number r hfree => ⟨?_, ?_⟩⟩
  · intro hgone
    rcases htouches.kept hlive with ⟨-, hremoves⟩ | ⟨r', hlookup, -⟩
    · exact hremoves
    · rw [hgone] at hlookup
      cases hlookup
  · intro hremoves
    rcases hremoves.succeeds with ⟨m', hstep⟩
    rw [left_of_ok hstep]
    exact hremoves.lookup_eq_none hstep
  · intro r' hstays
    rcases htouches.kept hlive with ⟨hgone, -⟩ | ⟨found, hlookup, hkept⟩
    · rw [hgone] at hstays
      cases hstays
    · rw [hstays] at hlookup
      cases hlookup
      exact hkept
  · intro hnew
    exact htouches.added hfree hnew
  · rintro ⟨rfl, hadds⟩
    rcases hadds.succeeds with ⟨m', hstep⟩
    rcases hadds.heap_eq hstep with ⟨supply, hheap⟩
    rw [left_of_ok hstep, hheap, Heap.lookup_insert]
    exact if_pos rfl

/-- A program stores a byte into its own memory, and the byte next to it stays. -/
theorem step_framed_store :
    let program : Module :=
      { instructions := #[.of .loadMemory 0, .of .push 7, .of .storePtr 1]
        memory := .detached [5, 6] }
    ∃ (first m : Machine), start program (Loader.registry []) {} {} = .ok first ∧
      m = first.after standard [.step, .step] ∧
      m.heap.lookup 1 = some ⟨.module, #[5, 6]⟩ ∧
      (left (step standard) m).heap.lookup 1 = some ⟨.module, #[7, 6]⟩ ∧
      m.Writes standard 1 0 ∧ ¬m.Removes standard 1 ∧ ∀ r, ¬m.Adds standard r := by
  intro program
  have hrun : ∃ (first m : Machine), start program (Loader.registry []) {} {} = .ok first ∧
      m = first.after standard [.step, .step] ∧ m.heap.lookup 1 = some ⟨.module, #[5, 6]⟩ ∧
      (left (step standard) m).heap.lookup 1 = some ⟨.module, #[7, 6]⟩ ∧
      m.heap.next = 2 ∧ m.heap.lookup 2 = none ∧
      (left (step standard) m).heap.lookup 2 = none :=
    ⟨_, _, rfl, rfl, by decide +kernel, by decide +kernel, by decide +kernel, by decide +kernel,
      by decide +kernel⟩
  rcases hrun with ⟨first, m, hstart, hm, hbefore, hafter, hnext, hfree, hnone⟩
  rcases step_framed isStandard_standard m with ⟨hlive, hnew⟩
  rcases hlive 1 _ hbefore with ⟨hremoved, hkept⟩
  refine ⟨first, m, hstart, hm, hbefore, hafter, ?_, fun hremoves => ?_, fun r hadds => ?_⟩
  · exact (hkept _ hafter).2.2 0 (by decide)
  · rw [hremoved.2 hremoves] at hafter
    cases hafter
  · have hadded := (hnew 2 r hfree).2 ⟨hnext.symm, hadds⟩
    rw [hnone] at hadded
    cases hadded

end Machine
end StackMachine

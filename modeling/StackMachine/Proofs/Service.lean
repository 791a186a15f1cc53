import StackMachine.Machine.Interrupt
import StackMachine.Proofs.Instruction
import StackMachine.Proofs.Linking

/-!
# Service — the rules of the standard services

`Machine.Serves` states, one rule for each standard service, when a service succeeds and which
machine it leaves; the service that exits has no rule, since it always faults. `Machine.Falters`
states what a fault of a service leaves behind.

* `Interrupt.Provides` — which service has which code;
* `Machine.serves_of_ok` — a service that succeeds follows its rule;
* `Machine.falters_of_error` — a fault leaves the guest as it was, except that input which arrived
  before the fault stays in guest memory, and that a module whose memory cannot be unmapped is gone.
-/

namespace StackMachine

/-! ## Codes -/

namespace Interrupt

/-- The codes of the standard services. -/
inductive Provides : Nat → Machine.Action Unit → Prop
  | stdout : Provides 0 stdout
  | stdin : Provides 1 stdin
  | stderr : Provides 2 stderr
  | openFile : Provides 3 openFile
  | write : Provides 4 write
  | close : Provides 5 close
  | exit : Provides 6 exit
  | malloc : Provides 7 malloc
  | free : Provides 8 free
  | link : Provides 9 linkModule
  | unlink : Provides 10 unlinkModule
  | symbol : Provides 11 symbol
  | read : Provides 12 read

/-- The services in the list have the codes of their places. -/
theorem provides_of_getElem? {code : Nat} {service : Machine.Action Unit}
    (h : services[code]? = some service) : Provides code service := by
  match code, h with
  | 0, rfl => exact .stdout
  | 1, rfl => exact .stdin
  | 2, rfl => exact .stderr
  | 3, rfl => exact .openFile
  | 4, rfl => exact .write
  | 5, rfl => exact .close
  | 6, rfl => exact .exit
  | 7, rfl => exact .malloc
  | 8, rfl => exact .free
  | 9, rfl => exact .link
  | 10, rfl => exact .unlink
  | 11, rfl => exact .symbol
  | 12, rfl => exact .read

theorem Table.get_ok_iff {t : Table} {code : Word} {service : Machine.Action Unit} :
    t.get code = .ok service ↔ (t.slots[code.toNat]?).join = some service := by
  unfold Table.get
  split
  next found h => simp [h]
  next h => simp [h]

/-- Services installed in a row take the codes from the first one on. -/
theorem join_getElem?_foldl_install (list : List (Machine.Action Unit)) (first : Nat) (t : Table)
    (hfits : first + list.length ≤ count) (n : Nat) :
    (((list.zipIdx first).foldl
        (fun t (service, code) => t.install (UInt8.ofNat code) service) t).slots[n]?).join =
      if first ≤ n ∧ n < first + list.length then list[n - first]?
      else (t.slots[n]?).join := by
  induction list generalizing first t with
  | nil =>
    rw [if_neg (by rw [List.length_nil]; omega)]
    rfl
  | cons service list ih =>
    rw [List.length_cons] at hfits
    have hcode : (UInt8.ofNat first).toNat = first :=
      UInt8.toNat_ofNat_of_lt' (by unfold count at hfits; simp [UInt8.size]; omega)
    rw [List.zipIdx_cons, List.foldl_cons, ih (first + 1) _ (by omega)]
    simp only [Table.install, hcode, Vector.getElem?_setIfInBounds, List.length_cons]
    rcases Nat.lt_trichotomy n first with hlow | rfl | hhigh
    · rw [if_neg (by omega), if_neg (by omega), if_neg (by omega)]
    · have hslot : n < count := by omega
      rw [if_neg (by omega), if_pos rfl, if_pos hslot, if_pos (by omega), Nat.sub_self]
      rfl
    · have hnext : n - first = (n - (first + 1)) + 1 := by omega
      rw [hnext, List.getElem?_cons_succ]
      by_cases hlast : n < first + (list.length + 1)
      · rw [if_pos (by omega), if_pos (by omega)]
      · rw [if_neg (by omega), if_neg (by omega), if_neg (by omega)]

/-- What the standard table has at a code is the service of the code. -/
theorem provides_of_get_standard {code : Word} {service : Machine.Action Unit}
    (h : standard.get code = .ok service) : Provides code.toNat service := by
  rw [Table.get_ok_iff, standard, join_getElem?_foldl_install services 0 .empty (by decide)] at h
  split at h
  · exact provides_of_getElem? h
  · rw [Table.empty, Vector.getElem?_replicate] at h
    split at h
    · cases h
    · cases h

theorem get_standard {code : Word} {service : Machine.Action Unit}
    (h : services[code.toNat]? = some service) : standard.get code = .ok service := by
  have hcode : code.toNat < services.length := (List.getElem?_eq_some_iff.1 h).1
  rw [Table.get_ok_iff, standard, join_getElem?_foldl_install services 0 .empty (by decide),
    if_pos ⟨Nat.zero_le _, by omega⟩]
  exact h

end Interrupt

namespace Machine

open Interrupt

/-! ## Rules -/

/-- What a standard service does when it succeeds. -/
inductive Serves (m : Machine) : Nat → Machine → Prop
  | stream {code} (hcode : code < 3) (hroom : m.stack.items.length < m.stack.capacity) :
      Serves m code
        { m with stack := m.stack.withItems (UInt64.ofNat (code + 1) :: m.stack.items) }
  | openFile {mode path rest modeText pathText} (hitems : m.stack.items = mode :: path :: rest)
      (hpath : m.heap.cString path = .ok pathText) (hmode : m.heap.cString mode = .ok modeText) :
      Serves m 3
        { m with
          host := (m.host.openPath pathText modeText).2
          stack := m.stack.withItems ((m.host.openPath pathText modeText).1 :: rest) }
  | write {buffer size count handle rest data host}
      (hitems : m.stack.items = buffer :: size :: count :: handle :: rest)
      (hlength : count.toNat * size.toNat < UInt64.size)
      (hdata : (if count.toNat * size.toNat = 0 then .ok []
        else m.heap.slice buffer (count.toNat * size.toNat)) = .ok data)
      (hwrite : Host.write handle data m.host = .ok () host) :
      Serves m 4 { m with host, stack := m.stack.withItems rest }
  | close {handle rest host} (hitems : m.stack.items = handle :: rest)
      (hclose : Host.close handle m.host = .ok () host) :
      Serves m 5 { m with host, stack := m.stack.withItems rest }
  | malloc {size rest} (hitems : m.stack.items = size :: rest) :
      Serves m 7
        { m with
          heap := (m.heap.allocate size).2
          stack := m.stack.withItems ((m.heap.allocate size).1 :: rest) }
  | free {a rest heap} (hitems : m.stack.items = a :: rest)
      (hrelease : m.heap.release a = .ok heap) :
      Serves m 8 { m with heap, stack := m.stack.withItems rest }
  | link {path rest text index m₁} (hitems : m.stack.items = path :: rest)
      (htext : m.heap.cString path = .ok text) (hlinks : Links (Utf8.lossy text) m index m₁) :
      Serves m 9 { m₁ with stack := m.stack.withItems (index :: rest) }
  | unlink {index rest m₁} (hitems : m.stack.items = index :: rest)
      (hunlinks : Unlinks index m m₁) :
      Serves m 10 { m₁ with stack := m.stack.withItems rest }
  | symbol {name index rest text address} (hitems : m.stack.items = name :: index :: rest)
      (htext : m.heap.cString name = .ok text) (hresolve : m.resolve index text = .ok address) :
      Serves m 11 { m with stack := m.stack.withItems (address :: rest) }
  | readNothing {buffer size count handle rest}
      (hitems : m.stack.items = buffer :: size :: count :: handle :: rest)
      (hlength : count.toNat * size.toNat = 0) :
      Serves m 12 { m with stack := m.stack.withItems (0 :: rest) }
  | read {buffer size count handle rest bytes host}
      (hitems : m.stack.items = buffer :: size :: count :: handle :: rest)
      (hlength : count.toNat * size.toNat < UInt64.size)
      (hsome : count.toNat * size.toNat ≠ 0)
      (hcovers : m.heap.covers buffer (count.toNat * size.toNat) = true)
      (hread : m.host.read handle (count.toNat * size.toNat) = ((bytes, none), host)) :
      Serves m 12
        { m with
          host
          heap := m.heap.overwrite buffer bytes
          stack := m.stack.withItems (UInt64.ofNat (bytes.length / size.toNat) :: rest) }

/-- What a fault of a standard service leaves behind. -/
inductive Falters (m : Machine) : Nat → Machine → Prop
  | clean {code m'} (hsame : SameGuest m m') : Falters m code m'
  | unlink {index rest m'} (hitems : m.stack.items = index :: rest) (htears : Tears index m m') :
      Falters m 10 m'
  | read {buffer size count handle rest bytes fault host}
      (hitems : m.stack.items = buffer :: size :: count :: handle :: rest)
      (hcovers : m.heap.covers buffer (count.toNat * size.toNat) = true)
      (hread : m.host.read handle (count.toNat * size.toNat) = ((bytes, some fault), host)) :
      Falters m 12 { m with host, heap := m.heap.overwrite buffer bytes }

variable {code : Nat} {service : Action Unit} {m m' : Machine}

/-! ## Successful services -/

theorem cons_four_of_peek {l : List Word} {a b c d : Word} (ha : l[0]? = some a)
    (hb : l[1]? = some b) (hc : l[2]? = some c) (hd : l[3]? = some d) :
    ∃ rest, l = a :: b :: c :: d :: rest := by
  rcases cons_cons_of_peek ha hb with ⟨rest, rfl⟩
  rcases cons_cons_of_peek (l := rest) (by simpa using hc) (by simpa using hd) with ⟨rest, rfl⟩
  exact ⟨rest, rfl⟩

/-- The number of bytes has to fit in a word. -/
theorem transferLength_ok_iff {count size : Word} {n : Nat} :
    transferLength count size m = .ok n m' ↔ count.toNat * size.toNat < UInt64.size ∧
      n = count.toNat * size.toNat ∧ m' = m := by
  unfold transferLength
  split
  next h => simp [h]
  next h => simp [h, throw_apply]

theorem reads_transferLength (count size : Word) : Reads (transferLength count size) :=
  (reads_pure _).ite (reads_throw _)

/-- Input that has arrived without a fault is in guest memory. -/
theorem receive_ok {handle buffer : Word} {length n : Nat}
    (h : receive handle buffer length m = .ok n m') :
    m.heap.covers buffer length = true ∧ ∃ bytes host,
      m.host.read handle length = ((bytes, none), host) ∧ n = bytes.length ∧
        m' = { m with host, heap := m.heap.overwrite buffer bytes } := by
  unfold receive at h
  rw [get_bind] at h
  split at h
  next hcovers =>
    simp only [bind_ok_iff, onHost_ok_iff, modifyGet_ok_iff, modify_ok_iff] at h
    rcases h with ⟨⟨bytes, fault⟩, _, ⟨host, hread, rfl⟩, _, _, rfl, h⟩
    cases fault with
    | none =>
      rcases pure_ok_iff.1 h with ⟨rfl, rfl⟩
      exact ⟨hcovers, bytes, host, hread, rfl, rfl⟩
    | some e => cases h
  next => cases h

/-- What a service has done when it succeeds. -/
theorem serves_of_ok (hservice : Provides code service) (h : service m = .ok () m') :
    Serves m code m' := by
  cases hservice with
  | stdout =>
    rcases push_ok_iff.1 h with ⟨hroom, rfl⟩
    exact .stream (by decide) hroom
  | stdin =>
    rcases push_ok_iff.1 h with ⟨hroom, rfl⟩
    exact .stream (by decide) hroom
  | stderr =>
    rcases push_ok_iff.1 h with ⟨hroom, rfl⟩
    exact .stream (by decide) hroom
  | openFile =>
    simp only [Interrupt.openFile, bind_ok_iff, require_ok_iff, peek_ok_iff, cString_ok_iff,
      onHost_ok_iff, modifyGet_ok_iff, replace_ok_iff, drop_ok_iff, and_assoc, exists_and_left,
      exists_eq_left, exists_const] at h
    rcases h with ⟨-, path, hpath, pathText, hpathText, mode, hmode, modeText, hmodeText, handle, _,
      ⟨host, hopen, rfl⟩, -, -, rfl⟩
    rcases cons_cons_of_peek hmode hpath with ⟨rest, hitems⟩
    have hserves := Serves.openFile hitems hpathText hmodeText
    rw [hopen] at hserves
    simp only [hitems]
    exact hserves
  | write =>
    simp only [Interrupt.write, bind_ok_iff, require_ok_iff, peek_ok_iff, transferLength_ok_iff,
      and_assoc, exists_and_left, exists_eq_left, exists_const] at h
    rcases h with ⟨-, handle, hhandle, count, hcount, size, hsize, hlength, buffer, hbuffer, h⟩
    rcases cons_four_of_peek hbuffer hsize hcount hhandle with ⟨rest, hitems⟩
    split at h
    next hzero =>
      simp only [bind_ok_iff, pure_ok_iff, onHost_ok_iff, drop_ok_iff] at h
      rcases h with ⟨_, _, ⟨rfl, rfl⟩, _, _, ⟨host, hwrite, rfl⟩, -, rfl⟩
      simp only [hitems]
      exact .write hitems hlength (if_pos hzero) hwrite
    next hsome =>
      simp only [bind_ok_iff, slice_ok_iff, onHost_ok_iff, drop_ok_iff] at h
      rcases h with ⟨data, _, ⟨hdata, rfl⟩, _, _, ⟨host, hwrite, rfl⟩, -, rfl⟩
      simp only [hitems]
      exact .write hitems hlength ((if_neg hsome).trans hdata) hwrite
  | close =>
    simp only [Interrupt.close, bind_ok_iff, peek_ok_iff, onHost_ok_iff, drop_ok_iff, and_assoc,
      exists_and_left, exists_eq_left] at h
    rcases h with ⟨handle, hhandle, _, _, ⟨host, hclose, rfl⟩, -, rfl⟩
    rcases cons_of_peek hhandle with ⟨rest, hitems⟩
    simp only [hitems]
    exact .close hitems hclose
  | exit =>
    simp only [Interrupt.exit, bind_ok_iff] at h
    rcases h with ⟨_, _, -, h⟩
    cases h
  | malloc =>
    simp only [Interrupt.malloc, bind_ok_iff, peek_ok_iff, allocate_ok_iff, replace_ok_iff,
      and_assoc, exists_and_left, exists_eq_left] at h
    rcases h with ⟨size, hsize, -, rfl⟩
    rcases cons_of_peek hsize with ⟨rest, hitems⟩
    simp only [hitems]
    exact .malloc hitems
  | free =>
    simp only [Interrupt.free, bind_ok_iff, peek_ok_iff, release_ok_iff, drop_ok_iff, and_assoc,
      exists_and_left, exists_eq_left, exists_const] at h
    rcases h with ⟨a, ha, _, ⟨heap, hrelease, rfl⟩, -, rfl⟩
    rcases cons_of_peek ha with ⟨rest, hitems⟩
    simp only [hitems]
    exact .free hitems hrelease
  | link =>
    simp only [linkModule, bind_ok_iff, peek_ok_iff, cString_ok_iff, replace_ok_iff, and_assoc,
      exists_and_left, exists_eq_left] at h
    rcases h with ⟨path, hpath, text, htext, index, m₁, hlink, -, rfl⟩
    rcases cons_of_peek hpath with ⟨rest, hitems⟩
    have hlinks := links_of_ok hlink
    simp only [hlinks.stack_eq, hitems]
    exact .link hitems htext hlinks
  | unlink =>
    simp only [unlinkModule, bind_ok_iff, peek_ok_iff, drop_ok_iff, and_assoc, exists_and_left,
      exists_eq_left] at h
    rcases h with ⟨index, hindex, _, m₁, hunlink, -, rfl⟩
    rcases cons_of_peek hindex with ⟨rest, hitems⟩
    have hunlinks := unlinks_of_ok hunlink
    simp only [hunlinks.stack_eq, hitems]
    exact .unlink hitems hunlinks
  | symbol =>
    simp only [Interrupt.symbol, bind_ok_iff, require_ok_iff, peek_ok_iff, cString_ok_iff,
      get_bind, attempt_ok_iff, replace_ok_iff, drop_ok_iff, and_assoc, exists_and_left,
      exists_eq_left, exists_const] at h
    rcases h with ⟨-, index, hindex, name, hname, text, htext, address, hresolve, -, -, rfl⟩
    rcases cons_cons_of_peek hname hindex with ⟨rest, hitems⟩
    simp only [hitems]
    exact .symbol hitems htext hresolve
  | read =>
    simp only [Interrupt.read, bind_ok_iff, require_ok_iff, peek_ok_iff, transferLength_ok_iff,
      and_assoc, exists_and_left, exists_eq_left, exists_const] at h
    rcases h with ⟨-, handle, hhandle, size, hsize, count, hcount, hlength, buffer, hbuffer, h⟩
    rcases cons_four_of_peek hbuffer hsize hcount hhandle with ⟨rest, hitems⟩
    split at h
    next hzero =>
      simp only [bind_ok_iff, pure_ok_iff, replace_ok_iff, drop_ok_iff] at h
      rcases h with ⟨_, _, ⟨rfl, rfl⟩, _, _, ⟨-, rfl⟩, -, rfl⟩
      simp only [hitems, Nat.zero_div]
      exact .readNothing hitems hzero
    next hsome =>
      simp only [bind_ok_iff, replace_ok_iff, drop_ok_iff] at h
      rcases h with ⟨received, _, hreceive, _, _, ⟨-, rfl⟩, -, rfl⟩
      rcases receive_ok hreceive with ⟨hcovers, bytes, host, hread, rfl, rfl⟩
      simp only [hitems]
      exact .read hitems hlength hsome hcovers hread

/-! ## Faults -/

theorem onHost_read {handle : Word} {length : Nat} {got : Bytes × Option Fault} {host : Host}
    (hread : m.host.read handle length = (got, host)) :
    (onHost (modifyGet (·.read handle length)) : Action _) m = .ok got { m with host } :=
  onHost_ok_iff.2 ⟨host, modifyGet_ok_iff.2 hread, rfl⟩

/-- Input is refused before it is read, or fails with what has arrived in guest memory. -/
theorem receive_error {handle buffer : Word} {length : Nat} {e : Fault}
    (h : receive handle buffer length m = .error e m') :
    e = .illegalAccess ∧ m' = m ∨ m.heap.covers buffer length = true ∧ ∃ bytes host,
      m.host.read handle length = ((bytes, some e), host) ∧
        m' = { m with host, heap := m.heap.overwrite buffer bytes } := by
  unfold receive at h
  rw [get_bind] at h
  split at h
  next hcovers =>
    rcases hread : m.host.read handle length with ⟨⟨bytes, fault⟩, host⟩
    have hhost := onHost_read hread
    rcases bind_error_iff.1 h with hfault | ⟨_, _, hok, h⟩
    · rw [hhost] at hfault
      cases hfault
    · rw [hhost] at hok
      cases hok
      cases fault with
      | none => cases h
      | some fault =>
        cases h
        exact .inr ⟨hcovers, bytes, host, rfl, rfl⟩
  next =>
    cases h
    exact .inl ⟨rfl, rfl⟩

theorem clean_openFile : Clean openFile m := by
  refine (reads_require 2).bind_clean fun _ hrequire => ?_
  refine (reads_peek 1).bind_clean fun path _ => ?_
  refine (reads_cString path).bind_clean fun pathText _ => ?_
  refine (reads_peek 0).bind_clean fun mode _ => ?_
  refine (reads_cString mode).bind_clean fun modeText _ => ?_
  have hheight : 2 ≤ m.stack.items.length := (require_ok_iff.1 hrequire).1
  refine (clean_onHost _).bind fun handle m₁ hopen => ?_
  rcases onHost_ok_iff.1 hopen with ⟨host, -, rfl⟩
  exact exists_replace_drop_ok handle hheight (Nat.le_of_succ_le hheight)

theorem clean_write : Clean write m := by
  refine (reads_require 4).bind_clean fun _ hrequire => ?_
  refine (reads_peek 3).bind_clean fun handle _ => ?_
  refine (reads_peek 2).bind_clean fun count _ => ?_
  refine (reads_peek 1).bind_clean fun size _ => ?_
  refine (reads_transferLength count size).bind_clean fun length _ => ?_
  refine (reads_peek 0).bind_clean fun buffer _ => ?_
  have htail (data : Bytes) : Clean (do onHost (Host.write handle data); drop 4) m := by
    refine (clean_onHost _).bind fun _ m₁ hwrite => ?_
    rcases onHost_ok_iff.1 hwrite with ⟨host, -, rfl⟩
    exact exists_drop_ok (require_ok_iff.1 hrequire).1
  split
  · exact (reads_pure []).bind_clean fun data _ => htail data
  · exact (reads_slice buffer length).bind_clean fun data _ => htail data

theorem clean_close : Clean close m := by
  refine (reads_peek 0).bind_clean fun handle hhandle => ?_
  rcases cons_of_peek (peek_ok_iff.1 hhandle).1 with ⟨rest, hitems⟩
  refine (clean_onHost _).bind fun _ m₁ hclose => ?_
  rcases onHost_ok_iff.1 hclose with ⟨host, -, rfl⟩
  exact exists_drop_ok (by simp [hitems])

/-- Allocating cannot fail once its argument is there. -/
theorem clean_malloc : Clean malloc m := by
  refine (reads_peek 0).bind_clean fun size hsize => ?_
  rcases cons_of_peek (peek_ok_iff.1 hsize).1 with ⟨rest, hitems⟩
  exact clean_allocate_replace size (by simp [hitems])

/-- Giving back checks the address before anything changes. -/
theorem clean_free : Clean free m := by
  refine (reads_peek 0).bind_clean fun a ha => ?_
  rcases cons_of_peek (peek_ok_iff.1 ha).1 with ⟨rest, hitems⟩
  refine (clean_release a).bind fun _ m₁ hrelease => ?_
  rcases release_ok_iff.1 hrelease with ⟨heap, -, rfl⟩
  exact exists_drop_ok (by simp [hitems])

theorem clean_linkModule : Clean linkModule m := by
  refine (reads_peek 0).bind_clean fun path hpath => ?_
  rcases cons_of_peek (peek_ok_iff.1 hpath).1 with ⟨rest, hitems⟩
  refine (reads_cString path).bind_clean fun text _ => ?_
  refine (clean_link _).bind fun index m₁ hlink => ?_
  cases links_of_ok hlink
  exact ⟨(), _, replace_ok_iff.2 ⟨by simp [hitems], rfl⟩⟩

theorem clean_symbol : Clean symbol m := by
  refine (reads_require 2).bind_clean fun _ hrequire => ?_
  refine (reads_peek 1).bind_clean fun index _ => ?_
  refine (reads_peek 0).bind_clean fun name _ => ?_
  refine (reads_cString name).bind_clean fun text _ => ?_
  refine reads_get.bind_clean fun s _ => ?_
  refine (reads_attempt _).bind_clean fun address _ => ?_
  have hheight : 2 ≤ m.stack.items.length := (require_ok_iff.1 hrequire).1
  exact clean_replace_drop 1 address (Nat.le_of_succ_le hheight)

/-- A fault leaves the machine as it was, unless the memory of the module cannot be unmapped. -/
theorem unlinkModule_error {e : Fault} (h : unlinkModule m = .error e m') :
    m' = m ∨ ∃ index rest, m.stack.items = index :: rest ∧ Tears index m m' := by
  rcases (reads_peek 0).bind_error h with heq | ⟨index, hpeek, h⟩
  · exact .inl heq
  · rcases cons_of_peek (peek_ok_iff.1 hpeek).1 with ⟨rest, hitems⟩
    rcases bind_error_iff.1 h with hunlink | ⟨_, m₁, hunlink, hdrop⟩
    · rcases unlink_error hunlink with heq | htears
      · exact .inl heq
      · exact .inr ⟨index, rest, hitems, htears⟩
    · -- nothing can fail once the module is gone
      have hheight : 1 ≤ m₁.stack.items.length := by
        rw [(unlinks_of_ok hunlink).stack_eq, hitems]
        simp
      rcases exists_drop_ok hheight with ⟨_, _, hok⟩
      rw [hok] at hdrop
      cases hdrop

/-- Unlinking leaves the guest as it was, or stops half way. -/
theorem falters_unlink {e : Fault} (h : unlinkModule m = .error e m') : Falters m 10 m' := by
  rcases unlinkModule_error h with rfl | ⟨index, rest, hitems, htears⟩
  · exact .clean (.refl _)
  · exact .unlink hitems htears

/-- Reading leaves the guest as it was, or has stored what arrived. -/
theorem falters_read {e : Fault} (h : read m = .error e m') : Falters m 12 m' := by
  rcases (reads_require 4).bind_error h with rfl | ⟨_, hrequire, h⟩
  · exact .clean (.refl _)
  rcases (reads_peek 3).bind_error h with rfl | ⟨handle, hhandle, h⟩
  · exact .clean (.refl _)
  rcases (reads_peek 1).bind_error h with rfl | ⟨size, hsize, h⟩
  · exact .clean (.refl _)
  rcases (reads_peek 2).bind_error h with rfl | ⟨count, hcount, h⟩
  · exact .clean (.refl _)
  rcases (reads_transferLength count size).bind_error h with rfl | ⟨length, hlength, h⟩
  · exact .clean (.refl _)
  rcases (reads_peek 0).bind_error h with rfl | ⟨buffer, hbuffer, h⟩
  · exact .clean (.refl _)
  have hheight : 4 ≤ m.stack.items.length := (require_ok_iff.1 hrequire).1
  split at h
  next =>
    rcases (reads_pure 0).bind_error h with rfl | ⟨received, -, h⟩
    · exact .clean (.refl _)
    · exact .clean (clean_replace_drop 3 _ (Nat.le_of_succ_le hheight) e m' h)
  next =>
    rcases transferLength_ok_iff.1 hlength with ⟨-, rfl, -⟩
    rcases cons_four_of_peek (peek_ok_iff.1 hbuffer).1 (peek_ok_iff.1 hsize).1
      (peek_ok_iff.1 hcount).1 (peek_ok_iff.1 hhandle).1 with ⟨rest, hitems⟩
    rcases bind_error_iff.1 h with hreceive | ⟨received, m₁, hreceive, h⟩
    · rcases receive_error hreceive with ⟨-, rfl⟩ | ⟨hcovers, bytes, host, hread, rfl⟩
      · exact .clean (.refl _)
      · exact .read hitems hcovers hread
    · -- nothing can fail once the input has arrived
      rcases receive_ok hreceive with ⟨-, bytes, host, -, rfl, rfl⟩
      rcases exists_replace_drop_ok
        (m := { m with host, heap := m.heap.overwrite buffer bytes })
        (UInt64.ofNat (bytes.length / size.toNat)) hheight (Nat.le_of_succ_le hheight)
        with ⟨_, _, hok⟩
      cases hok.symm.trans h

/-- What a service leaves when it fails. -/
theorem falters_of_error {e : Fault} (hservice : Provides code service)
    (h : service m = .error e m') : Falters m code m' := by
  cases hservice with
  | stdout => exact .clean (clean_push 1 e m' h)
  | stdin => exact .clean (clean_push 2 e m' h)
  | stderr => exact .clean (clean_push 3 e m' h)
  | openFile => exact .clean (clean_openFile e m' h)
  | write => exact .clean (clean_write e m' h)
  | close => exact .clean (clean_close e m' h)
  | exit => exact .clean (((reads_peek 0).bind fun _ => reads_throw _).clean e m' h)
  | malloc => exact .clean (clean_malloc e m' h)
  | free => exact .clean (clean_free e m' h)
  | link => exact .clean (clean_linkModule e m' h)
  | unlink => exact falters_unlink h
  | symbol => exact .clean (clean_symbol e m' h)
  | read => exact falters_read h

end Machine
end StackMachine

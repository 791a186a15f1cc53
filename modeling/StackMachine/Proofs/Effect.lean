import StackMachine.Proofs.Run

/-!
# Effect — how many words an instruction takes off the stack and puts there

Every operation and every standard service takes a fixed number of words off the evaluation stack
and puts others there. The words beneath stay, so what a run never digs down to is there at its end.

* `Opcode.takes`, `Interrupt.takes` — the number of words taken off;
* `Opcode.gives`, `Interrupt.gives` — the number of words put there;
* `Machine.Exchanges`, `Machine.Replaces` — the words on top are exchanged for others;
* `Machine.step_effect`, `Machine.stack_of_step_error` — what a step does to the stack;
* `Machine.Spares` — no step of a run takes any of the lowest words;
* `Machine.suffix_after` — a run leaves the words that it spares where they are.
-/

namespace StackMachine

/-! ## Counts -/

/-- How many words an operation takes off the stack. An interrupt leaves that to its service, and
the word that is duplicated stays where it is. -/
def Opcode.takes : Opcode → Nat
  | .nop | .push | .mallocPool | .freePool | .pushPtr | .dup => 0
  | .int | .jmp | .call | .loadMemory => 0
  | .pop | .load | .loadPtr | .pushArray | .unary _ | .jmpZero | .jmpNotZero => 1
  | .store | .storePtr | .loadArray | .binary _ | .division _ | .vcall | .ret => 2
  | .storeArray => 3

def Interrupt.takes : Nat → Nat
  | 3 | 11 => 2
  | 4 | 12 => 4
  | 5 | 7 | 8 | 9 | 10 => 1
  | _ => 0

/-- How many words an operation puts on the stack. -/
def Opcode.gives : Opcode → Nat
  | .nop | .pop | .store | .mallocPool | .freePool | .storePtr | .storeArray => 0
  | .int | .jmp | .jmpZero | .jmpNotZero | .ret => 0
  | .push | .load | .pushPtr | .loadPtr | .dup | .pushArray | .loadArray | .loadMemory => 1
  | .binary _ | .division _ | .unary _ => 1
  | .call | .vcall => 2

def Interrupt.gives : Nat → Nat
  | 0 | 1 | 2 | 3 | 7 | 9 | 11 | 12 => 1
  | _ => 0

/-- The instruction takes `n` words off the stack when it succeeds. -/
inductive Instruction.Takes (table : Interrupt.Table) (i : Instruction) : Nat → Prop
  | operation {op} (hop : Opcode.ofByte? i.opcode = some op) (hint : op ≠ .int) :
      Takes table i op.takes
  | service {code service} (hop : Opcode.ofByte? i.opcode = some .int)
      (hget : table.get i.operand = .ok service) (hservice : Interrupt.Provides code service) :
      Takes table i (Interrupt.takes code)

namespace Machine

variable {table : Interrupt.Table} {m m' : Machine}

/-! ## Instructions that succeed -/

/-- The `n` words on top of the stack are exchanged for others. -/
def Replaces (n : Nat) (m m' : Machine) : Prop :=
  ∃ given, m'.stack.items = given ++ m.stack.items.drop n

/-- The `taken` words on top of the stack are exchanged for `given` others. -/
def Exchanges (taken given : Nat) (m m' : Machine) : Prop :=
  ∃ words, words.length = given ∧ m'.stack.items = words ++ m.stack.items.drop taken

/-- Words that are exchanged for so many others are replaced. -/
theorem Exchanges.replaces {taken given : Nat} (h : Exchanges taken given m m') :
    Replaces taken m m' := by
  rcases h with ⟨words, -, hitems⟩
  exact ⟨words, hitems⟩

/-- A branch takes off its condition. -/
theorem Branches.exchanges {onZero : Bool} {target : Word} (h : Branches onZero target m m') :
    Exchanges 1 0 m m' := by
  cases h with
  | taken hitems => exact ⟨[], rfl, by simp [hitems]⟩
  | passed hitems => exact ⟨[], rfl, by simp [hitems]⟩

/-- An operation takes off and puts on as many words as is documented. -/
theorem Performs.exchanges {op : Opcode} {operand : Word} (h : Performs operand m op m') :
    Exchanges op.takes op.gives m m' := by
  cases h with
  | nop => exact ⟨[], rfl, rfl⟩
  | push => exact ⟨[operand], rfl, rfl⟩
  | pop hitems => exact ⟨[], rfl, by simp [hitems, Opcode.takes]⟩
  | @load width rest pool pools a value hitems =>
    exact ⟨[value], rfl, by simp [hitems, Opcode.takes]⟩
  | store hitems => exact ⟨[], rfl, by simp [hitems, Opcode.takes]⟩
  | mallocPool => exact ⟨[], rfl, rfl⟩
  | freePool => exact ⟨[], rfl, rfl⟩
  | @pushPtr pool pools a => exact ⟨[a], rfl, rfl⟩
  | @loadPtr a rest value hitems => exact ⟨[value], rfl, by simp [hitems, Opcode.takes]⟩
  | storePtr hitems => exact ⟨[], rfl, by simp [hitems, Opcode.takes]⟩
  | @dup w => exact ⟨[w], rfl, rfl⟩
  | @pushArray size rest hitems =>
    exact ⟨[(m.heap.allocate size).1], rfl, by simp [hitems, Opcode.takes]⟩
  | @loadArray index base rest a value hitems =>
    exact ⟨[value], rfl, by simp [hitems, Opcode.takes]⟩
  | storeArray hitems => exact ⟨[], rfl, by simp [hitems, Opcode.takes]⟩
  | @binary op a b rest hitems => exact ⟨[op.eval a b], rfl, by simp [hitems, Opcode.takes]⟩
  | @division op a b rest hitems => exact ⟨[op.eval a b], rfl, by simp [hitems, Opcode.takes]⟩
  | @unary op a rest hitems => exact ⟨[op.eval a], rfl, by simp [hitems, Opcode.takes]⟩
  | jmp => exact ⟨[], rfl, rfl⟩
  | jmpZero hbranch => exact hbranch.exchanges
  | jmpNotZero hbranch => exact hbranch.exchanges
  | call => exact ⟨[m.pc, m.active], rfl, rfl⟩
  | vcall hitems => exact ⟨[m.pc, m.active], rfl, by simp [hitems, Opcode.takes]⟩
  | ret hitems => exact ⟨[], rfl, by simp [hitems, Opcode.takes]⟩
  | @loadMemory module base => exact ⟨[base + operand], rfl, rfl⟩

/-- A service takes off and puts on as many words as is documented. -/
theorem Serves.exchanges {code : Nat} (h : Serves m code m') :
    Exchanges (Interrupt.takes code) (Interrupt.gives code) m m' := by
  cases h with
  | stream hcode =>
    have hcount : Interrupt.takes code = 0 ∧ Interrupt.gives code = 1 := by
      match code, hcode with
      | 0, _ | 1, _ | 2, _ => exact ⟨rfl, rfl⟩
    rw [hcount.1, hcount.2]
    exact ⟨[UInt64.ofNat (code + 1)], rfl, rfl⟩
  | openFile hitems => exact ⟨[_], rfl, by simp [hitems, Interrupt.takes]; rfl⟩
  | write hitems => exact ⟨[], rfl, by simp [hitems, Interrupt.takes]⟩
  | close hitems => exact ⟨[], rfl, by simp [hitems, Interrupt.takes]⟩
  | @malloc size rest hitems =>
    exact ⟨[(m.heap.allocate size).1], rfl, by simp [hitems, Interrupt.takes]⟩
  | free hitems => exact ⟨[], rfl, by simp [hitems, Interrupt.takes]⟩
  | @link path rest text index m₁ hitems =>
    exact ⟨[index], rfl, by simp [hitems, Interrupt.takes]⟩
  | unlink hitems => exact ⟨[], rfl, by simp [hitems, Interrupt.takes]⟩
  | @symbol name index rest text address hitems =>
    exact ⟨[address], rfl, by simp [hitems, Interrupt.takes]⟩
  | readNothing hitems => exact ⟨[0], rfl, by simp [hitems, Interrupt.takes]⟩
  | @read buffer size count handle rest bytes host hitems =>
    exact ⟨[UInt64.ofNat (bytes.length / size.toNat)], rfl, by simp [hitems, Interrupt.takes]⟩

/-- An instruction that succeeds takes a number of words off the stack and spares those below. -/
theorem exec_effect (htable : table.IsStandard) {i : Instruction} (h : exec table i m = .ok () m') :
    ∃ n, i.Takes table n ∧ Replaces n m m' := by
  rcases exec_cases table i m with ⟨e, he⟩ | ⟨op, hint, hop, hexec⟩ | ⟨service, hop, hget, hexec⟩
  · rw [he] at h
    cases h
  · rw [hexec] at h
    exact ⟨_, .operation hop hint, (performs_of_ok hint h).exchanges.replaces⟩
  · rw [hexec] at h
    rcases htable hget with ⟨code, hservice⟩
    exact ⟨_, .service hop hget hservice, (serves_of_ok hservice h).exchanges.replaces⟩

/-! ## Instructions that fail -/

theorem SameGuest.stack_eq (h : SameGuest m m') : m'.stack = m.stack := by
  rcases h with ⟨host, loader, journal, rfl⟩
  rfl

theorem Tears.stack_eq {index : Word} (h : Tears index m m') : m'.stack = m.stack := by
  cases h
  rfl

/-- A service that fails leaves the stack as it was. -/
theorem Falters.stack_eq {code : Nat} (h : Falters m code m') : m'.stack = m.stack := by
  cases h with
  | clean hsame => exact hsame.stack_eq
  | unlink hitems htears => exact htears.stack_eq
  | read => rfl

/-- An instruction that fails leaves the stack as it was. -/
theorem stack_of_exec_error (htable : table.IsStandard) {i : Instruction} {e : Fault}
    (h : exec table i m = .error e m') : m'.stack = m.stack := by
  rcases exec_cases table i m with ⟨e', he'⟩ | ⟨op, hint, -, hexec⟩ | ⟨service, -, hget, hexec⟩
  · rw [he'] at h
    cases h
    rfl
  · rw [hexec] at h
    exact (perform_clean hint e m' h).stack_eq
  · rw [hexec] at h
    rcases htable hget with ⟨code, hservice⟩
    exact (falters_of_error hservice h).stack_eq

/-! ## Steps -/

/-- A step that succeeds takes off the words that its instruction takes and puts others there. -/
theorem step_effect (htable : table.IsStandard) (h : step table m = .ok () m') :
    ∃ i n, fetch m = .ok i m ∧ i.Takes table n ∧ Replaces n m m' := by
  rcases step_cases table m with ⟨-, e, he⟩ | ⟨-, i, hi, hexec⟩
  · rw [h] at he
    cases he
  · rw [hexec] at h
    rcases exec_effect htable h with ⟨n, htakes, hreplaces⟩
    exact ⟨i, n, hi, htakes, hreplaces⟩

/-- A step that fails leaves the stack as it was. -/
theorem stack_of_step_error (htable : table.IsStandard) {e : Fault}
    (h : step table m = .error e m') : m'.stack = m.stack := by
  rcases step_cases table m with ⟨-, e', he'⟩ | ⟨-, i, -, hexec⟩
  · rw [he'] at h
    cases h
    rfl
  · rw [hexec] at h
    have hsame : m'.stack = m.advanced.stack := stack_of_exec_error htable h
    exact hsame

/-! ## Runs -/

/-- The lowest `floor` words of the stack are spared: whenever an instruction succeeds, the words
that it takes lie above them. -/
def Spares (table : Interrupt.Table) (floor : Nat) : Machine → List Call → Prop
  | _, [] => True
  | m, call :: calls =>
    (call = .step → ∀ i n m', fetch m = .ok i m → step table m = .ok () m' → i.Takes table n →
      floor + n ≤ m.stack.items.length) ∧
    Spares table floor (call.apply table m) calls

/-- A step spares what lies below the words that it takes. -/
theorem spares_step {floor : Nat} {calls : List Call} {i : Instruction} {op : Opcode}
    (hfetch : fetch m = .ok i m) (hop : Opcode.ofByte? i.opcode = some op) (hint : op ≠ .int)
    (hfits : floor + op.takes ≤ m.stack.items.length)
    (hrest : Spares table floor (Call.apply table m .step) calls) :
    Spares table floor m (.step :: calls) := by
  refine ⟨fun _ j n m' hj _ htakes => ?_, hrest⟩
  rw [hfetch] at hj
  cases hj
  cases htakes with
  | operation hop' =>
    rw [hop] at hop'
    cases hop'
    exact hfits
  | service hop' =>
    rw [hop] at hop'
    cases hop'
    exact absurd rfl hint

/-- Words that lie beneath all that is replaced stay. -/
theorem Replaces.suffix {n : Nat} {below : List Word} (h : Replaces n m m')
    (hbelow : below <:+ m.stack.items) (hn : below.length + n ≤ m.stack.items.length) :
    below <:+ m'.stack.items := by
  rcases h with ⟨given, hitems⟩
  -- both are at the end of the same stack, and the words that stay are the longer end
  have hkept : below <:+ m.stack.items.drop n := by
    refine List.suffix_of_suffix_length_le hbelow (List.drop_suffix n _) ?_
    rw [List.length_drop]
    omega
  rw [hitems]
  exact hkept.trans (List.suffix_append given _)

/-- Linking and unlinking on behalf of the owner leave the stack alone. -/
theorem stack_of_not_step {call : Call} (hcall : call ≠ .step) :
    (call.apply table m).stack = m.stack := by
  cases call with
  | step => exact absurd rfl hcall
  | link path =>
    rw [Call.apply]
    rcases left_cases (link path) m with ⟨index, hok⟩ | ⟨e, he⟩
    · exact (links_of_ok hok).stack_eq
    · exact (clean_link path e _ he).stack_eq
  | unlink index =>
    rw [Call.apply]
    rcases left_cases (unlink index) m with ⟨_, hok⟩ | ⟨e, he⟩
    · exact (unlinks_of_ok hok).stack_eq
    · rcases unlink_error he with heq | htears
      · rw [heq]
      · exact htears.stack_eq

/-- What lies below the words that a call takes stays where it is. -/
theorem suffix_call (htable : table.IsStandard) {below : List Word} {call : Call}
    (hbelow : below <:+ m.stack.items)
    (hspares : call = .step → ∀ i n m', fetch m = .ok i m → step table m = .ok () m' →
      i.Takes table n → below.length + n ≤ m.stack.items.length) :
    below <:+ (call.apply table m).stack.items := by
  by_cases hcall : call = .step
  · subst hcall
    rw [Call.apply]
    rcases left_cases (step table) m with ⟨_, hok⟩ | ⟨e, he⟩
    · rcases step_effect htable hok with ⟨i, n, hi, htakes, hreplaces⟩
      exact hreplaces.suffix hbelow (hspares rfl i n _ hi hok htakes)
    · rw [stack_of_step_error htable he]
      exact hbelow
  · rw [stack_of_not_step hcall]
    exact hbelow

/-- The words that a run spares are on the stack when it ends. -/
theorem suffix_after (htable : table.IsStandard) {below : List Word} {calls : List Call}
    (hbelow : below <:+ m.stack.items) (hspares : Spares table below.length m calls) :
    below <:+ (m.after table calls).stack.items := by
  induction calls generalizing m with
  | nil => exact hbelow
  | cons call calls ih =>
    rcases hspares with ⟨hfirst, hrest⟩
    exact ih (suffix_call htable hbelow hfirst) hrest

end Machine
end StackMachine

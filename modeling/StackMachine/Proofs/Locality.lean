import StackMachine.Proofs.Composition

/-!
# Locality — words beneath the stack

What an instruction or a service does depends only on the words that it takes from the evaluation
stack. So a machine with further words beneath its stack, and room for them, runs as it does without
them, for as many steps as it has words enough.

* `Machine.beneath` — the machine with words put beneath its evaluation stack;
* `Machine.Framed` — an action does the same with words beneath the stack, and leaves them there;
* `Machine.composes_framed` — so do all operations and standard services;
* `Machine.stack_locality` — so do whole runs, and the fault that ends one.

A stack that holds too few words is the one thing that words beneath it can change, so that
`Fault.stackUnderflow` is left out.
-/

namespace StackMachine

/-! ## Stacks -/

namespace Stack

variable {s t : Stack} {e : Fault}

/-- The stack with words put beneath the others, top first, and room for them. -/
def beneath (below : List Word) (s : Stack) : Stack :=
  ({ s with capacity := s.capacity + below.length } : Stack).withItems (s.items ++ below)

theorem height_beneath (below : List Word) (s : Stack) :
    (s.beneath below).height = s.height + below.length := by
  rw [← s.height_eq]
  exact List.length_append

/-- There is as much room as before. -/
theorem reserve_beneath (below : List Word) (s : Stack) (n : Nat) :
    (s.beneath below).reserve n = s.reserve n := by
  have hroom : (s.beneath below).capacity - (s.beneath below).height = s.capacity - s.height := by
    rw [height_beneath]
    exact Nat.add_sub_add_right _ _ _
  unfold reserve
  rw [hroom]
  rfl

/-- A push does not look at words beneath. -/
theorem push_beneath (below : List Word) (s : Stack) (w : Word) :
    (s.beneath below).push w = (s.push w).map (beneath below) := by
  unfold push
  rw [reserve_beneath]
  cases s.reserve 1 with
  | error e => rfl
  | ok u => rfl

/-- Words that are there are there with others beneath. -/
theorem require_beneath {n : Nat} (h : s.require n = .ok ()) (below : List Word) :
    (s.beneath below).require n = .ok () := by
  have hpresent : n ≤ s.items.length := require_ok_iff.1 h
  refine require_ok_iff.2 (Nat.le_trans hpresent ?_)
  show s.items.length ≤ (s.items ++ below).length
  simp

theorem peek_beneath {depth : Nat} {w : Word} (h : s.peek depth = .ok w) (below : List Word) :
    (s.beneath below).peek depth = .ok w := by
  have hitem : s.items[depth]? = some w := peek_ok_iff.1 h
  have hdepth : depth < s.items.length := (List.getElem?_eq_some_iff.1 hitem).1
  refine peek_ok_iff.2 ?_
  show (s.items ++ below)[depth]? = some w
  rw [List.getElem?_append_left hdepth, hitem]

theorem set_beneath {depth : Nat} {w : Word} (h : s.set depth w = .ok t) (below : List Word) :
    (s.beneath below).set depth w = .ok (t.beneath below) := by
  rcases set_ok_iff.1 h with ⟨hdepth, rfl⟩
  refine set_ok_iff.2 ⟨?_, ?_⟩
  · show depth < (s.items ++ below).length
    rw [List.length_append]
    exact Nat.lt_add_right _ hdepth
  · show _ = (s.beneath below).withItems ((s.items ++ below).set depth w)
    rw [List.set_append_left _ _ hdepth]
    rfl

theorem drop_beneath {n : Nat} (h : s.drop n = .ok t) (below : List Word) :
    (s.beneath below).drop n = .ok (t.beneath below) := by
  rcases drop_ok_iff.1 h with ⟨hn, rfl⟩
  refine drop_ok_iff.2 ⟨?_, ?_⟩
  · show n ≤ (s.items ++ below).length
    rw [List.length_append]
    exact Nat.le_add_right_of_le hn
  · show _ = (s.beneath below).withItems ((s.items ++ below).drop n)
    rw [List.drop_append_of_le_length hn]
    rfl

/-! A stack that is asked for words fails for one reason only. -/

/-- Too few words are the underflow of the stack. -/
theorem eq_of_require_error {n : Nat} (h : s.require n = .error e) : e = s.role.underflow := by
  unfold require at h
  split at h
  · cases h
    rfl
  · cases h

theorem eq_of_peek_error {depth : Nat} (h : s.peek depth = .error e) : e = s.role.underflow := by
  unfold peek at h
  split at h
  · cases h
  · cases h
    rfl

theorem eq_of_set_error {depth : Nat} {w : Word} (h : s.set depth w = .error e) :
    e = s.role.underflow := by
  unfold set at h
  split at h
  · cases h
  · cases h
    rfl

theorem eq_of_drop_error {n : Nat} (h : s.drop n = .error e) : e = s.role.underflow := by
  unfold drop at h
  split at h
  · cases h
  · next hrequire =>
    cases h
    exact eq_of_require_error hrequire

end Stack

namespace Machine

variable {α β : Type} {m m' : Machine}

/-! ## Actions -/

/-- The machine with words put beneath its evaluation stack, top first, and room for them. -/
def beneath (below : List Word) (m : Machine) : Machine :=
  { m with stack := m.stack.beneath below }

/-- With words beneath the stack the action does the same and leaves the words where they are,
unless the stack holds too few words. -/
structure Framed (x : Action α) : Prop where
  ok : ∀ {m m' : Machine} {a : α}, x m = .ok a m' →
    m'.stack.role = m.stack.role ∧ ∀ below, x (m.beneath below) = .ok a (m'.beneath below)
  error : ∀ {m m' : Machine} {e : Fault}, x m = .error e m' → e ≠ m.stack.role.underflow →
    ∀ below, x (m.beneath below) = .error e (m'.beneath below)

/-- Actions that do the same with words beneath do so one after the other. -/
theorem Framed.bind {x : Action α} {f : α → Action β} (hx : Framed x) (hf : ∀ a, Framed (f a)) :
    Framed (x >>= f) where
  ok h := by
    rcases bind_ok_iff.1 h with ⟨a, m₁, ha, hrest⟩
    rcases hx.ok ha with ⟨hrole₁, hfirst⟩
    rcases (hf a).ok hrest with ⟨hrole', hsecond⟩
    refine ⟨hrole'.trans hrole₁, fun below => ?_⟩
    exact bind_ok_iff.2 ⟨a, _, hfirst below, hsecond below⟩
  error h he below := by
    rcases bind_error_iff.1 h with hfault | ⟨a, m₁, ha, hrest⟩
    · exact bind_error_iff.2 (.inl (hx.error hfault he below))
    · rcases hx.ok ha with ⟨hrole₁, hfirst⟩
      rw [← hrole₁] at he
      have hsecond := (hf a).error hrest he below
      exact bind_error_iff.2 (.inr ⟨a, _, hfirst below, hsecond⟩)

/-- An attempt does not look at the stack. -/
theorem framed_attempt (r : Except Fault α) : Framed (attempt r) where
  ok h := by
    rcases attempt_ok_iff.1 h with ⟨rfl, rfl⟩
    exact ⟨rfl, fun _ => rfl⟩
  error h _ _ := by
    rcases attempt_error_iff.1 h with ⟨rfl, rfl⟩
    rfl

/-- What an action learns from the machine may be anything but the stack. -/
theorem framed_get_bind {f : Machine → Action α}
    (hsame : ∀ m below, f (beneath below m) = f m) (hf : ∀ m, Framed (f m)) :
    Framed (get >>= f) where
  ok {m _ _} h := by
    rcases (hf m).ok h with ⟨hrole, hbelow⟩
    refine ⟨hrole, fun below => ?_⟩
    rw [get_bind, hsame]
    exact hbelow below
  error {m _ _} h he below := by
    rw [get_bind, hsame]
    exact (hf m).error h he below

/-- The same end of an action, with words beneath the stack. -/
def resultBeneath (below : List Word) : EStateM.Result Fault Machine α →
    EStateM.Result Fault Machine α
  | .ok a m => .ok a (m.beneath below)
  | .error e m => .error e (m.beneath below)

/-- An action that leaves the stack alone is framed. -/
theorem framed_of_eq {x : Action α}
    (hx : ∀ m below, x (beneath below m) = resultBeneath below (x m))
    (hstack : ∀ m a m', x m = .ok a m' → m'.stack = m.stack) : Framed x where
  ok {m m' a} h := by
    refine ⟨?_, fun below => ?_⟩
    · rw [hstack m a m' h]
    · rw [hx, h]
      rfl
  error h _ below := by
    rw [hx, h]
    rfl

/-- A change that does not look at the stack is the same with words beneath. -/
theorem framed_modifyGet {f : Machine → α × Machine}
    (hf : ∀ m below, f (beneath below m) = ((f m).1, (f m).2.beneath below))
    (hstack : ∀ m, (f m).2.stack = m.stack) : Framed (modifyGet f : Action α) := by
  refine framed_of_eq (fun m below => ?_) fun m a m' h => ?_
  · show EStateM.Result.ok (f (beneath below m)).1 (f (beneath below m)).2 = _
    rw [hf]
    rfl
  · have heq := modifyGet_ok_iff.1 h
    rw [← hstack m, heq]

/-! ## Evaluation stack -/

/-- A stack that fails for another reason than too few words fails alike with words beneath it. -/
def FailsAlike (f : Stack → Except Fault α) : Prop :=
  ∀ s e, f s = .error e → e = s.role.underflow ∨ ∀ below, f (s.beneath below) = .error e

/-- A stack that fails alike makes the action fail alike. -/
theorem FailsAlike.attempt {f : Stack → Except Fault α} (hf : FailsAlike f) {e : Fault}
    (h : attempt (f m.stack) m = .error e m') (he : e ≠ m.stack.role.underflow)
    (below : List Word) :
    Machine.attempt (f (m.stack.beneath below)) (m.beneath below) =
      .error e (m'.beneath below) := by
  rcases attempt_error_iff.1 h with ⟨hfault, rfl⟩
  rcases hf _ e hfault with heq | hbelow
  · exact absurd heq he
  · exact attempt_error_iff.2 ⟨hbelow below, rfl⟩

/-- A question to the stack that is answered alike with words beneath it. -/
theorem framed_ask {f : Stack → Except Fault α}
    (hok : ∀ s a, f s = .ok a → ∀ below, f (s.beneath below) = .ok a) (hf : FailsAlike f) :
    Framed (do attempt (f (← get).stack)) where
  ok h := by
    rcases attempt_ok_iff.1 h with ⟨ha, rfl⟩
    exact ⟨rfl, fun below => attempt_ok_iff.2 ⟨hok _ _ ha below, rfl⟩⟩
  error h he below := hf.attempt h he below

/-- A change of the stack that is the same with words beneath it. -/
theorem framed_restack {f : Stack → Except Fault Stack}
    (hok : ∀ s t, f s = .ok t →
      t.role = s.role ∧ ∀ below, f (s.beneath below) = .ok (t.beneath below))
    (hf : FailsAlike f) :
    Framed (do let stack ← attempt (f (← get).stack); modify fun m => { m with stack }) where
  ok h := by
    rw [get_bind] at h
    simp only [bind_ok_iff, attempt_ok_iff, modify_ok_iff] at h
    rcases h with ⟨t, _, ⟨ht, rfl⟩, rfl⟩
    rcases hok _ t ht with ⟨hsame, hbelow⟩
    refine ⟨hsame, fun below => ?_⟩
    rw [get_bind]
    exact bind_ok_iff.2 ⟨_, _, attempt_ok_iff.2 ⟨hbelow below, rfl⟩, rfl⟩
  error h he below := by
    rw [get_bind] at h ⊢
    rcases bind_error_iff.1 h with hfault | ⟨t, _, ht, hmodify⟩
    · exact bind_error_iff.2 (.inl (hf.attempt hfault he below))
    · cases hmodify

theorem framed_require (n : Nat) : Framed (require n) :=
  framed_ask (fun _ _ h below => Stack.require_beneath h below)
    fun _ _ h => .inl (Stack.eq_of_require_error h)

theorem framed_reserve (n : Nat) : Framed (reserve n) :=
  framed_ask (fun s _ h below => (s.reserve_beneath below n).trans h)
    fun s _ h => .inr fun below => (s.reserve_beneath below n).trans h

theorem framed_peek (depth : Nat) : Framed (peek depth) :=
  framed_ask (fun _ _ h below => Stack.peek_beneath h below)
    fun _ _ h => .inl (Stack.eq_of_peek_error h)

theorem framed_push (w : Word) : Framed (push w) := by
  have hfails : FailsAlike fun s : Stack => s.push w := by
    intro s e (h : s.push w = .error e)
    refine .inr fun below => ?_
    show (s.beneath below).push w = .error e
    rw [Stack.push_beneath, h]
    rfl
  refine framed_restack (fun s t h => ⟨?_, fun below => ?_⟩) hfails
  · rw [(Stack.push_ok_iff.1 h).2]
    rfl
  · rw [Stack.push_beneath, h]
    rfl

theorem framed_replace (depth : Nat) (w : Word) : Framed (replace depth w) := by
  refine framed_restack (f := (·.set depth w)) (fun s t h => ⟨?_, Stack.set_beneath h⟩)
    fun s e h => .inl (Stack.eq_of_set_error h)
  rw [(Stack.set_ok_iff.1 h).2]
  rfl

theorem framed_drop (n : Nat) : Framed (drop n) := by
  refine framed_restack (f := (·.drop n)) (fun s t h => ⟨?_, Stack.drop_beneath h⟩)
    fun s e h => .inl (Stack.eq_of_drop_error h)
  rw [(Stack.drop_ok_iff.1 h).2]
  rfl

/-! ## Everything else -/

/-- The host does not see the stack. -/
theorem framed_onHost (f : EStateM Fault Host α) : Framed (onHost f) := by
  refine framed_of_eq (fun m below => ?_) fun m a m' h => ?_
  · have hhost : (m.beneath below).host = m.host := rfl
    unfold onHost
    rw [hhost]
    cases f m.host with
    | ok a host => rfl
    | error e host => rfl
  · rcases onHost_ok_iff.1 h with ⟨host, -, rfl⟩
    rfl

/-- All that instructions are made of does the same with words beneath. -/
theorem composes_framed : Composes Framed where
  bind := Framed.bind
  attempt := framed_attempt
  require := framed_require
  reserve := framed_reserve
  peek := framed_peek
  push := framed_push
  replace := framed_replace
  drop := framed_drop
  onHost := framed_onHost
  learn hsame hf := framed_get_bind (fun m below => hsame m (m.stack.beneath below)) hf
  change {_ f} hf _ := by
    -- a change that is the same on every stack is so on the stack that is there
    have hstack (m : Machine) : (f m).2.stack = m.stack := congrArg (·.2.stack) (hf m m.stack)
    refine framed_modifyGet (fun m below => ?_) hstack
    refine (hf m (m.stack.beneath below)).trans ?_
    rw [← hstack m]
    rfl

/-! ## Linking -/

theorem framed_link (path : String) : Framed (link path) := by
  refine framed_of_eq (fun m below => ?_) fun m index m' h => ?_
  · have hsame := link_eq path (m.beneath below)
    have hload : (m.beneath below).loader = m.loader := rfl
    rw [hload] at hsame
    rw [hsame, link_eq]
    by_cases hfull : m.moduleCapacity.toNat ≤ m.modules.size
    · rw [if_pos hfull]
      exact if_pos hfull
    · rw [if_neg hfull]
      refine (if_neg hfull).trans ?_
      cases Linker.load path m.loader with
      | error e loader => rfl
      | ok module loader => rfl
  · exact (links_of_ok h).stack_eq

theorem framed_unlink (index : Word) : Framed (unlink index) := by
  refine framed_of_eq (fun m below => ?_) fun m u m' h => ?_
  · by_cases hloaded : ∃ module, index ≠ 0 ∧ m.module index = .ok module
    · rcases hloaded with ⟨module, hindex, hmodule⟩
      have hbelow : (m.beneath below).module index = .ok module := hmodule
      have hheap : (m.beneath below).heap = m.heap := rfl
      rw [unlink_of_loaded hindex hmodule, unlink_of_loaded hindex hbelow, hheap]
      cases module.memory.unmapFrom m.heap with
      | ok heap =>
        simp only [handBack_eq]
        rfl
      | error e => rfl
    · have hbelow : ¬∃ module, index ≠ 0 ∧ (m.beneath below).module index = .ok module := hloaded
      rw [unlink_of_not_loaded hloaded, unlink_of_not_loaded hbelow]
      rfl
  · exact (unlinks_of_ok h).stack_eq

/-! ## Steps -/

open Interrupt

/-- Every instruction does the same with words beneath. -/
theorem framed_exec (i : Instruction) : Framed (exec standard i) := by
  unfold exec
  cases Opcode.ofByte? i.opcode with
  | none => exact composes_framed.throw _
  | some op =>
    by_cases hop : op = .int
    · subst hop
      show Framed (attempt (standard.get i.operand) >>= fun service => service)
      cases hget : standard.get i.operand with
      | error e => exact composes_framed.throw e
      | ok service =>
        have hservice := provides_of_get_standard hget
        exact composes_framed.service hservice (fun _ => framed_link) fun _ => framed_unlink
    · exact composes_framed.perform i.operand hop

theorem framed_fetch : Framed fetch := by
  refine composes_framed.activeModule.bind fun module => ?_
  refine framed_get_bind (fun _ _ => rfl) fun m => ?_
  split
  · exact composes_framed.pure _
  · exact composes_framed.throw _

theorem framed_step : Framed (step standard) := by
  refine framed_fetch.bind fun i => Framed.bind ?_ fun _ => framed_exec i
  exact framed_modifyGet (fun _ _ => rfl) fun _ => rfl

/-- A run is a step and a shorter run. -/
theorem run_succ (table : Interrupt.Table) (n : Nat) :
    run table (n + 1) = (do step table; run table n) := by
  funext m
  simp only [run]
  cases hstep : step table m with
  | ok u m₁ => rw [bind_of_ok hstep]
  | error e m₁ => exact (bind_error_iff.2 (.inl hstep)).symm

/-- Every run does the same with words beneath. -/
theorem framed_run (n : Nat) : Framed (run standard n) := by
  induction n with
  | zero => exact composes_framed.pure ()
  | succ n ih =>
    rw [run_succ]
    exact framed_step.bind fun _ => ih

/-- A run that succeeds does so with any words beneath the evaluation stack, and leaves the rest of
the machine the same. The step after it, if it fails for another reason than too few words, fails
alike and leaves the same too. -/
theorem stack_locality {m m' : Machine} (below : List Word) (n : Nat)
    (hrun : run standard n m = .ok () m') :
    run standard n (m.beneath below) = .ok () (m'.beneath below) ∧
      (m.stack.role = .evaluation → ∀ e m'', step standard m' = .error e m'' →
        e ≠ .stackUnderflow → step standard (m'.beneath below) = .error e (m''.beneath below)) := by
  rcases (framed_run n).ok hrun with ⟨hsame, hbelow⟩
  refine ⟨hbelow below, fun hrole e m'' hstep he => framed_step.error hstep ?_ below⟩
  have hunderflow : m'.stack.role.underflow = .stackUnderflow := by
    rw [hsame, hrole]
    rfl
  rw [hunderflow]
  exact he

/-- With words beneath the stack, a call leaves its frame above them, and the division by zero that
follows is the same fault. -/
theorem stack_locality_division :
    let program : Module :=
      { instructions := #[.of .call 1, .of .push 0, .of (.division (.div .unsigned)) 0] }
    let state (pc : Word) (steps : Nat) (items : List Word) : Machine :=
      { stack := { role := .evaluation, capacity := 8, items, height := items.length },
        pools := { role := .pool, capacity := 0 }, pc, steps, modules := #[some program],
        moduleCapacity := 1, loader := Loader.registry [] }
    run standard 2 (state 0 0 [5]) = .ok () (state 2 2 [0, 1, 0, 5]) ∧
      step standard (state 2 2 [0, 1, 0, 5]) = .error .divisionByZero (state 3 3 [0, 1, 0, 5]) ∧
      run standard 2 ((state 0 0 [5]).beneath [20, 10]) =
        .ok () ((state 2 2 [0, 1, 0, 5]).beneath [20, 10]) ∧
      step standard ((state 2 2 [0, 1, 0, 5]).beneath [20, 10]) =
        .error .divisionByZero ((state 3 3 [0, 1, 0, 5]).beneath [20, 10]) := by
  intro program state
  have hruns : run standard 2 (state 0 0 [5]) = .ok () (state 2 2 [0, 1, 0, 5]) := rfl
  have hfails : step standard (state 2 2 [0, 1, 0, 5]) =
      .error .divisionByZero (state 3 3 [0, 1, 0, 5]) := rfl
  have hlocal := stack_locality [20, 10] 2 hruns
  exact ⟨hruns, hfails, hlocal.1, hlocal.2 rfl _ _ hfails (by decide)⟩

end Machine
end StackMachine

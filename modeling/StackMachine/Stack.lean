import StackMachine.Fault

/-!
# Stack — words up to a fixed number

Both stacks of a machine hold words and have a fixed capacity. They differ in the faults that they
raise, which their `Stack.Role` selects. Depth zero is the top. An operation that fails leaves the
stack as it was.
-/

namespace StackMachine

/-- Which stack of a machine this is. -/
inductive Stack.Role where
  /-- The stack of operands and return frames. -/
  | evaluation
  /-- The stack of pool allocations. -/
  | pool
  deriving DecidableEq, Repr

/-- The fault of a stack that holds too little. -/
def Stack.Role.underflow : Stack.Role → Fault
  | .evaluation => .stackUnderflow
  | .pool => .callStackUnderflow

/-- The fault of a stack that holds too much. -/
def Stack.Role.overflow : Stack.Role → Fault
  | .evaluation => .stackOverflow
  | .pool => .callStackOverflow

/-- A bounded stack of words, top first. Its height is kept beside the words, so that it need not
be counted. -/
structure Stack where
  role : Stack.Role
  capacity : Nat
  items : List Word := []
  height : Nat := 0
  height_eq : items.length = height := by rfl
  deriving Repr

namespace Stack

def toList (s : Stack) : List Word := s.items.reverse

/-- Fails unless at least `n` words are present. -/
def require (s : Stack) (n : Nat) : Except Fault Unit :=
  if s.height < n then .error s.role.underflow else .ok ()

/-- Fails unless `n` more words fit. -/
def reserve (s : Stack) (n : Nat) : Except Fault Unit :=
  if s.capacity - s.height < n then .error s.role.overflow else .ok ()

def push (s : Stack) (w : Word) : Except Fault Stack :=
  match s.reserve 1 with
  | .ok () => .ok { s with
      items := w :: s.items, height := s.height + 1, height_eq := by simp [s.height_eq] }
  | .error e => .error e

def peek (s : Stack) (depth : Nat) : Except Fault Word :=
  match s.items[depth]? with
  | some w => .ok w
  | none => .error s.role.underflow

def top (s : Stack) : Except Fault Word := s.peek 0

def set (s : Stack) (depth : Nat) (w : Word) : Except Fault Stack :=
  if depth < s.height then
    .ok { s with items := s.items.set depth w, height_eq := by simp [s.height_eq] }
  else .error s.role.underflow

def drop (s : Stack) (n : Nat) : Except Fault Stack :=
  match s.require n with
  | .ok () => .ok { s with
      items := s.items.drop n, height := s.height - n, height_eq := by simp [s.height_eq] }
  | .error e => .error e

def pop (s : Stack) : Except Fault (Word × Stack) :=
  match s.items, s.height_eq with
  | [], _ => .error s.role.underflow
  | w :: rest, h => .ok (w, { s with
      items := rest, height := s.height - 1, height_eq := by rw [← h]; rfl })

end Stack

end StackMachine

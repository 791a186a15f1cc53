import StackMachine.Word

/-!
# PoolTable — allocation sizes by key

A chained hash table from pool keys to allocation sizes. Its number of buckets is fixed when it is
made, and nothing is ever taken out: `PoolTable.put` always adds an entry, so that a repeated key
shadows the older entry, and `PoolTable.get` answers with the newest one, or zero.
-/

namespace StackMachine

/-- A table of allocation sizes. Each bucket holds its entries newest first. -/
structure PoolTable where
  buckets : Array (List (Word × UInt16))
  count : Nat
  buckets_pos : 0 < buckets.size
  deriving Repr

namespace PoolTable

/-- An empty table with the given number of buckets, at least one. -/
def withCapacity (capacity : Nat) : PoolTable :=
  ⟨Array.replicate (max 1 capacity) [], 0, by rw [Array.size_replicate]; omega⟩

instance : Inhabited PoolTable := ⟨withCapacity 1⟩

def capacity (t : PoolTable) : Nat := t.buckets.size

def bucket (t : PoolTable) (key : Word) : Nat := key.toNat % t.buckets.size

/-- Every key has one of the buckets. -/
theorem bucket_lt (t : PoolTable) (key : Word) : t.bucket key < t.buckets.size :=
  Nat.mod_lt _ t.buckets_pos

/-- Adds an entry, shadowing older ones of its key. -/
def put (t : PoolTable) (key : Word) (size : UInt16) : PoolTable where
  buckets := t.buckets.modify (t.bucket key) ((key, size) :: ·)
  count := t.count + 1
  buckets_pos := by simpa using t.buckets_pos

/-- The newest size of a key, or zero. -/
def get (t : PoolTable) (key : Word) : UInt16 :=
  have := t.bucket_lt key
  (t.buckets[t.bucket key].lookup key).getD 0

end PoolTable

end StackMachine

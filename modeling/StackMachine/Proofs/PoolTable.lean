import StackMachine.PoolTable

/-!
# PoolTable — the newest entry of a key counts

Keys that share a bucket do not get in each other's way, whatever the number of buckets is:

* `PoolTable.get_put` — a new entry changes the size of its own key only;
* `PoolTable.get_foldl_put` — after a row of entries, the last one of a key counts;
* `PoolTable.LastPut` — which put of a row that is;
* `PoolTable.last_put_wins` — a table is the map from each key to its last put, at any capacity.
-/

namespace StackMachine
namespace PoolTable

/-- A size is looked up in the bucket of its key. -/
theorem get_eq (t : PoolTable) (key : Word) :
    t.get key = (((t.buckets[t.bucket key]?).getD []).lookup key).getD 0 := by
  have hbucket := t.bucket_lt key
  rw [Array.getElem?_eq_getElem hbucket]
  rfl

/-- An empty table has no sizes. -/
@[simp]
theorem get_withCapacity (capacity : Nat) (key : Word) : (withCapacity capacity).get key = 0 := by
  have hempty : ((withCapacity capacity).buckets[(withCapacity capacity).bucket key]?).getD [] =
      [] := by
    have hbucket := (withCapacity capacity).bucket_lt key
    rw [Array.getElem?_eq_getElem hbucket]
    exact Array.getElem_replicate _
  rw [get_eq, hempty]
  rfl

/-- A put does not add buckets. -/
theorem capacity_put (t : PoolTable) (key : Word) (size : UInt16) :
    (t.put key size).capacity = t.capacity := Array.size_modify

/-- The new entry comes first in its bucket. The other buckets stay as they are. -/
theorem bucket_put (t : PoolTable) (key other : Word) (size : UInt16) :
    ((t.put key size).buckets[(t.put key size).bucket other]?).getD [] =
      if t.bucket key = t.bucket other then
        (key, size) :: (t.buckets[t.bucket other]?).getD []
      else (t.buckets[t.bucket other]?).getD [] := by
  have hbucket : (t.put key size).bucket other = t.bucket other := by
    have hsize : (t.put key size).buckets.size = t.buckets.size := t.capacity_put key size
    rw [bucket, hsize]
    rfl
  have hlt := t.bucket_lt other
  rw [hbucket]
  show ((t.buckets.modify (t.bucket key) ((key, size) :: ·))[t.bucket other]?).getD [] = _
  rw [Array.getElem?_modify, Array.getElem?_eq_getElem hlt]
  split
  · rfl
  · rfl

/-- A put sets the size of its key and of no other, even where they share a bucket. -/
theorem get_put (t : PoolTable) (key other : Word) (size : UInt16) :
    (t.put key size).get other = if other = key then size else t.get other := by
  rw [get_eq, bucket_put, get_eq]
  by_cases hkey : other = key
  · -- the entry just put is the first that the search meets
    subst hkey
    rw [if_pos rfl, if_pos rfl, List.lookup_cons_self]
    rfl
  · rw [if_neg hkey]
    split
    · -- in the same bucket, the search passes the new entry by
      have hne : (other == key) = false := beq_false_of_ne hkey
      rw [List.lookup_cons, hne]
    · rfl

/-! ## Rows of entries -/

variable {α : Type} (key : α → Word) (size : α → UInt16)

/-- After puts in a row, the last one of a key counts. -/
theorem get_foldl_put (entries : List α) (t : PoolTable) (k : Word) :
    (entries.foldl (fun t e => t.put (key e) (size e)) t).get k =
      ((entries.filter (key · = k)).getLast?.map size).getD (t.get k) := by
  induction entries generalizing t with
  | nil => rfl
  | cons e entries ih =>
    rw [List.foldl_cons, ih, get_put]
    by_cases hkey : key e = k
    · rw [if_pos hkey.symm, List.filter_cons_of_pos (by simpa using hkey), List.getLast?_cons]
      cases (entries.filter (key · = k)).getLast? with
      | none => rfl
      | some last => rfl
    · rw [if_neg (Ne.symm hkey), List.filter_cons_of_neg (by simpa using hkey)]

/-- Every put is counted. -/
theorem count_foldl_put (entries : List α) (t : PoolTable) :
    (entries.foldl (fun t e => t.put (key e) (size e)) t).count = t.count + entries.length := by
  induction entries generalizing t with
  | nil => rfl
  | cons e entries ih =>
    rw [List.foldl_cons, ih, List.length_cons, Nat.add_comm entries.length 1, ← Nat.add_assoc]
    rfl

theorem capacity_foldl_put (entries : List α) (t : PoolTable) :
    (entries.foldl (fun t e => t.put (key e) (size e)) t).capacity = t.capacity := by
  induction entries generalizing t with
  | nil => rfl
  | cons e entries ih => rw [List.foldl_cons, ih, capacity_put]

/-! ## Tables as maps -/

/-- The table of a capacity after a row of puts, each a key with its size. -/
def fed (capacity : Nat) (puts : List (Word × UInt16)) : PoolTable :=
  puts.foldl (fun t e => t.put e.1 e.2) (withCapacity capacity)

/-- The last of the puts with the key has the size. -/
def LastPut (puts : List (Word × UInt16)) (k : Word) (n : UInt16) : Prop :=
  ∃ earlier later, puts = earlier ++ (k, n) :: later ∧ ∀ e ∈ later, e.1 ≠ k

variable {capacity : Nat} {puts : List (Word × UInt16)} {k : Word} {n : UInt16}

/-- The size of a key is that of its last put, or zero. -/
theorem get_fed : (fed capacity puts).get k =
    ((puts.filter (·.1 = k)).getLast?.map Prod.snd).getD 0 := by
  unfold fed
  rw [get_foldl_put, get_withCapacity]

theorem filter_eq_nil_of_absent (h : ∀ e ∈ puts, e.1 ≠ k) : puts.filter (·.1 = k) = [] := by
  rw [List.filter_eq_nil_iff]
  intro e he
  simpa using h e he

/-- The last put of a key is what is found. -/
theorem LastPut.get_fed (h : LastPut puts k n) : (fed capacity puts).get k = n := by
  rcases h with ⟨earlier, later, rfl, hlater⟩
  -- nothing behind the put has its key, so that it is the last one that is left
  have hkept : (earlier ++ (k, n) :: later).filter (·.1 = k) =
      earlier.filter (·.1 = k) ++ [(k, n)] := by
    rw [List.filter_append, List.filter_cons_of_pos (by simp), filter_eq_nil_of_absent hlater]
  rw [PoolTable.get_fed, hkept, List.getLast?_concat]
  rfl

/-- A key that was not put has size zero. -/
theorem get_fed_of_absent (h : ∀ e ∈ puts, e.1 ≠ k) : (fed capacity puts).get k = 0 := by
  rw [get_fed, filter_eq_nil_of_absent h]
  rfl

/-- A key was put a last time, or never. -/
theorem exists_lastPut_or_absent (puts : List (Word × UInt16)) (k : Word) :
    (∃ n, LastPut puts k n) ∨ ∀ e ∈ puts, e.1 ≠ k := by
  induction puts with
  | nil => exact .inr fun e he => absurd he List.not_mem_nil
  | cons first puts ih =>
    rcases ih with ⟨n, earlier, later, rfl, hlater⟩ | habsent
    · exact .inl ⟨n, first :: earlier, later, rfl, hlater⟩
    · by_cases hkey : first.1 = k
      · -- the first put counts if no other one has its key
        subst hkey
        exact .inl ⟨first.2, [], puts, rfl, habsent⟩
      · exact .inr (List.forall_mem_cons.2 ⟨hkey, habsent⟩)

/-- The size of a key tells its last put, whatever the number of buckets. -/
theorem get_fed_eq_iff : (fed capacity puts).get k = n ↔
    LastPut puts k n ∨ (∀ e ∈ puts, e.1 ≠ k) ∧ n = 0 := by
  constructor
  · rintro rfl
    rcases exists_lastPut_or_absent puts k with ⟨n, hlast⟩ | habsent
    · rw [hlast.get_fed]
      exact .inl hlast
    · exact .inr ⟨habsent, get_fed_of_absent habsent⟩
  · rintro (hlast | ⟨habsent, rfl⟩)
    · exact hlast.get_fed
    · exact get_fed_of_absent habsent

/-- Whatever its capacity is, a table that was fed a row of puts gives the size of the last put of
each key, and zero for a key that was never put. It counts all puts and keeps its number of buckets,
which is at least one. So the capacity makes no difference to what is found. -/
theorem last_put_wins (capacity : Nat) (puts : List (Word × UInt16)) :
    (∀ k n, (fed capacity puts).get k = n ↔
      LastPut puts k n ∨ (∀ e ∈ puts, e.1 ≠ k) ∧ n = 0) ∧
    (fed capacity puts).count = puts.length ∧
    (fed capacity puts).capacity = max 1 capacity ∧
    ∀ other k, (fed other puts).get k = (fed capacity puts).get k := by
  refine ⟨fun k n => get_fed_eq_iff, ?_, ?_, fun other k => ?_⟩
  · have hcount := count_foldl_put Prod.fst Prod.snd puts (withCapacity capacity)
    exact hcount.trans (Nat.zero_add puts.length)
  · have hcapacity := capacity_foldl_put Prod.fst Prod.snd puts (withCapacity capacity)
    exact hcapacity.trans Array.size_replicate
  · rw [get_fed, get_fed]

end PoolTable
end StackMachine

import StackMachine.Word

/-!
# Address — guest addresses

A guest address holds a region number in its upper half and an offset inside the region in its
lower half. Region numbers start at one, so that address zero belongs to no region.
-/

namespace StackMachine
namespace Address

def offsets : Nat := 4294967296

def maxRegionLength : Nat := offsets - 1

def region (a : Word) : Nat := a.toNat / offsets

def offset (a : Word) : Nat := a.toNat % offsets

/-- The first address of a region. Region numbers are taken modulo the number of upper halves. -/
def base (region : Nat) : Word := UInt64.ofNat (region * offsets)

/-- The address `distance` bytes further on, unless that leaves the offsets of the region. -/
def advance? (a distance : Word) : Option Word :=
  if offset a + distance.toNat ≤ maxRegionLength then some (a + distance) else none

end Address
end StackMachine

import JobLoom.Store.Basic

/-!
# Stores in memory

A table of payloads that can be changed. Whoever holds the table sees the changes.
-/

namespace JobLoom

/-- A store in memory, each namespace and key at most once. -/
structure MemoryStore where
  /-- the payloads -/
  entries : List ((String × String) × List UInt8)
  deriving DecidableEq

namespace MemoryStore

/-- A store without entries. -/
def empty : MemoryStore := ⟨[]⟩

/-- Set the payload under a namespace and a key. -/
def insert (s : MemoryStore) (space key : String) (payload : List UInt8) : MemoryStore :=
  ⟨((space, key), payload) :: s.entries.filter fun e => e.1 ≠ (space, key)⟩

/-- Take the payload under a namespace and a key away. -/
def remove (s : MemoryStore) (space key : String) : MemoryStore :=
  ⟨s.entries.filter fun e => e.1 ≠ (space, key)⟩

/-- The payload under a namespace and a key. -/
def get? (s : MemoryStore) (space key : String) : Option (List UInt8) :=
  s.entries.lookup (space, key)

/-- How many payloads there are. -/
def size (s : MemoryStore) : Nat := s.entries.length

/-- There are no payloads. -/
def isEmpty (s : MemoryStore) : Bool := s.entries.isEmpty

/-- The table as a store. -/
def toStore (s : MemoryStore) : Store := fun space key =>
  .answer <| match s.get? space key with
    | some payload => .found payload
    | none => .missing

end MemoryStore

end JobLoom

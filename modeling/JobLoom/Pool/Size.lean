import JobLoom.Error

/-!
# The size of a worker pool

How many conversions may be in progress at once and how many requests may wait for one. A pool
without workers or without room for a request is refused before it starts. A pool that is larger than
any can be is not refused: starting it is a crash.
-/

namespace JobLoom

/-- The size of a pool. -/
structure PoolSize where
  /-- how many conversions are in progress at most -/
  workers : Nat
  /-- how many requests wait at most -/
  capacity : Nat
  deriving DecidableEq, Repr

namespace PoolSize

/-- The usual size. -/
def standard : PoolSize := ⟨5, 100⟩

/-- Refuse a pool in which nothing could be converted. -/
def check (p : PoolSize) : Except ConvertError Unit :=
  if p.workers = 0 then .error (.config "dispatcher needs at least one worker")
  else if p.capacity = 0 then .error (.config "queue capacity must be at least 1")
  else .ok ()

/-- The largest capacity of a queue: 61 bits. -/
def maxCapacity : Nat := 0x1fffffffffffffff

/-- The largest number of workers that a list has room for: 60 bits. -/
def maxWorkers : Nat := 0xfffffffffffffff

/-- The text of the crash in which starting a pool ends, if it does. The queue is made first, and then
the list of workers. That memory may run out long before is left open. -/
def crash? (p : PoolSize) : Option String :=
  if maxCapacity < p.capacity then
    some ("a semaphore may not have more than MAX_PERMITS permits (" ++ toString maxCapacity ++ ")")
  else if maxWorkers < p.workers then some "capacity overflow"
  else none

end PoolSize

end JobLoom

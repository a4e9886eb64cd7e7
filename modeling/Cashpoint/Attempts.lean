/-
# Failed logins

A count of failed logins for each name. The count of a name that the Bank has
confirmed stays until it is reset. Names that the Bank has denied wait in a queue of
limited length, and when a new one enters a full queue the oldest leave it, together
with their counts: a stream of invented names takes no more than the room of the
queue, and never pushes out the count of a real user.
-/

import Cashpoint.Table

namespace Cashpoint

/-- Failed logins by name, and the queue of the names that the Bank has denied. -/
structure Attempts where
  /-- The count of each name that has one. -/
  counts : Table String Nat := .empty
  /-- The names denied by the Bank, oldest first. -/
  unknown : List String := []
  /-- The length of the queue of denied names. -/
  capacity : Nat
  deriving DecidableEq

namespace Attempts

/-- The largest count. -/
def largestCount : Nat := 4294967295

/-- The usual length of the queue of denied names. -/
def defaultCapacity : Nat := 1024

/-- No failures, and a queue with room for at least one name. -/
def withCapacity (capacity : Nat) : Attempts := { capacity := max capacity 1 }

/-- The count of a name. -/
def get (a : Attempts) (user : String) : Nat := (a.counts.get? user).getD 0

/-- The number of names with a count. -/
def size (a : Attempts) : Nat := a.counts.size

/-- One more failure of a name. -/
def bump (a : Attempts) (user : String) : Attempts :=
  { a with counts := a.counts.set user (min (a.get user + 1) largestCount) }

/-- One more failure of a name adds one to its count, up to the largest, and changes no other. -/
theorem get_bump (a : Attempts) (user other : String) :
    (a.bump user).get other =
      if user = other then min (a.get user + 1) largestCount else a.get other := by
  simp only [get, bump, Table.get?_set]
  split <;> simp

/-- The queue without a name. -/
def confirm (a : Attempts) (user : String) : Attempts :=
  { a with unknown := a.unknown.filter (· ≠ user) }

/-- A failure of a name that the Bank has confirmed. -/
def recordFailure (a : Attempts) (user : String) : Attempts := (a.confirm user).bump user

/-- The failures after the oldest names have left the queue, as long as it is full. -/
def makeRoom (a : Attempts) : Attempts :=
  let leaving := a.unknown.take (a.unknown.length + 1 - a.capacity)
  { a with
    counts := leaving.foldl Table.erase a.counts
    unknown := a.unknown.drop (a.unknown.length + 1 - a.capacity) }

/-- The failures with a new name at the end of the queue. -/
def enqueue (a : Attempts) (user : String) : Attempts :=
  { a.makeRoom with unknown := a.makeRoom.unknown ++ [user] }

/-- A failure of a name that the Bank has denied. A name that has a count does not enter the queue. -/
def recordUnknown (a : Attempts) (user : String) : Attempts :=
  if a.counts.contains user then a.bump user else (a.enqueue user).bump user

/-- The failures without a name. -/
def reset (a : Attempts) (user : String) : Attempts :=
  { a.confirm user with counts := a.counts.erase user }

end Attempts
end Cashpoint

/-
# The session at an ATM

At most one user is logged in. Beside that stand the counts of failed logins, and a
name is locked once its count has reached the ceiling. No login of a locked name
succeeds; logging out clears the count of the user who leaves.
-/

import Cashpoint.Attempts

namespace Cashpoint

/-- A step that the session does not allow. -/
inductive SessionFault
  | alreadyLoggedIn
  | notLoggedIn
  | locked
  deriving DecidableEq, Repr

/-- The usual number of failures that lock a name. -/
def Session.defaultMaxAttempts : Nat := 3

/-- Who is logged in at the ATM, and who has failed to. -/
structure Session where
  /-- The user who is logged in. -/
  user? : Option String := none
  attempts : Attempts := .withCapacity Attempts.defaultCapacity
  /-- The number of failures that lock a name. -/
  maxAttempts : Nat := Session.defaultMaxAttempts
  deriving DecidableEq

namespace Session

/-- Whether a name has failed too often. -/
def isLocked (s : Session) (user : String) : Bool := s.maxAttempts ≤ s.attempts.get user

/-- A failed login of a name that the Bank has confirmed. -/
def recordFailure (s : Session) (user : String) : Session :=
  { s with attempts := s.attempts.recordFailure user }

/-- A failed login of a name that the Bank has denied. -/
def recordUnknown (s : Session) (user : String) : Session :=
  { s with attempts := s.attempts.recordUnknown user }

/-- The session of a user whom the Bank has confirmed and whose PIN was right. -/
def logIn (s : Session) (user : String) : Except SessionFault Session :=
  if s.user?.isSome then .error .alreadyLoggedIn
  else if s.isLocked user then .error .locked
  else .ok { s with user? := some user }

/-- The user who leaves, and the session after that. -/
def logOut (s : Session) : Except SessionFault (String × Session) :=
  match s.user? with
  | none => .error .notLoggedIn
  | some user => .ok (user, { s with user? := none, attempts := s.attempts.reset user })

end Session
end Cashpoint

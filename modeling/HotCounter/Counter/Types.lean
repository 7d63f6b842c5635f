import Mathlib

/-!
# Domain types

The request, result and mode types shared by every layer. Machine integers, the code's
`Amount` and `CounterId` among them, are natural numbers: a `std::uint64_t` addition that
could leave the range is written with an explicit `% 2 ^ 64`, and a value the code can only
ever receive as a `std::uint64_t` is bounded by a field of the structure that carries it.
-/

namespace HotCounter

/-- `std::numeric_limits<Amount>::max()`. -/
def amountMax : ℕ := 2 ^ 64 - 1

/-- The answer of a counter to one request. -/
inductive Decision
  | accepted
  | rejected
  | moved
  deriving DecidableEq, Repr

/-- How a process currently serves requests. -/
inductive RoutingMode
  | strict
  | reservedPeak
  | dangerStrict
  | remoteStrict
  deriving DecidableEq, Repr

/-- One client request. -/
structure Request where
  counter : ℕ
  delta : ℕ
  routeHash : ℕ := 0
  deriving DecidableEq, Repr

/-- The answer to one client request. -/
structure Result where
  decision : Decision
  observed : ℕ
  shard : ℕ
  deriving DecidableEq, Repr

/-- Monotonic component snapshot handed to the replication publisher. -/
structure ReplicationUpdate where
  counter : ℕ
  epoch : ℕ
  component : ℕ
  value : ℕ
  deriving DecidableEq, Repr

/-- The event emitted by the operation that reaches the limit exactly. -/
structure LimitReachedEvent where
  counter : ℕ
  limit : ℕ
  epoch : ℕ
  deriving DecidableEq, Repr

/-- The amount a served request spent: its delta if it was accepted, else nothing. -/
def spentBy (request : Request) (result : Result) : ℕ :=
  if result.decision = .accepted then request.delta else 0

/-- Sum of the deltas of the accepted requests of a log. -/
def acceptedSum (log : List (Request × Result)) : ℕ :=
  (log.map fun entry => spentBy entry.1 entry.2).sum

@[simp]
theorem acceptedSum_nil : acceptedSum [] = 0 := rfl

@[simp]
theorem acceptedSum_cons (entry : Request × Result) (log : List (Request × Result)) :
    acceptedSum (entry :: log) = spentBy entry.1 entry.2 + acceptedSum log := by
  simp [acceptedSum]

@[simp]
theorem acceptedSum_append (log log' : List (Request × Result)) :
    acceptedSum (log ++ log') = acceptedSum log + acceptedSum log' := by
  simp [acceptedSum]

@[simp]
theorem spentBy_accepted (request : Request) (observed : ℕ) (shard : ℕ) :
    spentBy request ⟨.accepted, observed, shard⟩ = request.delta := rfl

theorem spentBy_of_ne {request : Request} {result : Result}
    (h : result.decision ≠ .accepted) : spentBy request result = 0 := if_neg h

end HotCounter

import ScopedDocs.Error.Basic
/-!
# Requests — who asks, and until when

A request carries the identity of its caller, which tenancy enforcement trusts,
and its own end: it may be cancelled, and it may run out of time
(`Request.check`). Records written for a request belong to its caller
(`Request.owner`), whatever owner they came with.
-/


namespace ScopedDocs

/-- The identity of a caller, as far as it is known. -/
structure Caller where
  /-- The tenant the caller belongs to. -/
  tenant : Option Uuid := none
  /-- The client application the request came through. -/
  client : Option Uuid := none
  /-- The caller's group. -/
  group : Option Uuid := none
  /-- The caller's own identifier. -/
  user : Option Uuid := none
  deriving DecidableEq, Inhabited

/-- A request. -/
structure Request where
  /-- Who asks. -/
  caller : Caller
  /-- An identifier for records of what happened. -/
  correlationId : Option String := none
  /-- The nanoseconds left, if the request has a deadline. -/
  timeLeft : Option Nat := none
  /-- Whether the caller has given up. -/
  cancelled : Bool := false
  deriving DecidableEq, Inhabited

namespace Request

/-- Gives a request so many nanoseconds. An earlier deadline stays. -/
def withTimeout (r : Request) (nanos : Nat) : Request :=
  { r with timeLeft := some (match r.timeLeft with
      | some left => min left nanos
      | none => nanos) }

/-- Ends a request. -/
def cancel (r : Request) : Request := { r with cancelled := true }

/-- **Whether the request still runs.** That it was cancelled counts before
that its time is up. -/
def check (r : Request) : Except Error Unit :=
  if r.cancelled then .error (.request .cancelled)
  else if r.timeLeft = some 0 then .error (.request .deadlineExceeded)
  else .ok ()

/-- **The owner of what the caller writes.** It needs a tenant. -/
def owner (r : Request) : Except Error Owner :=
  match usable r.caller.tenant with
  | some tenant =>
    .ok ⟨tenant, usable r.caller.client, usable r.caller.group, usable r.caller.user⟩
  | none => .error (.tenancy (.refused .tenant .notInContext))

/-- The caller as a declared owner. Without a tenant it has the nil one, which
the guard refuses. -/
def source (r : Request) : Owner :=
  ⟨(usable r.caller.tenant).getD Uuid.nil, usable r.caller.client, usable r.caller.group,
    usable r.caller.user⟩

/-- The request of a caller, who has to have a tenant, for a number of nanoseconds. -/
def ofCaller (caller : Caller) (correlationId : Option String) (timeout : Option Nat) :
    Except Error Request :=
  match usable caller.tenant with
  | some _ => .ok ⟨caller, correlationId, timeout, false⟩
  | none => .error (.input (.missing OwnerLevel.tenant.key))

end Request

end ScopedDocs

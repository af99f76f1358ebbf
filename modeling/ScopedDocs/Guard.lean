import ScopedDocs.Pipeline
import ScopedDocs.Search.Basic
/-!
# The guard — who may see what

Every filter passes the guard before it reaches a store. The guard compares the
scope a search declares with the caller's identity, level by level, and turns it
into terms on the owners of records (`Guard.scopeTerms`). The terms and the
caller's own filter are combined so that all have to hold (`Guard.combine`): a
filter can narrow its scope and never widen it.
-/


namespace ScopedDocs

namespace Guard

/-- A failed check of a level. -/
def refuse {α : Type} (level : OwnerLevel) (reason : Refusal) : Except Error α :=
  .error (.tenancy (.refused level reason))

/-- The term that a record has an identifier at a level of its owner. -/
def ownerTerm (level : OwnerLevel) (id : Uuid) : Json :=
  .obj [(Owner.levelPath level, .str id.text)]

/-- The term that one of several terms holds. -/
def anyOf : List Json → Json
  | [term] => term
  | terms => .obj [("$or", .arr terms)]

/-- The tenant of a search: the caller's, which the search has to declare. -/
def tenantTerm (caller : Caller) (declared : Owner) : Except Error Json :=
  match usable caller.tenant with
  | none => refuse .tenant .notInContext
  | some tenant =>
    if declared.lacksTenant then refuse .tenant .notInSearch
    else if declared.tenant ≠ tenant then refuse .tenant .differs
    else .ok (ownerTerm .tenant tenant)

/-- The client application of a search: the caller's, which the search has to
declare. -/
def clientTerm (caller : Caller) (declared : Owner) : Except Error Json :=
  match usable caller.client with
  | none => refuse .client .notInContext
  | some client =>
    match usable declared.client with
    | none => refuse .client .notInSearch
    | some other =>
      if other ≠ client then refuse .client .differs else .ok (ownerTerm .client client)

/-- An identifier a search declares at a level: if there is one, it is the
caller's. -/
def checked (level : OwnerLevel) (own declared : Option Uuid) : Except Error (Option Uuid) :=
  match usable declared with
  | none => .ok none
  | some id => if usable own = some id then .ok (some id) else refuse level .differs

/-- The group or the user of a search: the one its audience needs, and the
other one if it is declared. -/
def memberTerm (needed other : OwnerLevel) (id otherId : Option Uuid) : Except Error Json :=
  match id with
  | none => refuse needed .neededByAudience
  | some id => .ok (anyOf (ownerTerm needed id :: (otherId.map (ownerTerm other)).toList))

/-- **The terms of a scope.** The tenant is checked first, then the level of the
audience; a group is checked before a user. -/
def scopeTerms (declared : Owner) (audience : Audience) (r : Request) : Except Error (List Json) := do
  let tenant ← tenantTerm r.caller declared
  match audience with
  | .client => do
    let client ← clientTerm r.caller declared
    .ok [tenant, client]
  | .group => do
    let group ← checked .group r.caller.group declared.group
    let user ← checked .user r.caller.user declared.user
    let member ← memberTerm .group .user group user
    .ok [tenant, member]
  | .user => do
    let group ← checked .group r.caller.group declared.group
    let user ← checked .user r.caller.user declared.user
    let member ← memberTerm .user .group user group
    .ok [tenant, member]
  | .tenant => .error (.tenancy .tenantAudience)
  | .unknown => .error (.tenancy .unknownAudience)

/-- Whether a filter asks for nothing. -/
def asksNothing : Json → Bool
  | .null => true
  | .obj [] => true
  | _ => false

/-- The terms of a scope and a filter, all of which have to hold. -/
def combine (terms : List Json) (condition : Json) : Json :=
  .obj [("$and", .arr (if asksNothing condition then terms else terms ++ [condition]))]

/-- **Enforcement.** A filter within the scope a search declares. -/
def enforce (condition : Json) (v : Visibility) (r : Request) : Except Error Json :=
  (scopeTerms v.source v.audience r).map fun terms => combine terms condition

/-- Enforcement on the first filter of a pipeline. -/
def enforcePipeline (p : Pipeline) (v : Visibility) (r : Request) : Except Error Pipeline :=
  (enforce (p.filter?.getD (.obj [])) v r).map p.withFilter

/-- **The filter of writes.** The records the caller sees at an audience. -/
def ownershipFilter (r : Request) (audience : Audience) : Except Error Json :=
  enforce (.obj []) ⟨r.source, audience⟩ r

end Guard

end ScopedDocs

import ScopedDocs.Json.Decode
/-!
# Owners — who a record belongs to

Every record belongs to a tenant, and within it possibly to a client
application, a group and a user (`OwnerLevel`). A level that is absent and a
level that holds the nil identifier are the same: only `usable` identifiers
count.
-/


namespace ScopedDocs

/-- The levels of ownership, from the widest on. -/
inductive OwnerLevel where
  /-- The tenant. -/
  | tenant
  /-- The client application. -/
  | client
  /-- The group. -/
  | group
  /-- The single user. -/
  | user
  deriving DecidableEq, Repr

namespace OwnerLevel

/-- The key under which the identifier of a level is stored. -/
def key : OwnerLevel → String
  | tenant => "tenant_id"
  | client => "client_id"
  | group => "group_id"
  | user => "user_id"

/-- The word for a level. -/
def noun : OwnerLevel → String
  | tenant => "tenant"
  | client => "client"
  | group => "group"
  | user => "user"

end OwnerLevel

/-- The owner of a record. -/
structure Owner where
  /-- The tenant. -/
  tenant : Uuid
  /-- The client application, if the record has one. -/
  client : Option Uuid
  /-- The group, if the record has one. -/
  group : Option Uuid
  /-- The user, if the record has one. -/
  user : Option Uuid
  deriving DecidableEq, Inhabited

/-- An identifier that is there and not nil. -/
def usable (id : Option Uuid) : Option Uuid := id.filter fun u => !u.isNil

namespace Owner

/-- The path at which every record stores its owner. -/
def path : String := "resource_owner"

/-- The path at which a record stores one level of its owner. -/
def levelPath (level : OwnerLevel) : String := path ++ "." ++ level.key

/-- The owner that owns nothing. -/
def nobody : Owner := ⟨Uuid.nil, none, none, none⟩

/-- A tenant as an owner. -/
def ofTenant (tenant : Uuid) : Owner := ⟨tenant, none, none, none⟩

/-- The stored identifier of a level. -/
def at? (o : Owner) : OwnerLevel → Option Uuid
  | .tenant => some o.tenant
  | .client => o.client
  | .group => o.group
  | .user => o.user

/-- Whether the tenant is the nil identifier. -/
def lacksTenant (o : Owner) : Bool := o.tenant.isNil

/-- Whether the record belongs to the tenant itself and to no narrower level. -/
def isTenant (o : Owner) : Bool :=
  !o.lacksTenant && (usable o.client).isNone && (usable o.group).isNone && (usable o.user).isNone

/-- Whether the record belongs to a client application and to no narrower
level. -/
def isClient (o : Owner) : Bool :=
  !o.lacksTenant && (usable o.client).isSome && (usable o.group).isNone && (usable o.user).isNone

/-- Whether the record belongs to a group and to no single user. -/
def isGroup (o : Owner) : Bool :=
  !o.lacksTenant && (usable o.group).isSome && (usable o.user).isNone

/-- Whether the record belongs to a single user. -/
def isUser (o : Owner) : Bool := !o.lacksTenant && (usable o.user).isSome

/-- The stored form of a level that may be absent: an absent one is left out. -/
def levelMember (level : OwnerLevel) (id : Option Uuid) : Members Json :=
  match id with
  | some u => [(level.key, .str u.text)]
  | none => []

/-- The stored form of an owner. -/
def toJson (o : Owner) : Json :=
  .obj ((OwnerLevel.tenant.key, .str o.tenant.text) ::
    (levelMember .client o.client ++ levelMember .group o.group ++ levelMember .user o.user))

/-- **Reading.** The owner a JSON value writes: the tenant is needed, and every
other level may be missing. -/
def ofJson? (value : Json) : Option Owner :=
  open Json.Decode in
  match fields? ([OwnerLevel.tenant, .client, .group, .user].map OwnerLevel.key) value with
  | some [tenant, client, group, user] => do
    let tenant ← required? uuid? tenant
    let client ← orElse? (optional? uuid?) none client
    let group ← orElse? (optional? uuid?) none group
    let user ← orElse? (optional? uuid?) none user
    some ⟨tenant, client, group, user⟩
  | _ => none

end Owner

end ScopedDocs

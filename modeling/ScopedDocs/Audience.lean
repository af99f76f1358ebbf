import ScopedDocs.Json.Decode
/-!
# Audiences — the scope a search is meant for

The audience of a search decides which level of ownership its records have to
have. The audience of a whole tenant and an unknown one are never served.
-/


namespace ScopedDocs

/-- The scope a search is meant for. -/
inductive Audience where
  /-- Every record of the tenant. -/
  | tenant
  /-- The records of one client application. -/
  | client
  /-- The records of a group, and the caller's own. -/
  | group
  /-- The caller's own records, and those of the caller's group. -/
  | user
  /-- A scope nobody knows. -/
  | unknown
  deriving DecidableEq, Repr, Inhabited

namespace Audience

/-- The written name of an audience. -/
def name : Audience → String
  | tenant => "TenantAudience"
  | client => "ClientAudience"
  | group => "GroupAudience"
  | user => "UserAudience"
  | unknown => "Unknown"

/-- The audience of a written name; every other name is of an unknown one. -/
def ofName (s : String) : Audience :=
  if s = "TenantAudience" then tenant
  else if s = "ClientAudience" then client
  else if s = "GroupAudience" then group
  else if s = "UserAudience" then user
  else unknown

/-- The audience a JSON value writes. -/
def ofJson? (value : Json) : Option Audience := (Json.Decode.name? value).map ofName

/-- Reading undoes writing. -/
@[simp] theorem ofName_name (a : Audience) : ofName a.name = a := by
  cases a <;> simp [ofName, name]

end Audience

end ScopedDocs

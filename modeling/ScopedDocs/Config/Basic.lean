import ScopedDocs.Audience
import ScopedDocs.Error.Basic
import ScopedDocs.Span.Basic
/-!
# Configuration — limits and defaults

The limits that searches are held to and the defaults that fill them in
(`Config`). `Config.validate` says which configurations make sense, and which of
several faults counts.
-/


namespace ScopedDocs

/-- What becomes of aggregations that are nested too deeply. -/
inductive DepthOverflow where
  /-- The search is refused. -/
  | reject
  /-- The aggregation is left out. -/
  | drop
  deriving DecidableEq, Repr, Inhabited

namespace DepthOverflow

/-- The written name. -/
def name : DepthOverflow → String
  | reject => "reject"
  | drop => "drop_with_warning"

/-- The treatment of a written name, if there is one. -/
def ofName? (s : String) : Option DepthOverflow :=
  if s = "reject" then some reject else if s = "drop_with_warning" then some drop else none

end DepthOverflow

/-- The limits and defaults of a repository. -/
structure Config where
  /-- The page size of a search that asks for none. -/
  defaultPageSize : UInt64 := 50
  /-- The greatest page size. -/
  maxPageSize : UInt64 := 200
  /-- How deeply aggregations may be nested. -/
  maxDepth : UInt64 := 10
  /-- What becomes of those nested deeper. -/
  depthOverflow : DepthOverflow := .reject
  /-- The audience of writes, and of searches that name none. -/
  defaultAudience : Audience := .user
  /-- The time a call of the store may take, if it is limited. -/
  queryTimeout : Option Span := none
  deriving DecidableEq, Inhabited

namespace Config

/-- An unsuitable setting. -/
def invalid {α : Type} (setting : String) (fault : SettingFault) : Except Error α :=
  .error (.config (.invalid setting fault))

/-- **Whether a configuration makes sense.** The first fault counts. -/
def validate (c : Config) : Except Error Unit :=
  if c.maxPageSize = 0 then invalid "max_page_size" .notPositive
  else if c.defaultPageSize = 0 || c.maxPageSize < c.defaultPageSize then
    invalid "default_page_size" .pageSizeOutOfRange
  else if c.maxDepth = 0 then invalid "max_recursion_depth" .notPositive
  else if c.defaultAudience = .tenant || c.defaultAudience = .unknown then
    invalid "default_audience" .audienceNotServed
  else if c.queryTimeout.any Span.isZero then invalid "query_timeout" .noTime
  else .ok ()

/-- **The page size of a search** that asks for `requested` records. -/
def effectiveLimit (c : Config) (requested : UInt64) : Except Error UInt64 :=
  if requested = 0 then .ok c.defaultPageSize
  else if c.maxPageSize < requested then .error (.search (.pageTooLarge requested.toNat c.maxPageSize.toNat))
  else .ok requested

end Config

end ScopedDocs

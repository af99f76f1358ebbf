import ScopedDocs.Config.Basic
import ScopedDocs.Span.Reader
/-!
# Configuration — settings

How a configuration is read from settings, which are texts with names
(`Config.ofSettings`). Each reader says what its setting has to look like.
-/


namespace ScopedDocs

/-- Named settings, as texts. -/
abbrev Settings := String → Option String

namespace Config

/-- The natural number a setting writes: decimal digits, possibly behind a
plus, between blanks. -/
def readNumber (setting raw : String) : Except Error UInt64 :=
  let cs := trimBlanks raw.toList
  let digits := match cs with
    | '+' :: rest => rest
    | cs => cs
  let n := decimalValue digits
  if !digits.isEmpty && digits.all Char.isDigit && n < UInt64.size then .ok (UInt64.ofNat n)
  else invalid setting .notANumber

/-- The treatment of deep nesting a setting writes, in any case. -/
def readOverflow (setting raw : String) : Except Error DepthOverflow :=
  let name := String.ofList ((trimBlanks raw.toList).map Char.toLower)
  if name = "reject" then .ok .reject
  else if name = "drop" || name = "drop_with_warning" then .ok .drop
  else invalid setting .unknownOverflow

/-- The audience a setting writes. -/
def readAudience (setting raw : String) : Except Error Audience :=
  match Audience.ofName (trimmed raw) with
  | .unknown => invalid setting .unknownAudience
  | audience => .ok audience

/-- The span a setting writes. -/
def readSpan (setting raw : String) : Except Error Span :=
  match Span.ofText? (trimmed raw) with
  | some span => .ok span
  | none => invalid setting .unreadableSpan

/-- The value of a setting, or its default where it is not set. -/
def setting {α : Type} (settings : Settings) (name : String) (default : α)
    (read : String → String → Except Error α) : Except Error α :=
  match settings name with
  | some raw => read name raw
  | none => .ok default

/-- **Reading from settings.** A setting that is not set keeps its default, and
the result has to make sense. -/
def ofSettings (settings : Settings) : Except Error Config := do
  let base : Config := {}
  let defaultPageSize ← setting settings "ARENA_DEFAULT_PAGE_SIZE" base.defaultPageSize readNumber
  let maxPageSize ← setting settings "ARENA_MAX_PAGE_SIZE" base.maxPageSize readNumber
  let maxDepth ← setting settings "ARENA_MAX_RECURSION_DEPTH" base.maxDepth readNumber
  let depthOverflow ← setting settings "ARENA_DEPTH_OVERFLOW" base.depthOverflow readOverflow
  let defaultAudience ← setting settings "ARENA_DEFAULT_AUDIENCE" base.defaultAudience readAudience
  let queryTimeout ← setting settings "ARENA_QUERY_TIMEOUT" base.queryTimeout
    fun name raw => (readSpan name raw).map some
  let config : Config :=
    { defaultPageSize, maxPageSize, maxDepth, depthOverflow, defaultAudience, queryTimeout }
  config.validate
  .ok config

end Config

end ScopedDocs

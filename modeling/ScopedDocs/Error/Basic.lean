import ScopedDocs.Error.Access
import ScopedDocs.Error.Store
/-!
# Errors — why an operation is refused

An error is the cause of one refusal, told apart by the part of the library that
refuses: fields and schemas, tenancy, searches, records, transactions, the
store, the request, its input, and settings. One cause is no refusal: where
sorting finds that documents are compared by no order, nothing is answered and
the program ends (`Error.noOrder`). `Error.message` is the text of each.
-/


namespace ScopedDocs

/-- Requests that have ended. -/
inductive RequestError where
  /-- The caller has given up. -/
  | cancelled
  /-- The time is up. -/
  | deadlineExceeded
  deriving DecidableEq

/-- The text of the end of a request. -/
def RequestError.message : RequestError → String
  | cancelled => "request cancelled"
  | deadlineExceeded => "request deadline exceeded"

/-- Refusals of the input of a caller. -/
inductive InputError where
  /-- A required field is missing. -/
  | missing (field : String)
  /-- A field has a value it cannot have. -/
  | invalid (field message : String)
  deriving DecidableEq

/-- The text of a refusal of input. -/
def InputError.message : InputError → String
  | missing field => "missing required field: " ++ field
  | invalid field message => "invalid value for " ++ field ++ ": " ++ message

/-- What is wrong with a setting. -/
inductive SettingFault where
  /-- It is no natural number. -/
  | notANumber
  /-- It is no way to treat deep nesting. -/
  | unknownOverflow
  /-- It is no audience. -/
  | unknownAudience
  /-- It is no length of time. -/
  | unreadableSpan
  /-- It is zero. -/
  | notPositive
  /-- It is zero, or beyond the greatest page size. -/
  | pageSizeOutOfRange
  /-- It is an audience that is never served. -/
  | audienceNotServed
  /-- It is no time at all. -/
  | noTime
  /-- It is no connection string. -/
  | badConnectionString
  /-- It is no name of a database. -/
  | badDatabaseName
  /-- Another fault, in words. -/
  | reported (message : String)
  deriving DecidableEq

/-- The text of a fault of a setting. -/
def SettingFault.text : SettingFault → String
  | notANumber => "expected a non-negative integer"
  | unknownOverflow => "expected 'reject' or 'drop'"
  | unknownAudience => "unknown audience"
  | unreadableSpan => "expected a length of time"
  | notPositive => "must be positive"
  | pageSizeOutOfRange => "must be positive and at most max_page_size"
  | audienceNotServed => "tenant-wide and unknown audiences cannot be a default"
  | noTime => "must be non-zero"
  | badConnectionString => "expected a mongodb:// or mongodb+srv:// connection string"
  | badDatabaseName => "invalid database name"
  | reported message => message

/-- Refusals of settings. -/
inductive ConfigError where
  /-- A setting has a value it cannot have. -/
  | invalid (setting : String) (fault : SettingFault)
  deriving DecidableEq

/-- The text of a refusal of a setting. -/
def ConfigError.message : ConfigError → String
  | invalid setting fault =>
    "invalid configuration value for " ++ setting ++ ": " ++ fault.text

/-- **Why an operation is refused.** -/
inductive Error where
  /-- A field or schema is at fault. -/
  | schema (cause : SchemaError)
  /-- The tenancy guard refuses. -/
  | tenancy (cause : TenancyError)
  /-- The search is at fault. -/
  | search (cause : SearchError)
  /-- The state of a record forbids it. -/
  | record (cause : RecordError)
  /-- The transaction is at fault. -/
  | transaction (cause : TransactionError)
  /-- The store refuses. -/
  | store (cause : StoreError)
  /-- The request has ended. -/
  | request (cause : RequestError)
  /-- The input of the caller is at fault. -/
  | input (cause : InputError)
  /-- A setting is at fault. -/
  | config (cause : ConfigError)
  /-- What documents are sorted by is no order, which ends the program. -/
  | noOrder
  deriving DecidableEq

namespace Error

/-- **The text of an error.** -/
def message : Error → String
  | schema cause => cause.message
  | tenancy cause => cause.message
  | search cause => cause.message
  | record cause => cause.message
  | transaction cause => cause.message
  | store cause => cause.message
  | request cause => cause.message
  | input cause => cause.message
  | config cause => cause.message
  | noOrder => "user-provided comparison function does not correctly implement a total order"

/-- Whether a unique key is taken. -/
def isDuplicateKey : Error → Bool
  | store (.duplicateKey _) => true
  | _ => false

/-- Whether the tenancy guard refuses. -/
def isTenancy : Error → Bool
  | tenancy _ => true
  | _ => false

/-- Whether the same call may succeed later: only if the store could not be
reached. -/
def isTransient : Error → Bool
  | store (.unavailable _ _) => true
  | store (.connectionFailed _ _) => true
  | _ => false

/-- A fault of a query. -/
def ofFault (fault : QueryFault) : Error := store (.query fault)

end Error

end ScopedDocs

import ScopedDocs.Owner
/-!
# Errors — refusals of what a caller asks for

The causes for which schemas, the tenancy guard and the planning of searches
refuse, and the text of each. No text of a schema or tenancy error holds a
storage path or an identifier.
-/


namespace ScopedDocs

/-- What is wrong with a declaration of a schema. -/
inductive MappingFault where
  /-- A field has no logical name. -/
  | emptyLogical
  /-- A field has no storage path. -/
  | emptyStorage
  /-- A storage path has an empty segment. -/
  | emptySegment
  /-- A segment of a storage path starts with a dollar sign. -/
  | dollarSegment
  /-- A declared field is named by more than one segment. -/
  | dottedSegment
  /-- A field is stored where the owner is. -/
  | ownership
  /-- An index has no keys. -/
  | noIndexKeys
  /-- An entity type has no idempotency key. -/
  | noIdempotencyKey (entityType : String)
  /-- Another fault, in words. -/
  | reported (message : String)
  deriving DecidableEq

/-- The text of a fault of a declaration. -/
def MappingFault.text : MappingFault → String
  | emptyLogical => "logical name is empty"
  | emptyStorage => "storage path is empty"
  | emptySegment => "storage path has an empty segment"
  | dollarSegment => "storage path starts with '$'"
  | dottedSegment => "field segments cannot contain '.'"
  | ownership => "ownership fields are managed by tenancy enforcement"
  | noIndexKeys => "index has no keys"
  | noIdempotencyKey entityType => entityType ++ " declares no idempotency key"
  | reported message => message

/-- Refusals of fields and schemas. -/
inductive SchemaError where
  /-- A search names no field. -/
  | emptyField
  /-- The entity type has no such field. -/
  | unknownField (field : String)
  /-- The field may not be searched by. -/
  | notQueryable (field : String)
  /-- No field below a wildcard may be searched by. -/
  | wildcardDenied (stem : String)
  /-- Fields are both picked and omitted. -/
  | pickAndOmit
  /-- A declaration is inconsistent. -/
  | invalidMapping (field : String) (fault : MappingFault)
  /-- The entity type has no schema. -/
  | notRegistered (entityType : String)
  /-- The entity type has a schema already. -/
  | alreadyRegistered (entityType : String)
  deriving DecidableEq

/-- The text of a refusal of a field or schema. -/
def SchemaError.message : SchemaError → String
  | emptyField => "empty field name is not allowed"
  | unknownField field => "unknown field: " ++ field
  | notQueryable field => "field not queryable: " ++ field
  | wildcardDenied stem => "filtering on fields matching '" ++ stem ++ ".*' is not permitted"
  | pickAndOmit => "cannot specify both pick and omit fields"
  | invalidMapping field fault => "invalid mapping for field " ++ field ++ ": " ++ fault.text
  | notRegistered entityType => "no field access schema registered for " ++ entityType
  | alreadyRegistered entityType => "field access schema already registered for " ++ entityType

/-- Why an identifier of a level is not accepted. -/
inductive Refusal where
  /-- The caller has none. -/
  | notInContext
  /-- The search declares none. -/
  | notInSearch
  /-- The caller's and the declared one differ. -/
  | differs
  /-- The search declares none, and its audience needs one. -/
  | neededByAudience
  /-- Another reason, in words. -/
  | reported (reason : String)
  deriving DecidableEq

/-- The text of a reason at a level. -/
def Refusal.text (level : OwnerLevel) : Refusal → String
  | notInContext => "valid " ++ level.key ++ " is required in the request context"
  | notInSearch => level.key ++ " is required in the search"
  | differs => level.key ++ " in the request context does not match the search"
  | neededByAudience =>
    level.key ++ " is required in the search for a " ++ level.noun ++ " audience"
  | reported reason => reason

/-- Refusals of the tenancy guard. -/
inductive TenancyError where
  /-- The check of one level failed. -/
  | refused (level : OwnerLevel) (reason : Refusal)
  /-- The audience is the whole tenant. -/
  | tenantAudience
  /-- The audience is unknown. -/
  | unknownAudience
  deriving DecidableEq

/-- The text of a refusal of the guard. -/
def TenancyError.message : TenancyError → String
  | refused level reason =>
    "tenancy check failed at " ++
      (match level with
        | .tenant => "request-source"
        | .client => "application"
        | .group => "group"
        | .user => "user") ++ " level: " ++ reason.text level
  | tenantAudience => "tenancy check failed at admin level: tenant audience is not allowed"
  | unknownAudience => "tenancy check failed: intended audience is invalid"

/-- Refusals of searches. -/
inductive SearchError where
  /-- More records are asked for than a page may hold. -/
  | pageTooLarge (requested max : Nat)
  /-- No operator has this name. -/
  | unsupportedOperator (operator : String)
  /-- An operator that needs a value has none. -/
  | missingOperand (field operator : String)
  /-- Aggregations are nested too deeply. -/
  | tooDeep (max : Nat)
  deriving DecidableEq

/-- The text of a refusal of a search. -/
def SearchError.message : SearchError → String
  | pageTooLarge requested max =>
    "given page size " ++ toString requested ++ " exceeds the maximum limit of " ++ toString max ++
      " records per request"
  | unsupportedOperator operator => "unsupported search operator: " ++ operator
  | missingOperand field operator =>
    "operator '" ++ operator ++ "' on field " ++ field ++ " requires at least one value"
  | tooDeep max => "maximum aggregation depth " ++ toString max ++ " exceeded"

end ScopedDocs

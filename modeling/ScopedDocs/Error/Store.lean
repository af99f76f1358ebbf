/-!
# Errors — refusals of the store

The causes for which records, transactions and the store itself refuse, and the
text of each.
-/


namespace ScopedDocs

/-- Refusals that concern the state of a record. -/
inductive RecordError where
  /-- The record is not there, or not the caller's to see. -/
  | notFound (entityType id : String)
  /-- A record of this key exists. -/
  | alreadyExists (entityType key : String)
  /-- The stored record has no owner. -/
  | ownerless (entityType : String)
  deriving DecidableEq

/-- The text of a refusal that concerns a record. -/
def RecordError.message : RecordError → String
  | notFound entityType id => "resource not found: " ++ entityType ++ "/" ++ id
  | alreadyExists entityType key => "resource already exists: " ++ entityType ++ "/" ++ key
  | ownerless entityType => "resource " ++ entityType ++ " has no owning tenant"

/-- Refusals of transactions. -/
inductive TransactionError where
  /-- No write of the transaction was kept. -/
  | rolledBack (reason : String)
  /-- The transaction holds no write. -/
  | emptyBatch
  deriving DecidableEq

/-- The text of a refusal of a transaction. -/
def TransactionError.message : TransactionError → String
  | rolledBack reason => "transaction rolled back: " ++ reason
  | emptyBatch => "transaction has no operations"

/-- What is wrong with a filter, an update, a document or a pipeline. -/
inductive QueryFault where
  /-- Something has to be a document and is not. -/
  | notADocument (what : String)
  /-- A connective has to have clauses. -/
  | noClauses (operator : String)
  /-- A membership test has to have an array. -/
  | notAnArray (operator : String)
  /-- A pattern has to be a string. -/
  | patternNotAString
  /-- A pattern cannot be read. -/
  | unreadablePattern
  /-- A pattern takes more room than there is, in bytes. -/
  | oversizedPattern (limit : Nat)
  /-- No operator has this name. -/
  | unsupportedOperator (operator : String)
  /-- A path to set leads through a value that is no document. -/
  | blockedPath
  /-- Only documents are stored. -/
  | insertNotADocument
  /-- The primary key does not change. -/
  | primaryKeyChanged
  /-- No pipeline has such a stage; the stage as text. -/
  | unsupportedStage (stage : String)
  /-- Another fault, in words. -/
  | reported (message : String)
  deriving DecidableEq

/-- The text of a fault of a query. -/
def QueryFault.text : QueryFault → String
  | notADocument what => what ++ ": expected a document"
  | noClauses operator => operator ++ ": expected a non-empty array"
  | notAnArray operator => operator ++ ": expected an array"
  | patternNotAString => "$regex: expected a string pattern"
  | unreadablePattern => "$regex: unreadable pattern"
  | oversizedPattern limit =>
    "$regex: Compiled regex exceeds size limit of " ++ limit.repr ++ " bytes."
  | unsupportedOperator operator => "unsupported operator " ++ operator
  | blockedPath => "$set: path crosses a non-document value"
  | insertNotADocument => "only documents can be inserted"
  | primaryKeyChanged => "the _id field cannot be modified"
  | unsupportedStage stage => "unsupported pipeline stage " ++ stage
  | reported message => message

/-- Refusals of the store. -/
inductive StoreError where
  /-- A unique key is taken. -/
  | duplicateKey (collection : String)
  /-- The store does not answer. -/
  | unavailable (store reason : String)
  /-- The store cannot be reached. -/
  | connectionFailed (store reason : String)
  /-- The query is at fault. -/
  | query (fault : QueryFault)
  /-- A stored document is not of the type asked for. -/
  | undecodable (message : String)
  /-- The store itself is at fault. -/
  | internal (store message : String)
  deriving DecidableEq

/-- The text of a refusal of the store. -/
def StoreError.message : StoreError → String
  | duplicateKey collection => "duplicate key in collection " ++ collection
  | unavailable store _ => "backend unavailable: " ++ store
  | connectionFailed store reason => "connection failed to " ++ store ++ ": " ++ reason
  | query fault => "query execution failed: " ++ fault.text
  | undecodable message => "serialization error: " ++ message
  | internal store message => "internal error in " ++ store ++ ": " ++ message

end ScopedDocs

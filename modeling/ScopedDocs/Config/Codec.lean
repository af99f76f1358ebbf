import ScopedDocs.Config.Basic
/-!
# Configuration — its written forms

How a configuration is written as JSON and read back, and how it is put in
words.
-/


namespace ScopedDocs

namespace Config

/-- The written form of a configuration. -/
def toJson (c : Config) : Json :=
  .obj [("default_page_size", .ofWord c.defaultPageSize), ("max_page_size", .ofWord c.maxPageSize),
    ("max_recursion_depth", .ofWord c.maxDepth), ("depth_overflow", .str c.depthOverflow.name),
    ("default_audience", .str c.defaultAudience.name),
    ("query_timeout", match c.queryTimeout with
      | some span => span.toJson
      | none => .null)]

/-- **Reading.** The configuration a JSON value writes; every field may be
missing. -/
def ofJson? (value : Json) : Option Config :=
  open Json.Decode in
  match fields? ["default_page_size", "max_page_size", "max_recursion_depth", "depth_overflow",
      "default_audience", "query_timeout"] value with
  | some [defaultPageSize, maxPageSize, maxDepth, depthOverflow, defaultAudience, queryTimeout] => do
    let base : Config := {}
    let defaultPageSize ← orElse? word? base.defaultPageSize defaultPageSize
    let maxPageSize ← orElse? word? base.maxPageSize maxPageSize
    let maxDepth ← orElse? word? base.maxDepth maxDepth
    let depthOverflow ←
      orElse? (fun v => (name? v).bind DepthOverflow.ofName?) base.depthOverflow depthOverflow
    let defaultAudience ← orElse? Audience.ofJson? base.defaultAudience defaultAudience
    let queryTimeout ← orElse? (optional? span?) base.queryTimeout queryTimeout
    some { defaultPageSize, maxPageSize, maxDepth, depthOverflow, defaultAudience, queryTimeout }
  | _ => none

/-! ## In words -/

/-- A treatment of deep nesting in words. -/
def overflowInWords : DepthOverflow → String
  | .reject => "Reject"
  | .drop => "DropWithWarning"

/-- An audience in words. -/
def audienceInWords : Audience → String
  | .tenant => "Tenant"
  | .client => "ClientApplication"
  | .group => "Group"
  | .user => "User"
  | .unknown => "Unknown"

/-- The configuration in words. -/
def describe (c : Config) : String :=
  "RepositoryConfig \x7b default_page_size: " ++ toString c.defaultPageSize.toNat ++
    ", max_page_size: " ++ toString c.maxPageSize.toNat ++
    ", max_recursion_depth: " ++ toString c.maxDepth.toNat ++
    ", depth_overflow: " ++ overflowInWords c.depthOverflow ++
    ", default_audience: " ++ audienceInWords c.defaultAudience ++
    ", query_timeout: " ++
      (match c.queryTimeout with
        | some span => "Some(" ++ span.text ++ ")"
        | none => "None") ++ " \x7d"

end Config

end ScopedDocs

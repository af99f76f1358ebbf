import ScopedDocs.Dotted
import ScopedDocs.Error.Basic
/-!
# Schemas — declared fields

The fields of an entity type as a tree: each has a logical name, a storage name
and a kind, and fields of fields are found by their logical names. A walk down
the tree (`Field.descend?`) follows the segments of a logical name and collects
storage names.
-/


namespace ScopedDocs

mutual

/-- A declared field. -/
inductive Field where
  /-- Its logical name, its storage name and its kind. -/
  | declare (name storage : String) (kind : FieldKind)

/-- The shape of a field's stored value. -/
inductive FieldKind where
  /-- A single value. -/
  | scalar
  /-- An array of single values. -/
  | scalarArray
  /-- A document with declared fields, by their names in order. -/
  | composite (children : List (String × Field))
  /-- An array of documents with declared fields, by their names in order. -/
  | collection (children : List (String × Field))
  /-- A document with any keys. -/
  | freeForm

end

namespace Field

/-- The logical name. -/
def name : Field → String
  | declare name _ _ => name

/-- The storage name. -/
def storage : Field → String
  | declare _ storage _ => storage

/-- The kind. -/
def kind : Field → FieldKind
  | declare _ _ kind => kind

/-- Fields by their names, in order. Of two fields of one name the later one
counts. -/
def index (fields : List Field) : Members Field :=
  fields.foldl (fun m f => m.putSorted f.name f) []

/-- A single value. -/
def scalar (name storage : String) : Field := declare name storage .scalar

/-- An array of single values. -/
def scalarArray (name storage : String) : Field := declare name storage .scalarArray

/-- A document with declared fields. -/
def composite (name storage : String) (children : List Field) : Field :=
  declare name storage (.composite (index children))

/-- An array of documents with declared fields. -/
def collection (name storage : String) (children : List Field) : Field :=
  declare name storage (.collection (index children))

/-- A document with any keys. -/
def freeForm (name storage : String) : Field := declare name storage .freeForm

/-- Whether the stored value is an array. -/
def isArray (f : Field) : Bool :=
  match f.kind with
  | .scalarArray => true
  | .collection _ => true
  | _ => false

/-- **Walking down.** The storage names on the way from a field along logical
segments, and the field the way ends at, unless it ends below a document with
any keys, where segments are kept as they are. -/
def descend? (f : Field) : List String → Option (List String × Option Field)
  | [] => some ([f.storage], some f)
  | segment :: rest =>
    match f.kind with
    | .freeForm =>
      if (segment :: rest).any String.isEmpty then none
      else some (f.storage :: segment :: rest, none)
    | .composite children => below children segment rest
    | .collection children => below children segment rest
    | _ => none
where
  /-- The walk on from a declared child. -/
  below (children : Members Field) (segment : String) (rest : List String) :
      Option (List String × Option Field) :=
    if segment.isEmpty then none
    else
      match children.lookup segment with
      | some child => (descend? child rest).map fun (names, last) => (f.storage :: names, last)
      | none => none

/-- The declaration of a storage path, refused unless the logical name and
every segment of the path are there and no segment starts with a dollar sign. -/
def checkPath (logical storage : String) : Except Error Unit :=
  let invalid (fault : MappingFault) : Except Error Unit :=
    .error (.schema (.invalidMapping logical fault))
  let segments := Dotted.segments storage
  if logical.isEmpty then invalid .emptyLogical
  else if storage.isEmpty then invalid .emptyStorage
  else if segments.any String.isEmpty then invalid .emptySegment
  else if segments.any fun segment => segment.toList.head? = some '$' then invalid .dollarSegment
  else .ok ()

mutual

/-- The declaration of a field with everything below it. Both its names are
single segments. -/
def check : Field → Except Error Unit
  | declare name storage kind => do
    if Dotted.isNested name || Dotted.isNested storage then
      .error (.schema (.invalidMapping name .dottedSegment))
    checkPath name storage
    checkKind kind

/-- The declarations below a field, by kind. -/
def checkKind : FieldKind → Except Error Unit
  | .composite children => checkAll children
  | .collection children => checkAll children
  | _ => .ok ()

/-- The declarations of fields, in order. -/
def checkAll : List (String × Field) → Except Error Unit
  | [] => .ok ()
  | (_, f) :: rest => do
    check f
    checkAll rest

end

end Field

end ScopedDocs

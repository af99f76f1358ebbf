import ScopedDocs.Dotted
import ScopedDocs.Json.Basic
/-!
# JSON — dotted paths

What a path reaches in a document, and how documents change along a path. A path
is the segments of its name. Where it meets an array on its way, it goes on in
every document of that array, so that it may reach many values (`Json.reach`).
-/


namespace ScopedDocs

namespace Json

/-- The values one segment further: the member of an object, and the members of
the objects in an array. -/
def children (segment : String) : Json → List Json
  | obj members => (members.lookup segment).toList
  | arr items => items.filterMap (·.get? segment)
  | _ => []

/-- **What a path reaches**, in order. -/
def reach : List String → Json → List Json
  | [], value => [value]
  | segment :: rest, value => (value.children segment).flatMap (reach rest)

/-- The value itself, and its items if it is an array. -/
def withItems (value : Json) : List Json := value :: value.items?.getD []

/-- The values a condition on a path is tested on: what the path reaches, and
the items of the arrays it reaches. -/
def candidates (segments : List String) (document : Json) : List Json :=
  (document.reach segments).flatMap withItems

/-- The first value a path reaches, if it reaches any. -/
def first? (path : String) (document : Json) : Option Json :=
  (document.reach (Dotted.segments path)).head?

/-- **Setting.** A document with a value at a path, with new documents on the
way where there are none. It cannot be done where a value that is no document
is in the way; arrays are. -/
def setAt? (value : Json) : List String → Json → Option Json
  | [], _ => some value
  | segment :: rest, obj members =>
    (setAt? value rest ((members.lookup segment).getD (obj []))).map fun child =>
      obj (Members.put segment child members)
  | _, _ => none

mutual

/-- **Removing.** A document without what a path reaches. The path goes on in
every item of an array, of arrays in arrays too. -/
def removeAt (segments : List String) : Json → Json
  | arr items => arr (removeAtItems segments items)
  | obj members =>
    match segments with
    | [] => obj members
    | [segment] => obj (Members.erase segment members)
    | segment :: rest => obj (removeAtMember segment rest members)
  | value => value

/-- Removing from every item. -/
def removeAtItems (segments : List String) : List Json → List Json
  | [] => []
  | item :: items => removeAt segments item :: removeAtItems segments items

/-- Removing from the member of a key. -/
def removeAtMember (segment : String) (rest : List String) :
    List (String × Json) → List (String × Json)
  | [] => []
  | (key, value) :: members =>
    if segment == key then (key, removeAt rest value) :: members
    else (key, value) :: removeAtMember segment rest members

end

/-- A document without what several paths reach, removed in order. -/
def removeAll (document : Json) (paths : List String) : Json :=
  paths.foldl (fun d path => d.removeAt (Dotted.segments path)) document

/-- **Copying.** The target with what a path reaches in the source, in the
source's shape: an array on the way becomes an array of documents, one for each
document in it. Values that are no documents are passed over, and a target of
another shape is left as it is. -/
def copyAt : List String → Json → Json → Json
  | segment :: rest, obj source, obj target =>
    match source.lookup segment with
    | none => obj target
    | some child =>
      if rest.isEmpty then obj (Members.put segment child target)
      else
        match child with
        | obj _ =>
          let slot := (target.lookup segment).getD (obj [])
          obj (Members.put segment (copyAt rest child slot) target)
        | arr items =>
          match (target.lookup segment).getD (arr []) with
          | arr copies =>
            let documents := items.filter isObject
            let copies := if copies.length = documents.length then copies
              else documents.map fun _ => obj []
            obj (Members.put segment (arr (List.zipWith (copyAt rest) documents copies)) target)
          | _ => obj target
        | _ => obj target
  | _, _, target => target

end Json

end ScopedDocs

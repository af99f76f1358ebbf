/-!
# Dotted names — paths into documents

Field names and storage paths are segments joined by dots. `Dotted.segments`
and `Dotted.join` are inverse to each other (`join_segments`); wildcards are
names that end in `.*`.
-/


namespace ScopedDocs

namespace Dotted

/-- Splits characters at every dot. -/
def splitDots : List Char → List (List Char)
  | [] => [[]]
  | c :: cs =>
    if c = '.' then [] :: splitDots cs
    else
      match splitDots cs with
      | [] => [[c]]
      | segment :: segments => (c :: segment) :: segments

/-- Joins characters with dots in between. -/
def joinDots : List (List Char) → List Char
  | [] => []
  | [segment] => segment
  | segment :: segments => segment ++ '.' :: joinDots segments

/-- The segments of a name. -/
def segments (name : String) : List String := (splitDots name.toList).map String.ofList

/-- The name of segments. -/
def join (segments : List String) : String := String.ofList (joinDots (segments.map String.toList))

/-- Whether a name lies below another one: it continues it behind a dot. -/
def isBelow (ancestor name : String) : Bool := (ancestor.toList ++ ['.']).isPrefixOf name.toList

/-- Whether a name has more than one segment. -/
def isNested (name : String) : Bool := name.toList.contains '.'

/-- The ending of a wildcard. -/
def wildcardEnding : String := ".*"

/-- The stem of a wildcard, if the name is one. -/
def stem? (name : String) : Option String :=
  match name.toList.reverse with
  | '*' :: '.' :: rest => some (String.ofList rest.reverse)
  | _ => none

/-- A name without the ending of a wildcard. -/
def stem (name : String) : String := (stem? name).getD name

/-- The wildcard of a stem. -/
def wildcard (stem : String) : String := stem ++ wildcardEnding

/-- The proper ancestors of a name, the longest first, each with the segments
that follow it. -/
def ancestors : List String → List (List String × List String)
  | [] => []
  | [_] => []
  | segment :: rest =>
    (ancestors rest).map (fun (above, below) => (segment :: above, below)) ++ [([segment], rest)]

/-- There is at least one segment. -/
theorem splitDots_ne_nil (cs : List Char) : splitDots cs ≠ [] := by
  cases cs with
  | nil => simp [splitDots]
  | cons c cs =>
    simp only [splitDots]
    split
    · simp
    · split <;> simp

/-- Joining undoes splitting. -/
theorem joinDots_splitDots (cs : List Char) : joinDots (splitDots cs) = cs := by
  induction cs with
  | nil => rfl
  | cons c cs ih =>
    have hne := splitDots_ne_nil cs
    match h : splitDots cs with
    | [] => exact absurd h hne
    | segment :: segments =>
      rw [h] at ih
      by_cases hc : c = '.'
      · simp [splitDots, hc, h, joinDots, ih]
      · cases segments with
        | nil => simpa [splitDots, hc, h, joinDots] using ih
        | cons s rest => simpa [splitDots, hc, h, joinDots] using ih

/-- **Joining undoes splitting** names, too. -/
theorem join_segments (name : String) : join (segments name) = name := by
  have h : (segments name).map String.toList = splitDots name.toList := by
    simp [segments, Function.comp_def]
  simp [join, h, joinDots_splitDots]

end Dotted

end ScopedDocs

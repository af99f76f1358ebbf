import ScopedDocs.Pattern.Basic
import ScopedDocs.Text.Blank
import ScopedDocs.Text.Digits
/-!
# Patterns — reading text

The written form of patterns: alternatives between bars, each a sequence of
items, each an atom with its repetitions. `Pattern.ofText?` reads a whole text
and refuses an unbalanced bracket, a repetition of nothing, and a pattern that
nests deeper than `maxDepth`.

This is a part of the syntax that regular expressions have, and a text with any other
construct is refused like one that writes no pattern at all. An atom is a character, an
escaped character, a dot, an anchor, a group, one of `\d`, `\D`, `\s` and `\S`, or a set
of characters between square brackets. What is not read: words and their boundaries
(`\w`, `\W`, `\b`, `\B`), the anchors `\A` and `\z`, Unicode classes (`\p`, `\P`),
characters by number (`\x`, `\u`, `\U`), names and flags of groups (`(?P<n>`, `(?<n>`, `(?i)`),
and sets within sets (`[[a]b]`, `[[:alpha:]]`, `&&`, `--`, `~~`). The pattern of an escaped
text has none of these, so what is said of searching for texts does not depend on it.
-/


namespace ScopedDocs

namespace Pattern

namespace Reader

/-- A part of a pattern. -/
structure Part where
  /-- The pattern. -/
  pattern : Pattern
  /-- How deep groups, repetitions, sequences and alternatives nest in it. -/
  depth : Nat

/-- A part without parts of its own. -/
def Part.atom (p : Pattern) : Part := ⟨p, 0⟩

/-- A part inside brackets or under a repetition. -/
def Part.under (p : Part) (outer : Pattern → Pattern) : Part := ⟨outer p.pattern, p.depth + 1⟩

/-- The depth of parts beside each other. A part alone is no deeper for it. -/
def depthBeside : List Part → Nat
  | [] => 0
  | [p] => p.depth
  | parts => (parts.map Part.depth).foldl max 0 + 1

/-- Parts one after the other. -/
def Part.ofItems (items : List Part) : Part :=
  ⟨items.foldr (fun p rest => seq p.pattern rest) empty, depthBeside items⟩

/-- The alternatives of some parts. -/
def choice : List Part → Pattern
  | [] => empty
  | [p] => p.pattern
  | p :: parts => alt p.pattern (choice parts)

/-- Parts of which one is to match. -/
def Part.ofBranches (branches : List Part) : Part := ⟨choice branches, depthBeside branches⟩

/-- The pattern of an escaped character. Punctuation stands for itself. -/
def escaped? (c : Char) : Option Pattern :=
  if c = 'd' then some (one .digit)
  else if c = 'D' then some (one (.among true digitRanges))
  else if c = 's' then some (one (.among false blankRanges))
  else if c = 'S' then some (one (.among true blankRanges))
  else if c = 'n' then some (char '\n')
  else if c = 't' then some (char '\t')
  else if c = 'r' then some (char '\r')
  else if c = 'f' then some (char '\x0c')
  else if c = 'v' then some (char '\x0b')
  else if c = 'a' then some (char '\x07')
  else if c.isAlphanum || c = '<' || c = '>' then none
  else if c.toNat < 0x80 then some (char c)
  else none

/-- What stands at a place of a set: a character, or several. -/
inductive Member where
  /-- A character. -/
  | char (c : Char)
  /-- The characters of a class of its own. -/
  | several (runs : Ranges)

/-- The characters of a member. -/
def Member.runs : Member → Ranges
  | char c => [(c.toNat, c.toNat)]
  | several runs => runs

/-- A member of a set, and the rest. -/
def member? : List Char → Option (Member × List Char)
  | '\\' :: c :: rest =>
    match escaped? c with
    | some (one (.only c)) => some (.char c, rest)
    | some (one kind) => some (.several (kind.runs false), rest)
    | _ => none
  | c :: rest => if ['\\', '['].contains c then none else some (.char c, rest)
  | [] => none

/-- A member of a set and, behind a dash, the last one of a run that it starts, and the
rest. A dash before the closing bracket or another dash is no such dash. -/
def run? (cs : List Char) : Option (Ranges × List Char) := do
  let (first, rest) ← member? cs
  match rest with
  | '-' :: ']' :: _ => some (first.runs, rest)
  | '-' :: '-' :: _ => some (first.runs, rest)
  | '-' :: behind =>
    match first, ← member? behind with
    | .char a, (.char b, rest) => if a ≤ b then some ([(a.toNat, b.toNat)], rest) else none
    | _, _ => none
  | _ => some (first.runs, rest)

/-- The runs of a set up to its closing bracket, and the rest. -/
def runs? : Nat → List Char → Option (List Ranges × List Char)
  | 0, _ => none
  | fuel + 1, cs =>
    match cs with
    | ']' :: rest => some ([], rest)
    | '&' :: '&' :: _ => none
    | '-' :: '-' :: _ => none
    | '~' :: '~' :: _ => none
    | cs => do
      let (run, rest) ← run? cs
      let (runs, rest) ← runs? fuel rest
      some (run :: runs, rest)

/-- A set between square brackets, of which the opening one is read, and the rest. Dashes
in front stand for themselves, and so does a closing bracket that comes first. -/
def set? (cs : List Char) : Option (Part × List Char) := do
  let (negated, cs) := match cs with
    | '^' :: rest => (true, rest)
    | cs => (false, cs)
  let dashes := (cs.takeWhile (· == '-')).map fun c => Member.runs (.char c)
  let (front, cs) := match dashes, cs.dropWhile (· == '-') with
    | [], ']' :: rest => ([Member.runs (.char ']')], rest)
    | dashes, cs => (dashes, cs)
  let (runs, rest) ← runs? (cs.length + 1) cs
  let items := front ++ runs
  some (⟨one (.among negated items.flatten), if items.length ≤ 1 then 1 else 2⟩, rest)

/-- A decimal number below `2 ^ 32`, and the rest. -/
def count? (cs : List Char) : Option (Nat × List Char) :=
  match cs.takeWhile Char.isDigit with
  | [] => none
  | run =>
    let n := decimalValue run
    if n < UInt32.size then some (n, cs.dropWhile Char.isDigit) else none

/-- A repetition between braces, and the rest: a number, a least number, or a
least and a greatest number. -/
def braces? (cs : List Char) : Option ((Pattern → Pattern) × List Char) := do
  let (least, rest) ← count? cs
  match rest with
  | '\x7d' :: rest => some (fun p => repeated p least, rest)
  | ',' :: '\x7d' :: rest => some (fun p => atLeast p least, rest)
  | ',' :: rest =>
    let (most, rest) ← count? rest
    match rest with
    | '\x7d' :: rest =>
      if least ≤ most then some (fun p => between p least (most - least), rest) else none
    | _ => none
  | _ => none

/-- The text behind the mark of a reluctant repetition. Whether a repetition is
reluctant does not change what is matched. -/
def skipReluctant : List Char → List Char
  | '?' :: rest => rest
  | cs => cs

/-- A part with the repetitions that follow it, and the rest. -/
def repeated? : Nat → Part → List Char → Option (Part × List Char)
  | 0, p, cs => some (p, cs)
  | fuel + 1, p, cs =>
    match cs with
    | '*' :: rest => repeated? fuel (p.under star) (skipReluctant rest)
    | '+' :: rest => repeated? fuel (p.under plus) (skipReluctant rest)
    | '?' :: rest => repeated? fuel (p.under optional) (skipReluctant rest)
    | '\x7b' :: rest => do
      let (repetition, rest) ← braces? rest
      repeated? fuel (p.under repetition) (skipReluctant rest)
    | cs => some (p, cs)

mutual

/-- Alternatives, up to a closing bracket or the end, and the rest. -/
def alternatives? : Nat → List Char → Option (List Part × List Char)
  | 0, _ => none
  | fuel + 1, cs => do
    let (items, rest) ← items? fuel cs
    match rest with
    | '|' :: rest =>
      let (branches, rest) ← alternatives? fuel rest
      some (.ofItems items :: branches, rest)
    | rest => some ([.ofItems items], rest)

/-- Items one after the other, and the rest. -/
def items? : Nat → List Char → Option (List Part × List Char)
  | 0, _ => none
  | fuel + 1, cs =>
    match cs with
    | [] => some ([], [])
    | '|' :: rest => some ([], '|' :: rest)
    | ')' :: rest => some ([], ')' :: rest)
    | cs => do
      let (p, rest) ← atom? fuel cs
      let (p, rest) ← repeated? fuel p rest
      let (items, rest) ← items? fuel rest
      some (p :: items, rest)

/-- A single atom, and the rest. -/
def atom? : Nat → List Char → Option (Part × List Char)
  | 0, _ => none
  | fuel + 1, cs =>
    match cs with
    | '(' :: '?' :: ':' :: rest => group? id fuel rest
    | '(' :: rest => group? group fuel rest
    | '[' :: rest => set? rest
    | '.' :: rest => some (.atom (one .any), rest)
    | '^' :: rest => some (.atom start, rest)
    | '$' :: rest => some (.atom finish, rest)
    | '\\' :: c :: rest => (escaped? c).map fun p => (.atom p, rest)
    | c :: rest =>
      if ['\\', '*', '+', '?', '\x7b', ')', '|'].contains c then none
      else some (.atom (char c), rest)
    | [] => none

/-- The alternatives between brackets, of which the opening one is read, and
the rest. -/
def group? (brackets : Pattern → Pattern) : Nat → List Char → Option (Part × List Char)
  | 0, _ => none
  | fuel + 1, cs => do
    let (branches, rest) ← alternatives? fuel cs
    match rest with
    | ')' :: rest => some ((Part.ofBranches branches).under brackets, rest)
    | _ => none

end

end Reader

/-- How deep a pattern may nest. -/
def maxDepth : Nat := 250

/-- **Reading.** The pattern a text writes, if it writes one with the constructs named above.
Any other text is refused, also where it is a regular expression. -/
def ofText? (s : String) : Option Pattern :=
  let cs := s.toList
  match Reader.alternatives? (4 * cs.length + 4) cs with
  | some (branches, []) =>
    let whole := Reader.Part.ofBranches branches
    if whole.depth ≤ maxDepth then some whole.pattern else none
  | _ => none

end Pattern

end ScopedDocs

/-
# Cutting texts

Splitting a text at a separator: at its first or last occurrence, or at all of them.
-/

namespace SourceBundle.Text

/-- The part before the first separator, and the part after it if there is one. -/
def cutFirst (sep : Char) : List Char → List Char × Option (List Char)
  | [] => ([], none)
  | c :: rest =>
    if c = sep then ([], some rest)
    else let (head, tail) := cutFirst sep rest; (c :: head, tail)

/-- The part before the last separator, and the part after it; nothing when there is none. -/
def cutLast? (sep : Char) : List Char → Option (List Char × List Char)
  | [] => none
  | c :: rest =>
    match cutLast? sep rest with
    | some (head, tail) => some (c :: head, tail)
    | none => if c = sep then some ([], rest) else none

/-- The pieces between the separators, of which there is always one more than separators. -/
def pieces (sep : Char) : List Char → List (List Char)
  | [] => [[]]
  | c :: rest =>
    if c = sep then [] :: pieces sep rest
    else
      match pieces sep rest with
      | [] => [[c]]
      | p :: ps => (c :: p) :: ps

/-- The rest of a text that begins with the given one. -/
def dropPrefix? : List Char → List Char → Option (List Char)
  | [], cs => some cs
  | _ :: _, [] => none
  | p :: ps, c :: cs => if p = c then dropPrefix? ps cs else none

/-- Split at the first occurrence of a word. -/
def splitFirst? (word : List Char) : List Char → Option (List Char × List Char)
  | [] => if word.isEmpty then some ([], []) else none
  | c :: cs =>
    match dropPrefix? word (c :: cs) with
    | some rest => some ([], rest)
    | none => (splitFirst? word cs).map fun (head, tail) => (c :: head, tail)

/-- The pieces between the occurrences of a word of at least one letter, found from the left.  The
first argument counts the letters of an occurrence that are still to be skipped. -/
def splitWord (word : List Char) : Nat → List Char → List (List Char)
  | _, [] => [[]]
  | skip + 1, _ :: cs => splitWord word skip cs
  | 0, c :: cs =>
    match dropPrefix? word (c :: cs) with
    | some _ => [] :: splitWord word (word.length - 1) cs
    | none =>
      match splitWord word 0 cs with
      | [] => [[c]]
      | p :: ps => (c :: p) :: ps

/-- Whether a text begins with the given one. -/
def beginsWith (p cs : List Char) : Bool := (dropPrefix? p cs).isSome

/-- Whether a text ends with the given one. -/
def endsWith (p cs : List Char) : Bool := beginsWith p.reverse cs.reverse

end SourceBundle.Text

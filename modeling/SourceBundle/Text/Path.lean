/-
# Paths

Slash-separated paths: joining two of them, the directory part, and the normal form, in which no
component is empty or a single dot, and two dots stand only at the front of a relative path.
-/
import SourceBundle.Text.Cut

namespace SourceBundle.Text.Path

/-- The directory part of a path: all before its last slash, without the slashes that then end it,
unless it consists of slashes alone. -/
def parentChars (cs : List Char) : List Char :=
  match cutLast? '/' cs with
  | none => []
  | some (head, _) =>
    if head.all (· == '/') then head ++ ['/'] else (head.reverse.dropWhile (· == '/')).reverse

/-- The directory part of a path. -/
def parent (path : String) : String := String.ofList (parentChars path.toList)

/-- A path taken relative to a directory; an absolute one stays as it is. -/
def joinChars (dir path : List Char) : List Char :=
  if path.head? = some '/' then path
  else if dir.isEmpty || dir.getLast? = some '/' then dir ++ path
  else dir ++ '/' :: path

/-- A path taken relative to a directory. -/
def join (dir path : String) : String := String.ofList (joinChars dir.toList path.toList)

/-- The number of slashes that the normal form of a path begins with: one for an absolute path,
two when it has exactly two. -/
def rootSlashes : List Char → Nat
  | '/' :: '/' :: '/' :: _ => 1
  | '/' :: '/' :: _ => 2
  | '/' :: _ => 1
  | _ => 0

/-- Walk a component on from a stack of components.  Two dots leave the last component; at the
root they stay there, and a relative path keeps those that lead above its start. -/
def walk (rooted : Bool) (stack : List (List Char)) (component : List Char) : List (List Char) :=
  if component = [] ∨ component = ['.'] then stack
  else if component = ['.', '.'] then
    match stack with
    | [] => if rooted then [] else [component]
    | top :: below => if top = ['.', '.'] then component :: stack else below
  else component :: stack

/-- The components of the normal form of a path. -/
def components (cs : List Char) : List (List Char) :=
  ((pieces '/' cs).foldl (walk (rootSlashes cs != 0)) []).reverse

/-- The normal form of a path; the empty path is the single dot. -/
def normalChars (cs : List Char) : List Char :=
  let written := List.replicate (rootSlashes cs) '/' ++ List.intercalate ['/'] (components cs)
  if written.isEmpty then ['.'] else written

/-- The normal form of a path. -/
def normal (path : String) : String := String.ofList (normalChars path.toList)

end SourceBundle.Text.Path

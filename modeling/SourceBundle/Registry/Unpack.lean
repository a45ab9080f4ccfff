/-
# Unpacking packages

A package comes as an archive, possibly compressed, whose files stand below one directory.  Its
source files and its manifest are kept, with their paths inside that directory; a path that leads
upwards, and a file that is no text, are not.
-/
import SourceBundle.Archive.Gzip
import SourceBundle.Archive.Tar
import SourceBundle.Settings.Basic
import SourceBundle.Table
import SourceBundle.Text.Cut

namespace SourceBundle.Registry

open SourceBundle.Archive SourceBundle.Text

/-- The endings of the files that are kept. -/
def keptEndings : List String := [".sol", manifestFile]

/-- The path of a member inside the directory of the package, if it is kept.  Dots and slashes in
front of its name do not count. -/
def keptPath? (name : List Char) : Option (List Char) :=
  match cutFirst '/' (name.dropWhile fun c => c == '.' || c == '/') with
  | (_, none) => none
  | (_, some path) =>
    if path.isEmpty || (pieces '/' path).contains ['.', '.'] then none
    else if keptEndings.any fun e => endsWith e.toList path then some path
    else none

/-- What is unpacked of a package. -/
structure Unpacked where
  /-- The files. -/
  files : Table String String := ∅
  /-- The paths of the files that are no texts. -/
  skipped : List String := []

/-- Unpack a member. -/
def Unpacked.member (u : Unpacked) (m : Tar.Member) : Unpacked :=
  if !m.isFile then u
  else
    match keptPath? (Utf8.decodeLossy m.name).toList with
    | none => u
    | some path =>
      match Utf8.decode m.content with
      | .ok content => { u with files := u.files.insert (String.ofList path) content }
      | .error _ => { u with skipped := u.skipped ++ [String.ofList path] }

/-- The members of an archive, compressed or not. -/
def members (bytes : List UInt8) : Except Tar.Corrupt (List Tar.Member) :=
  match (Gzip.read bytes).map Tar.read with
  | some (.ok ms) => .ok ms
  | _ => Tar.read bytes

/-- Unpack a package. -/
def unpack (bytes : List UInt8) : Except Tar.Corrupt Unpacked := do
  let ms ← members bytes
  pure (ms.foldl Unpacked.member {})

end SourceBundle.Registry

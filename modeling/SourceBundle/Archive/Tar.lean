/-
# Tape archives

An archive is a sequence of blocks.  A member has a head, which gives its name, its size and its
type, and as many blocks of data as its size takes.  A name that does not fit into the head stands
in a member of its own in front, as a plain text or among attributes.

The first head must be sound.  A head behind it that is not ends the archive, unless it belongs to a
member in front of it; and the data of a member that is not the last must be complete.
-/
import SourceBundle.Text.Utf8

namespace SourceBundle.Archive.Tar

open SourceBundle.Text

/-- The size of a block. -/
def blockSize : Nat := 512

/-- The size of the blocks that some bytes take. -/
def paddedSize (size : Nat) : Nat := (size + (blockSize - 1)) / blockSize * blockSize

/-! ## Heads -/

/-- The head of a member. -/
structure Head where
  /-- The name. -/
  name : List UInt8
  /-- The size of the data. -/
  size : Nat
  /-- The letter of the type. -/
  kind : UInt8
deriving DecidableEq, Repr

/-- Why there is no head. -/
inductive HeadFault
  /-- The archive ends. -/
  | missing
  /-- The archive ends within the head. -/
  | short
  /-- There is a block of zeros. -/
  | zeros
  /-- The checksum, a number or an attribute is wrong. -/
  | wrong
deriving DecidableEq, Repr

/-- A part of a block. -/
def field (start length : Nat) (block : List UInt8) : List UInt8 := (block.drop start).take length

/-- The bytes of a field before the first zero. -/
def textOf (field : List UInt8) : List UInt8 := field.takeWhile (· != 0)

/-- Whether a byte is a blank. -/
def isBlank (b : UInt8) : Bool := (28 ≤ b && b ≤ 32) || (9 ≤ b && b ≤ 13)

/-- The number that octal digits between blanks stand for; no digits are zero. -/
def octal? (bytes : List UInt8) : Option Nat :=
  let ds := ((bytes.dropWhile isBlank).reverse.dropWhile isBlank).reverse
  if ds.all fun b => 48 ≤ b && b ≤ 55 then
    some (ds.foldl (fun n b => 8 * n + (b.toNat - 48)) 0)
  else none

/-- The number in a field: in octal digits, or in bytes behind a mark. -/
def number? (field : List UInt8) : Option Int :=
  match field with
  | 0x80 :: bytes => some (bytes.foldl (fun n b => 256 * n + b.toNat) (0 : Nat))
  | 0xff :: bytes =>
    some (Int.subNatNat (bytes.foldl (fun n b => 256 * n + b.toNat) 0) (Nat.pow 256 bytes.length))
  | bytes => (octal? (textOf bytes)).map Int.ofNat

/-- The sum of the bytes of a head, in which the checksum counts as blanks, with a given value for
every byte. -/
def checksum (value : UInt8 → Int) (block : List UInt8) : Int :=
  (block.take 148 ++ block.drop 156).foldl (fun n b => n + value b) 256

/-- The value of a byte. -/
def unsigned (b : UInt8) : Int := b.toNat

/-- The value of a byte as a number with a sign. -/
def signed (b : UInt8) : Int := if b < 128 then b.toNat else (b.toNat : Int) - 256

/-- Whether the sum of a head is the one that it gives. -/
def isSound (block : List UInt8) : Bool :=
  match number? (field 148 8 block) with
  | some n => n == checksum unsigned block || n == checksum signed block
  | none => false

/-- The types that one tool added: long names, long links, and files with holes. -/
def addedKinds : List UInt8 := [76, 75, 83]

/-- The places and lengths of the numbers of a head besides the checksum. -/
def numberFields : List (Nat × Nat) :=
  [(100, 8), (108, 8), (116, 8), (124, 12), (136, 12), (329, 8), (337, 8)]

/-- A name without the slashes at its end. -/
def dropSlashes (name : List UInt8) : List UInt8 := (name.reverse.dropWhile (· == 47)).reverse

/-- The type of directories. -/
def directoryKind : UInt8 := 53

/-- The type that a member is of: the oldest type with a slash behind the name is a directory. -/
def kindOf (kind : UInt8) (name : List UInt8) : UInt8 :=
  if kind = 0 ∧ name.getLast? = some 47 then directoryKind else kind

/-- The head of a sound block. -/
def headOf (block : List UInt8) : Head :=
  let plain := textOf (field 0 100 block)
  let kind := kindOf ((field 156 1 block).headD 0) plain
  let name := if kind = directoryKind then dropSlashes plain else plain
  let front := textOf (field 345 155 block)
  { name := if front.isEmpty || addedKinds.contains kind then name else front ++ 47 :: name
    size := ((number? (field 124 12 block)).getD 0).toNat
    kind := kind }

/-- Read a head, and what follows it. -/
def readHead (bytes : List UInt8) : Except HeadFault (Head × List UInt8) :=
  let block := bytes.take blockSize
  if block.isEmpty then .error .missing
  else if block.length < blockSize then .error .short
  else if block.all (· == 0) then .error .zeros
  else if isSound block && numberFields.all fun (s, l) => (number? (field s l block)).isSome then
    .ok (headOf block, bytes.drop blockSize)
  else .error .wrong

/-! ## Attributes -/

/-- Attributes of members, later ones in front. -/
abbrev Attributes := List (List UInt8 × List UInt8)

/-- The number that some decimal digits stand for. -/
def decimal (digits : List UInt8) : Nat := digits.foldl (fun n b => 10 * n + (b.toNat - 48)) 0

/-- Whether a byte is a decimal digit. -/
def isDigit (b : UInt8) : Bool := 48 ≤ b && b ≤ 57

/-- The most digits of the length of an attribute. -/
def longestLength : Nat := 20

/-- Read the attribute at the beginning of some bytes: a line that begins with its own length. -/
def readAttribute? (bytes : List UInt8) : Option ((List UInt8 × List UInt8) × List UInt8) :=
  let digits := bytes.takeWhile isDigit
  let length := decimal digits
  let line := bytes.take length
  let text := ((line.drop digits.length).drop 1).dropLast
  let name := text.takeWhile (· != 61)
  if digits.isEmpty || longestLength < digits.length || bytes[digits.length]? != some 32 ||
      length < 5 || bytes.length < length || name.isEmpty || name.length = text.length ||
      line.getLast? != some 10 then none
  else some ((name, text.drop (name.length + 1)), bytes.drop length)

/-- Read attributes up to a zero or the end; nothing when one of them is malformed. -/
def readAttributes : Nat → Attributes → List UInt8 → Option Attributes
  | 0, known, _ => some known
  | limit + 1, known, bytes =>
    match bytes with
    | [] => some known
    | 0 :: _ => some known
    | _ => do
      let (a, rest) ← readAttribute? bytes
      readAttributes limit (a :: known) rest

/-- The bytes of a text. -/
def key (name : String) : List UInt8 := Utf8.encode name

/-- The attribute with a name. -/
def Attributes.get? (as : Attributes) (name : String) : Option (List UInt8) := as.lookup (key name)

/-! ## Members -/

/-- A member of an archive. -/
structure Member where
  /-- The name. -/
  name : List UInt8
  /-- The letter of the type. -/
  kind : UInt8
  /-- The size of the data. -/
  size : Nat
  /-- The data, and all that follows it. -/
  data : List UInt8

namespace Member

/-- Whether a member is a regular file. -/
def isFile (m : Member) : Bool := [48, 0, 55, 83].contains m.kind

/-- Whether the data of a member takes blocks: that of links, devices and directories does not. -/
def hasBlocks (m : Member) : Bool := m.isFile || !([49, 50, 51, 52, 53, 54, 75, 76] : List UInt8).contains m.kind

/-- The number of bytes from the data to the next head. -/
def span (m : Member) : Nat := if m.hasBlocks then paddedSize m.size else 0

/-- The content. -/
def content (m : Member) : List UInt8 := m.data.take m.size

/-- The member with the name and the size that attributes give. -/
def withAttributes (m : Member) (as : Attributes) : Member :=
  { m with
    name := ((as.get? "path").map dropSlashes).getD m.name
    size := ((as.get? "size").map fun t => if t.all isDigit then decimal t else 0).getD m.size }

end Member

/-- Why no member is read. -/
inductive MemberFault
  /-- There is no head. -/
  | head (f : HeadFault)
  /-- The head that belongs to a member in front is missing, or that member is malformed. -/
  | broken
deriving DecidableEq, Repr

/-- What is read of an archive. -/
structure Reading where
  /-- A member. -/
  member : Member
  /-- The number of bytes from its data to the next head. -/
  span : Nat
  /-- The attributes for all members. -/
  shared : Attributes

/-- The fault of a member in front of which another one stands. -/
def behind : Except MemberFault Reading → Except MemberFault Reading
  | .error _ => .error .broken
  | .ok r => .ok r

/-- Read a member, with those in front that describe it. -/
def readMember : Nat → Attributes → List UInt8 → Except MemberFault Reading
  | 0, _, _ => .error .broken
  | limit + 1, shared, bytes =>
    match readHead bytes with
    | .error f => .error (.head f)
    | .ok (h, rest) =>
      let data := rest.take (paddedSize h.size)
      let next := rest.drop (paddedSize h.size)
      if h.kind = 76 then do
        let r ← behind (readMember limit shared next)
        pure { r with member := { r.member with name := textOf data } }
      else if h.kind = 75 then behind (readMember limit shared next)
      else if h.kind = 120 ∨ h.kind = 88 then
        match readAttributes (data.length + 1) shared data with
        | none => .error (.head .wrong)
        | some own => do
          let r ← behind (readMember limit shared next)
          let m := r.member.withAttributes own
          pure { r with member := m, span := if (own.get? "size").isSome then m.span else r.span }
      else if h.kind = 103 then
        match readAttributes (data.length + 1) shared data with
        | none => .error (.head .wrong)
        | some shared => behind (readMember limit shared next)
      else
        let m : Member := ⟨h.name, h.kind, h.size, rest⟩
        .ok ⟨m.withAttributes shared, m.span, shared⟩

/-- An archive that cannot be read. -/
structure Corrupt where
deriving DecidableEq, Repr

/-- Read the members of an archive; `isFirst` tells whether none has been read before. -/
def readMembers : Nat → Bool → Attributes → List UInt8 → Except Corrupt (List Member)
  | 0, _, _, _ => .ok []
  | limit + 1, isFirst, shared, bytes =>
    match readMember (bytes.length + 1) shared bytes with
    | .error .broken => .error {}
    | .error (.head .zeros) => .ok []
    | .error (.head _) => if isFirst then .error {} else .ok []
    | .ok r =>
      if r.member.data.length < r.span then .error {}
      else do
        let more ← readMembers limit false r.shared (r.member.data.drop r.span)
        pure (r.member :: more)

/-- The members of an archive. -/
def read (bytes : List UInt8) : Except Corrupt (List Member) :=
  readMembers (bytes.length + 1) true [] bytes

end SourceBundle.Archive.Tar

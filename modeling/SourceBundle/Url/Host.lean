/-
# Hosts in brackets

An address may stand between brackets in place of a host name: one of eight groups of hexadecimal
digits, in which one run of zero groups may be left out and the last two groups may be written as
four decimal numbers, or one of a future kind, which names its own form.
-/
import SourceBundle.Text.Cut
import SourceBundle.Text.Digit

namespace SourceBundle.Url

open SourceBundle.Text

/-- Whether a character is a hexadecimal digit. -/
def isHex (c : Char) : Bool := c.isDigit || ('a' ≤ c && c ≤ 'f') || ('A' ≤ c && c ≤ 'F')

/-- Whether a text is one of the four numbers of an address: at most 255, without leading zero. -/
def isOctet (cs : List Char) : Bool :=
  !cs.isEmpty && cs.all Char.isDigit && cs.length ≤ 3 &&
    (cs == ['0'] || cs.head? != some '0') && numberOf cs ≤ 255

/-- Whether a text is an address of four numbers. -/
def isDotted (cs : List Char) : Bool :=
  let ps := pieces '.' cs
  ps.length == 4 && ps.all isOctet

/-- Whether a text is a group of hexadecimal digits. -/
def isGroup (cs : List Char) : Bool := !cs.isEmpty && cs.length ≤ 4 && cs.all isHex

/-- The groups of an address, with four decimal numbers at the end as two groups. -/
def groupsOf? (cs : List Char) : Option (List (List Char)) :=
  let ps := pieces ':' cs
  let last := ps.getLastD []
  if ps.length < 3 then none
  else if '.' ∈ last then
    if isDotted last then some (ps.dropLast ++ [['0'], ['0']]) else none
  else some ps

/-- Whether the groups make an address.  Two neighbouring colons stand for a run of zero groups;
only there a group may be empty, at the ends as well. -/
def areGroups (ps : List (List Char)) : Bool :=
  let inner := (ps.drop 1).dropLast
  let holes := (inner.filter List.isEmpty).length
  if ps.length > 9 || holes > 1 then false
  else if holes = 0 then ps.length == 8 && ps.all isGroup
  else
    let before := ps.takeWhile (!·.isEmpty)
    let after := ps.reverse.takeWhile (!·.isEmpty)
    let first := ps.head? == some []
    let last := ps.getLast? == some []
    let high := if first then [] else before
    let low := if last then [] else after.reverse
    (!first || inner.head? == some []) && (!last || inner.getLast? == some []) &&
      high.length + low.length ≤ 7 && (high ++ low).all isGroup

/-- Whether a text is an address of eight groups, perhaps with a zone behind a percent sign. -/
def isGrouped (cs : List Char) : Bool :=
  let (address, zone?) := cutFirst '%' cs
  let zoned := match zone? with
    | none => true
    | some zone => !zone.isEmpty && '%' ∉ zone
  zoned && '/' ∉ cs && match groupsOf? address with
    | none => false
    | some ps => areGroups ps

/-- Whether a text is an address of a future kind. -/
def isFuture (cs : List Char) : Bool :=
  match cs with
  | 'v' :: rest =>
    let (kind, address) := cutFirst '.' rest
    !kind.isEmpty && kind.all isHex && match address with
      | some a => !a.isEmpty
      | none => false
  | _ => false

/-- Whether a text may stand between brackets. -/
def isBracketed (cs : List Char) : Bool :=
  if cs.head? = some 'v' then isFuture cs else isGrouped cs

end SourceBundle.Url

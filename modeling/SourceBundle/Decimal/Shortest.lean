/-
# Shortest decimals

The decimal text of a floating-point number: the fewest digits that read back as the same number,
and of those the nearest to it.  The number is taken apart into an integer times a power of two,
and all comparisons are made in exact arithmetic.
-/

namespace SourceBundle.Decimal

/-- A positive number of floating-point format: `mantissa · 2 ^ exponent`. -/
structure Binary where
  /-- The integer part of the representation. -/
  mantissa : Nat
  /-- The power of two. -/
  exponent : Int
  /-- Whether the next smaller number is only half as far away as the next greater one. -/
  atPower : Bool
deriving DecidableEq, Repr

/-- A positive decimal: `digits · 10 ^ exponent`. -/
structure Digits where
  /-- The significant digits as a number. -/
  digits : Nat
  /-- The power of ten. -/
  exponent : Int
deriving DecidableEq, Repr

/-- The parts of a double with the given bits, its sign left out; nothing for zero. -/
def Binary.ofBits? (bits : Nat) : Option Binary :=
  let fraction : Nat := bits % Nat.pow 2 52
  let biased : Nat := bits / Nat.pow 2 52 % Nat.pow 2 11
  if biased = 0 then
    if fraction = 0 then none else some ⟨fraction, -1074, false⟩
  else some ⟨Nat.pow 2 52 + fraction, (biased : Int) - 1075, fraction = 0 && biased > 1⟩

/-- A fraction, for exact comparisons. -/
structure Ratio where
  /-- The numerator. -/
  num : Nat
  /-- The denominator, never zero. -/
  den : Nat

/-- Whether one fraction is at most another. -/
def Ratio.le (a b : Ratio) : Bool := a.num * b.den ≤ b.num * a.den

/-- Whether one fraction is less than another. -/
def Ratio.lt (a b : Ratio) : Bool := a.num * b.den < b.num * a.den

/-- The fraction `n · base ^ e`. -/
def Ratio.scaled (n base : Nat) (e : Int) : Ratio :=
  if 0 ≤ e then ⟨n * Nat.pow base e.toNat, 1⟩ else ⟨n, Nat.pow base (-e).toNat⟩

/-- The exponent `e` with `10 ^ (e - 1) ≤ r < 10 ^ e`, found by climbing from a lower bound. -/
def Ratio.magnitude (r : Ratio) : Nat → Int → Int
  | 0, e => e
  | fuel + 1, e => if r.lt (.scaled 1 10 e) then e else r.magnitude fuel (e + 1)

/-- Whether a decimal reads back as the number: it lies between the midpoints to the neighbours,
which belong to the number when its mantissa is even. -/
def Binary.accepts (b : Binary) (d : Ratio) : Bool :=
  let low := Ratio.scaled (if b.atPower then 4 * b.mantissa - 1 else 4 * b.mantissa - 2) 2 (b.exponent - 2)
  let high := Ratio.scaled (4 * b.mantissa + 2) 2 (b.exponent - 2)
  if b.mantissa % 2 = 0 then low.le d && d.le high else low.lt d && d.lt high

/-- Of the two decimals with `count` digits around a number, the nearest one that reads back. -/
def Binary.onGrid? (b : Binary) (magnitude : Int) (count : Nat) : Option Digits :=
  let e := magnitude - count
  let v := Ratio.scaled b.mantissa 2 b.exponent
  let unit := Ratio.scaled 1 10 e
  let below := v.num * unit.den / (v.den * unit.num)
  let rest := v.num * unit.den % (v.den * unit.num)
  let up := 2 * rest > v.den * unit.num || (2 * rest = v.den * unit.num && below % 2 = 1)
  let (first, second) := if up then (below + 1, below) else (below, below + 1)
  if b.accepts (.scaled first 10 e) then some ⟨first, e⟩
  else if b.accepts (.scaled second 10 e) then some ⟨second, e⟩
  else none

/-- The first grid with a decimal that reads back; seventeen digits are always enough. -/
def Binary.shortestFrom (b : Binary) (magnitude : Int) (count : Nat) : Nat → Digits
  | 0 => ⟨b.mantissa, 0⟩
  | fuel + 1 =>
    match b.onGrid? magnitude count with
    | some d => d
    | none => b.shortestFrom magnitude (count + 1) fuel

/-- The shortest decimal that reads back as the number. -/
def Binary.shortest (b : Binary) : Digits :=
  b.shortestFrom ((Ratio.scaled b.mantissa 2 b.exponent).magnitude 700 (-330)) 1 17

/-- The digits without trailing zeros, and the exponent of ten of the first digit. -/
def Digits.scientific (d : Digits) : List Char × Int :=
  let all := Nat.toDigits 10 d.digits
  ((all.reverse.dropWhile (· == '0')).reverse, d.exponent + all.length - 1)

/-- Positional notation when the first digit stands at `10 ^ -4` up to `10 ^ 15`, always with a
point; beyond that an exponent of at least two digits and its sign. -/
def Digits.render (d : Digits) : String :=
  let (ds, e) := d.scientific
  if -4 ≤ e ∧ e < 16 then
    if e < 0 then "0." ++ String.ofList (List.replicate (-e - 1).toNat '0' ++ ds)
    else
      let whole := (e + 1).toNat
      let fraction := ds.drop whole
      String.ofList (ds.take whole ++ List.replicate (whole - ds.length) '0') ++ "." ++
        (if fraction.isEmpty then "0" else String.ofList fraction)
  else
    let fraction := ds.drop 1
    let power := Nat.toDigits 10 e.natAbs
    String.ofList (ds.take 1) ++ (if fraction.isEmpty then "" else "." ++ String.ofList fraction) ++
      (if e < 0 then "e-" else "e+") ++
      String.ofList (List.replicate (2 - power.length) '0' ++ power)

/-- The decimal text of a floating-point number. -/
def render (x : Float) : String :=
  if x.isNaN then "nan"
  else
    let bits := x.toBits.toNat
    let sign := if bits < Nat.pow 2 63 then "" else "-"
    if x.isInf then sign ++ "inf"
    else
      match Binary.ofBits? (bits % Nat.pow 2 63) with
      | none => sign ++ "0.0"
      | some b => sign ++ b.shortest.render

/-- The integer part of a finite floating-point number, toward zero. -/
def truncate (x : Float) : Int :=
  let bits := x.toBits.toNat
  let size :=
    match Binary.ofBits? (bits % Nat.pow 2 63) with
    | none => 0
    | some b =>
      if 0 ≤ b.exponent then b.mantissa * Nat.pow 2 b.exponent.toNat
      else b.mantissa / Nat.pow 2 (-b.exponent).toNat
  if bits < Nat.pow 2 63 then size else -size

end SourceBundle.Decimal

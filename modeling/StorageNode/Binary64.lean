/-!
# Binary floating-point numbers

A number of the payload may be a double. It is held as its 64 bits (`Binary64`), so equality is
equality of bits, and what it stands for is read off them in natural numbers: the magnitude
`m * 2 ^ q` of `Binary64.magnitude`. Conversion from a ratio (`Binary64.ofRatio`) rounds to the
nearest value, ties to the even neighbour; products, quotients and decimal literals all go through
it. `Binary64.shortest` finds the fewest decimal digits that read back as the same number, and
`Binary64.Format` holds the choices of a way of writing them down.
-/

namespace StorageNode

/-- A double, by its bits. -/
structure Binary64 where
  /-- Sign, eleven bits of exponent, fifty-two bits of fraction. -/
  bits : UInt64
deriving DecidableEq, Inhabited, Repr

namespace Binary64

/-! ## Reading the bits -/

/-- The sign bit is set. -/
def isNegative (x : Binary64) : Bool := Nat.pow 2 63 ≤ x.bits.toNat

/-- The bits without the sign. -/
def unsignedBits (x : Binary64) : Nat := x.bits.toNat % Nat.pow 2 63

/-- The bits of infinity without the sign. -/
def infinityBits : Nat := 0x7FF * Nat.pow 2 52

/-- Neither infinite nor a NaN. -/
def isFinite (x : Binary64) : Bool := x.unsignedBits < infinityBits

/-- Infinite, of either sign. -/
def isInfinite (x : Binary64) : Bool := x.unsignedBits = infinityBits

/-- Not a number. -/
def isNaN (x : Binary64) : Bool := infinityBits < x.unsignedBits

/-- Zero, of either sign. -/
def isZero (x : Binary64) : Bool := x.unsignedBits = 0

/-- The pair `(m, q)` of a finite number with magnitude `m * 2 ^ (q - 1074)`. -/
def magnitude (x : Binary64) : Nat × Nat :=
  let biased := x.unsignedBits / Nat.pow 2 52
  let fraction := x.unsignedBits % Nat.pow 2 52
  if biased = 0 then (fraction, 0) else (fraction + Nat.pow 2 52, biased - 1)

/-- The number with the given sign and other bits. -/
def ofSignBits (negative : Bool) (bits : Nat) : Binary64 :=
  ⟨UInt64.ofNat ((if negative then Nat.pow 2 63 else 0) + bits)⟩

/-- Infinity. -/
def infinity (negative : Bool) : Binary64 := ofSignBits negative infinityBits

/-- Zero. -/
def zero (negative : Bool) : Binary64 := ofSignBits negative 0

/-- The NaN that a literal stands for. -/
def nan : Binary64 := ofSignBits false (infinityBits + Nat.pow 2 51)

/-- The number of opposite sign. -/
def neg (x : Binary64) : Binary64 := ofSignBits (!x.isNegative) x.unsignedBits

/-- The numbers are equal as numbers, or both are NaN. Zeros of different signs are equal. -/
def sameNumber (x y : Binary64) : Bool :=
  if x.isNaN then y.isNaN else x = y || (x.isZero && y.isZero)

/-! ## Rounding -/

/-- The quotient rounded to the nearest natural number, ties to even. -/
def roundDiv (num den : Nat) : Nat :=
  let m := num / den
  let r := num % den
  if 2 * r < den then m
  else if 2 * r = den then m + m % 2
  else m + 1

/-- The exponent `q` for which `num / den` is between `2 ^ 52` and `2 ^ 53` units of
`2 ^ (q - 1074)`, or zero where it is smaller than that. -/
def exponentFor (num den : Nat) : Nat :=
  let guess := num.log2 + 1074 - (den.log2 + 52)
  /- The logarithms may be off by one in either direction. -/
  let units (q : Nat) : Nat := num * Nat.pow 2 1074 / (den * Nat.pow 2 q)
  if units guess < Nat.pow 2 52 then guess - 1
  else if Nat.pow 2 53 ≤ units guess then guess + 1
  else guess

/-- The double nearest to `num / den`. -/
def ofRatio (negative : Bool) (num den : Nat) : Binary64 :=
  if num = 0 then zero negative
  else
    let q := exponentFor num den
    let m := roundDiv (num * Nat.pow 2 1074) (den * Nat.pow 2 q)
    let bits := q * Nat.pow 2 52 + m
    if infinityBits ≤ bits then infinity negative else ofSignBits negative bits

/-- The double nearest to a natural number. -/
def ofNat (n : Nat) : Binary64 := ofRatio false n 1

/-- The double nearest to `digits * 10 ^ exponent`. Beyond the range of doubles by far the answer is
known without computing the power. -/
def ofDecimal (negative : Bool) (digits : Nat) (exponent : Int) : Binary64 :=
  if digits = 0 then zero negative
  else
    let size := (Nat.toDigits 10 digits).length
    if exponent + size > 400 then infinity negative
    else if exponent + size < -400 then zero negative
    else if 0 ≤ exponent then ofRatio negative (digits * Nat.pow 10 exponent.toNat) 1
    else ofRatio negative digits (Nat.pow 10 (-exponent).toNat)

/-- The rounded product of two finite numbers. -/
def mul (x y : Binary64) : Binary64 :=
  let (m, q) := x.magnitude
  let (n, r) := y.magnitude
  ofRatio (x.isNegative != y.isNegative) (m * n * Nat.pow 2 (q + r)) (Nat.pow 2 2148)

/-- The rounded quotient of two finite numbers, the second not zero. -/
def div (x y : Binary64) : Binary64 :=
  let (m, q) := x.magnitude
  let (n, r) := y.magnitude
  ofRatio (x.isNegative != y.isNegative) (m * Nat.pow 2 q) (n * Nat.pow 2 r)

/-! ## Shortest decimal digits -/

/-- The decimals that read back as the number `m * 2 ^ (q - 1074)` reach from `low / unit` to
`high / unit`, the ends included if `m` is even; `value / unit` is the number itself. -/
structure Interval where
  low : Nat
  value : Nat
  high : Nat
  unit : Nat
  closed : Bool

/-- The interval of a finite positive magnitude. Below a power of two the doubles lie twice as
dense. -/
def interval (m q : Nat) : Interval :=
  let scale := Nat.pow 2 q
  let below := if m = Nat.pow 2 52 && q ≠ 0 then 1 else 2
  { low := (4 * m - below) * scale
    value := 4 * m * scale
    high := (4 * m + 2) * scale
    unit := Nat.pow 2 1076
    closed := m % 2 = 0 }

/-- `d * 10 ^ e` lies in the interval. -/
def Interval.holds (i : Interval) (d : Nat) (e : Int) : Bool :=
  let num := d * Nat.pow 10 e.toNat * i.unit
  let den := Nat.pow 10 (-e).toNat
  if i.closed then i.low * den ≤ num && num ≤ i.high * den
  else i.low * den < num && num < i.high * den

/-- The neighbours of the value on the grid of multiples of `10 ^ e`: the one below, and whether the
one above is nearer. A tie goes to the even neighbour. -/
def Interval.neighbours (i : Interval) (e : Int) : Nat × Bool :=
  let num := i.value * Nat.pow 10 (-e).toNat
  let den := i.unit * Nat.pow 10 e.toNat
  let d := num / den
  (d, roundDiv num den ≠ d)

/-- The decimal `d * 10 ^ e` of the coarsest grid that has a point in the interval, tried from
exponent `e` downwards. -/
def Interval.search (i : Interval) : Nat → Int → Nat × Int
  | 0, e => ((i.neighbours e).1, e)
  | fuel + 1, e =>
    let (d, above) := i.neighbours e
    match i.holds d e, i.holds (d + 1) e with
    | true, true => (if above then d + 1 else d, e)
    | true, false => (d, e)
    | false, true => (d + 1, e)
    | false, false => i.search fuel (e - 1)

/-- The digits without trailing zeros; `fuel` bounds their number. -/
def stripZeros : Nat → Nat → Int → Nat × Int
  | 0, d, e => (d, e)
  | fuel + 1, d, e => if d ≠ 0 && d % 10 = 0 then stripZeros fuel (d / 10) (e + 1) else (d, e)

/-- The pair `(d, e)` for which `d * 10 ^ e` is the decimal with the fewest digits that reads back as
this finite number's magnitude, of several the nearest. -/
def shortest (x : Binary64) : Nat × Int :=
  let (m, q) := x.magnitude
  if m = 0 then (0, 0)
  else
    let i := interval m q
    /- A grid coarser than the number itself: its binary size times log 2 / log 10, rounded up. -/
    let size : Int := (Int.ofNat (m.log2 + q) - 1074) * 30103 / 100000 + 2
    let (d, e) := i.search 22 size
    stripZeros 22 d e

/-! ## Writing -/

/-- A way of writing doubles. -/
structure Format where
  /-- The least and the greatest decimal exponent of the first digit that are written without an
  exponent. -/
  positional : Option (Int × Int)
  /-- A positive exponent has a plus sign. -/
  plusSign : Bool
  /-- The least number of digits of an exponent. -/
  exponentDigits : Nat
  /-- A positional whole number ends in `.0`. -/
  pointZero : Bool
  /-- The texts of infinity and NaN. -/
  infinityText : String
  nanText : String

/-- The decimal `d * 10 ^ e` written without an exponent. -/
def positionalText (pointZero : Bool) (d : Nat) (e : Int) : String :=
  let digits := Nat.toDigits 10 d
  if 0 ≤ e then
    String.ofList (digits ++ List.replicate e.toNat '0' ++ (if pointZero then ['.', '0'] else []))
  else
    let places := (-e).toNat
    let padded := List.replicate (places + 1 - digits.length) '0' ++ digits
    String.ofList
      (padded.take (padded.length - places) ++ '.' :: padded.drop (padded.length - places))

/-- The decimal `d * 10 ^ e` written with one digit before the point and an exponent. -/
def exponentText (plusSign : Bool) (exponentDigits : Nat) (d : Nat) (e : Int) : String :=
  let digits := Nat.toDigits 10 d
  let first := e + (Int.ofNat digits.length - 1)
  let mantissa := match digits with
    | [] => []
    | [c] => [c]
    | c :: cs => c :: '.' :: cs
  let sign := if first < 0 then ['-'] else if plusSign then ['+'] else []
  let exponent := Nat.toDigits 10 first.natAbs
  let zeros := List.replicate (exponentDigits - exponent.length) '0'
  String.ofList (mantissa ++ 'e' :: sign ++ zeros ++ exponent)

/-- The text of a number in a format. -/
def Format.render (n : Format) (x : Binary64) : String :=
  let sign := if x.isNegative then "-" else ""
  if x.isNaN then n.nanText
  else if x.isInfinite then sign ++ n.infinityText
  else
    let (d, e) := x.shortest
    let first := e + (Int.ofNat (Nat.toDigits 10 d).length - 1)
    let plain := match n.positional with
      | none => true
      | some (lo, hi) => lo ≤ first && first ≤ hi
    sign ++ (if plain then positionalText n.pointZero d e
      else exponentText n.plusSign n.exponentDigits d e)

/-- Every digit is written out. -/
def written : Format := ⟨none, false, 1, true, "inf", "NaN"⟩

end Binary64

end StorageNode

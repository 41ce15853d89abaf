/-!
# Numbers of a binary format

A number with a fraction or an exponent is held in the usual binary format
of sixty-four bits: a mantissa of fifty-three bits and a power of two. Such
a number is never used for anything, but it is shown when it stands where
another value belongs, and then as the shortest decimal that is read back
as the same number.

The values are exact and not negative; a sign is kept beside them. Results
of operations are rounded to the nearest number, and of two equally near
ones to the one with an even mantissa.
-/

namespace CertAuthority.Json

/-- **A number of the format**: `mantissa * 2 ^ exponent`. -/
structure Double where
  /-- The mantissa, of at most fifty-three bits. -/
  mantissa : Nat
  /-- The power of two. -/
  exponent : Int
  deriving DecidableEq, Repr

namespace Double

/-- The whole number nearest to a fraction; the even one of two. -/
def roundEven (n d : Nat) : Nat :=
  let q := n / d
  let r := n % d
  if 2 * r > d ∨ (2 * r = d ∧ q % 2 = 1) then q + 1 else q

/-- The fraction `n / d` divided by a power of `base`. -/
def scale (base : Nat) (n d : Nat) (e : Int) : Nat × Nat :=
  if 0 ≤ e then (n, d * Nat.pow base e.toNat) else (n * Nat.pow base (-e).toNat, d)

/-- **The number nearest to a fraction**, unless that is beyond the largest
one. -/
def ofFraction? (n d : Nat) : Option Double :=
  if n = 0 then some ⟨0, 0⟩
  else
    let e : Int := (n.log2 : Int) - (d.log2 : Int) - 52
    let (n', d') := scale 2 n d e
    let e := if n' / d' < Nat.pow 2 52 then e - 1 else e
    let e := max e (-1074)
    let (n', d') := scale 2 n d e
    let m := roundEven n' d'
    if m = 0 then some ⟨0, 0⟩
    else if 1024 ≤ (m.log2 : Int) + e then none
    else some ⟨m, e⟩

/-- A number as a fraction. -/
def fraction (x : Double) : Nat × Nat :=
  if 0 ≤ x.exponent then (x.mantissa * Nat.pow 2 x.exponent.toNat, 1)
  else (x.mantissa, Nat.pow 2 (-x.exponent).toNat)

/-- The product of two numbers. -/
def mul? (x y : Double) : Option Double :=
  let (a, b) := x.fraction
  let (c, d) := y.fraction
  ofFraction? (a * c) (b * d)

/-- The quotient of two numbers. -/
def div? (x y : Double) : Option Double :=
  let (a, b) := x.fraction
  let (c, d) := y.fraction
  ofFraction? (a * d) (b * c)

/-- The number nearest to a power of ten. -/
def powerOfTen? (k : Nat) : Option Double := ofFraction? (Nat.pow 10 k) 1

/-- **The number of a decimal**: digits and a power of ten. The digits are
rounded first and then scaled, in steps if the power of ten is very small.
There is none if the result is too large. -/
def ofDecimal? (digits : Nat) (exponent : Int) : Option Double :=
  (ofFraction? digits 1).bind fun x => scaleBy 4 x exponent
where
  /-- Scales a number, `steps` times at most. -/
  scaleBy : (steps : Nat) → Double → Int → Option Double
    | 0, x, _ => some x
    | steps + 1, x, exponent =>
      if exponent.natAbs ≤ 308 then
        (powerOfTen? exponent.natAbs).bind fun ten =>
          if 0 ≤ exponent then x.mul? ten else x.div? ten
      else if x.mantissa = 0 then some x
      else if 0 ≤ exponent then none
      else
        (powerOfTen? 308).bind fun ten =>
          (x.div? ten).bind fun y => scaleBy steps y (exponent + 308)

/-- Whether two numbers are the same. -/
def same (x y : Double) : Bool :=
  x.fraction.1 * y.fraction.2 == y.fraction.1 * x.fraction.2

/-- The power of ten of the first decimal digit of a fraction. -/
def leadingPower (n d : Nat) : Int :=
  let guess : Int := ((n.log2 : Int) - (d.log2 : Int)) * 30103 / 100000 - 2
  let fits (x : Int) : Bool :=
    let (n', d') := scale 10 n d x
    d' ≤ n' && n' < 10 * d'
  (((List.range 6).map fun (i : Nat) => guess + (i : Int)).find? fits).getD guess

/-- The decimal of `count` digits nearest to a number: the digits, and the
power of ten of the first of them. -/
def nearestDecimal (x : Double) (count : Nat) : Nat × Int :=
  let (n, d) := x.fraction
  let power := leadingPower n d
  let (n', d') := scale 10 n d (power - count + 1)
  let digits := roundEven n' d'
  if digits = Nat.pow 10 count then (Nat.pow 10 (count - 1), power + 1) else (digits, power)

/-- **The shortest decimal that is read back as a number**: the digits, and
the power of ten of the first of them. -/
def shortest (x : Double) : List Char × Int :=
  let reads (count : Nat) : Bool :=
    let (digits, power) := x.nearestDecimal count
    let (n, d) := scale 10 digits 1 (count - 1 - power)
    match ofFraction? n d with
    | some y => y.same x
    | none => false
  let count := (((List.range 17).map (· + 1)).find? reads).getD 17
  let (digits, power) := x.nearestDecimal count
  (Nat.toDigits 10 digits, power)

/-- Two digits of a number below a hundred, or all of a greater one. -/
def twoDigits (n : Nat) : List Char :=
  if n < 10 then '0' :: Nat.toDigits 10 n else Nat.toDigits 10 n

/-- A decimal written out, with a digit on both sides of the point. -/
def fixedText (digits : List Char) (power : Int) : List Char :=
  if power < 0 then '0' :: '.' :: List.replicate (power.natAbs - 1) '0' ++ digits
  else
    let whole := power.toNat + 1
    let padded := digits ++ List.replicate (whole - digits.length) '0'
    let part := padded.drop whole
    padded.take whole ++ '.' :: (if part.isEmpty then ['0'] else part)

/-- A decimal with a power of ten. -/
def scientificText (digits : List Char) (power : Int) : List Char :=
  let part := digits.drop 1
  digits.take 1 ++ (if part.isEmpty then [] else '.' :: part) ++ 'e'
    :: (if power < 0 then '-' else '+') :: twoDigits power.natAbs

/-- **The text of a number.** -/
def text (negative : Bool) (x : Double) : String :=
  let body :=
    if x.mantissa = 0 then ['0', '.', '0']
    else
      let (digits, power) := x.shortest
      if -5 ≤ power ∧ power ≤ 15 then fixedText digits power else scientificText digits power
  String.ofList (if negative then '-' :: body else body)

end Double

end CertAuthority.Json

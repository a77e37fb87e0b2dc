/-!
Finite floating-point numbers of 64 bits, held as exact binary fractions. Conversions from and to
decimal notation use integer arithmetic only.
-/

namespace DebugAdapter

/-- The number `±mantissa · 2 ^ exponent`, with a mantissa below 2 ^ 53. -/
structure Double where
  negative : Bool
  mantissa : Nat
  exponent : Int
  deriving DecidableEq, Repr, Inhabited

namespace Double

def zero (negative : Bool) : Double := ⟨negative, 0, 0⟩

def mantissaLimit : Nat := 0x20000000000000

def normalMantissa : Nat := 0x10000000000000

def leastExponent : Int := -1074

def greatestExponent : Int := 971

def roundQuotient (num den : Nat) : Nat :=
  let q := num / den
  let twice := 2 * (num % den)
  if twice < den ∨ (twice = den ∧ q % 2 = 0) then q else q + 1

def scaled (num den : Nat) (shift : Int) : Nat × Nat :=
  if 0 ≤ shift then (num, den <<< shift.toNat) else (num <<< (-shift).toNat, den)

/-- The double nearest to a positive rational or zero, ties to the even mantissa; nothing beyond
the largest finite number. -/
def ofRatio? (negative : Bool) (num den : Nat) : Option Double :=
  if num = 0 then some (zero negative)
  else
    let guess : Int := (num.log2 : Int) - den.log2 - 53
    let (n, d) := scaled num den guess
    let fitting := if n / d < mantissaLimit then guess else guess + 1
    let exponent := max fitting leastExponent
    let (n, d) := scaled num den exponent
    let mantissa := roundQuotient n d
    let (mantissa, exponent) :=
      if mantissa = mantissaLimit then (normalMantissa, exponent + 1) else (mantissa, exponent)
    if mantissa = 0 then some (zero negative)
    else if exponent ≤ greatestExponent then some ⟨negative, mantissa, exponent⟩
    else none

def ratio (x : Double) : Nat × Nat :=
  if 0 ≤ x.exponent then (x.mantissa <<< x.exponent.toNat, 1)
  else (x.mantissa, 1 <<< (-x.exponent).toNat)

def times? (x y : Double) : Option Double :=
  let (a, b) := x.ratio
  let (c, d) := y.ratio
  ofRatio? (x.negative != y.negative) (a * c) (b * d)

def over? (x y : Double) : Option Double :=
  let (a, b) := x.ratio
  let (c, d) := y.ratio
  ofRatio? (x.negative != y.negative) (a * d) (b * c)

def tenTo (n : Nat) : Nat := Nat.pow 10 n

/-- The nearest double to `digits · 10 ^ exponent`, rounded once. -/
def ofDecimal? (negative : Bool) (digits : Nat) (exponent : Int) : Option Double :=
  if 0 ≤ exponent then ofRatio? negative (digits * tenTo exponent.toNat) 1
  else ofRatio? negative digits (tenTo (-exponent).toNat)

/-- The number of decimal digits before the point of a fraction of at least one, and minus the
number of zeros after the point of a smaller one. -/
def pointPosition (num den : Nat) : Int :=
  if den ≤ num then ((Nat.toDigits 10 (num / den)).length : Int)
  else 1 - ((Nat.toDigits 10 ((den - 1) / num)).length : Int)

def gridQuotient (num den : Nat) (grid : Int) : Nat × Nat × Nat :=
  let (n, d) := if 0 ≤ grid then (num, den * tenTo grid.toNat) else (num * tenTo (-grid).toNat, den)
  (n / d, n % d, d)

/-- The fewest digits that read back as a nonzero number, and the power of ten they count; among
as few digits the ones nearest to the number. -/
def shortest (x : Double) : Nat × Int :=
  let (num, den) := x.ratio
  let point := pointPosition num den
  let lowGap : Nat := if x.mantissa = normalMantissa ∧ leastExponent < x.exponent then 1 else 2
  let (halfNum, halfDen) :=
    if 2 ≤ x.exponent then (1 <<< (x.exponent - 2).toNat, 1)
    else (1, 1 <<< (2 - x.exponent).toNat)
  let closed := x.mantissa % 2 = 0
  /- Compares `digits · 10 ^ grid` with the ends of the interval that rounds to the number. -/
  let reads (digits : Nat) (grid : Int) : Bool :=
    let (a, b) := if 0 ≤ grid then (digits * tenTo grid.toNat, 1) else (digits, tenTo (-grid).toNat)
    let center := num * halfDen
    let unit := halfNum * den
    let here := a * den * halfDen
    let low := (center - lowGap * unit) * b
    let high := (center + 2 * unit) * b
    if closed then low ≤ here && here ≤ high else low < here && here < high
  let candidate (count : Nat) : Option (Nat × Int) :=
    let grid := point - count
    let (below, rest, step) := gridQuotient num den grid
    let above := if below + 1 = tenTo count then (1, point) else (below + 1, grid)
    match reads below grid, reads (below + 1) grid with
    | true, true =>
      some (if 2 * rest < step ∨ (2 * rest = step ∧ below % 2 = 0) then (below, grid) else above)
    | true, false => some (below, grid)
    | false, true => some above
    | false, false => none
  ((List.range 17).findSome? fun n => candidate (n + 1)).getD (0, 0)

/-- Positional notation of `digits · 10 ^ exponent` with at least one digit on each side of the
point. -/
def positional (digits : Nat) (exponent : Int) : List Char :=
  let body := Nat.toDigits 10 digits
  if 0 ≤ exponent then body ++ List.replicate exponent.toNat '0' ++ ['.', '0']
  else
    let places := (-exponent).toNat
    let padded := List.replicate (places + 1 - body.length) '0' ++ body
    padded.take (padded.length - places) ++ '.' :: padded.drop (padded.length - places)

/-- Scientific notation of digits whose first one stands at a place, counted from the units: that
digit, the further ones after a point if there are any, and the place with its sign. -/
def scientific (digits : Nat) (place : Int) : List Char :=
  let body :=
    match Nat.toDigits 10 digits with
    | first :: rest => if rest.isEmpty then [first] else first :: '.' :: rest
    | [] => []
  body ++ 'e' :: (if place < 0 then '-' else '+') :: Nat.toDigits 10 place.natAbs

def leastPositionalPlace : Int := -5

def greatestPositionalPlace : Int := 15

def notated (digits : Nat) (exponent : Int) : List Char :=
  let place : Int := (Nat.toDigits 10 digits).length + exponent - 1
  if leastPositionalPlace ≤ place ∧ place ≤ greatestPositionalPlace then positional digits exponent
  else scientific digits place

def text (x : Double) : String :=
  let sign := if x.negative then ['-'] else []
  let body :=
    if x.mantissa = 0 then ['0', '.', '0']
    else
      let (digits, exponent) := x.shortest
      notated digits exponent
  .ofList (sign ++ body)

end Double

end DebugAdapter

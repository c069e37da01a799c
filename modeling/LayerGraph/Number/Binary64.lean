/-!
# Finite binary64 numbers

A finite binary64 number is a sign and the rank of its magnitude among all finite magnitudes.
Its exact value is an integer times a power of two. All arithmetic is exact arithmetic on
natural numbers, followed by one rounding to nearest with ties to even.
-/

namespace LayerGraph

/-- A finite binary64 number. Magnitudes are numbered upwards from zero; the 2047 binades of
`2 ^ 52` magnitudes each are all finite ones, so every value of the type is a finite number and
has one form. -/
structure Binary64 where
  negative : Bool
  rank : Fin (2047 <<< 52)
  deriving DecidableEq, Repr

namespace Binary64

/-- The binade of a magnitude; binade zero holds the subnormal ones. -/
def binade (x : Binary64) : Nat :=
  x.rank.val / (1 <<< 52)

/-- The integer significand: the value is `± significand * 2 ^ exponent`. -/
def significand (x : Binary64) : Nat :=
  if x.binade = 0 then x.rank.val else (1 <<< 52) + x.rank.val % (1 <<< 52)

def exponent (x : Binary64) : Int :=
  (max x.binade 1 : Nat) - 1075

def zero (negative : Bool) : Binary64 :=
  ⟨negative, 0, by decide⟩

def ofRank? (negative : Bool) (rank : Nat) : Option Binary64 :=
  if h : rank < 2047 <<< 52 then some ⟨negative, rank, h⟩ else none

def roundHalfEven (num den : Nat) : Nat :=
  let quotient := num / den
  let remainder := num % den
  if 2 * remainder < den then quotient
  else if den < 2 * remainder then quotient + 1
  else quotient + quotient % 2

def powerOfTwo (e : Int) : Nat × Nat :=
  (1 <<< e.toNat, 1 <<< (-e).toNat)

/-- The exponent of the last place of a positive quotient: the least one, but at least `-1074`,
in which the quotient has at most 53 binary digits. -/
def lastPlace (num den : Nat) : Int :=
  let low : Int := (num.log2 : Int) - den.log2 - 53
  let (up, down) := powerOfTwo low
  let least := if num * down < (1 <<< 53) * (den * up) then low else low + 1
  max least (-1074)

/-- The number nearest to a quotient, ties to even; none if that is infinite. The rank absorbs
the carry of a significand that rounds up to the next power of two. -/
def nearest? (negative : Bool) (num den : Nat) : Option Binary64 :=
  if num = 0 then some (zero negative)
  else
    let place := lastPlace num den
    let (up, down) := powerOfTwo place
    ofRank? negative ((place + 1074).toNat * (1 <<< 52) + roundHalfEven (num * down) (den * up))

/-- The number nearest to a 64-bit word, whose magnitude is always finite. -/
def ofWord (negative : Bool) (word : UInt64) : Binary64 :=
  (nearest? negative word.toNat 1).getD (zero negative)

def mul? (x y : Binary64) : Option Binary64 :=
  let (up, down) := powerOfTwo (x.exponent + y.exponent)
  nearest? (x.negative != y.negative) (x.significand * y.significand * up) down

def div? (x y : Binary64) : Option Binary64 :=
  let (up, down) := powerOfTwo (x.exponent - y.exponent)
  nearest? (x.negative != y.negative) (x.significand * up) (y.significand * down)

def powerOfTen? (n : Nat) : Option Binary64 :=
  nearest? false (Nat.pow 10 n) 1

/-- Divides by `10 ^ n`, 308 decimal places at a time; zero ends the division early. -/
def divPowerOfTen? (x : Binary64) (n : Nat) : Option Binary64 :=
  if h : n ≤ 308 then
    (powerOfTen? n).bind x.div?
  else if x.rank.val = 0 then
    some x
  else
    (powerOfTen? 308).bind x.div? |>.bind fun quotient => divPowerOfTen? quotient (n - 308)
termination_by n
decreasing_by omega

/-- Scales by `10 ^ n`; none if the result is infinite or, zero excepted, `n` exceeds 308. -/
def mulPowerOfTen? (x : Binary64) (n : Nat) : Option Binary64 :=
  if n ≤ 308 then (powerOfTen? n).bind x.mul?
  else if x.rank.val = 0 then some x
  else none

/-- The number that the decimal `± significand * 10 ^ exponent` is read as. The significand is
rounded first, and each step of the scaling once more, so the result can be one place off the
nearest number. None if a step is infinite. -/
def ofDecimal? (negative : Bool) (significand : UInt64) (exponent : Int) : Option Binary64 :=
  let x := ofWord negative significand
  if 0 ≤ exponent then x.mulPowerOfTen? exponent.toNat
  else x.divPowerOfTen? (-exponent).toNat

def toInt? (x : Binary64) : Option Int :=
  let (up, down) := powerOfTwo x.exponent
  if x.significand % down = 0 then
    let magnitude : Int := (x.significand / down * up : Nat)
    some (if x.negative then -magnitude else magnitude)
  else none

/-- Whether the value lies in the half-open unit interval `[0, 1)`; either zero does. -/
def inUnitInterval (x : Binary64) : Bool :=
  let (up, down) := powerOfTwo x.exponent
  x.significand = 0 || (!x.negative && x.significand * up < down)

end Binary64

end LayerGraph

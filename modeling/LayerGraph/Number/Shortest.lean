import LayerGraph.Number.Binary64

/-!
# Shortest decimal text of a binary64 number

The digits written are the fewest that still read back as the number; among equally short ones
the nearest. Lengths are tried in turn, and for each length only the two neighbours of the value
on that decimal grid need a look.
-/

namespace LayerGraph

namespace Binary64

structure Decimal where
  digits : Nat
  scale : Int
  deriving DecidableEq, Repr

def digitCount (n : Nat) : Nat :=
  (Nat.toDigits 10 n).length

/-- The decimal exponent `k` of a positive value `num / den`, for which
`10 ^ k ≤ num / den < 10 ^ (k + 1)`. Below one, the value is no power of ten. -/
def decimalExponent (num den : Nat) : Int :=
  if den ≤ num then (digitCount (num / den) : Int) - 1
  else -(digitCount (den / num) : Int)

/-- The decimal of `count` digits that reads back as `x`, if there is one. Reading rounds to
nearest, so the decimals that do lie between the midpoints to the two neighbours of `x`. The
midpoints themselves do if the significand is even. All bounds are in quarters of a place. -/
def decimalOfLength? (x : Binary64) (count : Nat) : Option Decimal :=
  let m := x.significand
  let (up, down) := powerOfTwo (x.exponent - 2)
  let scale := decimalExponent (4 * m * up) down - count + 1
  let value := up * Nat.pow 10 (-scale).toNat
  let unit := down * Nat.pow 10 scale.toNat
  let low := if m = 1 <<< 52 && 1 < x.binade then 4 * m - 1 else 4 * m - 2
  let high := 4 * m + 2
  let inside (digits : Nat) : Bool :=
    if m % 2 = 0 then low * value ≤ digits * unit && digits * unit ≤ high * value
    else low * value < digits * unit && digits * unit < high * value
  let below := 4 * m * value / unit
  let rest := 4 * m * value % unit
  match inside below, inside (below + 1) with
  | true, true =>
    if 2 * rest < unit || (2 * rest = unit && below % 2 = 0) then some ⟨below, scale⟩
    else some ⟨below + 1, scale⟩
  | true, false => some ⟨below, scale⟩
  | false, true => some ⟨below + 1, scale⟩
  | false, false => none

/-- The shortest decimal that reads back as `x`. Seventeen digits always do. -/
def shortest (x : Binary64) : Decimal :=
  ((List.range 17).findSome? fun n => x.decimalOfLength? (n + 1)).getD ⟨x.significand, 0⟩

def dropFinalZeros (digits : List Char) : List Char :=
  (digits.reverse.dropWhile (· = '0')).reverse

/-- The text of a positive decimal. Exponents from -5 to 15 are written out, with at least one
digit after the point; all others follow an `e` with their sign. -/
def Decimal.text (d : Decimal) : List Char :=
  let all := Nat.toDigits 10 d.digits
  let digits := dropFinalZeros all
  let exponent : Int := d.scale + all.length - 1
  if -5 ≤ exponent && exponent < 0 then
    '0' :: '.' :: (List.replicate (-exponent - 1).toNat '0' ++ digits)
  else if 0 ≤ exponent && exponent ≤ 15 then
    let whole := exponent.toNat + 1
    let fraction := digits.drop whole
    (digits.take whole ++ List.replicate (whole - digits.length) '0') ++
      '.' :: (if fraction.isEmpty then ['0'] else fraction)
  else
    let fraction := digits.drop 1
    digits.take 1 ++ (if fraction.isEmpty then [] else '.' :: fraction) ++
      'e' :: (if exponent < 0 then '-' else '+') :: Nat.toDigits 10 exponent.natAbs

/-- The text of a number; zero is `0.0`, and a negative number, zero included, starts with a
minus sign. -/
def text (x : Binary64) : List Char :=
  let magnitude := if x.rank.val = 0 then ['0', '.', '0'] else x.shortest.text
  if x.negative then '-' :: magnitude else magnitude

end Binary64

end LayerGraph

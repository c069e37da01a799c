/-!
# Arithmetic on 64-bit words

Operations that notice when a result does not fit into 64 bits, and operations that stop at the
greatest word instead.
-/

namespace LayerGraph

namespace Word

def signed? (n : Int) : Option Int64 :=
  if Int64.minValue.toInt ≤ n ∧ n ≤ Int64.maxValue.toInt then some (Int64.ofInt n) else none

def toSigned? (n : UInt64) : Option Int64 :=
  signed? n.toNat

def add? (a b : Int64) : Option Int64 :=
  signed? (a.toInt + b.toInt)

def sub? (a b : Int64) : Option Int64 :=
  signed? (a.toInt - b.toInt)

def mul? (a b : Int64) : Option Int64 :=
  signed? (a.toInt * b.toInt)

def floorDiv (a b : Int64) : Int64 :=
  Int64.ofInt (a.toInt.fdiv b.toInt)

def times? (a b : UInt64) : Option UInt64 :=
  if a.toNat * b.toNat < UInt64.size then some (a * b) else none

def clip (n : Nat) : UInt64 :=
  UInt64.ofNat (min n (UInt64.size - 1))

def addClipped (a b : UInt64) : UInt64 :=
  clip (a.toNat + b.toNat)

def mulClipped (a b : UInt64) : UInt64 :=
  clip (a.toNat * b.toNat)

theorem toNat_clip (n : Nat) : (clip n).toNat = min n (UInt64.size - 1) := by
  simp only [clip, UInt64.toNat_ofNat', UInt64.size]
  omega

end Word

end LayerGraph

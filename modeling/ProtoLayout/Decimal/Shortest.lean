/-!
Shortest decimal digits of a double: the fewest significant digits of a number that reads
back as it, the nearest when two qualify. All comparisons are exact, in `Nat`.
-/

namespace ProtoLayout.Decimal

/-- Compares `a · 10^p` with `b · 2^e` exactly. -/
def cmpDecBin (a : Nat) (p : Int) (b : Nat) (e : Int) : Ordering :=
  compare (a * Nat.pow 10 (max p 0).toNat * Nat.pow 2 (max (-e) 0).toNat)
    (b * Nat.pow 2 (max e 0).toNat * Nat.pow 10 (max (-p) 0).toNat)

/-- A finite positive double `mant · 2^exp`; `narrowBelow` marks a power of two above the
smallest normal one, whose gap below is half the gap above. -/
structure Binary where
  mant : Nat
  exp : Int
  narrowBelow : Bool

def Binary.ofBits (bits : UInt64) : Option Binary :=
  let frac := bits.toNat % Nat.pow 2 52
  let biased := bits.toNat / Nat.pow 2 52 % Nat.pow 2 11
  if biased = 2047 then none
  else if biased = 0 then
    if frac = 0 then none else some ⟨frac, -1074, false⟩
  else some ⟨frac + Nat.pow 2 52, Int.ofNat biased - 1075, frac == 0 && biased > 1⟩

/-- Whether `d · 10^q` lies in the rounding interval of `x`, ends included for an even mantissa. -/
def Binary.admits (x : Binary) (d : Nat) (q : Int) : Bool :=
  let lo := if x.narrowBelow then 4 * x.mant - 1 else 4 * x.mant - 2
  let hi := 4 * x.mant + 2
  let closed := x.mant % 2 == 0
  let aboveLo := match cmpDecBin d q lo (x.exp - 2) with
    | .gt => true
    | .eq => closed
    | .lt => false
  let belowHi := match cmpDecBin d q hi (x.exp - 2) with
    | .lt => true
    | .eq => closed
    | .gt => false
  aboveLo && belowHi

def Binary.floorAt (x : Binary) (q : Int) : Nat :=
  x.mant * Nat.pow 2 (max x.exp 0).toNat * Nat.pow 10 (max (-q) 0).toNat /
    (Nat.pow 2 (max (-x.exp) 0).toNat * Nat.pow 10 (max q 0).toNat)

/-- The decimal exponent `k` with `10^k ≤ x < 10^(k+1)`. -/
def Binary.decExp (x : Binary) : Int :=
  let est : Int := ((Nat.log2 x.mant : Int) + x.exp) * 30103 / 100000
  let up (k : Int) : Int := if cmpDecBin 1 (k + 1) x.mant x.exp != .gt then k + 1 else k
  let down (k : Int) : Int := if cmpDecBin 1 k x.mant x.exp == .gt then k - 1 else k
  down (down (up (up est)))

/-- Of two admitted grid points at the same distance, the even one. -/
def Binary.onGrid (x : Binary) (q : Int) : Option Nat :=
  let d := x.floorAt q
  match x.admits d q, x.admits (d + 1) q with
  | true, true =>
      match cmpDecBin (2 * d + 1) q (2 * x.mant) x.exp with
      | .gt => some d
      | .lt => some (d + 1)
      | .eq => some (if d % 2 == 0 then d else d + 1)
  | true, false => some d
  | false, true => some (d + 1)
  | false, false => none

def stripZeros : Nat → Nat → Int → Nat × Int
  | 0, d, q => (d, q)
  | fuel + 1, d, q => if d ≠ 0 ∧ d % 10 = 0 then stripZeros fuel (d / 10) (q + 1) else (d, q)

/-- Seventeen significant digits always suffice for a double. -/
def Binary.shortest (x : Binary) : Nat × Int :=
  let k := x.decExp
  let rec go : Nat → Nat → Nat × Int
    | 0, _ => (x.floorAt (k - 16), k - 16)
    | fuel + 1, n =>
      let q := k - (n : Int) + 1
      match x.onGrid q with
      | some d => stripZeros 20 d q
      | none => go fuel (n + 1)
  go 17 1

def digitsOf (n : Nat) : List Char := (Nat.toDigits 10 n)

end ProtoLayout.Decimal

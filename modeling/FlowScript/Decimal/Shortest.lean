import FlowScript.Binary64

namespace FlowScript

open Binary64

structure Decimal where
  digits : Nat
  exponent : Int
  deriving DecidableEq, Repr

namespace Decimal

inductive Tie where
  | toEven
  | up
  deriving DecidableEq, Repr

def compareTo (d : Decimal) (x : Magnitude) : Ordering :=
  compare ((d.digits * Nat.pow 10 d.exponent.toNat) <<< (-x.scale).toNat)
    ((x.significand * Nat.pow 10 (-d.exponent).toNat) <<< x.scale.toNat)

def readsBack (x : Magnitude) (d : Decimal) : Bool :=
  let narrow := x.significand = 1 <<< 52 && x.scale > -1074
  let low : Magnitude := ⟨4 * x.significand - (if narrow then 1 else 2), x.scale - 2⟩
  let high : Magnitude := ⟨4 * x.significand + 2, x.scale - 2⟩
  let closed := x.significand % 2 = 0
  let fromBelow := d.compareTo low
  let fromAbove := d.compareTo high
  (fromBelow = .gt || (closed && fromBelow = .eq)) &&
    (fromAbove = .lt || (closed && fromAbove = .eq))

def places (x : Magnitude) : Int :=
  let estimate := (x.significand.log2 + x.scale) * 30103 / 100000
  if compareTo ⟨1, estimate⟩ x = .gt then estimate
  else if compareTo ⟨1, estimate + 1⟩ x = .gt then estimate + 1
  else estimate + 2

def floorAt (x : Magnitude) (exponent : Int) : Nat :=
  ((x.significand * Nat.pow 10 (-exponent).toNat) <<< x.scale.toNat) /
    (Nat.pow 10 exponent.toNat <<< (-x.scale).toNat)

def onGrid? (tie : Tie) (x : Magnitude) (exponent : Int) : Option Decimal :=
  let below : Decimal := ⟨floorAt x exponent, exponent⟩
  let above : Decimal := ⟨below.digits + 1, exponent⟩
  match readsBack x below, readsBack x above with
  | false, false => none
  | true, false => some below
  | false, true => some above
  | true, true =>
      match compareTo ⟨below.digits + above.digits, exponent⟩ ⟨2 * x.significand, x.scale⟩ with
      | .gt => some below
      | .lt => some above
      | .eq => match tie with
          | .up => some above
          | .toEven => if below.digits % 2 = 0 then some below else some above

def exact (x : Magnitude) : Decimal :=
  ⟨(x.significand <<< x.scale.toNat) * Nat.pow 5 (-x.scale).toNat, min x.scale 0⟩

def dropZeros (digits : Nat) (exponent : Int) : Decimal :=
  if h : digits ≠ 0 ∧ digits % 10 = 0 then dropZeros (digits / 10) (exponent + 1)
  else ⟨digits, exponent⟩
termination_by digits
decreasing_by omega

/-- Of the decimals that round to a double, the one with the fewest digits, and of several such the nearest
one. Seventeen digits always do. -/
def shortest (tie : Tie) (x : Magnitude) : Decimal :=
  if x.significand = 0 then ⟨0, 0⟩
  else
    let k := places x
    let found := (List.range 17).findSome? fun (n : Nat) => onGrid? tie x (k - 1 - n)
    let d := found.getD (exact x)
    dropZeros d.digits d.exponent

end Decimal
end FlowScript

import FlowScript.Binary64
import FlowScript.Text.Basic

namespace FlowScript.Json

structure NumberText where
  negative : Bool
  whole : List Char
  fraction : Option (List Char)
  power : Option (Bool × List Char)
  deriving DecidableEq, Repr

def digits? (cs : List Char) : Option (List Char × List Char) :=
  match cs.takeWhile Char.isDigit with
  | [] => none
  | ds => some (ds, cs.dropWhile Char.isDigit)

def whole? : List Char → Option (List Char × List Char)
  | '0' :: rest => match rest with
      | [] => some (['0'], [])
      | c :: _ => if c.isDigit then none else some (['0'], rest)
  | cs => digits? cs

def fraction? : List Char → Option (Option (List Char) × List Char)
  | '.' :: rest => do
      let (ds, rest) ← digits? rest
      return (some ds, rest)
  | rest => some (none, rest)

def exponent? : List Char → Option ((Bool × List Char) × List Char)
  | '+' :: rest => do
      let (ds, rest) ← digits? rest
      return ((false, ds), rest)
  | '-' :: rest => do
      let (ds, rest) ← digits? rest
      return ((true, ds), rest)
  | rest => do
      let (ds, rest) ← digits? rest
      return ((false, ds), rest)

def power? : List Char → Option (Option (Bool × List Char) × List Char)
  | [] => some (none, [])
  | c :: rest =>
      if c = 'e' || c = 'E' then do
        let (power, rest) ← exponent? rest
        return (some power, rest)
      else some (none, c :: rest)

def scanNumber? (cs : List Char) : Option (NumberText × List Char) := do
  let (negative, cs) := match cs with
    | '-' :: rest => (true, rest)
    | _ => (false, cs)
  let (whole, cs) ← whole? cs
  let (fraction, cs) ← fraction? cs
  let (power, cs) ← power? cs
  return (⟨negative, whole, fraction, power⟩, cs)

def absorb (n : Nat) : List Char → Nat × List Char
  | [] => (n, [])
  | c :: rest =>
      let longer := 10 * n + Digits.value c
      if longer < UInt64.size then absorb longer rest else (n, c :: rest)

def scaleByTen (x : Float) (power : Int) : Option Float :=
  if 0 ≤ power then
    if power ≤ 308 then
      let y := x * Float.ofScientific 1 false power.toNat
      if y.isInf then none else some y
    else if x == 0 then some x
    else none
  else if h : power < -308 then
    if x == 0 then some x else scaleByTen (x / Float.ofScientific 1 false 308) (power + 308)
  else some (x / Float.ofScientific 1 false (-power).toNat)
termination_by power.natAbs
decreasing_by omega

/-- The double that a number stands for; none on overflow. It is that of the leading digits, as many as fit
into 64 bits, times or over a power of ten: two roundings, which agree with a single one for at most fifteen
digits and for powers up to 22. -/
def NumberText.toFloat? (t : NumberText) : Option Float :=
  let (leading, wholeLeft) := absorb 0 t.whole
  let fraction := t.fraction.getD []
  let (significand, fractionLeft) := absorb leading fraction
  let written : Int := match t.power with
    | none => 0
    | some (true, ds) => -(Digits.toNat ds : Int)
    | some (false, ds) => Digits.toNat ds
  let power := written + wholeLeft.length - (fraction.length - fractionLeft.length : Nat)
  (scaleByTen significand.toFloat power).map fun x => if t.negative then -x else x

def NumberText.toWord? (t : NumberText) : Option Nat :=
  if t.negative || t.fraction.isSome || t.power.isSome then none
  else
    let n := Digits.toNat t.whole
    if n < UInt64.size then some n else none

end FlowScript.Json

import FlowScript.Text.Basic

namespace FlowScript.Decimal

def farPower : Int := 400

def nearest (significand : Nat) (power : Int) : Float :=
  let magnitude := (toString significand).length + power
  if significand = 0 || magnitude < -farPower then 0
  else if farPower < magnitude then 1 / 0
  else Float.ofScientific significand (power < 0) power.natAbs

def exponent? (cs : List Char) : Option Int :=
  let (negative, ds) := match cs with
    | '-' :: rest => (true, rest)
    | '+' :: rest => (false, rest)
    | _ => (false, cs)
  if ds.isEmpty || !ds.all Char.isDigit then none
  else some (if negative then -(Digits.toNat ds : Int) else Digits.toNat ds)

def magnitude? (cs : List Char) : Option Float := do
  let whole := cs.takeWhile Char.isDigit
  let (fraction, rest) := match cs.dropWhile Char.isDigit with
    | '.' :: rest => (rest.takeWhile Char.isDigit, rest.dropWhile Char.isDigit)
    | rest => ([], rest)
  let power ← match rest with
    | [] => some 0
    | c :: rest => if c = 'e' || c = 'E' then exponent? rest else none
  if whole.isEmpty && fraction.isEmpty then none
  else some (nearest (Digits.toNat (whole ++ fraction)) (power - fraction.length))

def word? (cs : List Char) : Option Float :=
  let s := String.ofList (cs.map Char.toLower)
  if s = "inf" || s = "infinity" then some (1 / 0)
  else if s = "nan" then some (0 / 0)
  else none

def readFloat? (cs : List Char) : Option Float :=
  let unsigned (cs : List Char) : Option Float := (word? cs).orElse fun _ => magnitude? cs
  match cs with
  | '-' :: rest => (unsigned rest).map (-·)
  | '+' :: rest => unsigned rest
  | _ => unsigned cs

end FlowScript.Decimal

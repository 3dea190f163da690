import FlowScript.Decimal.Shortest

namespace FlowScript

structure DecimalStyle where
  positional : Int → Bool
  wholeAsFraction : Bool
  tie : Decimal.Tie

namespace DecimalStyle

def zeros (n : Nat) : List Char := List.replicate n '0'

def writePositional (style : DecimalStyle) (digits : List Char) (lead : Int) : List Char :=
  if lead < 0 then '0' :: '.' :: zeros (-lead - 1).toNat ++ digits
  else
    let whole := lead.toNat + 1
    if digits.length ≤ whole then
      digits ++ zeros (whole - digits.length) ++ (if style.wholeAsFraction then ['.', '0'] else [])
    else digits.take whole ++ '.' :: digits.drop whole

def writeScientific (digits : List Char) (lead : Int) : List Char :=
  let fraction := digits.drop 1
  digits.take 1 ++ (if fraction.isEmpty then [] else '.' :: fraction) ++
    'e' :: (if lead < 0 then '-' else '+') :: (toString lead.natAbs).toList

def writeDecimal (style : DecimalStyle) (d : Decimal) : List Char :=
  let digits := (toString d.digits).toList
  let lead := d.exponent + digits.length - 1
  if style.positional lead then style.writePositional digits lead else writeScientific digits lead

def writeFinite (style : DecimalStyle) (x : Float) : String :=
  let text := style.writeDecimal (Decimal.shortest style.tie (Binary64.Magnitude.ofFloat x))
  String.ofList (if Binary64.isNegative x then '-' :: text else text)

def message : DecimalStyle where
  positional _ := true
  wholeAsFraction := false
  tie := .up

/-- Numbers in layout texts: positional from `0.00001` up to `1e16`, always with a point or an
exponent. -/
def layout : DecimalStyle where
  positional lead := -5 ≤ lead && lead < 16
  wholeAsFraction := true
  tie := .toEven

end DecimalStyle

def showCoordinate (x : Float) : String :=
  if x.isNaN then "NaN"
  else if x.isInf then (if x < 0 then "-inf" else "inf")
  else DecimalStyle.message.writeFinite x

end FlowScript

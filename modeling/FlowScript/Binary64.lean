namespace FlowScript.Binary64

structure Magnitude where
  significand : Nat
  scale : Int
  deriving DecidableEq, Repr

def isNegative (x : Float) : Bool := x.toBits >>> 63 == 1

def Magnitude.ofFloat (x : Float) : Magnitude :=
  let exponent := ((x.toBits >>> 52) &&& 0x7FF).toNat
  let fraction := (x.toBits &&& 0xFFFFFFFFFFFFF).toNat
  if exponent = 0 then ⟨fraction, -1074⟩ else ⟨1 <<< 52 + fraction, (exponent : Int) - 1075⟩

def Magnitude.toFloat (x : Magnitude) : Float :=
  Float.ofScientific ((x.significand <<< x.scale.toNat) * Nat.pow 5 (-x.scale).toNat)
    (x.scale < 0) (-x.scale).toNat

def Magnitude.sumSquares (x y : Magnitude) : Magnitude :=
  let scale := min x.scale y.scale
  let a := x.significand <<< (x.scale - scale).toNat
  let b := y.significand <<< (y.scale - scale).toNat
  ⟨a * a + b * b, 2 * scale⟩

def Magnitude.root (significand : Nat) (half : Int) : Magnitude :=
  let extra := 64 - significand.log2 / 2
  let scaled := significand <<< (2 * extra)
  let floor := scaled.sqrt
  ⟨2 * floor + (if floor * floor = scaled then 0 else 1), half - extra - 1⟩

/-- The length of the vector `(x, y)`, computed exactly and rounded once; infinite as soon as a coordinate is.
-/
def hypot (x y : Float) : Float :=
  if x.isInf || y.isInf then 1 / 0
  else if x.isNaN || y.isNaN then 0 / 0
  else
    let squares := (Magnitude.ofFloat x).sumSquares (Magnitude.ofFloat y)
    (Magnitude.root squares.significand (squares.scale / 2)).toFloat

end FlowScript.Binary64

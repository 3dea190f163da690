import FlowScript.Text.Basic

namespace FlowScript.NodeId

def lastNumber : Nat := UInt64.size - 1

def stem : String := "node_"

def ofNumber (n : Nat) : String := stem ++ toString n

def byteCount (text : List Char) : Nat := (String.ofList text).utf8ByteSize

def behindBytes? : Nat → List Char → Option (List Char)
  | 0, text => some text
  | _ + 1, [] => none
  | count + 1, c :: rest =>
      if c.utf8Size ≤ count + 1 then behindBytes? (count + 1 - c.utf8Size) rest else none

def withoutDigits (id : List Char) : List Char := (id.reverse.dropWhile Char.isDigit).reverse

def digitBytes (id : List Char) : Nat := byteCount id - byteCount (withoutDigits id)

/-- The number at the end of an id, cut off by its bytes; none where no digit ends the id or the number is
too large. -/
def suffix? (id : String) : Option Nat :=
  let id := id.toList
  if digitBytes id = 0 then none
  else do
    let n := Digits.toNat (← behindBytes? (byteCount id - digitBytes id) id)
    if n ≤ lastNumber then some n else none

end FlowScript.NodeId

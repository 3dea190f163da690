import FlowScript.Text.Basic

namespace FlowScript.Json

def hexDigit (n : Nat) : Char := Char.ofNat (if n < 10 then '0'.toNat + n else 'a'.toNat + (n - 10))

def unit? (a b c d : Char) : Option Nat := Digits.hexToNat? [a, b, c, d]

def letterEscape? : Char → Option Char
  | '"' => some '"'
  | '\\' => some '\\'
  | '/' => some '/'
  | 'b' => some '\x08'
  | 'f' => some '\x0c'
  | 'n' => some '\n'
  | 'r' => some '\r'
  | 't' => some '\t'
  | _ => none

def escapeChar (c : Char) : List Char :=
  if c = '"' then ['\\', '"']
  else if c = '\\' then ['\\', '\\']
  else if c = '\x08' then ['\\', 'b']
  else if c = '\x0c' then ['\\', 'f']
  else if c = '\n' then ['\\', 'n']
  else if c = '\r' then ['\\', 'r']
  else if c = '\t' then ['\\', 't']
  else if c.toNat < 32 then ['\\', 'u', '0', '0', hexDigit (c.toNat / 16), hexDigit (c.toNat % 16)]
  else [c]

def escape (s : List Char) : List Char := s.flatMap escapeChar

def quote (s : String) : List Char := '"' :: escape s.toList ++ ['"']

def isHighSurrogate (n : Nat) : Bool := 0xD800 ≤ n && n < 0xDC00

def isLowSurrogate (n : Nat) : Bool := 0xDC00 ≤ n && n < 0xE000

def joinSurrogates (high low : Nat) : Char :=
  Char.ofNat (0x10000 + (high - 0xD800) * 0x400 + (low - 0xDC00))

def unescape : List Char → Option (List Char × List Char)
  | [] => none
  | '"' :: rest => some ([], rest)
  | '\\' :: 'u' :: a :: b :: c :: d :: rest => do
      let high ← unit? a b c d
      if isLowSurrogate high then none
      else if isHighSurrogate high then
        match rest with
        | '\\' :: 'u' :: a :: b :: c :: d :: rest =>
            let low ← unit? a b c d
            if isLowSurrogate low then
              let (s, after) ← unescape rest
              return (joinSurrogates high low :: s, after)
            else none
        | _ => none
      else
        let (s, after) ← unescape rest
        return (Char.ofNat high :: s, after)
  | '\\' :: e :: rest => do
      let c ← letterEscape? e
      let (s, after) ← unescape rest
      return (c :: s, after)
  | c :: rest =>
      if c.toNat < 32 || c = '\\' then none
      else do
        let (s, after) ← unescape rest
        return (c :: s, after)

/-- Passes over the inside of a string and its closing quote. Any four hexadecimal digits will do for
a code unit. -/
def skipString : List Char → Option (List Char)
  | [] => none
  | '"' :: rest => some rest
  | '\\' :: 'u' :: a :: b :: c :: d :: rest =>
      if (unit? a b c d).isSome then skipString rest else none
  | '\\' :: e :: rest => if (letterEscape? e).isSome then skipString rest else none
  | c :: rest => if c.toNat < 32 || c = '\\' then none else skipString rest

end FlowScript.Json

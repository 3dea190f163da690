import FlowScript.Text.Visible

namespace FlowScript.Text

def hex (n : Nat) : List Char := Nat.toDigits 16 n

def codePointEscape (c : Char) : List Char := ['\\', 'u', '{'] ++ hex c.toNat ++ ['}']

def literalChar (c : Char) : List Char :=
  if c = Char.ofNat 0 then ['\\', '0']
  else if c = '\t' then ['\\', 't']
  else if c = '\r' then ['\\', 'r']
  else if c = '\n' then ['\\', 'n']
  else if c = '"' then ['\\', '"']
  else if c = '\\' then ['\\', '\\']
  else if isVisible c then [c]
  else codePointEscape c

def literal (s : String) : String :=
  String.ofList ('"' :: s.toList.flatMap literalChar ++ ['"'])

def literals (items : List String) : String := "[" ++ ", ".intercalate (items.map literal) ++ "]"

def tameChar (c : Char) : List Char :=
  let n := c.toNat
  if n = 0x1B || n = 0x07 || n = 0x08 || n = 0x0C || n = 0x7F then
    ['\\', 'x', Nat.digitChar (n / 16), Nat.digitChar (n % 16)]
  else if 0x80 ≤ n && n ≤ 0x9F then codePointEscape c
  else [c]

def tame (message : String) : String := String.ofList (message.toList.flatMap tameChar)

end FlowScript.Text

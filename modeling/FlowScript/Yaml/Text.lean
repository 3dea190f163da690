namespace FlowScript.Yaml

def isAllowed (c : Char) : Bool :=
  let n := c.toNat
  n = 9 || n = 0xA || n = 0xD || (0x20 ≤ n && n ≤ 0x7E) || n = 0x85 || (0xA0 ≤ n && n ≤ 0xD7FF) ||
    (0xE000 ≤ n && n ≤ 0xFFFD) || 0x10000 ≤ n

def uniformBreaks : List Char → List Char
  | [] => []
  | '\r' :: '\n' :: rest => '\n' :: uniformBreaks rest
  | c :: rest => (if c = '\r' || c = '\u0085' then '\n' else c) :: uniformBreaks rest

def isBreak (c : Char) : Bool := c = '\n' || c = '\u2028' || c = '\u2029'

def isBlank (c : Char) : Bool := c = ' ' || c = '\t'

def isSpace (c : Char) : Bool := isBlank c || isBreak c

def isWord (c : Char) : Bool := c.isAlphanum || c = '_' || c = '-'

def byteOrderMark : Char := '\uFEFF'

def atSpace : List Char → Bool
  | [] => true
  | c :: _ => isSpace c

def atBreak : List Char → Bool
  | [] => true
  | c :: _ => isBreak c

def atDocumentMark (mark : Char) : List Char → Bool
  | a :: b :: c :: rest => a = mark && b = mark && c = mark && atSpace rest
  | _ => false

def atDocumentBoundary (cs : List Char) : Bool := atDocumentMark '-' cs || atDocumentMark '.' cs

structure Position where
  index : Nat
  line : Nat
  column : Nat
  deriving DecidableEq, Repr

namespace Position

def start : Position := ⟨0, 0, 0⟩

def next (p : Position) (c : Char) : Position :=
  if isBreak c then ⟨p.index + 1, p.line + 1, 0⟩ else ⟨p.index + 1, p.line, p.column + 1⟩

def advance (p : Position) (n : Nat) : Position := ⟨p.index + n, p.line, p.column + n⟩

end Position

structure Rest where
  chars : List Char
  pos : Position
  deriving DecidableEq, Repr

namespace Rest

def drop (r : Rest) (n : Nat) : Rest := ⟨r.chars.drop n, r.pos.advance n⟩

def dropWhile (r : Rest) (p : Char → Bool) : Rest := r.drop (r.chars.takeWhile p).length

def dropLine (r : Rest) : Rest := r.dropWhile (!isBreak ·)

def dropBreak (r : Rest) : Rest :=
  match r.chars with
  | c :: rest => if isBreak c then ⟨rest, r.pos.next c⟩ else r
  | [] => r

def endLine? (r : Rest) : Option Rest :=
  let r := r.dropWhile isBlank
  let r := if r.chars.head? = some '#' then r.dropLine else r
  if atBreak r.chars then some r.dropBreak else none

end Rest

end FlowScript.Yaml

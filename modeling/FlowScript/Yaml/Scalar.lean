import FlowScript.Text.Basic
import FlowScript.Yaml.Text

namespace FlowScript.Yaml

/-- White space inside a scalar, backwards: the blanks as long as no line ended, or else the line ends behind
the first one. -/
structure Gap where
  blanks : List Char
  broken : Bool
  firstBreak : Option Char
  moreBreaks : List Char
  deriving DecidableEq, Repr

namespace Gap

def none : Gap := ⟨[], false, .none, []⟩

def escaped : Gap := ⟨[], true, .none, []⟩

def push (g : Gap) (c : Char) : Gap :=
  if isBreak c then
    if g.broken then { g with moreBreaks := c :: g.moreBreaks } else ⟨[], true, some c, g.moreBreaks⟩
  else if g.broken then g
  else { g with blanks := c :: g.blanks }

def isNone (g : Gap) : Bool := g.blanks.isEmpty && !g.broken

def text (g : Gap) : List Char :=
  if g.broken then
    match g.firstBreak with
    | some '\n' => if g.moreBreaks.isEmpty then [' '] else g.moreBreaks
    | some c => g.moreBreaks ++ [c]
    | .none => g.moreBreaks
  else g.blanks

end Gap

/-! ## Plain scalars -/

structure PlainEnd where
  text : List Char
  rest : Rest
  broken : Bool
  deriving DecidableEq, Repr

def isFlowMark (c : Char) : Bool := c = ',' || c = '[' || c = ']' || c = '{' || c = '}'

def refusesColon : List Char → Bool
  | ':' :: c :: _ => isFlowMark c || c = '?'
  | _ => false

def endsPlain (inFlow : Bool) (c : Char) (rest : List Char) : Bool :=
  (c = ':' && atSpace rest) || (inFlow && isFlowMark c)

def endsAtGap (inFlow : Bool) (indent : Int) (pos : Position) (cs : List Char) : Bool :=
  (!inFlow && pos.column < indent) || (pos.column = 0 && atDocumentBoundary cs) ||
    cs.head? = some '#'

def plainFrom (inFlow : Bool) (indent : Int) (gap : Gap) (text : List Char) (pos : Position) :
    List Char → Option PlainEnd
  | [] => some ⟨text.reverse, ⟨[], pos⟩, gap.broken⟩
  | c :: rest =>
      if isSpace c then
        if c = '\t' && gap.broken && pos.column < indent then none
        else plainFrom inFlow indent (gap.push c) text (pos.next c) rest
      else if !gap.isNone && endsAtGap inFlow indent pos (c :: rest) then
        some ⟨text.reverse, ⟨c :: rest, pos⟩, gap.broken⟩
      else if inFlow && refusesColon (c :: rest) then none
      else if endsPlain inFlow c rest then some ⟨text.reverse, ⟨c :: rest, pos⟩, gap.broken⟩
      else plainFrom inFlow indent .none (c :: gap.text ++ text) (pos.next c) rest

def plain? (inFlow : Bool) (indent : Int) (r : Rest) : Option PlainEnd :=
  plainFrom inFlow indent .none [] r.pos r.chars

/-! ## Quoted scalars -/

def letterEscape? : Char → Option Char
  | '0' => some '\x00'
  | 'a' => some '\x07'
  | 'b' => some '\x08'
  | 't' => some '\t'
  | '\t' => some '\t'
  | 'n' => some '\n'
  | 'v' => some '\x0b'
  | 'f' => some '\x0c'
  | 'r' => some '\r'
  | 'e' => some '\x1b'
  | ' ' => some ' '
  | '"' => some '"'
  | '/' => some '/'
  | '\\' => some '\\'
  | 'N' => some '\u0085'
  | '_' => some '\u00A0'
  | 'L' => some '\u2028'
  | 'P' => some '\u2029'
  | _ => none

def scalarValue? (n : Nat) : Option Char := if n.isValidChar then some (Char.ofNat n) else none

def hexChar? (digits : List Char) : Option Char := (Digits.hexToNat? digits).bind scalarValue?

def singleFrom (gap : Gap) (text : List Char) (pos : Position) : List Char → Option (List Char × Rest)
  | [] => none
  | c :: rest =>
      if isSpace c then singleFrom (gap.push c) text (pos.next c) rest
      else if pos.column = 0 && atDocumentBoundary (c :: rest) then none
      else if c = '\'' then
        match rest with
        | '\'' :: rest => singleFrom .none ('\'' :: gap.text ++ text) (pos.advance 2) rest
        | rest => some ((gap.text ++ text).reverse, ⟨rest, pos.next c⟩)
      else singleFrom .none (c :: gap.text ++ text) (pos.next c) rest

def doubleFrom (gap : Gap) (text : List Char) (pos : Position) : List Char → Option (List Char × Rest)
  | [] => none
  | c :: rest =>
      if isSpace c then doubleFrom (gap.push c) text (pos.next c) rest
      else if pos.column = 0 && atDocumentBoundary (c :: rest) then none
      else if c = '"' then some ((gap.text ++ text).reverse, ⟨rest, pos.next c⟩)
      else if c = '\\' then
        let text := gap.text ++ text
        match rest with
        | [] => none
        | 'x' :: a :: b :: rest => match hexChar? [a, b] with
            | some d => doubleFrom .none (d :: text) (pos.advance 4) rest
            | none => none
        | 'u' :: a :: b :: c :: d :: rest => match hexChar? [a, b, c, d] with
            | some e => doubleFrom .none (e :: text) (pos.advance 6) rest
            | none => none
        | 'U' :: a :: b :: c :: d :: e :: f :: g :: h :: rest =>
            match hexChar? [a, b, c, d, e, f, g, h] with
            | some e => doubleFrom .none (e :: text) (pos.advance 10) rest
            | none => none
        | e :: rest =>
            if isBreak e then doubleFrom .escaped text ((pos.next c).next e) rest
            else match letterEscape? e with
              | some d => doubleFrom .none (d :: text) (pos.advance 2) rest
              | none => none
      else doubleFrom .none (c :: gap.text ++ text) (pos.next c) rest

def quoted? (r : Rest) : Option (List Char × Rest) :=
  match r.chars with
  | '\'' :: rest => singleFrom .none [] (r.pos.advance 1) rest
  | '"' :: rest => doubleFrom .none [] (r.pos.advance 1) rest
  | _ => none

/-! ## Block scalars -/

inductive Chomping where
  | strip
  | clip
  | keep
  deriving DecidableEq, Repr

structure BlockHeader where
  literal : Bool
  chomping : Chomping
  extra : Option Nat
  deriving DecidableEq, Repr

def chomping? : List Char → Option (Chomping × List Char)
  | '+' :: rest => some (.keep, rest)
  | '-' :: rest => some (.strip, rest)
  | _ => none

def indentDigit? : List Char → Option (Nat × List Char)
  | c :: rest => if c.isDigit then some (Digits.value c, rest) else none
  | [] => none

def blockMarks (cs : List Char) : Chomping × Option Nat × Nat :=
  match chomping? cs with
  | some (chomping, rest) => match indentDigit? rest with
      | some (n, _) => (chomping, some n, 2)
      | none => (chomping, none, 1)
  | none => match indentDigit? cs with
      | some (n, rest) => match chomping? rest with
          | some (chomping, _) => (chomping, some n, 2)
          | none => (.clip, some n, 1)
      | none => (.clip, none, 0)

/-- The state of reading a block scalar. The column of the lines is `indent` once it is known, and until then
`widest` is the largest one reached. The text and the ends of the empty lines behind it stand backwards. -/
structure BlockState where
  indent : Option Nat
  widest : Nat
  text : List Char
  lineEnd : Option Char
  emptyLines : List Char
  afterBlank : Bool
  deriving DecidableEq, Repr

namespace BlockState

def column (s : BlockState) (parent : Int) : Nat :=
  s.indent.getD (max s.widest (max (parent + 1).toNat 1))

def inMargin (s : BlockState) (column : Nat) : Bool :=
  match s.indent with
  | none => true
  | some indent => column < indent

def openLine (s : BlockState) (literal : Bool) (c : Char) : BlockState :=
  let fold := !literal && s.lineEnd = some '\n' && !s.afterBlank && !isBlank c
  let joint := if fold then (if s.emptyLines.isEmpty then [' '] else []) else s.lineEnd.toList
  { s with
    text := s.emptyLines ++ joint ++ s.text
    lineEnd := none
    emptyLines := []
    afterBlank := isBlank c }

def finish (s : BlockState) (chomping : Chomping) : List Char :=
  match chomping with
  | .strip => s.text.reverse
  | .clip => (s.lineEnd.toList ++ s.text).reverse
  | .keep => (s.emptyLines ++ s.lineEnd.toList ++ s.text).reverse

end BlockState

def blockFrom (h : BlockHeader) (parent : Int) (inText : Bool) (s : BlockState) (pos : Position) :
    List Char → Option (List Char × Rest)
  | [] => some (s.finish h.chomping, ⟨[], pos⟩)
  | c :: rest =>
      if inText then
        if isBreak c then blockFrom h parent false { s with lineEnd := some c } (pos.next c) rest
        else blockFrom h parent true { s with text := c :: s.text } (pos.next c) rest
      else if c = ' ' && s.inMargin pos.column then
        blockFrom h parent false { s with widest := max s.widest (pos.column + 1) } (pos.next c) rest
      else if c = '\t' && s.inMargin pos.column then none
      else if isBreak c then
        blockFrom h parent false { s with emptyLines := c :: s.emptyLines } (pos.next c) rest
      else
        let s := { s with indent := some (s.column parent) }
        if s.indent = some pos.column then
          let s := s.openLine h.literal c
          blockFrom h parent true { s with text := c :: s.text } (pos.next c) rest
        else some (s.finish h.chomping, ⟨c :: rest, pos⟩)

def block? (parent : Int) (r : Rest) : Option (List Char × Rest) := do
  let (chomping, extra, taken) := blockMarks (r.chars.drop 1)
  if extra = some 0 then none
  let h : BlockHeader := ⟨r.chars.head? = some '|', chomping, extra⟩
  let r ← (r.drop (1 + taken)).endLine?
  let indent := extra.map fun n => (max parent 0).toNat + n
  blockFrom h parent false ⟨indent, 0, [], none, [], false⟩ r.pos r.chars

end FlowScript.Yaml

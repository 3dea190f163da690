import FlowScript.Yaml.Tag

namespace FlowScript.Yaml

structure ScalarText where
  value : String
  isPlain : Bool
  deriving DecidableEq, Repr

inductive Token where
  | directive (d : Directive)
  | documentStart
  | documentEnd
  | blockSequenceStart
  | blockMappingStart
  | blockEnd
  | flowSequenceStart
  | flowSequenceEnd
  | flowMappingStart
  | flowMappingEnd
  | blockEntry
  | flowEntry
  | key
  | value
  | alias (name : String)
  | anchor (name : String)
  | tag (name : TagName)
  | scalar (s : ScalarText)
  deriving DecidableEq, Repr

structure KeyCandidate where
  tokensBefore : Nat
  place : Position
  required : Bool
  deriving DecidableEq, Repr

/-- How far a text is read. The tokens stand backwards, and so do the indentations of the open blocks and the
key candidates of the open brackets, the innermost first. A candidate is where a key token has to be put in if
a colon follows. -/
structure Scanner where
  rest : Rest
  tokens : List Token
  indent : Int
  outerIndents : List Int
  candidate : Option KeyCandidate
  outerCandidates : List (Option KeyCandidate)
  keyAllowed : Bool
  deriving Repr

namespace Scanner

def start (cs : List Char) : Scanner where
  rest := ⟨cs, .start⟩
  tokens := []
  indent := -1
  outerIndents := []
  candidate := none
  outerCandidates := []
  keyAllowed := true

def inFlow (s : Scanner) : Bool := !s.outerCandidates.isEmpty

def column (s : Scanner) : Nat := s.rest.pos.column

def push (s : Scanner) (t : Token) : Scanner := { s with tokens := t :: s.tokens }

def insertAt (s : Scanner) (n : Nat) (t : Token) : Scanner :=
  let later := s.tokens.length - n
  { s with tokens := s.tokens.take later ++ t :: s.tokens.drop later }

def skip (s : Scanner) (n : Nat) : Scanner := { s with rest := s.rest.drop n }

def allowKey (s : Scanner) (allowed : Bool) : Scanner := { s with keyAllowed := allowed }

/-! ## White space -/

def isFiller (tabs : Bool) (c : Char) : Bool := c = ' ' || (tabs && c = '\t')

def toNextToken : Nat → Scanner → Scanner
  | 0, s => s
  | fuel + 1, s =>
      let r := s.rest.dropWhile (isFiller (s.inFlow || !s.keyAllowed))
      let r := if r.chars.head? = some '#' then r.dropLine else r
      match r.chars with
      | c :: rest =>
          if isBreak c then
            toNextToken fuel
              { s with rest := ⟨rest, r.pos.next c⟩, keyAllowed := s.keyAllowed || !s.inFlow }
          else { s with rest := r }
      | [] => { s with rest := r }

/-! ## Keys -/

def longestKey : Nat := 1024

def isStale (now : Position) (k : KeyCandidate) : Bool :=
  k.place.line < now.line || k.place.index + longestKey < now.index

def giveUp? (k : Option KeyCandidate) : Option (Option KeyCandidate) :=
  match k with
  | some k => if k.required then none else some none
  | none => some none

def dropStale? (now : Position) (k : Option KeyCandidate) : Option (Option KeyCandidate) :=
  match k with
  | some c => if isStale now c then giveUp? k else some k
  | none => some none

def dropStaleKeys? (s : Scanner) : Option Scanner := do
  let candidate ← dropStale? s.rest.pos s.candidate
  let outerCandidates ← s.outerCandidates.mapM (dropStale? s.rest.pos)
  return { s with candidate, outerCandidates }

def dropKey? (s : Scanner) : Option Scanner := do
  return { s with candidate := ← giveUp? s.candidate }

def saveKey? (s : Scanner) : Option Scanner :=
  if s.keyAllowed then do
    let s ← s.dropKey?
    return { s with
      candidate := some ⟨s.tokens.length, s.rest.pos, !s.inFlow && s.indent = s.column⟩ }
  else some s

/-! ## Blocks -/

def openBlock (s : Scanner) (column n : Nat) (t : Token) : Scanner :=
  if s.inFlow || (column : Int) ≤ s.indent then s
  else ({ s with indent := column, outerIndents := s.indent :: s.outerIndents }).insertAt n t

def closeBlocksTo (column : Int) (indent : Int) (tokens : List Token) :
    List Int → Int × List Int × List Token
  | [] => (indent, [], tokens)
  | outer :: more =>
      if column < indent then closeBlocksTo column outer (.blockEnd :: tokens) more
      else (indent, outer :: more, tokens)

def closeBlocks (s : Scanner) (column : Int) : Scanner :=
  if s.inFlow then s
  else
    let (indent, outerIndents, tokens) := closeBlocksTo column s.indent s.tokens s.outerIndents
    { s with indent, outerIndents, tokens }

/-! ## Tokens -/

def directive? (s : Scanner) : Option Scanner := do
  let s ← (s.closeBlocks (-1)).dropKey?
  let (d, rest) ← Yaml.directive? s.rest
  return (({ s with rest }).allowKey false).push (.directive d)

def documentMark? (s : Scanner) (t : Token) : Option Scanner := do
  let s ← (s.closeBlocks (-1)).dropKey?
  return ((s.allowKey false).skip 3).push t

def openFlow? (s : Scanner) (t : Token) : Option Scanner := do
  let s ← s.saveKey?
  let s := { s with candidate := none, outerCandidates := s.candidate :: s.outerCandidates }
  return ((s.allowKey true).skip 1).push t

/-- A closing bracket; where none is open it is a token all the same. -/
def closeFlow? (s : Scanner) (t : Token) : Option Scanner := do
  let s ← s.dropKey?
  let s := match s.outerCandidates with
    | candidate :: outerCandidates => { s with candidate, outerCandidates }
    | [] => s
  return ((s.allowKey false).skip 1).push t

def flowEntry? (s : Scanner) : Option Scanner := do
  let s ← s.dropKey?
  return ((s.allowKey true).skip 1).push .flowEntry

def blockMark? (s : Scanner) (block : Token) : Option Scanner :=
  if s.inFlow then some s
  else if s.keyAllowed then some (s.openBlock s.column s.tokens.length block)
  else none

def blockEntry? (s : Scanner) : Option Scanner := do
  let s ← (← s.blockMark? .blockSequenceStart).dropKey?
  return ((s.allowKey true).skip 1).push .blockEntry

def key? (s : Scanner) : Option Scanner := do
  let s ← (← s.blockMark? .blockMappingStart).dropKey?
  return ((s.allowKey !s.inFlow).skip 1).push .key

def value? (s : Scanner) : Option Scanner :=
  match s.candidate with
  | some k =>
      let s := (s.insertAt k.tokensBefore .key).openBlock k.place.column k.tokensBefore
        .blockMappingStart
      some ((({ s with candidate := none }).allowKey false |>.skip 1).push .value)
  | none => do
      let s ← s.blockMark? .blockMappingStart
      return ((s.allowKey !s.inFlow).skip 1).push .value

def inline? {α : Type} (s : Scanner) (read : Rest → Option (α × Rest)) (token : α → Token) :
    Option Scanner := do
  let s ← s.saveKey?
  let (a, rest) ← read s.rest
  return (({ s with rest }).allowKey false).push (token a)

def quoted? (s : Scanner) : Option Scanner :=
  s.inline? Yaml.quoted? fun text => .scalar ⟨String.ofList text, false⟩

def blockScalar? (s : Scanner) : Option Scanner := do
  let s ← s.dropKey?
  let (text, rest) ← block? s.indent s.rest
  return (({ s with rest }).allowKey true).push (.scalar ⟨String.ofList text, false⟩)

def plain? (s : Scanner) : Option Scanner := do
  let s ← s.saveKey?
  let p ← Yaml.plain? s.inFlow (s.indent + 1) s.rest
  return (({ s with rest := p.rest }).allowKey p.broken).push (.scalar ⟨String.ofList p.text, true⟩)

def isIndicator (c : Char) : Bool :=
  ['-', '?', ':', ',', '[', ']', '{', '}', '#', '&', '*', '!', '|', '>', '\'', '"', '%', '@',
    '\x60'].contains c

def startsPlain (inFlow : Bool) (c : Char) (rest : List Char) : Bool :=
  (!isSpace c && !isIndicator c) || (c = '-' && !rest.head?.any isBlank) ||
    (!inFlow && (c = '?' || c = ':') && !atSpace rest)

def tokenAt? (s : Scanner) (c : Char) (rest : List Char) : Option Scanner :=
  if s.column = 0 && c = '%' then s.directive?
  else if s.column = 0 && atDocumentMark '-' (c :: rest) then s.documentMark? .documentStart
  else if s.column = 0 && atDocumentMark '.' (c :: rest) then s.documentMark? .documentEnd
  else if c = '[' then s.openFlow? .flowSequenceStart
  else if c = '{' then s.openFlow? .flowMappingStart
  else if c = ']' then s.closeFlow? .flowSequenceEnd
  else if c = '}' then s.closeFlow? .flowMappingEnd
  else if c = ',' then s.flowEntry?
  else if c = '-' && atSpace rest then s.blockEntry?
  else if c = '?' && (s.inFlow || atSpace rest) then s.key?
  else if c = ':' && (s.inFlow || atSpace rest) then s.value?
  else if c = '*' then s.inline? anchor? .alias
  else if c = '&' then s.inline? anchor? .anchor
  else if c = '!' then s.inline? (tag? s.inFlow) .tag
  else if (c = '|' || c = '>') && !s.inFlow then s.blockScalar?
  else if c = '\'' || c = '"' then s.quoted?
  else if startsPlain s.inFlow c rest then s.plain?
  else none

def finish? (s : Scanner) : Option (List Token) := do
  let s ← (s.closeBlocks (-1)).dropKey?
  return s.tokens.reverse

def tokens? : Nat → Scanner → Option (List Token)
  | 0, _ => none
  | fuel + 1, s => do
      let s ← (s.toNextToken (s.rest.chars.length + 1)).dropStaleKeys?
      let s := s.closeBlocks s.column
      match s.rest.chars with
      | [] => s.finish?
      | c :: rest => tokens? fuel (← s.tokenAt? c rest)

end Scanner

/-- The tokens of a text with uniform line ends; a byte order mark at its start is dropped. -/
def tokenize? (text : String) : Option (List Token) :=
  let cs := match text.toList with
    | c :: rest => if c = byteOrderMark then rest else c :: rest
    | [] => []
  if cs.all isAllowed then
    let cs := match uniformBreaks cs with
      | c :: rest => if c = byteOrderMark then rest else c :: rest
      | [] => []
    (Scanner.start cs).tokens? (cs.length + 1)
  else none

end FlowScript.Yaml

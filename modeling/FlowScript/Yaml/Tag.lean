import FlowScript.Yaml.Scalar

namespace FlowScript.Yaml

def word? (r : Rest) : Option (String × Rest) :=
  match r.chars.takeWhile isWord with
  | [] => none
  | name => some (String.ofList name, r.drop name.length)

def endsAnchor : List Char → Bool
  | [] => true
  | c :: _ =>
      isSpace c || c = '?' || c = ':' || c = ',' || c = ']' || c = '}' || c = '%' || c = '@' ||
        c = '\x60'

def anchor? (r : Rest) : Option (String × Rest) := do
  let (name, r) ← word? (r.drop 1)
  if endsAnchor r.chars then some (name, r) else none

/-! ## Tags -/

def isTagChar (c : Char) : Bool :=
  isWord c || [';', '/', '?', ':', '@', '&', '=', '+', '$', '.', '%', '!', '~', '*', '\'', '(',
    ')'].contains c

def isVerbatimChar (c : Char) : Bool := isTagChar c || c = ',' || c = '[' || c = ']'

def percentByte? : List Char → Option (Nat × List Char)
  | '%' :: a :: b :: rest => do
      let n ← Digits.hexToNat? [a, b]
      return (n, rest)
  | _ => none

def continuation? : Nat → Nat → List Char → Option (Nat × List Char)
  | 0, n, cs => some (n, cs)
  | more + 1, n, cs => do
      let (byte, cs) ← percentByte? cs
      if byte / 64 = 2 then continuation? more (n * 64 + byte % 64) cs else none

def percentChar? (cs : List Char) : Option (Char × Nat) := do
  let (byte, cs) ← percentByte? cs
  let (more, bits) ←
    if byte < 0x80 then some (0, byte)
    else if byte / 32 = 6 then some (1, byte % 32)
    else if byte / 16 = 14 then some (2, byte % 16)
    else if byte / 8 = 30 then some (3, byte % 8)
    else none
  let (n, _) ← continuation? more bits cs
  return (Char.ofNat n, more + 1)

def tagTextFrom (isChar : Char → Bool) : Nat → Rest → List Char → Option (List Char × Rest)
  | 0, r, text => some (text.reverse, r)
  | fuel + 1, r, text => match r.chars with
      | [] => some (text.reverse, r)
      | c :: _ =>
          if c = '%' then
            match percentChar? r.chars with
            | some (d, escapes) => tagTextFrom isChar fuel (r.drop (3 * escapes)) (d :: text)
            | none => none
          else if isChar c then tagTextFrom isChar fuel (r.drop 1) (c :: text)
          else some (text.reverse, r)

def tagText? (isChar : Char → Bool) (r : Rest) : Option (List Char × Rest) :=
  tagTextFrom isChar r.chars.length r []

structure TagName where
  handle : String
  suffix : String
  deriving DecidableEq, Repr

def handle? (r : Rest) : Option (List Char × Rest) :=
  match r.chars with
  | '!' :: rest =>
      let name := rest.takeWhile isWord
      let r := r.drop (1 + name.length)
      match r.chars with
      | '!' :: _ => some ('!' :: name ++ ['!'], r.drop 1)
      | _ => some ('!' :: name, r)
  | _ => none

def isNamedHandle (handle : List Char) : Bool := 1 < handle.length && handle.getLast? = some '!'

def endsTag (inFlow : Bool) (cs : List Char) : Bool := atSpace cs || (inFlow && cs.head? = some ',')

def tag? (inFlow : Bool) (r : Rest) : Option (TagName × Rest) := do
  let (name, r) ←
    match r.chars with
    | '!' :: '<' :: _ => do
        let (text, r) ← tagText? isVerbatimChar (r.drop 2)
        if text.isEmpty || r.chars.head? ≠ some '>' then none
        some (⟨"", String.ofList text⟩, r.drop 1)
    | _ => do
        let (handle, r) ← handle? r
        let (text, r) ← tagText? isTagChar r
        if isNamedHandle handle then
          if text.isEmpty then none
          some (⟨String.ofList handle, String.ofList text⟩, r)
        else
          let suffix := handle.drop 1 ++ text
          if suffix.isEmpty then some (⟨"", "!"⟩, r) else some (⟨"!", String.ofList suffix⟩, r)
  if endsTag inFlow r.chars then some (name, r) else none

/-! ## Directives -/

inductive Directive where
  | version (major minor : Nat)
  | tag (handle stem : String)
  deriving DecidableEq, Repr

def versionNumber? (r : Rest) : Option (Nat × Rest) :=
  let digits := r.chars.takeWhile Char.isDigit
  if digits.isEmpty || 9 < digits.length then none
  else some (Digits.toNat digits, r.drop digits.length)

def versionDirective? (r : Rest) : Option (Directive × Rest) := do
  let (major, r) ← versionNumber? (r.dropWhile isBlank)
  if r.chars.head? ≠ some '.' then none
  let (minor, r) ← versionNumber? (r.drop 1)
  return (.version major minor, r)

def tagDirective? (r : Rest) : Option (Directive × Rest) := do
  let (handle, r) ← handle? (r.dropWhile isBlank)
  if handle ≠ ['!'] && !isNamedHandle handle then none
  if !(r.chars.head?.any isBlank) then none
  let (stem, r) ← tagText? isVerbatimChar (r.dropWhile isBlank)
  if stem.isEmpty || !atSpace r.chars then none
  return (.tag (String.ofList handle) (String.ofList stem), r)

def directive? (r : Rest) : Option (Directive × Rest) := do
  let (name, r) ← word? (r.drop 1)
  if !atSpace r.chars then none
  let (directive, r) ← match name with
    | "YAML" => versionDirective? r
    | "TAG" => tagDirective? r
    | _ => none
  return (directive, ← r.endLine?)

end FlowScript.Yaml

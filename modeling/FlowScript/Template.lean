namespace FlowScript.Template

def isKeyChar (c : Char) : Bool := c.isAlphanum || c = '_'

def isKey (key : List Char) : Bool := !key.isEmpty && key.all isKeyChar

def cut? (c : Char) : List Char → Option (List Char × List Char)
  | [] => none
  | d :: rest =>
      if d = c then some ([], rest)
      else match cut? c rest with
        | some (before, after) => some (d :: before, after)
        | none => none

def key? (cs : List Char) : Option (List Char × List Char) :=
  match cut? '}' cs with
  | some (key, rest) => if isKey key then some (key, rest) else none
  | none => none

theorem length_lt_of_cut? {c : Char} {cs before after : List Char} (h : cut? c cs = some (before, after)) :
    after.length < cs.length := by
  induction cs generalizing before with
  | nil => cases h
  | cons d cs ih =>
      rw [cut?] at h
      split at h
      · cases h
        exact Nat.lt_succ_self _
      · split at h
        · rename_i found
          cases h
          exact Nat.lt_succ_of_lt (ih found)
        · cases h

theorem length_lt_of_key? {cs key rest : List Char} (h : key? cs = some (key, rest)) :
    rest.length < cs.length := by
  unfold key? at h
  split at h
  · rename_i found
    split at h
    · cases h
      exact length_lt_of_cut? found
    · cases h
  · cases h

/-- The rest of a template with the values put in; a key without a value leaves nothing. Where no key follows
an opening brace, the pass goes on right behind the brace, and values are never scanned again. -/
def renderFrom (lookup : String → Option String) (cs : List Char) : List Char :=
  match _ : cut? '{' cs with
  | none => cs
  | some (before, after) =>
      match _ : key? after with
      | some (key, rest) =>
          before ++ ((lookup (String.ofList key)).getD "").toList ++ renderFrom lookup rest
      | none => before ++ '{' :: renderFrom lookup after
termination_by cs.length
decreasing_by
  · exact Nat.lt_trans (length_lt_of_key? ‹_›) (length_lt_of_cut? ‹_›)
  · exact length_lt_of_cut? ‹_›

def render (template : String) (lookup : String → Option String) : String :=
  String.ofList (renderFrom lookup template.toList)

def addNew {α : Type} [BEq α] (seen : List α) (a : α) : List α :=
  if seen.contains a then seen else seen ++ [a]

def distinct {α : Type} [BEq α] (items : List α) : List α := items.foldl addNew []

def keysFrom (seen : List String) (cs : List Char) : List String :=
  match _ : cut? '{' cs with
  | none => seen
  | some (_, after) =>
      match _ : key? after with
      | some (key, rest) => keysFrom (addNew seen (String.ofList key)) rest
      | none => keysFrom seen after
termination_by cs.length
decreasing_by
  · exact Nat.lt_trans (length_lt_of_key? ‹_›) (length_lt_of_cut? ‹_›)
  · exact length_lt_of_cut? ‹_›

def keys (template : String) : List String := keysFrom [] template.toList

end FlowScript.Template

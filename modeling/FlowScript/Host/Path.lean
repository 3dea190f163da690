namespace FlowScript.Path

def isAbsolute (path : String) : Bool := path.toList.head? = some '/'

def join (base path : String) : String :=
  if isAbsolute path then path
  else if base.isEmpty || base.toList.getLast? = some '/' then base ++ path
  else base ++ "/" ++ path

def trimBack : List Char → List Char
  | [] => []
  | '/' :: rest => trimBack rest
  | ['.'] => []
  | '.' :: '/' :: rest => trimBack rest
  | c :: rest => c :: rest

def anchor (path : List Char) : List Char × List Char :=
  match path with
  | '/' :: rest => (['/'], rest)
  | ['.'] => (['.'], [])
  | '.' :: '/' :: rest => (['.'], '/' :: rest)
  | _ => ([], path)

def parent? (path : String) : Option String :=
  let (start, body) := anchor path.toList
  match trimBack body.reverse with
  | [] => match start with
      | ['.'] => some ""
      | _ => none
  | back => some (String.ofList (start ++ (trimBack (back.dropWhile (· ≠ '/'))).reverse))

def fileName? (path : String) : Option String :=
  let name := (trimBack (anchor path.toList).2.reverse).takeWhile (· ≠ '/')
  if name.isEmpty || name = ['.', '.'] then none else some (String.ofList name.reverse)

def extension? (path : String) : Option String := do
  let back := (← fileName? path).toList.reverse
  match back.dropWhile (· ≠ '.') with
  | '.' :: _ :: _ => some (String.ofList (back.takeWhile (· ≠ '.')).reverse)
  | _ => none

/-- Names come no later than others: they are compared one after another, and a path comes before
those below it. -/
def noLater : List String → List String → Bool
  | [], _ => true
  | _ :: _, [] => false
  | a :: as, b :: bs => a < b || (a = b && noLater as bs)

end FlowScript.Path

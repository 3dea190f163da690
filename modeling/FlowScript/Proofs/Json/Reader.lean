import FlowScript.Json.Reader
import FlowScript.Proofs.Json.Number

namespace FlowScript.Json

def Blank (space : List Char) : Prop := ∀ c ∈ space, isSpace c = true

theorem blank_nil : Blank [] := by simp [Blank]

theorem dropSpace_append {space : List Char} (blank : Blank space) (cs : List Char) :
    dropSpace (space ++ cs) = dropSpace cs :=
  List.dropWhile_append_of_pos blank

theorem dropSpace_cons {c : Char} (visible : isSpace c = false) (cs : List Char) :
    dropSpace (c :: cs) = c :: cs := by
  rw [dropSpace, List.dropWhile_cons_of_neg (by simp [visible])]

def isOpening (c : Char) : Bool := !isSpace c && c ≠ ']' && c ≠ '}'

theorem visible_of_opening {c : Char} (h : isOpening c = true) : isSpace c = false := by
  simp only [isOpening, Bool.and_eq_true, Bool.not_eq_true'] at h
  exact h.1.1

namespace Reader
variable {α β : Type} {read : Reader α} {cs rest space : List Char}

/-! ## Steps of a reader -/

theorem run_bind {result : Except LayoutFault α} (first : read.run cs = result.map (·, rest))
    (next : α → Reader β) : (read >>= next).run cs = result >>= fun a => (next a).run rest := by
  rw [StateT.run_bind, first]
  cases result <;> rfl

theorem run_bind_ok {a : α} (first : read.run cs = .ok (a, rest)) (next : α → Reader β) :
    (read >>= next).run cs = (next a).run rest :=
  run_bind (show read.run cs = (Except.ok a).map (·, rest) from first) next

theorem run_bind_error {e : LayoutFault} (first : read.run cs = .error e) (next : α → Reader β) :
    (read >>= next).run cs = .error e := by
  rw [StateT.run_bind, first]
  rfl

theorem run_ofFront {front : List Char → Option (α × List Char)} (blank : Blank space) :
    (ofFront front).run (space ++ cs) = match front (dropSpace cs) with
      | some (a, rest) => .ok (a, rest)
      | none => .error .malformed := by
  rw [ofFront, run_bind_ok (a := space ++ cs) rfl, dropSpace_append blank]
  cases front (dropSpace cs) <;> rfl

theorem run_expect {c : Char} (blank : Blank space) (visible : isSpace c = false) :
    (expect c).run (space ++ c :: rest) = .ok ((), rest) := by
  rw [expect, run_ofFront blank, dropSpace_cons visible]
  simp

theorem run_peek {c : Char} (blank : Blank space) (visible : isSpace c = false) :
    peek.run (space ++ c :: rest) = .ok (c, c :: rest) := by
  rw [peek, run_bind_ok (a := space ++ c :: rest) rfl, dropSpace_append blank, dropSpace_cons visible]
  rfl

/-! ## Values -/

/-- The reader takes a printed value as a whole. -/
structure Reads (read : Reader α) (text : List Char) (result : Except LayoutFault α) : Prop where
  opens : ∃ c ∈ text.head?, isOpening c = true
  run : ∀ {space rest : List Char}, Blank space → Boundary rest →
    read.run (space ++ (text ++ rest)) = result.map (·, rest)

theorem Reads.run_here {text : List Char} {result : Except LayoutFault α} (h : Reads read text result)
    (boundary : Boundary rest) : read.run (text ++ rest) = result.map (·, rest) :=
  h.run blank_nil boundary

theorem Reads.peek {text : List Char} {result : Except LayoutFault α} (h : Reads read text result)
    (blank : Blank space) (rest : List Char) :
    ∃ c ∈ text.head?, isOpening c = true ∧
      Reader.peek.run (space ++ (text ++ rest)) = .ok (c, text ++ rest) := by
  obtain ⟨c, head, opening⟩ := h.opens
  refine ⟨c, head, opening, ?_⟩
  cases text with
  | nil => cases head
  | cons d more =>
      cases head
      exact run_peek blank (visible_of_opening opening)

theorem Reads.nullable {text : List Char} {result : Except LayoutFault α} (h : Reads read text result)
    (notNull : text.head? ≠ some 'n') : Reads (nullable read) text (result.map some) where
  opens := h.opens
  run {space rest} blank boundary := by
    obtain ⟨c, head, -, peeked⟩ := h.peek blank rest
    have other : c ≠ 'n' := fun same => notNull (same ▸ head)
    rw [Reader.nullable, run_bind_ok peeked]
    simp only [other, if_false]
    rw [run_bind (h.run_here boundary)]
    cases result <;> rfl

theorem Reads.record {text : List Char} {result : Except LayoutFault α} {asList : Reader α}
    (h : Reads read text result) (brace : text.head? = some '{') :
    Reads (record read asList) text result where
  opens := h.opens
  run {space rest} blank boundary := by
    obtain ⟨c, head, -, peeked⟩ := h.peek blank rest
    have same : c = '{' := by simpa [brace, eq_comm] using head
    rw [Reader.record, run_bind_ok peeked]
    simp only [same, Char.reduceEq, if_false]
    exact h.run_here boundary

/-! ## Items of a list -/

def separator (first : Bool) : List Char := if first then [] else [',']

theorem Reads.item? {text : List Char} {result : Except LayoutFault α} (h : Reads read text result)
    (first : Bool) (blank : Blank space) (boundary : Boundary rest) :
    (item? first read).run (separator first ++ (space ++ (text ++ rest))) =
      result.map fun a => (some a, rest) := by
  cases first with
  | true =>
      obtain ⟨c, -, opening, peeked⟩ := h.peek blank rest
      have notEnd : c ≠ ']' := by rintro rfl; cases opening
      change (Reader.item? true read).run (space ++ (text ++ rest)) = _
      rw [Reader.item?, run_bind_ok peeked]
      simp only [notEnd, if_false, if_true]
      rw [run_bind (h.run_here boundary)]
      cases result <;> rfl
  | false =>
      change (Reader.item? false read).run ([] ++ ',' :: (space ++ (text ++ rest))) = _
      rw [Reader.item?, run_bind_ok (run_peek blank_nil rfl)]
      simp only [Char.reduceEq, if_false, Bool.false_eq_true]
      rw [← List.nil_append (',' :: _), run_bind_ok (run_expect blank_nil rfl),
        run_bind (h.run blank boundary)]
      cases result <;> rfl

theorem Reads.item {text : List Char} {result : Except LayoutFault α} (h : Reads read text result)
    (first : Bool) (blank : Blank space) (boundary : Boundary rest) :
    (item first read).run (separator first ++ (space ++ (text ++ rest))) = result.map (·, rest) := by
  rw [Reader.item, StateT.run_bind, h.item? first blank boundary]
  cases result <;> rfl

end Reader
end FlowScript.Json

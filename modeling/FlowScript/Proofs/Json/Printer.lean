import Mathlib.Control.Monad.Basic
import FlowScript.Layout.Printer
import FlowScript.Proofs.Decimal.Style
import FlowScript.Proofs.Json.Reader
import FlowScript.Proofs.Json.Text

namespace FlowScript.Json.Reader
variable {α σ : Type}

/-! ## Scalars -/

theorem run_string {space : List Char} (blank : Blank space) (s : String) (rest : List Char) :
    string.run (space ++ (quote s ++ rest)) = .ok (s, rest) := by
  have taken := unescape_escape s.toList rest
  rw [string, run_ofFront blank]
  simp [quote, dropSpace_cons, isSpace, taken]

theorem reads_string (s : String) : Reads string (quote s) (.ok s) where
  opens := ⟨'"', rfl, rfl⟩
  run {_ rest} blank _ := run_string blank s rest

theorem opens_text {t : NumberText} (regular : t.Regular) : ∃ c ∈ t.text.head?, isOpening c = true := by
  obtain ⟨negative, whole, fraction, power⟩ := t
  cases negative with
  | true => exact ⟨'-', by simp [NumberText.text], rfl⟩
  | false =>
      obtain ⟨d, more, rfl⟩ := List.exists_cons_of_ne_nil regular.whole.filled
      have digit : d.isDigit = true := regular.whole.digits d List.mem_cons_self
      have other : ∀ c : Char, c.isDigit = false → d ≠ c := by
        rintro c undigital rfl
        rw [digit] at undigital
        cases undigital
      refine ⟨d, by simp [NumberText.text], ?_⟩
      simp [isOpening, isSpace, other ' ' rfl, other '\n' rfl, other '\t' rfl, other '\r' rfl, other ']' rfl,
        other '}' rfl]

theorem reads_number {f : NumberText → Option α} {t : NumberText} (regular : t.Regular) :
    Reads (ofFront fun cs =>
      scanNumber? cs >>= fun scanned => f scanned.1 >>= fun value => some (value, scanned.2))
      t.text (match f t with
        | some a => .ok a
        | none => .error .malformed) where
  opens := opens_text regular
  run {space rest} blank boundary := by
    have scanned := scanNumber?_text regular boundary
    obtain ⟨c, head, opening⟩ := opens_text regular
    cases text : t.text with
    | nil =>
        rw [text] at head
        cases head
    | cons d more =>
        rw [text] at head scanned
        cases head
        rw [List.cons_append] at scanned ⊢
        rw [run_ofFront blank, dropSpace_cons (visible_of_opening opening), scanned,
          Option.bind_eq_bind, Option.bind_some]
        cases f t <;> rfl

theorem reads_natural {n : Nat} (bound : n < UInt64.size) (depth : Nat) :
    Reads word (natural n depth) (.ok n) := by
  have reads := reads_number (f := NumberText.toWord?) (regular_ofNat n)
  have text : NumberText.text ⟨false, Digits.ofNat n, none, none⟩ = natural n depth := by
    simp [NumberText.text, fractionText, powerText, natural, Digits.ofNat_eq]
  rw [text, toWord?_ofNat bound] at reads
  exact reads

/-- The text of a double is a number, and the double that it stands for is the same. -/
def ReadsBack (x : Float) : Prop :=
  float.run (DecimalStyle.layout.writeFinite x).toList = .ok (x, [])

instance (x : Float) : Decidable (ReadsBack x) := inferInstanceAs (Decidable (StateT.run _ _ = Except.ok _))

def rereadFloat (x : Float) : Except LayoutFault Float := (float.run (Json.float x 0)).map Prod.fst

theorem Reads.result_eq {read : Reader α} {text : List Char} {result : Except LayoutFault α}
    (h : Reads read text result) : (read.run text).map Prod.fst = result := by
  have whole := h.run blank_nil boundary_nil
  rw [List.nil_append, List.append_nil] at whole
  rw [whole]
  cases result <;> rfl

theorem exists_reads_float (x : Float) : ∃ result, Reads float (Json.float x 0) result ∧
    ∀ e, result = .error e → e = .malformed := by
  unfold Json.float
  split
  · obtain ⟨t, regular, text⟩ := DecimalStyle.exists_text x
    rw [← text]
    refine ⟨_, reads_number regular, fun e => ?_⟩
    cases t.toFloat? with
    | some a => exact nofun
    | none => exact fun failed => (Except.error.inj failed).symm
  · refine ⟨.error .malformed, ⟨⟨'n', rfl, rfl⟩, ?_⟩, fun e failed => (Except.error.inj failed).symm⟩
    intro space rest blank _
    rw [float, run_ofFront blank]
    rfl

theorem reads_float (x : Float) (depth : Nat) : Reads float (Json.float x depth) (rereadFloat x) := by
  obtain ⟨result, reads, -⟩ := exists_reads_float x
  exact (show rereadFloat x = result from reads.result_eq) ▸ reads

theorem rereadFloat_error {x : Float} {e : LayoutFault} (failed : rereadFloat x = .error e) : e = .malformed := by
  obtain ⟨result, reads, malformed⟩ := exists_reads_float x
  exact malformed e ((show rereadFloat x = result from reads.result_eq) ▸ failed)

theorem rereadFloat_of_infinite {x : Float} (infinite : x.isFinite = false) :
    rereadFloat x = .error .malformed := by
  rw [rereadFloat, Json.float, if_neg (by simp [infinite])]
  rfl

theorem rereadFloat_eq_self {x : Float} : rereadFloat x = .ok x ↔ x.isFinite = true ∧ ReadsBack x := by
  cases finite : x.isFinite with
  | false => simp [rereadFloat_of_infinite finite]
  | true =>
      have text : Json.float x 0 = (DecimalStyle.layout.writeFinite x).toList := if_pos finite
      constructor
      · intro same
        have read := (reads_float x 0).run blank_nil boundary_nil
        rw [List.nil_append, List.append_nil, text, same] at read
        exact ⟨rfl, read⟩
      · rintro ⟨-, back⟩
        rw [rereadFloat, text, back]
        rfl

/-! ## Brackets -/

def placed (depth : Nat) (first : Bool) : List Indented → List Char
  | [] => []
  | part :: parts => separator first ++ (newline depth ++ (part depth ++ placed depth false parts))

theorem placed_cons_append (depth : Nat) (first : Bool) (part : Indented) (parts : List Indented)
    (rest : List Char) :
    placed depth first (part :: parts) ++ rest =
      separator first ++ (newline depth ++ (part depth ++ (placed depth false parts ++ rest))) := by
  simp [placed]

theorem lines_eq (depth : Nat) (parts : List Indented) : lines depth parts = placed depth true parts := by
  cases parts with
  | nil => rfl
  | cons part parts =>
      induction parts generalizing part with
      | nil => simp [lines, placed, separator]
      | cons next more ih =>
          rw [lines, ih next]
          · simp [placed, separator]
          · simp

theorem bracketed_cons (opening closing : Char) (part : Indented) (parts : List Indented) (depth : Nat) :
    bracketed opening closing (part :: parts) depth =
      opening :: (placed (depth + 1) true (part :: parts) ++ (newline depth ++ [closing])) := by
  simp [bracketed, lines_eq]

theorem blank_newline (depth : Nat) : Blank (newline depth) := by
  intro c mem
  rcases List.mem_cons.1 mem with rfl | mem
  · rfl
  · rw [(List.mem_replicate.1 mem).2]
    rfl

theorem boundary_placed (inner outer : Nat) (parts : List Indented) (rest : List Char) :
    Boundary (placed inner false parts ++ (newline outer ++ rest)) := by
  cases parts with
  | nil => exact boundary_newline _
  | cons part parts => exact boundary_comma _

theorem length_le_placed (depth : Nat) (first : Bool) (parts : List Indented) :
    parts.length ≤ (placed depth first parts).length := by
  induction parts generalizing first with
  | nil => simp
  | cons part parts ih =>
      have more := ih false
      simp only [placed, newline, List.length_append, List.length_cons]
      omega

/-! ## Lists -/

section
variable {γ : Type} {read : Reader α} {print : γ → Indented} {result : γ → Except LayoutFault α}

theorem run_item_placed {depth outer : Nat} {part : Indented} {a : α}
    (h : Reads read (part depth) (.ok a)) (first : Bool) (parts : List Indented) (rest : List Char) :
    (item first read).run (placed depth first (part :: parts) ++ (newline outer ++ rest)) =
      .ok (a, placed depth false parts ++ (newline outer ++ rest)) := by
  rw [placed_cons_append]
  exact h.item first (blank_newline depth) (boundary_placed _ _ _ _)

theorem run_itemsOnto_end (fuel : Nat) (earlier : List α) {space rest : List Char}
    (blank : Blank space) :
    (itemsOnto read (fuel + 1) earlier).run (space ++ ']' :: rest) = .ok (earlier.reverse, rest) := by
  have ended : (item? earlier.isEmpty read).run (space ++ ']' :: rest) = .ok (none, ']' :: rest) := by
    rw [item?, run_bind_ok (run_peek blank rfl)]
    rfl
  rw [itemsOnto, run_bind_ok ended]
  rfl

theorem run_itemsOnto_item {text space rest : List Char} {outcome : Except LayoutFault α}
    (h : Reads read text outcome) (fuel : Nat) (earlier : List α) (blank : Blank space)
    (boundary : Boundary rest) :
    (itemsOnto read (fuel + 1) earlier).run (separator earlier.isEmpty ++ (space ++ (text ++ rest))) =
      outcome >>= fun a => (itemsOnto read fuel (a :: earlier)).run rest := by
  rw [itemsOnto, StateT.run_bind, h.item? _ blank boundary]
  cases outcome <;> rfl

theorem run_itemsOnto {items : List γ}
    (each : ∀ a ∈ items, ∀ depth, Reads read (print a depth) (result a)) (earlier : List α) {fuel : Nat}
    (enough : items.length < fuel) (depth : Nat) (rest : List Char) :
    (itemsOnto read fuel earlier).run
        (placed (depth + 1) earlier.isEmpty (items.map print) ++ (newline depth ++ ']' :: rest)) =
      (items.mapM result).map fun new => (earlier.reverse ++ new, rest) := by
  obtain ⟨fuel, rfl⟩ : ∃ k, fuel = k + 1 := ⟨fuel - 1, by omega⟩
  induction items generalizing fuel earlier with
  | nil =>
      rw [List.map_nil, placed, List.nil_append, run_itemsOnto_end fuel earlier (blank_newline depth)]
      simp [Except.map, pure, Except.pure]
  | cons item items ih =>
      rw [List.map_cons, placed_cons_append,
        run_itemsOnto_item (each item (by simp) (depth + 1)) fuel earlier (blank_newline (depth + 1))
          (boundary_placed _ _ _ _), List.mapM_cons]
      cases result item with
      | error e => rfl
      | ok a =>
          obtain ⟨fuel, rfl⟩ : ∃ k, fuel = k + 1 := ⟨fuel - 1, by simp at enough; omega⟩
          refine (ih (fun a mem => each a (by simp [mem])) (a :: earlier) fuel (by simpa using enough)).trans ?_
          cases items.mapM result with
          | error e => rfl
          | ok new => simp [Except.map, bind, Except.bind, pure, Except.pure]

theorem reads_list {items : List γ}
    (each : ∀ a ∈ items, ∀ depth, Reads read (print a depth) (result a)) (depth : Nat) :
    Reads (list read) (Json.list (items.map print) depth) (items.mapM result) where
  opens := by
    refine ⟨'[', ?_, rfl⟩
    cases items with
    | nil => rfl
    | cons item items => rw [Json.list, List.map_cons, bracketed_cons]; rfl
  run {space rest} blank _ := by
    cases items with
    | nil =>
        change (list read).run (space ++ '[' :: ']' :: rest) = _
        rw [list, run_bind_ok (run_expect blank rfl), run_bind_ok (a := ']' :: rest) rfl]
        exact run_itemsOnto_end _ [] blank_nil
    | cons item items =>
        have bound := length_le_placed (depth + 1) true ((item :: items).map print)
        rw [Json.list, List.map_cons, bracketed_cons, ← List.map_cons, List.cons_append, list,
          run_bind_ok (run_expect blank rfl), run_bind_ok rfl, List.append_assoc, List.append_assoc]
        refine run_itemsOnto each [] ?_ depth rest
        rw [List.length_map] at bound
        rw [List.length_append]
        omega

end

/-! ## Objects -/

def printField (field : String × Indented) : Indented := fun depth =>
  quote field.1 ++ ':' :: ' ' :: field.2 depth

/-- The printed fields are taken, one after the other, up to the first one that is refused. -/
inductive Takes (take : σ → String → Reader σ) (depth : Nat) :
    σ → List (String × Indented) → Except LayoutFault σ → Prop
  | done (s : σ) : Takes take depth s [] (.ok s)
  | step {s s' : σ} {name : String} {value : Indented} {fields : List (String × Indented)}
      {result : Except LayoutFault σ}
      (taken : ∀ rest, Boundary rest →
        (take s name).run (':' :: ' ' :: (value depth ++ rest)) = .ok (s', rest))
      (later : Takes take depth s' fields result) : Takes take depth s ((name, value) :: fields) result
  | stop {s : σ} {name : String} {value : Indented} {fields : List (String × Indented)} {e : LayoutFault}
      (refused : ∀ rest, Boundary rest →
        (take s name).run (':' :: ' ' :: (value depth ++ rest)) = .error e) :
      Takes take depth s ((name, value) :: fields) (.error e)

theorem run_field {read : Reader α} {text rest : List Char} {result : Except LayoutFault α}
    (h : Reads read text result) (boundary : Boundary rest) :
    (field read).run (':' :: ' ' :: (text ++ rest)) = result.map (·, rest) := by
  have blank : Blank [' '] := by simp [Blank, isSpace]
  rw [field, ← List.nil_append (':' :: _), run_bind_ok (run_expect blank_nil rfl)]
  exact h.run blank boundary

section
variable {take : σ → String → Reader σ} {depth : Nat} {s : σ} {name : String}
  {fields : List (String × Indented)} {result : Except LayoutFault σ}

theorem Takes.field {read : Reader α} {value : Indented} {a : α} (put : α → σ)
    (takes : take s name = put <$> Reader.field read) (h : Reads read (value depth) (.ok a))
    (later : Takes take depth (put a) fields result) :
    Takes take depth s ((name, value) :: fields) result := by
  apply Takes.step _ later
  intro rest boundary
  rw [takes, map_eq_pure_bind, run_bind_ok (run_field h boundary)]
  rfl

theorem Takes.checkedField {read : Reader α} {value : Indented} {first : Except LayoutFault α}
    {result : α → Except LayoutFault σ} (put : α → σ) (takes : take s name = put <$> Reader.field read)
    (h : Reads read (value depth) first) (later : ∀ a, Takes take depth (put a) fields (result a)) :
    Takes take depth s ((name, value) :: fields) (first >>= result) := by
  cases first with
  | ok a => exact Takes.field put takes h (later a)
  | error e =>
      apply Takes.stop
      intro rest boundary
      rw [takes, map_eq_pure_bind, run_bind_error (run_field h boundary)]

theorem Takes.append {s' : σ} {more : List (String × Indented)} (h : Takes take depth s fields (.ok s'))
    (later : Takes take depth s' more result) : Takes take depth s (fields ++ more) result := by
  generalize ended : Except.ok s' = first at h
  induction h with
  | done => cases ended; exact later
  | step taken _ ih => exact .step taken (ih ended)
  | stop => cases ended

theorem run_fieldsInto_end (fuel : Nat) (first : Bool) (s : σ) {space rest : List Char}
    (blank : Blank space) :
    (fieldsInto take (fuel + 1) first s).run (space ++ '}' :: rest) = .ok (s, '}' :: rest) := by
  rw [fieldsInto, run_bind_ok (run_peek blank rfl)]
  rfl

theorem run_fieldsInto_field (fuel : Nat) (first : Bool) (s : σ) {space : List Char} (blank : Blank space)
    (name : String) (rest : List Char) :
    (fieldsInto take (fuel + 1) first s).run (separator first ++ (space ++ (quote name ++ rest))) =
      (take s name).run rest >>= fun (s', rest) => (fieldsInto take fuel false s').run rest := by
  cases first with
  | true =>
      change (fieldsInto take (fuel + 1) true s).run
        (space ++ '"' :: (escape name.toList ++ ['"'] ++ rest)) = _
      rw [fieldsInto, run_bind_ok (run_peek blank rfl)]
      simp only [Char.reduceEq, if_false, if_true]
      refine (run_bind_ok (run_string blank_nil name rest) _).trans ?_
      rw [StateT.run_bind]
  | false =>
      change (fieldsInto take (fuel + 1) false s).run
        ([] ++ ',' :: (space ++ (quote name ++ rest))) = _
      rw [fieldsInto, run_bind_ok (run_peek blank_nil rfl)]
      simp only [Char.reduceEq, if_false, Bool.false_eq_true]
      rw [← List.nil_append (',' :: _), run_bind_ok (run_expect blank_nil rfl),
        run_bind_ok (run_string blank name rest), StateT.run_bind]

theorem run_fieldsInto (h : Takes take (depth + 1) s fields result) (first : Bool) {fuel : Nat}
    (enough : fields.length < fuel) (rest : List Char) :
    (fieldsInto take fuel first s).run
        (placed (depth + 1) first (fields.map printField) ++ (newline depth ++ '}' :: rest)) =
      result.map (·, '}' :: rest) := by
  obtain ⟨fuel, rfl⟩ : ∃ k, fuel = k + 1 := ⟨fuel - 1, by omega⟩
  -- Each field costs one unit of fuel, and one is left for the closing bracket.
  induction h generalizing fuel first with
  | done s => exact run_fieldsInto_end fuel first s (blank_newline depth)
  | @step s s' name value fields result taken _ ih =>
      obtain ⟨fuel, rfl⟩ : ∃ k, fuel = k + 1 := ⟨fuel - 1, by simp at enough; omega⟩
      rw [List.map_cons, placed_cons_append, printField, List.append_assoc,
        run_fieldsInto_field _ first s (blank_newline (depth + 1))]
      simp only [List.cons_append]
      rw [taken _ (boundary_placed _ _ _ _)]
      exact ih false fuel (by simpa using enough)
  | @stop s name value fields e refused =>
      rw [List.map_cons, placed_cons_append, printField, List.append_assoc,
        run_fieldsInto_field fuel first s (blank_newline (depth + 1))]
      simp only [List.cons_append]
      rw [refused _ (boundary_placed _ _ _ _)]
      rfl

theorem run_object {start : σ} {finish : σ → Except LayoutFault α} {space inner rest : List Char}
    (blank : Blank space)
    (taken : (fieldsInto take (inner.length + 1) true start).run inner = result.map (·, '}' :: rest)) :
    (object take start finish).run (space ++ '{' :: inner) = (result >>= finish).map (·, rest) := by
  rw [object, run_bind_ok (run_expect blank rfl), run_bind_ok (a := inner) rfl, run_bind taken]
  cases result with
  | error e => rfl
  | ok s =>
      change StateT.run (do let a ← liftM (finish s); expect '}'; return a) ('}' :: rest) =
        (finish s).map (·, rest)
      cases finish s <;> rfl

theorem head?_object (fields : List (String × Indented)) (depth : Nat) :
    (Json.object fields depth).head? = some '{' := by
  cases fields with
  | nil => rfl
  | cons field fields => rw [Json.object, List.map_cons, bracketed_cons]; rfl

theorem reads_object {start : σ} {finish : σ → Except LayoutFault α}
    (h : Takes take (depth + 1) start fields result) :
    Reads (object take start finish) (Json.object fields depth) (result >>= finish) where
  opens := ⟨'{', head?_object fields depth, rfl⟩
  run {space rest} blank _ := by
    cases fields with
    | nil =>
        cases h
        exact run_object blank (run_fieldsInto_end _ true start blank_nil)
    | cons field fields =>
        have bound := length_le_placed (depth + 1) true ((field :: fields).map printField)
        have text : Json.object (field :: fields) depth ++ rest =
            '{' :: (placed (depth + 1) true ((field :: fields).map printField) ++
              (newline depth ++ '}' :: rest)) := by
          rw [Json.object, List.map_cons, bracketed_cons, List.cons_append, List.append_assoc,
            List.append_assoc]
          rfl
        rw [text]
        refine run_object blank (run_fieldsInto h true ?_ rest)
        rw [List.length_map] at bound
        rw [List.length_append]
        omega

end

end FlowScript.Json.Reader

import FlowScript.Proofs.Template
import FlowScript.Text.Basic

/-!
# String literals of the script

The script is in Python, which reads a text between single quotes with escapes (`Literal.read?`). A text that is put
between the quotes as it is reads as itself exactly if it is verbatim: no quote, no line end and no null character is in
it, and no backslash begins an escape (`Literal.quoted?_eq_iff`).
-/

namespace FlowScript.Script.Literal

/-! ## Reading -/

def breaks (c : Char) : Bool := c = '\n' || c = '\r' || c = '\x00'

def isOctal (c : Char) : Bool := '0' ≤ c && c ≤ '7'

def letter? : Char → Option Nat
  | '\\' => some 92
  | '\'' => some 39
  | '"' => some 34
  | 'a' => some 7
  | 'b' => some 8
  | 'f' => some 12
  | 'n' => some 10
  | 'r' => some 13
  | 't' => some 9
  | 'v' => some 11
  | _ => none

def width? : Char → Option Nat
  | 'x' => some 2
  | 'u' => some 4
  | 'U' => some 8
  | _ => none

def isIdle (c : Char) : Bool := !(breaks c || isOctal c || (letter? c).isSome || (width? c).isSome || c = 'N')

def codePoint? (digits : Nat) (cs : List Char) : Option Nat :=
  if digits ≤ cs.length then (Digits.hexToNat? (cs.take digits)).filter (· < 0x110000) else none

def isNameChar (c : Char) : Bool := c.isAlphanum || c = ' ' || c = '-'

variable (named : List Char → Option Nat)

def name? : List Char → Option (Nat × Nat)
  | '{' :: cs => match Template.cut? '}' cs with
      | some (name, _) => if name.all isNameChar then (named name).map (·, name.length + 2) else none
      | none => none
  | _ => none

def lineEnd? (c : Char) (rest : List Char) : Option (List Nat × Nat) :=
  if c = '\x00' then none
  else if c = '\r' ∧ rest.head? = some '\n' then some ([], 2)
  else some ([], 1)

/-- The code points that a backslash stands for with the characters behind it, and how many of these belong to it. It is
an error if there are no such code points. -/
def escape? : List Char → Option (List Nat × Nat)
  | [] => none
  | c :: rest =>
      if isIdle c then some (['\\'.toNat, c.toNat], 1)
      else if breaks c then lineEnd? c rest
      else if isOctal c then
        let digits := c :: (rest.take 2).takeWhile isOctal
        some ([digits.foldl (fun n d => 8 * n + Digits.value d) 0], digits.length)
      else match width? c with
        | some digits => (codePoint? digits rest).map fun n => ([n], digits + 1)
        | none =>
            if c = 'N' then (name? named rest).map fun (n, length) => ([n], length + 1)
            else (letter? c).map fun n => ([n], 1)

def read? (cs : List Char) : Option (List Nat × List Char) :=
  match cs with
  | [] => none
  | c :: rest =>
      if c = '\'' then some ([], rest)
      else if c = '\\' then
        match escape? named rest with
        | some (points, length) => (read? (rest.drop length)).map fun (more, after) => (points ++ more, after)
        | none => none
      else if breaks c then none
      else (read? rest).map fun (more, after) => (c.toNat :: more, after)
termination_by cs.length
decreasing_by
  · rw [List.length_drop, List.length_cons]
    omega
  · exact Nat.lt_succ_self _

def quoted? : List Char → Option (List Nat × List Char)
  | '\'' :: '\'' :: '\'' :: _ => none
  | '\'' :: cs => read? named cs
  | _ => none

/-! ## Texts that stand for themselves -/

/-- No quote, no line end and no null character is in the text, and no backslash in it begins an escape. -/
def Verbatim : List Char → Prop
  | [] => True
  | c :: rest => c ≠ '\'' ∧ breaks c = false ∧ (c = '\\' → rest.head?.any isIdle = true) ∧ Verbatim rest

instance decidableVerbatim : DecidablePred Verbatim
  | [] => inferInstanceAs (Decidable True)
  | c :: rest =>
      have := decidableVerbatim rest
      inferInstanceAs (Decidable (_ ∧ _ ∧ (c = '\\' → rest.head?.any isIdle = true) ∧ Verbatim rest))

theorem ne_of_isIdle {c : Char} (idle : isIdle c = true) : c ≠ '\'' ∧ c ≠ '\\' ∧ breaks c = false := by
  refine ⟨?_, ?_, ?_⟩
  · rintro rfl
    cases idle
  · rintro rfl
    cases idle
  · simp [isIdle] at idle
    simp [idle]

variable {named} {cs after : List Char} {points : List Nat}

theorem codePoint?_le {digits n : Nat} (found : codePoint? digits cs = some n) : digits ≤ cs.length := by
  unfold codePoint? at found
  split at found
  · assumption
  · cases found

theorem name?_le {n length : Nat} (found : name? named cs = some (n, length)) : length ≤ cs.length := by
  unfold name? at found
  split at found
  · split at found
    · rename_i cut
      split at found
      · obtain ⟨m, -, same⟩ := Option.map_eq_some_iff.1 found
        cases same
        simp [(Template.eq_append_of_cut? cut).1]
      · cases found
    · cases found
  · cases found

theorem lineEnd?_le {c : Char} {rest : List Char} {length : Nat} (found : lineEnd? c rest = some (points, length)) :
    points.length ≤ length ∧ length ≤ (c :: rest).length := by
  unfold lineEnd? at found
  split at found
  · cases found
  · split at found
    · rename_i both
      cases found
      obtain ⟨tail, rfl⟩ := List.head?_eq_some_iff.1 both.2
      simp
    · cases found
      simp

theorem escape?_le {c : Char} {rest : List Char} {length : Nat} (busy : isIdle c = false)
    (found : escape? named (c :: rest) = some (points, length)) :
    points.length ≤ length ∧ length ≤ (c :: rest).length := by
  rw [escape?, if_neg (Bool.not_eq_true _ ▸ busy)] at found
  split at found
  · exact lineEnd?_le found
  · split at found
    · cases found
      have digits := (List.takeWhile_prefix isOctal (l := rest.take 2)).length_le
      rw [List.length_take] at digits
      simp only [List.length_cons, List.length_nil]
      omega
    · rw [List.length_cons]
      split at found
      · obtain ⟨n, written, same⟩ := Option.map_eq_some_iff.1 found
        cases same
        have long := codePoint?_le written
        simp only [List.length_cons, List.length_nil]
        omega
      · split at found
        · obtain ⟨⟨n, size⟩, name, same⟩ := Option.map_eq_some_iff.1 found
          cases same
          have long := name?_le name
          simp only [List.length_cons, List.length_nil]
          omega
        · obtain ⟨n, -, same⟩ := Option.map_eq_some_iff.1 found
          cases same
          simp only [List.length_cons, List.length_nil]
          omega

theorem escape?_of_idle {c : Char} {rest : List Char} (idle : isIdle c = true) :
    escape? named (c :: rest) = some (['\\'.toNat, c.toNat], 1) := if_pos idle

/-! ## Reading what is verbatim -/

theorem read?_quote (rest : List Char) : read? named ('\'' :: rest) = some ([], rest) := by
  rw [read?]
  rfl

theorem read?_cons {c : Char} (rest : List Char) (notQuote : c ≠ '\'') (notBackslash : c ≠ '\\')
    (inLine : breaks c = false) :
    read? named (c :: rest) = (read? named rest).map fun (more, after) => (c.toNat :: more, after) := by
  rw [read?, if_neg notQuote, if_neg notBackslash, inLine]
  rfl

theorem read?_idle {c : Char} (rest : List Char) (idle : isIdle c = true) :
    read? named ('\\' :: c :: rest) =
      (read? named rest).map fun (more, after) => ('\\'.toNat :: c.toNat :: more, after) := by
  rw [read?, if_neg (by decide), if_pos rfl, escape?_of_idle idle]
  rfl

theorem Verbatim.read? {text : List Char} (h : Verbatim text) (after : List Char) :
    read? named (text ++ '\'' :: after) = some (text.map Char.toNat, after) := by
  induction text with
  | nil => exact read?_quote after
  | cons c rest ih =>
      obtain ⟨notQuote, inLine, idle, later⟩ := h
      have read := ih later
      by_cases backslash : c = '\\'
      · obtain ⟨d, first, harmless⟩ := (Option.any_eq_true _ _).1 (idle backslash)
        obtain ⟨tail, rfl⟩ := List.head?_eq_some_iff.1 first
        obtain ⟨notQuote, notBackslash, inLine⟩ := ne_of_isIdle harmless
        rw [List.cons_append, read?_cons _ notQuote notBackslash inLine] at read
        obtain ⟨⟨points, end'⟩, read, same⟩ := Option.map_eq_some_iff.1 read
        obtain ⟨points_eq, rfl⟩ := Prod.mk.inj same
        rw [backslash, List.cons_append, List.cons_append, read?_idle _ harmless, read]
        rw [List.map_cons, List.cons_inj_right] at points_eq
        rw [points_eq]
        rfl
      · rw [List.cons_append, read?_cons _ notQuote backslash inLine, read]
        rfl

theorem Verbatim.idle {c : Char} {text : List Char} (harmless : isIdle c = true) (h : Verbatim text) :
    Verbatim ('\\' :: c :: text) := by
  obtain ⟨notQuote, notBackslash, inLine⟩ := ne_of_isIdle harmless
  exact ⟨by decide, rfl, fun _ => harmless, notQuote, inLine, fun backslash => absurd backslash notBackslash, h⟩

theorem read?_le (read : read? named cs = some (points, after)) :
    points.length + after.length + 1 ≤ cs.length ∧
      (points.length + after.length + 1 = cs.length → ∃ text, cs = text ++ '\'' :: after ∧ Verbatim text) := by
  fun_induction read? named cs generalizing points with
  | case1 => cases read
  | case2 rest =>
      cases read
      exact ⟨by simp, fun _ => ⟨[], rfl, trivial⟩⟩
  | case3 rest stands length escaped notQuote ih =>
      obtain ⟨⟨more, end'⟩, later, same⟩ := Option.map_eq_some_iff.1 read
      cases same
      obtain ⟨short, exact⟩ := ih later
      rw [List.length_drop] at short exact
      cases rest with
      | nil => cases escaped
      | cons d rest =>
          -- A harmless backslash stands for itself; an escape stands for fewer characters than it is written with.
          cases harmless : isIdle d with
          | true =>
              rw [escape?_of_idle harmless] at escaped
              cases escaped
              simp only [List.length_cons, List.length_append, List.length_nil, List.drop_succ_cons, List.drop_zero]
                at short exact ⊢
              refine ⟨by omega, fun whole => ?_⟩
              obtain ⟨text, rfl, verbatim⟩ := exact (by omega)
              exact ⟨'\\' :: d :: text, rfl, verbatim.idle harmless⟩
          | false =>
              have le := escape?_le harmless escaped
              rw [List.length_append, List.length_cons]
              omega
  | case4 => cases read
  | case5 => cases read
  | case6 c rest notQuote notBackslash inLine ih =>
      obtain ⟨⟨more, end'⟩, later, same⟩ := Option.map_eq_some_iff.1 read
      cases same
      obtain ⟨short, exact⟩ := ih later
      rw [List.length_cons, List.length_cons]
      refine ⟨by omega, fun whole => ?_⟩
      obtain ⟨text, rfl, verbatim⟩ := exact (by omega)
      exact ⟨c :: text, rfl, notQuote, by simpa using inLine, fun backslash => absurd backslash notBackslash, verbatim⟩

variable (named) {value : List Char}

/-- A text reads as itself, up to the quote behind it, exactly if it is verbatim. -/
theorem read?_eq_iff (after : List Char) :
    read? named (value ++ '\'' :: after) = some (value.map Char.toNat, after) ↔ Verbatim value := by
  constructor
  · intro read
    obtain ⟨-, exact⟩ := read?_le read
    obtain ⟨text, same, verbatim⟩ := exact (by simp; omega)
    rwa [List.append_cancel_right same]
  · intro verbatim
    exact verbatim.read? after

theorem quoted?_eq_iff (closed : after.head? ≠ some '\'') :
    quoted? named ('\'' :: (value ++ '\'' :: after)) = some (value.map Char.toNat, after) ↔ Verbatim value := by
  rw [← read?_eq_iff named after]
  unfold quoted?
  split
  · rename_i rest three
    -- With three quotes the value begins with one, as what follows it does not.
    have notRead : ¬ read? named (value ++ '\'' :: after) = some (value.map Char.toNat, after) := by
      rw [read?_eq_iff]
      intro verbatim
      cases value with
      | nil =>
          obtain ⟨-, behind⟩ := List.cons.inj (List.cons.inj three).2
          exact closed (behind ▸ rfl)
      | cons c value => exact verbatim.1 (List.cons.inj (List.cons.inj three).2).1
    exact iff_of_false nofun notRead
  · rename_i same
    rw [(List.cons.inj same).2]
  · rename_i other
    exact absurd rfl (other _)

example : Verbatim "50\\% off".toList ∧ ¬ Verbatim "on\\off\\now".toList ∧ ¬ Verbatim "off\\".toList := by decide

end FlowScript.Script.Literal

import FlowScript.Project.Basic
import FlowScript.Proofs.Script.Naming

namespace FlowScript

namespace Script

def IsWordChar (c : Char) : Prop := c.isAlphanum = true ∨ c = '_'

instance (c : Char) : Decidable (IsWordChar c) := inferInstanceAs (Decidable (_ ∨ _))

/-- An ASCII letter or an underscore, and then ASCII letters, digits and underscores. -/
def IsIdentifier (name : String) : Prop :=
  (∃ c ∈ name.toList.head?, c.isAlpha = true ∨ c = '_') ∧ ∀ c ∈ name.toList, IsWordChar c

instance (name : String) : Decidable (IsIdentifier name) :=
  -- Not by going through all characters there are, which are finitely many as well.
  @instDecidableAnd _ _ (Option.decidableExistsMem name.toList.head?) (List.decidableBAll IsWordChar name.toList)

variable {s : Settings} {taken ids : List String} {name : String}

theorem isIdentifier_append {tail : String} (some : name ≠ "") (word : ∀ c ∈ tail.toList, IsWordChar c) :
    IsIdentifier (name ++ tail) ↔ IsIdentifier name := by
  have first : (name ++ tail).toList.head? = name.toList.head? := by
    rw [String.toList_append]
    apply List.head?_append_of_ne_nil
    exact fun none => some (String.toList_eq_nil_iff.1 none)
  rw [IsIdentifier, first, String.toList_append, List.forall_mem_append, and_iff_left word, IsIdentifier]

theorem isWordChar_number (n : Nat) : ∀ c ∈ (toString n).toList, IsWordChar c := by
  intro c mem
  left
  rw [Char.isAlphanum, Digits.isDigit_of_mem_ofNat mem, Bool.or_true]

theorem isIdentifier_numbered (some : name ≠ "") (n : Nat) : IsIdentifier (numbered name n) ↔ IsIdentifier name := by
  have longer : name ++ "_" ≠ "" := by simp
  rw [numbered, isIdentifier_append longer (isWordChar_number n)]
  exact isIdentifier_append some (by simp [IsWordChar])

theorem isIdentifier_functionName (some : s.functionStem ≠ "") (id : String) :
    IsIdentifier (functionName s id) ↔ IsIdentifier s.functionStem := by
  apply isIdentifier_append some
  intro c mem
  rw [String.toList_ofList] at mem
  obtain ⟨d, -, rfl⟩ := List.mem_map.1 mem
  split
  · rename_i plain
    exact .inl plain
  · exact .inr rfl

theorem functionName_ne_empty (some : s.functionStem ≠ "") (id : String) : functionName s id ≠ "" := by
  intro empty
  rw [functionName, String.append_eq_empty_iff] at empty
  exact some empty.1

theorem isIdentifier_freshName (some : s.functionStem ≠ "") (taken : List String) (id : String) :
    IsIdentifier (freshName taken (functionName s id)) ↔ IsIdentifier s.functionStem := by
  have isName := isHandlerName_freshName s taken id
  unfold IsHandlerName at isName
  split at isName
  · obtain ⟨n, -, -, numbered⟩ := isName
    rw [numbered, isIdentifier_numbered (functionName_ne_empty some id), isIdentifier_functionName some]
  · rw [isName, isIdentifier_functionName some]

theorem isIdentifier_handlerNames (some : s.functionStem ≠ "") :
    ∀ name ∈ handlerNames s taken ids, (IsIdentifier name ↔ IsIdentifier s.functionStem) := by
  induction ids generalizing taken with
  | nil => simp [handlerNames]
  | cons id rest ih => exact List.forall_mem_cons.2 ⟨isIdentifier_freshName some taken id, ih⟩

end Script

namespace ProjectFile
open Script

theorem check_eq_ok {p : ProjectFile} : p.check = .ok () ↔
    (0 < p.shape.width ∧ 0 < p.shape.height) ∧ p.shape.portGap.isFinite = true ∧ p.settings.functionStem ≠ "" := by
  by_cases size : 0 < p.shape.width ∧ 0 < p.shape.height
  · by_cases gap : p.shape.portGap.isFinite = true
    · simp [check, size, gap, pure, Except.pure]
    · simp [check, size, gap, bind, Except.bind, pure, Except.pure]
  · simp [check, size, bind, Except.bind]

/-- In a project that is accepted, the names of handlers are identifiers exactly if their common stem is one: the name
that an id suggests, the one that it gets where others are taken, and so all names of a script. -/
theorem isIdentifier_names (p : ProjectFile) (accepted : p.check = .ok ()) :
    (∀ id, IsIdentifier (functionName p.settings id) ↔ IsIdentifier p.settings.functionStem) ∧
      (∀ taken id, IsIdentifier (freshName taken (functionName p.settings id)) ↔
        IsIdentifier p.settings.functionStem) ∧
      ∀ taken ids, ∀ name ∈ handlerNames p.settings taken ids,
        (IsIdentifier name ↔ IsIdentifier p.settings.functionStem) := by
  have some := (check_eq_ok.1 accepted).2.2
  exact ⟨isIdentifier_functionName some, isIdentifier_freshName some, fun _ _ => isIdentifier_handlerNames some⟩

theorem isIdentifier_names_standard :
    let p : ProjectFile := ⟨"small", "0.1.0", "layout.json", "bot.py", none, {}, .standard⟩
    p.check = .ok () ∧ IsIdentifier (functionName p.settings "grüß dich!") ∧
      IsIdentifier (freshName ["cmd_7", "cmd_7_2"] (functionName p.settings "node_7")) := by
  intro p
  have accepted : p.check = .ok () := by decide +kernel
  obtain ⟨suggested, fresh, -⟩ := isIdentifier_names p accepted
  have stem : IsIdentifier p.settings.functionStem := by decide +kernel
  exact ⟨accepted, (suggested _).2 stem, (fresh _ _).2 stem⟩

/-- A project file that is accepted, although its stem begins with a digit and holds a hyphen. -/
theorem misnamed :
    ∃ p, parse "name: small\ncodegen:\n  function_prefix: 9-\n" = .ok p ∧ p.check = .ok () ∧
      functionName p.settings "node_0" = "9-0" ∧ ¬ IsIdentifier "9-0" := by
  have read : (parse "name: small\ncodegen:\n  function_prefix: 9-\n").map (fun p =>
      (decide (p.check = .ok ()), functionName p.settings "node_0")) = .ok (true, "9-0") := by decide +kernel
  cases parsed : parse "name: small\ncodegen:\n  function_prefix: 9-\n" with
  | error e =>
      rw [parsed] at read
      cases read
  | ok p =>
      rw [parsed] at read
      obtain ⟨accepted, named⟩ := Prod.mk.inj (Except.ok.inj read)
      exact ⟨p, rfl, of_decide_eq_true accepted, named, by decide +kernel⟩

end ProjectFile
end FlowScript

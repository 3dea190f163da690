import FlowScript.Yaml.Text

namespace FlowScript.Yaml

def isUniform (c : Char) : Bool := c ≠ '\r' && c ≠ '\u0085'

theorem uniformBreaks_cons {c : Char} (uniform : isUniform c) (after : List Char) :
    uniformBreaks (c :: after) = c :: uniformBreaks after := by
  simp only [isUniform, Bool.and_eq_true, decide_eq_true_eq] at uniform
  rw [uniformBreaks, if_neg (by simp [uniform])]
  rintro rest rfl
  exact absurd rfl uniform.1

theorem uniformBreaks_append {cs : List Char} (uniform : ∀ c ∈ cs, isUniform c) (after : List Char) :
    uniformBreaks (cs ++ after) = cs ++ uniformBreaks after := by
  induction cs with
  | nil => rfl
  | cons c rest ih =>
      obtain ⟨own, uniform⟩ := List.forall_mem_cons.1 uniform
      rw [List.cons_append, uniformBreaks_cons own, ih uniform, List.cons_append]

theorem uniformBreaks_eq_self {cs : List Char} (uniform : ∀ c ∈ cs, isUniform c) : uniformBreaks cs = cs := by
  simpa [uniformBreaks] using uniformBreaks_append uniform []

theorem isUniform_of_mem {c : Char} {cs : List Char} (mem : c ∈ uniformBreaks cs) : isUniform c := by
  fun_induction uniformBreaks cs with
  | case1 => cases mem
  | case2 rest ih =>
      rcases List.mem_cons.1 mem with rfl | mem
      · decide
      · exact ih mem
  | case3 d rest _ ih =>
      rcases List.mem_cons.1 mem with rfl | mem
      · split
        · decide
        · rename_i own
          simpa [isUniform] using own
      · exact ih mem

theorem uniformBreaks_line (cs : List Char) {after : List Char} (uniform : ∀ c ∈ after, isUniform c) :
    ∃ line, uniformBreaks (cs ++ '\n' :: after) = line ++ '\n' :: after ∧ line.length ≤ cs.length ∧
      ∀ mark ≠ '\n', line.count mark ≤ cs.count mark := by
  have last : uniformBreaks ('\n' :: after) = '\n' :: after :=
    uniformBreaks_eq_self (List.forall_mem_cons.2 ⟨by decide, uniform⟩)
  fun_induction uniformBreaks cs with
  | case1 => exact ⟨[], last, by simp, by simp⟩
  | case2 rest ih =>
      obtain ⟨line, same, shorter, fewer⟩ := ih
      refine ⟨'\n' :: line, by rw [List.cons_append, List.cons_append, uniformBreaks, same]; rfl, ?_,
        fun mark other => ?_⟩
      · simp only [List.length_cons]
        omega
      · have := fewer mark other
        grind
  | case3 c rest single ih =>
      by_cases joined : c = '\r' ∧ rest = []
      · -- The carriage return and the line end behind the text are one.
        obtain ⟨rfl, rfl⟩ := joined
        refine ⟨[], ?_, by simp, by simp⟩
        rw [List.singleton_append, uniformBreaks, uniformBreaks_eq_self uniform]
        rfl
      · obtain ⟨line, same, shorter, fewer⟩ := ih
        have apart : ∀ more, c = '\r' → rest ++ '\n' :: after = '\n' :: more → False := by
          intro more carriage split
          cases rest with
          | nil => exact joined ⟨carriage, rfl⟩
          | cons d rest => exact single rest carriage (by rw [List.cons_append] at split; rw [(List.cons.inj split).1])
        refine ⟨(if c = '\r' || c = '\u0085' then '\n' else c) :: line, ?_, Nat.succ_le_succ shorter,
          fun mark other => ?_⟩
        · rw [List.cons_append, uniformBreaks, same, List.cons_append]
          exact apart
        · have := fewer mark other
          grind

end FlowScript.Yaml

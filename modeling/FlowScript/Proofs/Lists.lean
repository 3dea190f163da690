import Mathlib.Data.List.Forall2
import Mathlib.Data.List.Induction
import Mathlib.Data.List.Nodup

namespace FlowScript.Lists

variable {α β γ : Type}

theorem nodup_addedLast {items : List α} {item : α} (distinct : items.Nodup) (free : item ∉ items) :
    (items ++ [item]).Nodup := by
  simpa using distinct.concat free

theorem max?_concat (items : List Nat) (n : Nat) :
    (items ++ [n]).max? = some (items.max?.elim n (max · n)) := by
  cases items with
  | nil => rfl
  | cons first rest =>
      rw [List.cons_append, List.max?_cons', List.max?_cons', List.foldl_append]
      rfl

/-! ## Places in a list -/

theorem holds_or_first {P : List α → Prop} (start : P []) (items : List α) :
    P items ∨ ∃ before a after, items = before ++ a :: after ∧ P before ∧ ¬ P (before ++ [a]) := by
  induction items using List.reverseRecOn with
  | nil => exact .inl start
  | append_singleton items last ih =>
      rcases ih with holds | ⟨before, a, after, rfl, fine, wrong⟩
      · by_cases more : P (items ++ [last])
        · exact .inl more
        · exact .inr ⟨items, last, [], rfl, holds, more⟩
      · exact .inr ⟨before, a, after ++ [last], by simp, fine, wrong⟩

theorem split_cases {front back front' back' : List α} {a a' : α}
    (h : front ++ a :: back = front' ++ a' :: back') :
    (front = front' ∧ a = a' ∧ back = back') ∨ a ∈ front' ∨ a' ∈ front := by
  rcases List.append_eq_append_iff.1 h with ⟨between, rfl, rest⟩ | ⟨between, rfl, rest⟩
  · cases between with
    | nil =>
        cases rest
        exact .inl ⟨by simp, rfl, rfl⟩
    | cons b between =>
        cases rest
        exact .inr (.inl (by simp))
  · cases between with
    | nil =>
        cases rest
        exact .inl ⟨by simp, rfl, rfl⟩
    | cons b between =>
        cases rest
        exact .inr (.inr (by simp))

theorem exists_split_of_flatMap {f : α → List β} {items : List α} {before after : List β} {b : β}
    (h : items.flatMap f = before ++ b :: after) :
    ∃ front item back pre post, items = front ++ item :: back ∧ f item = pre ++ b :: post ∧
      before = front.flatMap f ++ pre := by
  induction items generalizing before with
  | nil => simp at h
  | cons item rest ih =>
      rw [List.flatMap_cons, List.append_eq_append_iff] at h
      rcases h with ⟨others, rfl, h⟩ | ⟨own, first, h⟩
      · obtain ⟨front, item', back, pre, post, rfl, here, rfl⟩ := ih h
        exact ⟨item :: front, item', back, pre, post, rfl, here, by simp⟩
      · cases own with
        | cons b' post =>
            cases h
            exact ⟨[], item, rest, before, post, rfl, first, rfl⟩
        | nil =>
            have h : rest.flatMap f = [] ++ b :: after := h.symm
            obtain ⟨front, item', back, pre, post, rfl, here, nothing⟩ := ih h
            refine ⟨item :: front, item', back, pre, post, rfl, here, ?_⟩
            rw [List.flatMap_cons, List.append_assoc, ← nothing, first, List.append_nil, List.append_nil]

/-! ## The parts of a joined list -/

section
variable {f f' : α → List β}

theorem length_flatMap_le (le : ∀ a, (f a).length ≤ (f' a).length) (items : List α) :
    (items.flatMap f).length ≤ (items.flatMap f').length := by
  induction items with
  | nil => exact Nat.le_refl _
  | cons a rest ih =>
      have first := le a
      simp only [List.flatMap_cons, List.length_append]
      omega

theorem eq_of_flatMap_eq (le : ∀ a, (f a).length ≤ (f' a).length) {items : List α}
    (same : items.flatMap f = items.flatMap f') : ∀ a ∈ items, f a = f' a := by
  induction items with
  | nil => simp
  | cons a rest ih =>
      rw [List.flatMap_cons, List.flatMap_cons] at same
      have total := congrArg List.length same
      rw [List.length_append, List.length_append] at total
      have first := le a
      have later := length_flatMap_le le rest
      obtain ⟨head, tail⟩ := List.append_inj same (by omega)
      exact List.forall_mem_cons.2 ⟨head, ih tail⟩

end

/-! ## The first item that fits -/

theorem find?_filter_of_kept {keep p : α → Bool} {items : List α}
    (kept : ∀ a, items.find? p = some a → keep a) : (items.filter keep).find? p = items.find? p := by
  induction items with
  | nil => rfl
  | cons a items ih =>
      rw [List.find?_cons] at kept ⊢
      cases holds : p a with
      | true =>
          rw [holds] at kept
          rw [List.filter_cons_of_pos (kept a rfl), List.find?_cons, holds]
      | false =>
          rw [holds] at kept
          rw [List.filter_cons]
          split
          · rw [List.find?_cons, holds]
            exact ih kept
          · exact ih kept

theorem find?_rel {r : α → β → Prop} {p : α → Bool} {q : β → Bool} (same : ∀ a b, r a b → p a = q b)
    {items : List α} {others : List β} (related : List.Forall₂ r items others) :
    Option.Rel r (items.find? p) (others.find? q) := by
  induction related with
  | nil => exact .none
  | @cons a b items others head _ ih =>
      rw [List.find?_cons, List.find?_cons, same a b head]
      cases q b with
      | true => exact .some head
      | false => exact ih

/-! ## Related lists -/

theorem forall₂_zip {r : α → β → Prop} {items : List α} {others : List β}
    (related : List.Forall₂ r items others) (partners : List γ) :
    List.Forall₂ (fun a b => r a.1 b.1 ∧ a.2 = b.2) (items.zip partners) (others.zip partners) := by
  induction related generalizing partners with
  | nil => exact .nil
  | cons head _ ih =>
      cases partners with
      | nil => exact .nil
      | cons partner rest => exact .cons ⟨head, rfl⟩ (ih rest)

theorem forall₂_filter_filterMap {r : α → β → Prop} {s : α → γ → Prop} {p : α → Bool} {f : β → Option γ}
    (apart : ∀ a b, r a b → p a = false → f b = none)
    (warned : ∀ a b, r a b → p a = true → ∃ c, f b = some c ∧ s a c) {items : List α} {others : List β}
    (related : List.Forall₂ r items others) : List.Forall₂ s (items.filter p) (others.filterMap f) := by
  induction related with
  | nil => exact .nil
  | @cons a b items others head _ ih =>
      cases holds : p a with
      | false =>
          rw [List.filter_cons_of_neg (by simp [holds]), List.filterMap_cons_none (apart a b head holds)]
          exact ih
      | true =>
          obtain ⟨c, found, meets⟩ := warned a b head holds
          rw [List.filter_cons_of_pos holds, List.filterMap_cons_some found]
          exact .cons meets ih

theorem mem_of_mapM {f : α → Option β} {items : List α} {results : List β}
    (mapped : items.mapM f = some results) : ∀ b ∈ results, ∃ a ∈ items, f a = some b := by
  induction items generalizing results with
  | nil =>
      cases mapped
      simp
  | cons a rest ih =>
      rw [List.mapM_cons] at mapped
      obtain ⟨b, first, mapped⟩ := Option.bind_eq_some_iff.1 mapped
      obtain ⟨bs, others, same⟩ := Option.bind_eq_some_iff.1 mapped
      cases same
      intro c mem
      rcases List.mem_cons.1 mem with rfl | mem
      · exact ⟨a, List.mem_cons_self, first⟩
      · obtain ⟨a', mem', own⟩ := ih others c mem
        exact ⟨a', List.mem_cons_of_mem _ mem', own⟩

end FlowScript.Lists

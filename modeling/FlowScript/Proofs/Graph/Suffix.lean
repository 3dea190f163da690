import Mathlib.Data.List.Induction
import Mathlib.Data.Nat.Digits.Defs
import FlowScript.Graph.Basic
import FlowScript.Proofs.Graph.NodeId

namespace FlowScript

namespace Digits

def denoted (digits : List Char) : Nat :=
  Nat.ofDigits 10 (digits.reverse.map fun c => "0123456789".toList.idxOf c)

theorem value_of_isDigit {c : Char} (digit : c.isDigit = true) : value c = "0123456789".toList.idxOf c := by
  have among : ∀ code < 58, 48 ≤ code →
      value (Char.ofNat code) = "0123456789".toList.idxOf (Char.ofNat code) := by decide
  simp only [Char.isDigit, Bool.and_eq_true, decide_eq_true_eq] at digit
  have least : 48 ≤ c.toNat := digit.1
  have greatest : c.toNat ≤ 57 := digit.2
  have named := among c.toNat (by omega) least
  rwa [Char.ofNat_toNat] at named

theorem toNat_eq_denoted {digits : List Char} (digital : ∀ c ∈ digits, c.isDigit = true) :
    toNat digits = denoted digits := by
  induction digits using List.reverseRecOn with
  | nil => rfl
  | append_singleton digits c ih =>
      have before := ih fun d mem => digital d (by simp [mem])
      rw [toNat, List.foldl_append, ← toNat, before, List.foldl_cons, List.foldl_nil,
        value_of_isDigit (digital c (by simp)), denoted, denoted, List.reverse_append, List.reverse_singleton,
        List.singleton_append, List.map_cons, Nat.ofDigits_cons, Nat.add_comm]

end Digits

theorem Graph.number_of_allocate {α : Type} {g g' : Graph α} {id : String}
    (allocated : g.allocate = (.ok id, g')) : ∃ n < NodeId.lastNumber, id = NodeId.ofNumber n := by
  fun_induction Graph.allocate g with
  | case1 g wished left next taken ih => exact ih allocated
  | case2 g wished left next free => exact ⟨g.nextNumber, left, (Except.ok.inj (Prod.mk.inj allocated).1).symm⟩
  | case3 => cases allocated

namespace NodeId

theorem le_lastNumber_iff {n : Nat} : n ≤ lastNumber ↔ n < UInt64.size := by
  rw [lastNumber, Nat.le_sub_one_iff_lt (by decide)]

/-- An id has a suffix exactly if digits end it that denote a number below `2 ^ 64`, and the suffix is what
all of them denote; zeros in front do not matter, and the bytes of the digits cut the id between characters.
So behind any stem without a digit at its end a number is read back as it is written, and ids from two
allocations have the same suffix only if they are the same. -/
theorem suffix_exact {α : Type} :
    (∀ (id : String) (n : Nat), suffix? id = some n ↔
      ∃ start digits : String, id = start ++ digits ∧ digits ≠ "" ∧ (∀ c ∈ digits.toList, c.isDigit = true) ∧
        (∀ c ∈ start.toList.getLast?, c.isDigit = false) ∧
        Digits.denoted digits.toList = n ∧ n < UInt64.size) ∧
      (∀ id : String, byteCount (withoutDigits id.toList) ≤ byteCount id.toList ∧ ∃ digits,
        behindBytes? (byteCount id.toList - digitBytes id.toList) id.toList = some digits) ∧
      (∀ (start : String) (n : Nat), (∀ c ∈ start.toList.getLast?, c.isDigit = false) → n < UInt64.size →
        suffix? (start ++ toString n) = some n) ∧
      ∀ (g h g' h' : Graph α) (a b : String), g.allocate = (.ok a, g') → h.allocate = (.ok b, h') →
        (∃ n, a = ofNumber n ∧ suffix? a = some n) ∧ (a ≠ b → suffix? a ≠ suffix? b) := by
  refine ⟨fun id n => ⟨fun read => ?_, ?_⟩, fun id => ?_, fun start n stop small => ?_, ?_⟩
  · obtain ⟨start, digits, split⟩ := exists_split id.toList
    rw [split.suffix?_eq] at read
    split at read
    · rename_i fits
      obtain rfl := Option.some.inj read
      refine ⟨String.ofList start, String.ofList digits, ?_, ?_, ?_, ?_, ?_, le_lastNumber_iff.1 fits.2⟩
      · rw [← String.ofList_append, ← split.whole, String.ofList_toList]
      · simpa using fits.1
      · simpa using split.digital
      · simpa using split.stop
      · rw [String.toList_ofList, Digits.toNat_eq_denoted split.digital]
    · cases read
  · rintro ⟨start, digits, rfl, some_left, digital, stop, rfl, small⟩
    have split : Split (start ++ digits).toList start.toList digits.toList :=
      ⟨String.toList_append, digital, stop⟩
    rw [← Digits.toNat_eq_denoted digital] at small ⊢
    rw [split.suffix?_eq, if_pos ⟨by simpa using some_left, le_lastNumber_iff.2 small⟩]
  · obtain ⟨start, digits, split⟩ := exists_split id.toList
    refine ⟨?_, digits, split.behindBytes?_eq⟩
    rw [split.withoutDigits_eq, split.whole, byteCount_append]
    exact Nat.le_add_right _ _
  · exact suffix?_append_number stop (le_lastNumber_iff.2 small)
  · intro g h g' h' a b fromG fromH
    obtain ⟨m, mBound, rfl⟩ := Graph.number_of_allocate fromG
    obtain ⟨n, nBound, rfl⟩ := Graph.number_of_allocate fromH
    refine ⟨⟨m, rfl, suffix?_ofNumber (Nat.le_of_lt mBound)⟩, fun apart same => apart ?_⟩
    rw [suffix?_ofNumber (Nat.le_of_lt mBound), suffix?_ofNumber (Nat.le_of_lt nBound)] at same
    rw [Option.some.inj same]

theorem suffix_exact_mixed_digits :
    let started : Graph Nat := { Graph.empty with nextNumber := 9 }
    suffix? "é٣0042" = some 42 ∧ suffix? "node_18446744073709551616" = none ∧
      suffix? ("é" ++ toString lastNumber) = some lastNumber ∧
      (Graph.empty : Graph Nat).allocate.1 = .ok "node_0" ∧ started.allocate.1 = .ok "node_9" ∧
      suffix? "node_0" ≠ suffix? "node_9" := by
  intro started
  obtain ⟨read, -, written, allocated⟩ := suffix_exact (α := Nat)
  have first : (Graph.empty : Graph Nat).allocate = (.ok "node_0", { Graph.empty with nextNumber := 1 }) := by
    rw [Graph.allocate]
    rfl
  have later : started.allocate = (.ok "node_9", { started with nextNumber := 10 }) := by
    rw [Graph.allocate]
    decide +kernel
  refine ⟨(read _ _).2 ⟨"é٣", "0042", rfl, by decide, by simp, by simp, by decide, by decide⟩,
    by decide +kernel, written "é" lastNumber (by simp) (by decide), by rw [first], by rw [later], ?_⟩
  exact (allocated _ _ _ _ _ _ first later).2 (by decide)

end NodeId
end FlowScript

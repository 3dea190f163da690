import FlowScript.Text.Basic

namespace FlowScript.Digits

abbrev ofNat (n : Nat) : List Char := (toString n).toList

theorem ofNat_eq (n : Nat) : ofNat n = Nat.toDigits 10 n := by
  rw [ofNat, Nat.toString_eq_repr, Nat.toList_repr]

theorem toNat_ofNat (n : Nat) : toNat (ofNat n) = n := by
  rw [ofNat_eq]
  exact Nat.ofDigitChars_ten_toDigits

theorem isDigit_of_mem_ofNat {n : Nat} {c : Char} (mem : c ∈ ofNat n) : c.isDigit = true := by
  rw [ofNat_eq] at mem
  exact Nat.isDigit_of_mem_toDigits (by decide) (by decide) mem

theorem ofNat_ne_nil (n : Nat) : ofNat n ≠ [] := by
  rw [ofNat_eq]
  exact Nat.toDigits_ne_nil

theorem head?_ofNat {n : Nat} (pos : 0 < n) : (ofNat n).head? ≠ some '0' := by
  rw [ofNat_eq]
  induction n using Nat.strongRecOn with
  | ind n ih =>
      rw [Nat.toDigits_eq_if (by decide)]
      split
      · rename_i small
        have digits : ∀ d < 10, 0 < d → [Nat.digitChar d].head? ≠ some '0' := by decide
        exact digits n small pos
      · rename_i large
        cases leading : Nat.toDigits 10 (n / 10) with
        | nil => exact absurd leading Nat.toDigits_ne_nil
        | cons d ds =>
            rw [List.cons_append, List.head?_cons, ← List.head?_cons, ← leading]
            exact ih (n / 10) (by omega) (by omega)

end FlowScript.Digits

import Mathlib.Data.List.Lex

namespace FlowScript.Text

def bytes (text : String) : List Nat := text.toUTF8.data.toList.map UInt8.toNat

def BytesBefore (a b : String) : Prop := List.Lex (· < ·) (bytes a) (bytes b)

def charBytes (c : Char) : List Nat := (String.utf8EncodeChar c).map UInt8.toNat

theorem bytes_eq (text : String) : bytes text = text.toList.flatMap charBytes := by
  have encoded : text.toUTF8.data.toList = text.toList.flatMap String.utf8EncodeChar := by
    rw [String.toUTF8_eq_toByteArray, ← String.utf8Encode_toList, List.utf8Encode, List.data_toByteArray]
  rw [bytes, encoded, List.map_flatMap]
  rfl

theorem charBytes_cases (c : Char) :
    let n := c.toNat
    (n < 0x80 ∧ charBytes c = [n]) ∨
      (0x80 ≤ n ∧ n < 0x800 ∧ charBytes c = [n / 64 + 0xC0, n % 64 + 0x80]) ∨
      (0x800 ≤ n ∧ n < 0x10000 ∧ charBytes c = [n / 4096 + 0xE0, n / 64 % 64 + 0x80, n % 64 + 0x80]) ∨
      (0x10000 ≤ n ∧ n < 0x110000 ∧
        charBytes c = [n / 262144 + 0xF0, n / 4096 % 64 + 0x80, n / 64 % 64 + 0x80, n % 64 + 0x80]) := by
  intro n
  have bound : n < 0x110000 := by
    have valid := c.valid
    simp only [UInt32.isValidChar, Nat.isValidChar] at valid
    change c.val.toNat < _
    omega
  unfold charBytes String.utf8EncodeChar
  change n < 0x110000 at bound
  rw [show c.val.toNat = n from rfl]
  dsimp only
  split
  · refine .inl ⟨by omega, ?_⟩
    simp
    omega
  · split
    · refine .inr (.inl ⟨by omega, by omega, ?_⟩)
      simp
      omega
    · split
      · refine .inr (.inr (.inl ⟨by omega, by omega, ?_⟩))
        simp
        omega
      · refine .inr (.inr (.inr ⟨by omega, by omega, ?_⟩))
        simp
        omega

theorem charBytes_before {c d : Char} (less : c.toNat < d.toNat) (x y : List Nat) :
    List.Lex (· < ·) (charBytes c ++ x) (charBytes d ++ y) := by
  rcases charBytes_cases c with ⟨_, left⟩ | ⟨_, _, left⟩ | ⟨_, _, left⟩ | ⟨_, _, left⟩ <;>
    rcases charBytes_cases d with ⟨_, right⟩ | ⟨_, _, right⟩ | ⟨_, _, right⟩ | ⟨_, _, right⟩ <;>
    rw [left, right]
  -- The first byte tells how many follow, and increases with that.
  all_goals try exact .rel (by omega)
  · by_cases first : c.toNat / 64 < d.toNat / 64
    · exact .rel (by omega)
    · exact List.cons_lex_cons_iff.2 (.inr ⟨by omega, .rel (by omega)⟩)
  · by_cases first : c.toNat / 4096 < d.toNat / 4096
    · exact .rel (by omega)
    · refine List.cons_lex_cons_iff.2 (.inr ⟨by omega, ?_⟩)
      by_cases second : c.toNat / 64 < d.toNat / 64
      · exact .rel (by omega)
      · exact List.cons_lex_cons_iff.2 (.inr ⟨by omega, .rel (by omega)⟩)
  · by_cases first : c.toNat / 262144 < d.toNat / 262144
    · exact .rel (by omega)
    · refine List.cons_lex_cons_iff.2 (.inr ⟨by omega, ?_⟩)
      by_cases second : c.toNat / 4096 < d.toNat / 4096
      · exact .rel (by omega)
      · refine List.cons_lex_cons_iff.2 (.inr ⟨by omega, ?_⟩)
        by_cases third : c.toNat / 64 < d.toNat / 64
        · exact .rel (by omega)
        · exact List.cons_lex_cons_iff.2 (.inr ⟨by omega, .rel (by omega)⟩)

theorem bytes_before {cs ds : List Char} (h : List.Lex (fun c d : Char => c.toNat < d.toNat) cs ds) :
    List.Lex (· < ·) (cs.flatMap charBytes) (ds.flatMap charBytes) := by
  induction h with
  | @nil d ds =>
      rw [List.flatMap_nil, List.flatMap_cons]
      rcases charBytes_cases d with ⟨_, e⟩ | ⟨_, _, e⟩ | ⟨_, _, e⟩ | ⟨_, _, e⟩ <;> rw [e] <;> exact .nil
  | rel less => exact charBytes_before less _ _
  | cons _ ih => exact List.Lex.append_left _ ih _

theorem bytesBefore_of_lt {a b : String} (less : a < b) : BytesBefore a b := by
  rw [BytesBefore, bytes_eq, bytes_eq]
  exact bytes_before less

theorem lt_iff_bytesBefore {a b : String} : a < b ↔ BytesBefore a b := by
  constructor
  · exact bytesBefore_of_lt
  · intro before
    by_cases less : a < b
    · exact less
    · have le : b ≤ a := String.not_lt.1 less
      by_cases greater : b < a
      · exact absurd (bytesBefore_of_lt greater) (List.lex_asymm Nat.lt_asymm before)
      · have same : a = b := String.le_antisymm (String.not_lt.1 greater) le
        exact absurd (same ▸ before) (List.lex_irrefl Nat.lt_irrefl _)

end FlowScript.Text

import FlowScript.Graph.NodeId
import FlowScript.Proofs.Text.Decimal
import FlowScript.Proofs.Lists

namespace FlowScript.NodeId

theorem byteCount_append (text more : List Char) : byteCount (text ++ more) = byteCount text + byteCount more := by
  rw [byteCount, String.ofList_append, String.utf8ByteSize_append]
  rfl

theorem byteCount_cons (c : Char) (rest : List Char) : byteCount (c :: rest) = c.utf8Size + byteCount rest := by
  rw [← List.singleton_append, byteCount_append, byteCount, ← String.singleton_eq_ofList,
    String.utf8ByteSize_singleton]

theorem utf8Size_of_isDigit {c : Char} (digit : c.isDigit = true) : c.utf8Size = 1 := by
  rw [Char.utf8Size_eq_one_iff]
  simp only [Char.isDigit, Bool.and_eq_true, decide_eq_true_eq] at digit
  exact UInt32.le_trans digit.2 (by decide)

theorem byteCount_digits {digits : List Char} (digital : ∀ c ∈ digits, c.isDigit = true) :
    byteCount digits = digits.length := by
  induction digits with
  | nil => rfl
  | cons c rest ih =>
      rw [byteCount_cons, utf8Size_of_isDigit (digital c (by simp)), ih fun d mem => digital d (by simp [mem]),
        List.length_cons, Nat.add_comm]

theorem behindBytes?_append (start rest : List Char) :
    behindBytes? (byteCount start) (start ++ rest) = some rest := by
  induction start with
  | nil => cases rest <;> rfl
  | cons c start ih =>
      have pos := c.utf8Size_pos
      obtain ⟨count, isCount⟩ := Nat.exists_eq_add_one_of_ne_zero (n := c.utf8Size + byteCount start) (by omega)
      rw [byteCount_cons, isCount, List.cons_append, behindBytes?, if_pos (by omega), ← isCount,
        Nat.add_sub_cancel_left, ih]

/-- An id is what stands in front of the digits at its end, and those digits. -/
structure Split (id start digits : List Char) : Prop where
  whole : id = start ++ digits
  digital : ∀ c ∈ digits, c.isDigit = true
  stop : ∀ c ∈ start.getLast?, c.isDigit = false

theorem exists_split (id : List Char) : ∃ start digits, Split id start digits := by
  refine ⟨(id.reverse.dropWhile Char.isDigit).reverse, (id.reverse.takeWhile Char.isDigit).reverse, ?_, ?_, ?_⟩
  · rw [← List.reverse_append, List.takeWhile_append_dropWhile, List.reverse_reverse]
  · intro c mem
    exact List.all_eq_true.1 List.all_takeWhile c (List.mem_reverse.1 mem)
  · intro c last
    rw [List.getLast?_reverse] at last
    have stopped := List.head?_dropWhile_not Char.isDigit id.reverse
    rw [Option.mem_def.1 last] at stopped
    exact stopped

namespace Split
variable {id start digits : List Char}

theorem withoutDigits_eq (h : Split id start digits) : withoutDigits id = start := by
  have kept : start.reverse.dropWhile Char.isDigit = start.reverse := by
    have stop := h.stop
    rw [← List.head?_reverse] at stop
    cases reversed : start.reverse with
    | nil => rfl
    | cons c rest =>
        rw [reversed] at stop
        rw [List.dropWhile_cons_of_neg (by simp [stop c rfl])]
  have digital : ∀ c ∈ digits.reverse, c.isDigit = true := fun c mem => h.digital c (List.mem_reverse.1 mem)
  rw [withoutDigits, h.whole, List.reverse_append, List.dropWhile_append_of_pos digital, kept,
    List.reverse_reverse]

theorem digitBytes_eq (h : Split id start digits) : digitBytes id = digits.length := by
  rw [digitBytes, h.withoutDigits_eq, h.whole, byteCount_append, Nat.add_sub_cancel_left,
    byteCount_digits h.digital]

theorem behindBytes?_eq (h : Split id start digits) :
    behindBytes? (byteCount id - digitBytes id) id = some digits := by
  rw [h.digitBytes_eq, h.whole, byteCount_append, byteCount_digits h.digital, Nat.add_sub_cancel_right,
    behindBytes?_append]

theorem suffix?_eq {id : String} (h : Split id.toList start digits) :
    suffix? id = if digits ≠ [] ∧ Digits.toNat digits ≤ lastNumber then some (Digits.toNat digits) else none := by
  have cut := h.behindBytes?_eq
  rw [h.digitBytes_eq] at cut
  simp only [suffix?, h.digitBytes_eq, cut]
  by_cases plain : digits = [] <;> simp [plain]

end Split

theorem suffix?_append_number {start : String} {n : Nat}
    (stop : ∀ c ∈ start.toList.getLast?, c.isDigit = false) (bound : n ≤ lastNumber) :
    suffix? (start ++ toString n) = some n := by
  have split : Split (start ++ toString n).toList start.toList (Digits.ofNat n) :=
    ⟨String.toList_append, fun c => Digits.isDigit_of_mem_ofNat, stop⟩
  rw [split.suffix?_eq, Digits.toNat_ofNat, if_pos ⟨Digits.ofNat_ne_nil n, bound⟩]

theorem suffix?_ofNumber {n : Nat} (bound : n ≤ lastNumber) : suffix? (ofNumber n) = some n :=
  suffix?_append_number (by simp [stem]) bound

/-! ## The number after a history of ids -/

def past (next : Nat) (id : String) : Nat :=
  match suffix? id with
  | some n => max next (min (n + 1) lastNumber)
  | none => next

/-- One more than the largest suffix among the ids, but no more than the last number; zero if no id has
a suffix. -/
def nextAfter (given : List String) : Nat :=
  match (given.filterMap suffix?).max? with
  | none => 0
  | some largest => min (largest + 1) lastNumber

theorem le_past (next : Nat) (id : String) : next ≤ past next id := by
  unfold past
  split <;> omega

theorem past_ofNumber {n : Nat} (bound : n < lastNumber) : past n (ofNumber n) = n + 1 := by
  rw [past, suffix?_ofNumber (Nat.le_of_lt bound)]
  simp only
  omega

theorem nextAfter_le (given : List String) : nextAfter given ≤ lastNumber := by
  unfold nextAfter
  split <;> omega

theorem nextAfter_concat (given : List String) (id : String) :
    nextAfter (given ++ [id]) = past (nextAfter given) id := by
  unfold nextAfter past
  cases h : suffix? id with
  | none => simp [List.filterMap_append, h]
  | some n =>
      have suffixes : (given ++ [id]).filterMap suffix? = given.filterMap suffix? ++ [n] := by
        simp [List.filterMap_append, h]
      rw [suffixes, Lists.max?_concat]
      cases (given.filterMap suffix?).max? with
      | none => simp
      | some largest =>
          simp only [Option.elim]
          omega

theorem foldl_past (given ids : List String) :
    ids.foldl past (nextAfter given) = nextAfter (given ++ ids) := by
  induction ids generalizing given with
  | nil => simp
  | cons id rest ih => rw [List.foldl_cons, ← nextAfter_concat, ih, List.append_assoc, List.singleton_append]

theorem ofNumber_not_mem {given : List String} {n : Nat} (next : nextAfter given ≤ n)
    (bound : n < lastNumber) : ofNumber n ∉ given := by
  intro mem
  have suffix : n ∈ given.filterMap suffix? :=
    List.mem_filterMap.2 ⟨_, mem, suffix?_ofNumber (Nat.le_of_lt bound)⟩
  cases largest : (given.filterMap suffix?).max? with
  | none =>
      rw [List.max?_eq_none_iff] at largest
      simp [largest] at suffix
  | some m =>
      have le : n ≤ m := (List.max?_eq_some_iff.1 largest).2 n suffix
      rw [nextAfter, largest] at next
      simp only at next
      omega

end FlowScript.NodeId

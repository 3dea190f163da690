import FlowScript.Proofs.Yaml.Leading
import FlowScript.Yaml.Decode

namespace FlowScript.Yaml
namespace Parse
variable {α β : Type} {p p' : Parser}

theorem bind_eq_some {x : Parse α} {f : α → Parse β} {r : β × Parser} :
    (x >>= f).run p = some r ↔ ∃ a p', x.run p = some (a, p') ∧ (f a).run p' = some r := by
  rw [StateT.run_bind]
  exact Option.bind_eq_some_iff.trans Prod.exists

theorem run_peek (p : Parser) : peek.run p = some (p.tokens.head?, p) := rfl

theorem run_skip (p : Parser) : skip.run p = some ((), { p with tokens := p.tokens.drop 1 }) := rfl

theorem run_countEvents (n : Nat) (p : Parser) :
    (countEvents n).run p = some ((), { p with events := p.events + n }) := rfl

theorem startOf_of_head? {tokens : List Token} {t : Token} (first : tokens.head? = some t) :
    startOf tokens = if t.start = .open then startOf (tokens.drop 1) else t.start := by
  cases tokens with
  | nil => cases first
  | cons t' rest =>
      cases first
      rfl

/-! ## Properties -/

theorem startOf_anchor? {name : Option String} (read : anchor?.run p = some (name, p')) :
    startOf p'.tokens = startOf p.tokens := by
  obtain ⟨first, p₁, peeked, read⟩ := bind_eq_some.1 read
  cases peeked
  split at read
  · rename_i name first
    obtain ⟨⟨⟩, p₂, skipped, read⟩ := bind_eq_some.1 read
    cases skipped
    cases read
    exact (startOf_of_head? first).symm
  · cases read
    rfl

theorem state_of_resolveTag {name : TagName} {tag : String} (read : (resolveTag name).run p = some (tag, p')) :
    p' = p := by
  unfold resolveTag at read
  split at read
  · cases read
    rfl
  · obtain ⟨p₁, p₂, got, read⟩ := bind_eq_some.1 read
    cases got
    split at read
    · cases read
      rfl
    · cases read

theorem startOf_tag? {tag : Option String} (read : tag?.run p = some (tag, p')) :
    startOf p'.tokens = startOf p.tokens := by
  obtain ⟨first, p₁, peeked, read⟩ := bind_eq_some.1 read
  cases peeked
  split at read
  · rename_i name first
    obtain ⟨⟨⟩, p₂, skipped, read⟩ := bind_eq_some.1 read
    cases skipped
    obtain ⟨text, p₃, resolved, read⟩ := bind_eq_some.1 read
    cases read
    rw [state_of_resolveTag resolved]
    exact (startOf_of_head? first).symm
  · cases read
    rfl

theorem startOf_properties {given : Option String × Option String} (read : properties.run p = some (given, p')) :
    startOf p'.tokens = startOf p.tokens := by
  obtain ⟨anchor, p₁, anchored, read⟩ := bind_eq_some.1 read
  rw [← startOf_anchor? anchored]
  split at read
  · obtain ⟨tag, p₂, tagged, read⟩ := bind_eq_some.1 read
    cases read
    exact startOf_tag? tagged
  · obtain ⟨tag, p₂, tagged, read⟩ := bind_eq_some.1 read
    rw [← startOf_tag? tagged]
    split at read
    · obtain ⟨anchor, p₃, anchored, read⟩ := bind_eq_some.1 read
      cases read
      exact startOf_anchor? anchored
    · cases read
      rfl

theorem tokens_of_places {name : Option String} {place : Option (Nat × Nat)}
    (read : (name.mapM placeAnchor).run p = some (place, p')) : p'.tokens = p.tokens := by
  cases name with
  | none =>
      cases read
      rfl
  | some name =>
      cases read
      rfl

/-! ## Nodes -/

def ReadFrom (start : Start) : Node → Prop
  | .scalar s => s.value = "" ∨ start = .scalar ⟨s.value, s.isPlain⟩
  | .alias _ => False
  | _ => True

theorem readFrom_emptyNode {start : Start} {n : Node} (read : emptyNode.run p = some (n, p')) : ReadFrom start n := by
  cases read
  exact .inl rfl

theorem readFrom_made {start : Start} {x : Parse α} {make : α → Node} {n : Node}
    (read : (do countEvents 2; return make (← x) : Parse Node).run p = some (n, p'))
    (kind : ∀ a, ReadFrom start (make a)) : ReadFrom start n := by
  obtain ⟨⟨⟩, p₁, -, read⟩ := bind_eq_some.1 read
  obtain ⟨a, p₂, -, read⟩ := bind_eq_some.1 read
  cases read
  exact kind a

theorem readFrom_skip {start : Start} {x : Parse α} {make : α → Node} {n : Node}
    (read : (do skip; countEvents 2; return make (← x) : Parse Node).run p = some (n, p'))
    (kind : ∀ a, ReadFrom start (make a)) : ReadFrom start n := by
  obtain ⟨⟨⟩, p₁, -, read⟩ := bind_eq_some.1 read
  exact readFrom_made read kind

theorem readFrom_content {fuel : Nat} {style : Style} {hasProperties : Bool} {tag : Option String} {n : Node}
    (read : (content fuel style hasProperties tag).run p = some (n, p')) : ReadFrom (startOf p.tokens) n := by
  cases fuel with
  | zero => cases read
  | succ fuel =>
      rw [content] at read
      obtain ⟨first, p₁, peeked, read⟩ := bind_eq_some.1 read
      cases peeked
      split at read
      · exact readFrom_made read fun _ => trivial
      · rename_i s first _
        obtain ⟨⟨⟩, p₂, -, read⟩ := bind_eq_some.1 read
        obtain ⟨⟨⟩, p₃, -, read⟩ := bind_eq_some.1 read
        cases read
        exact .inr (startOf_of_head? first)
      iterate 6 exact readFrom_skip read fun _ => trivial
      · split at read
        · obtain ⟨⟨⟩, p₂, -, read⟩ := bind_eq_some.1 read
          cases read
          exact .inl rfl
        · cases read

theorem readFrom_node {fuel : Nat} {style : Style} {n : Node} (unanchored : p.anchors = [])
    (read : (node fuel style).run p = some (n, p')) : ReadFrom (startOf p.tokens) n := by
  cases fuel with
  | zero => cases read
  | succ fuel =>
      rw [node] at read
      obtain ⟨first, p₁, peeked, read⟩ := bind_eq_some.1 read
      cases peeked
      split at read
      · obtain ⟨⟨⟩, p₂, skipped, read⟩ := bind_eq_some.1 read
        cases skipped
        obtain ⟨p₃, p₄, got, read⟩ := bind_eq_some.1 read
        cases got
        rw [unanchored] at read
        cases read
      · obtain ⟨⟨anchor, tag⟩, p₂, given, read⟩ := bind_eq_some.1 read
        obtain ⟨place, p₃, placed, read⟩ := bind_eq_some.1 read
        obtain ⟨n', p₄, inner, read⟩ := bind_eq_some.1 read
        obtain rfl : n' = n := by
          dsimp only at read
          split at read
          · obtain ⟨⟨⟩, p₅, -, read⟩ := bind_eq_some.1 read
            cases read
            rfl
          · cases read
            rfl
        have start : startOf p₃.tokens = startOf p.tokens := by
          rw [tokens_of_places placed, startOf_properties given]
        exact start ▸ readFrom_content inner

theorem readFrom_blockValue {fuel : Nat} {n : Node} {later : List Token} (unanchored : p.anchors = [])
    (tokens : p.tokens = .value :: later) (read : (blockValue fuel).run p = some (n, p')) :
    ReadFrom (startOf later) n := by
  cases fuel with
  | zero => cases read
  | succ fuel =>
      rw [blockValue] at read
      obtain ⟨first, p₁, peeked, read⟩ := bind_eq_some.1 read
      cases peeked
      rw [tokens] at read
      obtain ⟨⟨⟩, p₂, skipped, read⟩ := bind_eq_some.1 read
      cases skipped
      obtain ⟨ended, p₃, looked, read⟩ := bind_eq_some.1 read
      obtain ⟨first', p₄, peeked, looked⟩ := bind_eq_some.1 looked
      cases peeked
      cases looked
      split at read
      · exact readFrom_emptyNode read
      · have own : ReadFrom (startOf (p.tokens.drop 1)) n :=
          @readFrom_node { p with tokens := p.tokens.drop 1 } p' fuel .bare n unanchored read
        rwa [tokens] at own

/-! ## The first key -/

theorem run_properties {t : Token} (first : p.tokens.head? = some t) (told : t.start ≠ .open) :
    properties.run p = some ((none, none), p) := by
  obtain ⟨tokens, handles, anchors, anchored, placed, events⟩ := p
  cases tokens with
  | nil => cases first
  | cons t' rest =>
      cases first
      cases t <;> first | exact absurd rfl told | rfl

theorem run_node_scalar {fuel : Nat} {style : Style} {s : ScalarText} (first : p.tokens.head? = some (.scalar s)) :
    (node (fuel + 2) style).run p =
      some (.scalar ⟨s.value, s.isPlain, none⟩, { p with tokens := p.tokens.drop 1, events := p.events + 1 }) := by
  have bare := run_properties first (by simp [Token.start])
  simp [node, content, run_peek, first, bare, run_skip, run_countEvents, scalarTag]

theorem run_node_mapping {fuel : Nat} (first : p.tokens.head? = some .blockMappingStart) :
    (node (fuel + 2) .block).run p =
      ((blockFields fuel).run { p with tokens := p.tokens.drop 1, events := p.events + 2 }).map fun (entries, p') =>
        (.mapping entries, p') := by
  have bare := run_properties first (by simp [Token.start])
  cases read : (blockFields fuel).run { p with tokens := p.tokens.tail, events := p.events + 2 } <;>
    simp [node, content, run_peek, first, bare, run_skip, run_countEvents, read]

theorem firstField_of_blockFields {fuel : Nat} {s : ScalarText} {later : List Token} {fields : List (Node × Node)}
    (unanchored : p.anchors = []) (tokens : p.tokens = .key :: .scalar s :: .value :: later)
    (read : (blockFields (fuel + 3)).run p = some (fields, p')) :
    ∃ v more, fields = (.scalar ⟨s.value, s.isPlain, none⟩, v) :: more ∧ ReadFrom (startOf later) v := by
  have whole : (blockFields (fuel + 3)).run p = (do
      let v ← blockValue (fuel + 2)
      let more ← blockFields (fuel + 2)
      return (.scalar ⟨s.value, s.isPlain, none⟩, v) :: more : Parse _).run
        { p with tokens := .value :: later, events := p.events + 1 } := by
    simp [blockFields, nextIs, run_peek, run_skip, tokens, endsBlockField, run_node_scalar]
  rw [whole] at read
  obtain ⟨v, p₁, value, read⟩ := bind_eq_some.1 read
  obtain ⟨more, p₂, -, read⟩ := bind_eq_some.1 read
  cases read
  have own := @readFrom_blockValue { p with tokens := .value :: later, events := p.events + 1 } p₁ (fuel + 2) v later
    unanchored rfl value
  exact ⟨v, more, rfl, own⟩

theorem root_firstField {fuel : Nat} {s : ScalarText} {later : List Token} {n : Node} (unanchored : p.anchors = [])
    (tokens : p.tokens = .blockMappingStart :: .key :: .scalar s :: .value :: later)
    (read : (root (fuel + 5)).run p = some (n, p')) :
    ∃ v more, n = .mapping ((.scalar ⟨s.value, s.isPlain, none⟩, v) :: more) ∧ ReadFrom (startOf later) v := by
  have first : p.tokens.head? = some .blockMappingStart := by rw [tokens]; rfl
  obtain ⟨t, p₁, peeked, read⟩ := bind_eq_some.1 read
  cases peeked
  rw [first] at read
  have read : (node (fuel + 3 + 2) .block).run p = some (n, p') := read
  rw [run_node_mapping first] at read
  obtain ⟨⟨fields, p₂⟩, inner, same⟩ := Option.map_eq_some_iff.1 read
  cases same
  obtain ⟨v, more, rfl, own⟩ :=
    @firstField_of_blockFields { p with tokens := p.tokens.drop 1, events := p.events + 2 } p' fuel s later fields
      unanchored (by rw [tokens]; rfl) inner
  exact ⟨v, more, rfl, own⟩

end Parse
end FlowScript.Yaml

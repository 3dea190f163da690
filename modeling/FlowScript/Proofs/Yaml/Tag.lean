import FlowScript.Yaml.Tag

namespace FlowScript.Yaml

def Rest.Passes (r r' : Rest) : Prop :=
  r'.pos.line = r.pos.line ∧ ∃ taken, (∀ c ∈ taken, isSpace c = false) ∧ r.chars = taken ++ r'.chars

variable {r r' r'' : Rest}

namespace Rest.Passes

theorem trans (h : r.Passes r') (h' : r'.Passes r'') : r.Passes r'' := by
  obtain ⟨line, taken, solid, split⟩ := h
  obtain ⟨line', taken', solid', split'⟩ := h'
  refine ⟨line'.trans line, taken ++ taken', List.forall_mem_append.2 ⟨solid, solid'⟩, ?_⟩
  rw [split, split', List.append_assoc]

theorem drop {n : Nat} (solid : ∀ c ∈ r.chars.take n, isSpace c = false) : r.Passes (r.drop n) :=
  ⟨rfl, r.chars.take n, solid, (List.take_append_drop n r.chars).symm⟩

theorem refl (r : Rest) : r.Passes r := ⟨rfl, [], by simp, rfl⟩

theorem drop_one {c : Char} {rest : List Char} (chars : r.chars = c :: rest) (solid : isSpace c = false) :
    r.Passes (r.drop 1) :=
  drop (by simpa [chars] using solid)

theorem drop_while {p : Char → Bool} (solid : ∀ c, p c → isSpace c = false) :
    r.Passes (r.drop (r.chars.takeWhile p).length) := by
  refine drop fun c mem => solid c ?_
  rw [← List.prefix_iff_eq_take.1 (List.takeWhile_prefix p)] at mem
  exact List.all_eq_true.1 List.all_takeWhile c mem

end Rest.Passes

theorem Rest.drop_drop (r : Rest) (m n : Nat) : (r.drop m).drop n = r.drop (m + n) := by
  simp [Rest.drop, Position.advance, Nat.add_assoc]

/-! ## Characters -/

theorem solid_of {p : Char → Bool} (refused : [' ', '\t', '\n', '\u2028', '\u2029'].all (!p ·)) (c : Char)
    (own : p c) : isSpace c = false := by
  cases space : isSpace c with
  | false => rfl
  | true =>
      have white : c ∈ [' ', '\t', '\n', '\u2028', '\u2029'] := by
        simp only [isSpace, isBlank, isBreak, Bool.or_eq_true, decide_eq_true_eq] at space
        grind
      have := List.all_eq_true.1 refused c white
      simp [own] at this

theorem solid_of_word (c : Char) (own : isWord c) : isSpace c = false := solid_of (by decide) c own

theorem solid_of_tagChar (c : Char) (own : isTagChar c) : isSpace c = false := solid_of (by decide) c own

theorem solid_of_verbatimChar (c : Char) (own : isVerbatimChar c) : isSpace c = false := solid_of (by decide) c own

theorem solid_of_hex (c : Char) (own : (Digits.hexValue? c).isSome) : isSpace c = false :=
  @solid_of (fun c => (Digits.hexValue? c).isSome) (by decide) c own

/-! ## Escapes -/

theorem percentByte?_eq_some {cs rest : List Char} {n : Nat} (read : percentByte? cs = some (n, rest)) :
    ∃ a b, cs = '%' :: a :: b :: rest ∧ isSpace a = false ∧ isSpace b = false := by
  unfold percentByte? at read
  split at read
  · rename_i a b rest'
    obtain ⟨m, digits, same⟩ := Option.bind_eq_some_iff.1 read
    cases same
    obtain ⟨x, first, digits⟩ := Option.bind_eq_some_iff.1 digits
    obtain ⟨y, second, -⟩ := Option.bind_eq_some_iff.1 digits
    obtain ⟨_, own, -⟩ := Option.map_eq_some_iff.1 first
    obtain ⟨_, own', -⟩ := Option.map_eq_some_iff.1 second
    exact ⟨a, b, rfl, solid_of_hex a (by rw [own]; rfl), solid_of_hex b (by rw [own']; rfl)⟩
  · cases read

theorem solid_triple {a b : Char} {rest : List Char} {n : Nat} (solidA : isSpace a = false) (solidB : isSpace b = false)
    (later : ∀ c ∈ rest.take (3 * n), isSpace c = false) :
    ∀ c ∈ ('%' :: a :: b :: rest).take (3 * (n + 1)), isSpace c = false := by
  have percent : isSpace '%' = false := by decide
  rw [show 3 * (n + 1) = 3 * n + 1 + 1 + 1 by omega]
  simpa [percent, solidA, solidB] using later

theorem solid_of_continuation? {more n m : Nat} {cs rest : List Char}
    (read : continuation? more n cs = some (m, rest)) : ∀ c ∈ cs.take (3 * more), isSpace c = false := by
  induction more generalizing n cs with
  | zero => simp
  | succ more ih =>
      obtain ⟨⟨byte, rest'⟩, first, later⟩ := Option.bind_eq_some_iff.1 read
      obtain ⟨a, b, rfl, solidA, solidB⟩ := percentByte?_eq_some first
      dsimp only at later
      split at later
      · exact solid_triple solidA solidB (ih later)
      · cases later

theorem solid_of_percentChar? {cs : List Char} {d : Char} {n : Nat} (read : percentChar? cs = some (d, n)) :
    ∀ c ∈ cs.take (3 * n), isSpace c = false := by
  obtain ⟨⟨byte, rest⟩, first, later⟩ := Option.bind_eq_some_iff.1 read
  obtain ⟨a, b, rfl, solidA, solidB⟩ := percentByte?_eq_some first
  have further (more bits : Nat)
      (whole : (continuation? more bits rest).bind (fun x => some (Char.ofNat x.1, more + 1)) = some (d, n)) :
      ∀ c ∈ ('%' :: a :: b :: rest).take (3 * n), isSpace c = false := by
    obtain ⟨_, escapes, same⟩ := Option.bind_eq_some_iff.1 whole
    cases same
    exact solid_triple solidA solidB (solid_of_continuation? escapes)
  dsimp only at later
  split at later
  · exact further 0 byte later
  · split at later
    · exact further 1 (byte % 32) later
    · split at later
      · exact further 2 (byte % 16) later
      · split at later
        · exact further 3 (byte % 8) later
        · cases later

/-! ## Anchors and tags -/

theorem passes_of_tagTextFrom {isChar : Char → Bool} (solid : ∀ c, isChar c → isSpace c = false) {fuel : Nat}
    {r r' : Rest} {text value : List Char} (read : tagTextFrom isChar fuel r text = some (value, r')) : r.Passes r' := by
  induction fuel generalizing r text with
  | zero =>
      cases read
      exact .refl _
  | succ fuel ih =>
      rw [tagTextFrom] at read
      split at read
      · cases read
        exact .refl _
      · rename_i c rest chars
        split at read
        · split at read
          · rename_i d n escape
            exact (Rest.Passes.drop (solid_of_percentChar? escape)).trans (ih read)
          · cases read
        · split at read
          · rename_i own
            exact (Rest.Passes.drop_one chars (solid c own)).trans (ih read)
          · cases read
            exact .refl _

theorem passes_of_word? {r r' : Rest} {name : String} (read : word? r = some (name, r')) : r.Passes r' := by
  unfold word? at read
  split at read
  · cases read
  · cases read
    exact .drop_while solid_of_word

theorem passes_of_anchor? {r r' : Rest} {name : String} {c : Char} {rest : List Char} (chars : r.chars = c :: rest)
    (solid : isSpace c = false) (read : anchor? r = some (name, r')) : r.Passes r' := by
  obtain ⟨⟨name', r₁⟩, word, read⟩ := Option.bind_eq_some_iff.1 read
  dsimp only at read
  split at read
  · cases read
    exact (Rest.Passes.drop_one chars solid).trans (passes_of_word? word)
  · cases read

theorem passes_of_handle? {handle : List Char} (read : handle? r = some (handle, r')) : r.Passes r' := by
  unfold handle? at read
  split at read
  · rename_i rest chars
    have named : r.Passes (r.drop (1 + (rest.takeWhile isWord).length)) := by
      have := (Rest.Passes.drop_one chars (by decide)).trans (.drop_while solid_of_word)
      rwa [Rest.drop_drop, show (r.drop 1).chars = rest by rw [Rest.drop, chars]; rfl] at this
    dsimp only at read
    split at read
    · rename_i more marked
      cases read
      exact named.trans (.drop_one marked (by decide))
    · cases read
      exact named
  · cases read

theorem passes_of_tag? {inFlow : Bool} {name : TagName} (read : tag? inFlow r = some (name, r')) : r.Passes r' := by
  have last (own : TagName) (r₁ : Rest)
      (ended : (some (own, r₁)).bind (fun x => if endsTag inFlow x.2.chars then some (x.1, x.2) else none) =
        some (name, r')) : r₁ = r' := by
    rw [Option.bind_some] at ended
    split at ended
    · cases ended
      rfl
    · cases ended
  -- A verbatim tag in brackets, and then a handle with the name behind it.
  unfold tag? at read
  split at read
  · rename_i rest chars
    obtain ⟨⟨text, r₂⟩, inner, ended⟩ := Option.bind_eq_some_iff.1 read
    have start : r.Passes (r.drop 2) := .drop (by simp [chars]; decide)
    have middle := passes_of_tagTextFrom solid_of_verbatimChar inner
    dsimp only at ended
    split at ended
    · cases ended
    · rename_i closed
      obtain rfl := last _ _ ended
      refine start.trans (middle.trans ?_)
      cases chars : r₂.chars with
      | nil => simp [chars] at closed
      | cons c more =>
          have bracket : c = '>' := by simp_all
          subst bracket
          exact .drop_one chars (by decide)
  · obtain ⟨⟨handle, r₂⟩, start, body⟩ := Option.bind_eq_some_iff.1 read
    obtain ⟨⟨text, r₃⟩, inner, ended⟩ := Option.bind_eq_some_iff.1 body
    have passes := (passes_of_handle? start).trans (passes_of_tagTextFrom solid_of_tagChar inner)
    have same : r₃ = r' := by
      dsimp only at ended
      split at ended
      · split at ended
        · cases ended
        · exact last _ _ ended
      · split at ended <;> exact last _ _ ended
    exact same ▸ passes

end FlowScript.Yaml

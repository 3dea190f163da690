import FlowScript.Yaml.Scalar

namespace FlowScript.Yaml

/-! ## White space -/

def Gap.IsWhite (g : Gap) : Prop :=
  (∀ c ∈ g.blanks, isSpace c) ∧ (∀ c ∈ g.firstBreak, isSpace c) ∧ ∀ c ∈ g.moreBreaks, isSpace c

theorem Gap.white_none : Gap.none.IsWhite := by simp [IsWhite, none]

theorem Gap.white_escaped : Gap.escaped.IsWhite := by simp [IsWhite, escaped]

theorem Gap.IsWhite.push {g : Gap} (white : g.IsWhite) {c : Char} (space : isSpace c) : (g.push c).IsWhite := by
  unfold Gap.push
  split
  · split <;> grind [IsWhite]
  · split <;> grind [IsWhite]

theorem Gap.IsWhite.count {g : Gap} (white : g.IsWhite) {mark : Char} (solid : isSpace mark = false) :
    g.text.count mark = 0 := by
  have blank : isSpace ' ' := by decide
  rw [List.count_eq_zero]
  unfold Gap.text
  intro mem
  split at mem
  · split at mem
    · split at mem <;> grind [IsWhite]
    · grind [IsWhite]
    · grind [IsWhite]
  · grind [IsWhite]

variable {gap : Gap} {text value cs : List Char} {pos : Position} {rest : Rest} {mark : Char}

/-! ## Quotes -/

theorem count_of_singleFrom (white : gap.IsWhite) (read : singleFrom gap text pos cs = some (value, rest)) :
    value.count '\'' ≤ text.count '\'' + cs.count '\'' := by
  have behind (g : Gap) (h : g.IsWhite) (text : List Char) : (g.text ++ text).count '\'' = text.count '\'' := by
    rw [List.count_append, h.count (by decide), Nat.zero_add]
  fun_induction singleFrom gap text pos cs with
  | case1 => cases read
  | case2 gap text pos c rest space ih =>
      have := ih (white.push space) read
      grind
  | case3 => cases read
  | case4 gap text pos rest solid unmarked ih =>
      have := ih Gap.white_none read
      rw [List.cons_append, List.count_cons_self, behind gap white] at this
      grind
  | case5 gap text pos rest solid =>
      cases read
      rw [List.count_reverse, behind gap white]
      omega
  | case6 gap text pos c rest solid unmarked other ih =>
      have := ih Gap.white_none read
      rw [List.cons_append, List.count_cons_of_ne other, behind gap white] at this
      grind

def countMarks (cs : List Char) : Nat := cs.count '"' + cs.count '\\'

theorem countMarks_cons_le (c : Char) (cs : List Char) : countMarks (c :: cs) ≤ countMarks cs + 1 := by
  grind [countMarks]

theorem Gap.IsWhite.countMarks {g : Gap} (white : g.IsWhite) (text : List Char) :
    countMarks (g.text ++ text) = countMarks text := by
  have quotes : g.text.count '"' = 0 := white.count (by decide)
  have slashes : g.text.count '\\' = 0 := white.count (by decide)
  simp [Yaml.countMarks, quotes, slashes]

theorem count_of_doubleFrom (white : gap.IsWhite) (read : doubleFrom gap text pos cs = some (value, rest)) :
    countMarks value ≤ countMarks text + cs.count '\\' := by
  -- All escapes alike: the backslash pays for the one character, and what is left is part of the text behind it.
  have escape {gap : Gap} (h : gap.IsWhite) {d : Char} {text cs left : List Char} (part : left.Sublist cs)
      (ih : countMarks value ≤ countMarks (d :: (gap.text ++ text)) + left.count '\\') :
      countMarks value ≤ countMarks text + ('\\' :: cs).count '\\' := by
    have first := countMarks_cons_le d (gap.text ++ text)
    have later := part.count_le '\\'
    rw [h.countMarks] at first
    rw [List.count_cons_self]
    omega
  fun_induction doubleFrom gap text pos cs with
  | case2 gap text pos c rest space ih =>
      have := ih (white.push space) read
      grind
  | case4 gap text pos =>
      cases read
      have same := white.countMarks text
      simp only [countMarks, List.count_reverse] at same ⊢
      omega
  | case6 gap text pos _ a b left d _ _ _ _ ih =>
      exact escape white (List.sublist_append_right ['x', a, b] left) (ih Gap.white_none read)
  | case8 gap text pos _ a b c e left d _ _ _ _ ih =>
      exact escape white (List.sublist_append_right ['u', a, b, c, e] left) (ih Gap.white_none read)
  | case10 gap text pos _ a b c e f g h i left d _ _ _ _ ih =>
      exact escape white (List.sublist_append_right ['U', a, b, c, e, f, g, h, i] left) (ih Gap.white_none read)
  | case12 gap text pos _ e left _ _ _ _ _ _ _ ih =>
      have := ih Gap.white_escaped read
      have same := white.countMarks text
      grind
  | case13 gap text pos _ e left _ _ _ _ d _ _ _ _ ih =>
      exact escape white (List.sublist_cons_self e left) (ih Gap.white_none read)
  | case15 gap text pos c left solid _ unquoted unescaped ih =>
      have := ih Gap.white_none read
      have same := white.countMarks text
      grind [countMarks]
  | _ => cases read

theorem count_of_quoted? {c : Char} {cs : List Char} (read : quoted? ⟨c :: cs, pos⟩ = some (value, rest)) :
    (c = '\'' ∧ value.count '\'' ≤ cs.count '\'') ∨ (c = '"' ∧ countMarks value ≤ cs.count '\\') := by
  unfold quoted? at read
  split at read
  · rename_i single
    cases single
    exact .inl ⟨rfl, by simpa using count_of_singleFrom Gap.white_none read⟩
  · rename_i double
    cases double
    exact .inr ⟨rfl, by simpa [countMarks] using count_of_doubleFrom Gap.white_none read⟩
  · cases read

/-! ## Blocks -/

def BlockState.count (s : BlockState) (mark : Char) : Nat :=
  s.text.count mark + s.lineEnd.toList.count mark + s.emptyLines.count mark

theorem BlockState.count_finish (s : BlockState) (chomping : Chomping) (mark : Char) :
    (s.finish chomping).count mark ≤ s.count mark := by
  unfold BlockState.count
  cases chomping <;> simp only [finish, List.count_reverse, List.count_append] <;> omega

theorem BlockState.count_openLine (s : BlockState) (literal : Bool) (c : Char) (solid : isSpace mark = false) :
    (s.openLine literal c).count mark ≤ s.count mark := by
  have blank : ' ' ≠ mark := by
    rintro rfl
    cases solid
  unfold BlockState.count openLine
  grind

theorem count_of_blockFrom {h : BlockHeader} {parent : Int} {inText : Bool} {s : BlockState}
    (solid : isSpace mark = false) (read : blockFrom h parent inText s pos cs = some (value, rest)) :
    value.count mark ≤ s.count mark + cs.count mark := by
  fun_induction blockFrom h parent inText s pos cs with
  | case1 inText s pos =>
      cases read
      exact Nat.le_add_right_of_le (s.count_finish h.chomping mark)
  | case2 s pos c left _ ih | case3 s pos c left _ ih | case4 inText s pos c left _ _ ih
  | case6 inText s pos c left _ _ _ _ ih =>
      have := ih read
      grind [BlockState.count]
  | case5 => cases read
  | case7 inText s pos c left _ _ _ _ s₁ _ s₂ ih =>
      have := ih read
      have opened := s₁.count_openLine h.literal c solid
      grind [BlockState.count]
  | case8 inText s pos c left _ _ _ _ s₁ =>
      cases read
      exact Nat.le_add_right_of_le (s₁.count_finish h.chomping mark)

theorem suffix_dropWhile (r : Rest) (p : Char → Bool) : (r.dropWhile p).chars <:+ r.chars := List.drop_suffix _ _

theorem suffix_of_endLine? {r r' : Rest} (ended : r.endLine? = some r') : r'.chars <:+ r.chars := by
  have behind (r : Rest) : r.dropBreak.chars <:+ r.chars := by
    unfold Rest.dropBreak
    split
    · rename_i c left chars
      split
      · exact chars ▸ List.suffix_cons c left
      · exact List.suffix_rfl
    · exact List.suffix_rfl
  have comment : (if (r.dropWhile isBlank).chars.head? = some '#' then (r.dropWhile isBlank).dropLine
      else r.dropWhile isBlank).chars <:+ r.chars := by
    split
    · exact (suffix_dropWhile _ _).trans (suffix_dropWhile _ _)
    · exact suffix_dropWhile _ _
  unfold Rest.endLine? at ended
  dsimp only at ended
  generalize (if (r.dropWhile isBlank).chars.head? = some '#' then (r.dropWhile isBlank).dropLine
      else r.dropWhile isBlank) = r₁ at comment ended
  split at ended
  · cases ended
    exact (behind r₁).trans comment
  · cases ended

theorem count_of_block? {parent : Int} {c : Char} {cs : List Char} (solid : isSpace mark = false)
    (read : block? parent ⟨c :: cs, pos⟩ = some (value, rest)) : value.count mark ≤ cs.count mark := by
  unfold block? at read
  dsimp only at read
  split at read
  · cases read
  · obtain ⟨r, ended, read⟩ := Option.bind_eq_some_iff.1 read
    have within : r.chars.Sublist (cs.drop (blockMarks cs).2.2) := by
      have := (suffix_of_endLine? ended).sublist
      rwa [Rest.drop, Nat.add_comm, List.drop_succ_cons] at this
    have fewer := (within.trans (List.drop_sublist _ _)).count_le mark
    have := count_of_blockFrom solid read
    simp only [BlockState.count, List.count_nil, Option.toList_none] at this
    omega

end FlowScript.Yaml

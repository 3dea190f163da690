import Mathlib.Data.List.Basic
import FlowScript.Template

/-!
# What a template says

A template splits into literals and placeholders in one way only, if no literal may contain a placeholder
(`Template.Splits`). Rendering keeps the literals and fills the placeholders, and the keys of the template are the keys
of its placeholders (`Template.render_exact`).
-/

namespace FlowScript.Template

/-! ## Literals and placeholders -/

def IsKey (key : List Char) : Prop := key ≠ [] ∧ ∀ c ∈ key, c.isAlphanum ∨ c = '_'

def placeholder (key : List Char) : List Char := '{' :: key ++ ['}']

/-- A literal, and then keys, each with the literal behind it. -/
structure Parts where
  lead : List Char
  rest : List (List Char × List Char)

namespace Parts

def literals (p : Parts) : List (List Char) := p.lead :: p.rest.map Prod.snd

def keys (p : Parts) : List (List Char) := p.rest.map Prod.fst

def fill (p : Parts) (put : List Char → List Char) : List Char :=
  p.lead ++ p.rest.flatMap fun hole => put hole.1 ++ hole.2

end Parts

/-- The parts make up the text, and no placeholder is left in a literal. -/
structure Splits (p : Parts) (cs : List Char) : Prop where
  whole : p.fill placeholder = cs
  keys : ∀ key ∈ p.keys, IsKey key
  plain : ∀ text ∈ p.literals, ∀ key, IsKey key → ¬ placeholder key <:+: text

/-- The items that occur, each once, and one before another if it occurs first before the other does. -/
def FirstAppearances {β : Type} [BEq β] (items firsts : List β) : Prop :=
  (∀ a, a ∈ firsts ↔ a ∈ items) ∧ firsts.Pairwise fun a b => items.idxOf a < items.idxOf b

/-! ## The next brace -/

theorem notMem_of_cut? {c : Char} {cs : List Char} (uncut : cut? c cs = none) : c ∉ cs := by
  induction cs with
  | nil => exact List.not_mem_nil
  | cons d cs ih =>
      rw [cut?] at uncut
      split at uncut
      · cases uncut
      · rename_i other
        split at uncut
        · cases uncut
        · rename_i later
          exact List.not_mem_cons_of_ne_of_not_mem (Ne.symm other) (ih later)

theorem cut?_append {c : Char} {before : List Char} (fresh : c ∉ before) (after : List Char) :
    cut? c (before ++ c :: after) = some (before, after) := by
  induction before with
  | nil => exact if_pos rfl
  | cons d before ih =>
      obtain ⟨other, fresh⟩ := List.ne_and_not_mem_of_not_mem_cons fresh
      rw [List.cons_append, cut?, if_neg other.symm, ih fresh]

theorem eq_append_of_cut? {c : Char} {cs before after : List Char} (cut : cut? c cs = some (before, after)) :
    cs = before ++ c :: after ∧ c ∉ before := by
  induction cs generalizing before with
  | nil => cases cut
  | cons d cs ih =>
      rw [cut?] at cut
      split at cut
      · rename_i same
        cases cut
        exact ⟨congrArg (· :: after) same, List.not_mem_nil⟩
      · rename_i other
        split at cut
        · rename_i later
          cases cut
          obtain ⟨rfl, fresh⟩ := ih later
          exact ⟨rfl, List.not_mem_cons_of_ne_of_not_mem (Ne.symm other) fresh⟩
        · cases cut

/-! ## Keys behind a brace -/

theorem isKey_iff {key : List Char} : isKey key = true ↔ IsKey key := by
  simp [isKey, IsKey, isKeyChar]

theorem IsKey.notMem {key : List Char} (h : IsKey key) {c : Char} (other : isKeyChar c = false) : c ∉ key := by
  intro mem
  have isKeyChar : isKeyChar c = true := by simpa [isKeyChar] using h.2 c mem
  rw [isKeyChar] at other
  cases other

theorem key?_eq_some_iff {cs key rest : List Char} :
    key? cs = some (key, rest) ↔ IsKey key ∧ cs = key ++ '}' :: rest := by
  constructor
  · intro found
    unfold key? at found
    split at found
    · rename_i cut
      split at found
      · rename_i isKey
        cases found
        exact ⟨isKey_iff.1 isKey, (eq_append_of_cut? cut).1⟩
      · cases found
    · cases found
  · rintro ⟨isKey, rfl⟩
    rw [key?, cut?_append (isKey.notMem (by decide))]
    exact if_pos (isKey_iff.2 isKey)

/-! ## Pieces

Rendering and listing the keys go from brace to brace, each on its own. Both are read off the same pieces of the
template, which are found one character after the other (`renderFrom_eq`, `keysFrom_eq`). -/

inductive Segment where
  | text (c : Char)
  | hole (key : List Char)

def Segment.render (lookup : String → Option String) : Segment → List Char
  | .text c => [c]
  | .hole key => ((lookup (String.ofList key)).getD "").toList

def Segment.key? : Segment → Option String
  | .text _ => none
  | .hole key => some (String.ofList key)

def segments : List Char → List Segment
  | [] => []
  | c :: rest =>
      if c = '{' then
        match _ : key? rest with
        | some (key, after) => .hole key :: segments after
        | none => .text c :: segments rest
      else .text c :: segments rest
termination_by cs => cs.length
decreasing_by
  · exact Nat.lt_succ_of_lt (length_lt_of_key? ‹_›)
  · exact Nat.lt_succ_self _
  · exact Nat.lt_succ_self _

theorem segments_append {before : List Char} (noBrace : '{' ∉ before) (cs : List Char) :
    segments (before ++ cs) = before.map .text ++ segments cs := by
  induction before with
  | nil => rfl
  | cons c before ih =>
      obtain ⟨other, noBrace⟩ := List.ne_and_not_mem_of_not_mem_cons noBrace
      rw [List.cons_append, segments, if_neg (Ne.symm other), ih noBrace]
      rfl

theorem segments_of_plain {cs : List Char} (noBrace : '{' ∉ cs) : segments cs = cs.map .text := by
  simpa [segments] using segments_append noBrace []

theorem segments_hole {cs key rest : List Char} (found : key? cs = some (key, rest)) :
    segments ('{' :: cs) = .hole key :: segments rest := by
  rw [segments, if_pos rfl]
  split <;> simp_all

theorem segments_brace {cs : List Char} (missing : key? cs = none) :
    segments ('{' :: cs) = .text '{' :: segments cs := by
  rw [segments, if_pos rfl]
  split <;> simp_all

theorem flatMap_render_text (lookup : String → Option String) (cs : List Char) :
    (cs.map Segment.text).flatMap (Segment.render lookup) = cs := by
  rw [List.flatMap_map]
  exact List.flatMap_singleton' cs

theorem filterMap_key?_text (cs : List Char) : (cs.map Segment.text).filterMap Segment.key? = [] := by
  simp [Segment.key?]

theorem renderFrom_eq (lookup : String → Option String) (cs : List Char) :
    renderFrom lookup cs = (segments cs).flatMap (Segment.render lookup) := by
  fun_induction renderFrom lookup cs with
  | case1 cs noBrace => rw [segments_of_plain (notMem_of_cut? noBrace), flatMap_render_text]
  | case2 cs before after cut key rest found ih =>
      obtain ⟨rfl, noBrace⟩ := eq_append_of_cut? cut
      rw [segments_append noBrace, segments_hole found, List.flatMap_append, flatMap_render_text, ih, List.append_assoc]
      rfl
  | case3 cs before after cut missing ih =>
      obtain ⟨rfl, noBrace⟩ := eq_append_of_cut? cut
      rw [segments_append noBrace, segments_brace missing, List.flatMap_append, flatMap_render_text, ih]
      rfl

theorem keysFrom_eq (seen : List String) (cs : List Char) :
    keysFrom seen cs = ((segments cs).filterMap Segment.key?).foldl addNew seen := by
  fun_induction keysFrom seen cs with
  | case1 seen cs noBrace =>
      rw [segments_of_plain (notMem_of_cut? noBrace), filterMap_key?_text]
      rfl
  | case2 seen cs before after cut key rest found ih =>
      obtain ⟨rfl, noBrace⟩ := eq_append_of_cut? cut
      rw [segments_append noBrace, segments_hole found, List.filterMap_append, filterMap_key?_text, ih]
      rfl
  | case3 seen cs before after cut missing ih =>
      obtain ⟨rfl, noBrace⟩ := eq_append_of_cut? cut
      rw [segments_append noBrace, segments_brace missing, List.filterMap_append, filterMap_key?_text, ih]
      rfl

/-! ## The parts of a template -/

theorem placeholder_append (key rest : List Char) : placeholder key ++ rest = '{' :: (key ++ '}' :: rest) := by
  simp [placeholder]

namespace Parts
variable (put : List Char → List Char)

theorem fill_text (c : Char) (lead : List Char) (rest : List (List Char × List Char)) :
    fill ⟨c :: lead, rest⟩ put = c :: fill ⟨lead, rest⟩ put := rfl

theorem fill_hole (key text : List Char) (rest : List (List Char × List Char)) :
    fill ⟨[], (key, text) :: rest⟩ put = put key ++ fill ⟨text, rest⟩ put := by
  simp [fill]

def ofSegments : List Segment → Parts
  | [] => ⟨[], []⟩
  | .text c :: segments => ⟨c :: (ofSegments segments).lead, (ofSegments segments).rest⟩
  | .hole key :: segments => ⟨[], (key, (ofSegments segments).lead) :: (ofSegments segments).rest⟩

variable {put}

theorem fill_ofSegments {write : Segment → List Char} (text : ∀ c, write (.text c) = [c])
    (hole : ∀ key, write (.hole key) = put key) (segments : List Segment) :
    (ofSegments segments).fill put = segments.flatMap write := by
  induction segments with
  | nil => rfl
  | cons segment segments ih =>
      rw [List.flatMap_cons, ← ih]
      cases segment with
      | text c => rw [text, ofSegments, fill_text, List.singleton_append]
      | hole key => rw [hole, ofSegments, fill_hole]

theorem keys_ofSegments (segments : List Segment) :
    (ofSegments segments).keys.map String.ofList = segments.filterMap Segment.key? := by
  induction segments with
  | nil => rfl
  | cons segment segments ih =>
      cases segment with
      | text c => exact ih
      | hole key => exact congrArg (String.ofList key :: ·) ih

end Parts

theorem splits_nil : Splits ⟨[], []⟩ [] where
  whole := rfl
  keys := by simp [Parts.keys]
  plain := by simp [Parts.literals, placeholder]

theorem Splits.hole {key rest : List Char} {p : Parts} (isKey : IsKey key) (h : Splits p rest) :
    Splits ⟨[], (key, p.lead) :: p.rest⟩ ('{' :: (key ++ '}' :: rest)) where
  whole := by rw [Parts.fill_hole, h.whole, placeholder_append]
  keys := List.forall_mem_cons.2 ⟨isKey, h.keys⟩
  plain := List.forall_mem_cons.2 ⟨by simp [placeholder], h.plain⟩

theorem Splits.text {c : Char} {rest : List Char} {p : Parts} (noKey : c = '{' → key? rest = none)
    (h : Splits p rest) : Splits ⟨c :: p.lead, p.rest⟩ (c :: rest) where
  whole := by rw [Parts.fill_text, h.whole]
  keys := h.keys
  plain := by
    obtain ⟨plain, later⟩ := List.forall_mem_cons.1 h.plain
    refine List.forall_mem_cons.2 ⟨fun key isKey inside => ?_, later⟩
    rcases List.infix_cons_iff.1 inside with front | inside
    · -- What follows the brace in the literal follows it in the text as well.
      obtain ⟨brace, front⟩ := List.cons_prefix_cons.1 front
      obtain ⟨after, text⟩ := front.trans ⟨_, h.whole⟩
      have found : key? rest = some (key, after) := by
        rw [key?_eq_some_iff, ← text]
        exact ⟨isKey, by simp⟩
      rw [noKey brace.symm] at found
      cases found
    · exact plain key isKey inside

theorem splits_ofSegments (cs : List Char) : Splits (Parts.ofSegments (segments cs)) cs := by
  fun_induction segments cs with
  | case1 => exact splits_nil
  | case2 rest key after found ih =>
      obtain ⟨isKey, rfl⟩ := key?_eq_some_iff.1 found
      exact ih.hole isKey
  | case3 rest missing ih => exact ih.text fun _ => missing
  | case4 c rest other ih => exact ih.text fun brace => absurd brace other

/-! ## No other parts -/

theorem Splits.eq_of_nil {p : Parts} (h : Splits p []) : p = ⟨[], []⟩ := by
  obtain ⟨lead, holes⟩ := p
  obtain ⟨rfl, empty⟩ := List.append_eq_nil_iff.1 h.whole
  cases holes with
  | nil => rfl
  | cons hole holes => simp [placeholder] at empty

theorem Splits.exists_of_text {c : Char} {rest : List Char} {p : Parts} (noKey : c = '{' → key? rest = none)
    (h : Splits p (c :: rest)) : ∃ p' : Parts, p = ⟨c :: p'.lead, p'.rest⟩ ∧ Splits p' rest := by
  have whole := h.whole
  obtain ⟨lead, holes⟩ := p
  cases lead with
  | nil =>
      cases holes with
      | nil => cases whole
      | cons hole holes =>
          obtain ⟨key, text⟩ := hole
          rw [Parts.fill_hole, placeholder_append] at whole
          obtain ⟨brace, behind⟩ := List.cons.inj whole
          have found := key?_eq_some_iff.2 ⟨h.keys key List.mem_cons_self, behind.symm⟩
          rw [noKey brace.symm] at found
          cases found
  | cons d lead =>
      rw [Parts.fill_text] at whole
      obtain ⟨rfl, behind⟩ := List.cons.inj whole
      obtain ⟨plain, later⟩ := List.forall_mem_cons.1 h.plain
      refine ⟨⟨lead, holes⟩, rfl, behind, h.keys, List.forall_mem_cons.2 ⟨fun key isKey inside => ?_, later⟩⟩
      exact plain key isKey (List.infix_cons inside)

theorem head_flatMap_placeholder {holes : List (List Char × List Char)} {c : Char} {cs : List Char}
    (h : (holes.flatMap fun hole => placeholder hole.1 ++ hole.2) = c :: cs) : c = '{' := by
  cases holes with
  | nil => cases h
  | cons hole holes => exact (List.cons.inj h).1.symm

theorem Splits.lead_eq_nil {key rest : List Char} {p : Parts} (isKey : IsKey key)
    (h : Splits p ('{' :: (key ++ '}' :: rest))) : p.lead = [] := by
  have whole := h.whole
  have plain := h.plain _ List.mem_cons_self key isKey
  rw [← placeholder_append, Parts.fill, List.append_eq_append_iff] at whole
  rcases whole with ⟨left, written, behind⟩ | ⟨left, longer, -⟩
  · cases left with
    | nil =>
        rw [List.append_nil] at written
        exact absurd (written ▸ List.infix_rfl) plain
    | cons b left =>
        cases lead : p.lead with
        | nil => rfl
        | cons d lead' =>
            rw [lead, placeholder, List.cons_append] at written
            have inside : '{' ∈ key ++ ['}'] := by
              rw [(List.cons.inj written).2, head_flatMap_placeholder behind]
              simp
            rcases List.mem_append.1 inside with mem | mem
            · exact absurd mem (isKey.notMem (by decide))
            · simp at mem
  · exact absurd ⟨[], left, longer.symm⟩ plain

theorem Splits.exists_of_hole {key rest : List Char} {p : Parts} (isKey : IsKey key)
    (h : Splits p ('{' :: (key ++ '}' :: rest))) :
    ∃ p' : Parts, p = ⟨[], (key, p'.lead) :: p'.rest⟩ ∧ Splits p' rest := by
  have noLead := h.lead_eq_nil isKey
  have whole := h.whole
  obtain ⟨lead, holes⟩ := p
  obtain rfl : lead = [] := noLead
  cases holes with
  | nil => cases whole
  | cons hole holes =>
      obtain ⟨key', text⟩ := hole
      obtain ⟨isKey', keys⟩ := List.forall_mem_cons.1 h.keys
      rw [Parts.fill_hole, placeholder_append] at whole
      have found := key?_eq_some_iff.2 ⟨isKey', (List.cons.inj whole).2.symm⟩
      rw [key?_eq_some_iff.2 ⟨isKey, rfl⟩] at found
      obtain ⟨rfl, rfl⟩ := Prod.mk.inj (Option.some.inj found)
      exact ⟨⟨text, holes⟩, rfl, rfl, keys, (List.forall_mem_cons.1 h.plain).2⟩

theorem Splits.eq_ofSegments {p : Parts} {cs : List Char} (h : Splits p cs) :
    p = Parts.ofSegments (segments cs) := by
  fun_induction segments cs generalizing p with
  | case1 => exact h.eq_of_nil
  | case2 rest key after found ih =>
      obtain ⟨isKey, rfl⟩ := key?_eq_some_iff.1 found
      obtain ⟨p', rfl, later⟩ := h.exists_of_hole isKey
      rw [ih later, Parts.ofSegments]
  | case3 rest missing ih =>
      obtain ⟨p', rfl, later⟩ := h.exists_of_text fun _ => missing
      rw [ih later, Parts.ofSegments]
  | case4 c rest other ih =>
      obtain ⟨p', rfl, later⟩ := h.exists_of_text fun brace => absurd brace other
      rw [ih later, Parts.ofSegments]

/-! ## Keys in the order of their first appearance -/

theorem FirstAppearances.nodup {β : Type} [BEq β] {items firsts : List β} (h : FirstAppearances items firsts) :
    firsts.Nodup :=
  h.2.imp fun less => ne_of_apply_ne items.idxOf (Nat.ne_of_lt less)

section
variable {β : Type} [BEq β] [LawfulBEq β]

theorem FirstAppearances.snoc {items firsts : List β} (h : FirstAppearances items firsts) (a : β) :
    FirstAppearances (items ++ [a]) (addNew firsts a) := by
  unfold addNew
  obtain ⟨same, ordered⟩ := h
  have old : firsts.Pairwise fun b c => (items ++ [a]).idxOf b < (items ++ [a]).idxOf c := by
    refine ordered.imp_of_mem fun mem mem' less => ?_
    rwa [List.idxOf_append_of_mem ((same _).1 mem), List.idxOf_append_of_mem ((same _).1 mem')]
  split
  · rename_i seen
    rw [List.contains_iff_mem, same] at seen
    refine ⟨fun b => ?_, old⟩
    rw [same, List.mem_append, List.mem_singleton]
    exact ⟨.inl, fun mem => mem.elim id fun isLast => isLast ▸ seen⟩
  · rename_i new
    rw [List.contains_iff_mem, same] at new
    refine ⟨fun b => by simp [same], List.pairwise_append.2 ⟨old, List.pairwise_singleton _ _, ?_⟩⟩
    intro b mem c isLast
    obtain rfl := List.mem_singleton.1 isLast
    have before := (same b).1 mem
    rw [List.idxOf_append_of_mem before, List.idxOf_append_of_notMem new]
    exact Nat.lt_add_right _ (List.idxOf_lt_length_iff.2 before)

theorem firstAppearances_distinct (items : List β) : FirstAppearances items (distinct items) := by
  suffices gathered : ∀ before seen, FirstAppearances before seen →
      FirstAppearances (before ++ items) (items.foldl addNew seen) from
    gathered [] [] ⟨by simp, .nil⟩
  induction items with
  | nil => simp
  | cons a items ih =>
      intro before seen h
      rw [List.foldl_cons, List.append_cons]
      exact ih _ _ (h.snoc a)

end

/-! ## Rendering -/

theorem render_eq (t : String) (f : String → Option String) :
    render t f = String.ofList ((segments t.toList).flatMap (Segment.render f)) :=
  congrArg String.ofList (renderFrom_eq f t.toList)

theorem keys_eq (t : String) : keys t = distinct ((segments t.toList).filterMap Segment.key?) := keysFrom_eq [] t.toList

theorem render_append {before : String} (noBrace : '{' ∉ before.toList) (after : String) (f : String → Option String) :
    render (before ++ after) f = before ++ render after f := by
  rw [render_eq, render_eq, String.toList_append, segments_append noBrace, List.flatMap_append, flatMap_render_text,
    String.ofList_append, String.ofList_toList]

theorem render_plain {t : String} (noBrace : '{' ∉ t.toList) (f : String → Option String) : render t f = t := by
  rw [render_eq, segments_of_plain noBrace, flatMap_render_text, String.ofList_toList]

theorem render_hole {key : String} (isKey : IsKey key.toList) (after : String) (f : String → Option String) :
    render ("\x7b" ++ key ++ "\x7d" ++ after) f = (f key).getD "" ++ render after f := by
  have text : ("\x7b" ++ key ++ "\x7d" ++ after).toList = '{' :: (key.toList ++ '}' :: after.toList) := by simp
  have found : key? (key.toList ++ '}' :: after.toList) = some (key.toList, after.toList) :=
    key?_eq_some_iff.2 ⟨isKey, rfl⟩
  rw [render_eq, render_eq, text, segments_hole found, List.flatMap_cons, Segment.render, String.ofList_append,
    String.ofList_toList, String.ofList_toList]

theorem render_congr {t : String} {f f' : String → Option String} (same : ∀ key ∈ keys t, f key = f' key) :
    render t f = render t f' := by
  rw [render_eq, render_eq]
  refine congrArg String.ofList (List.flatMap_congr fun segment mem => ?_)
  cases segment with
  | text c => rfl
  | hole key =>
      have among : String.ofList key ∈ keys t := by
        rw [keys_eq, (firstAppearances_distinct _).1]
        exact List.mem_filterMap.2 ⟨.hole key, mem, rfl⟩
      rw [Segment.render, Segment.render, same _ among]

/-- A template is its parts, of which there is one choice only. Rendering puts the value of each key in the place of its
placeholder, or nothing if the key has none, and the values it puts there are not read again. Its keys are those
of the parts, so that the rendered text depends on the values of these keys alone, and placeholders in the places of
placeholders leave the template as it was. -/
theorem render_exact (t : String) :
    ∃ p, Splits p t.toList ∧ (∀ p', Splits p' t.toList → p' = p) ∧
      (∀ f, render t f = String.ofList (p.fill fun key => ((f (String.ofList key)).getD "").toList)) ∧
      FirstAppearances (p.keys.map String.ofList) (keys t) ∧
      (∀ f f', (∀ key ∈ keys t, f key = f' key) → render t f = render t f') ∧
      render t (fun key => some ("\x7b" ++ key ++ "\x7d")) = t := by
  let p := Parts.ofSegments (segments t.toList)
  have rendered : ∀ f, render t f = String.ofList (p.fill fun key => ((f (String.ofList key)).getD "").toList) := by
    intro f
    rw [render_eq]
    exact congrArg String.ofList (Parts.fill_ofSegments (fun _ => rfl) (fun _ => rfl) _).symm
  have firsts : FirstAppearances (p.keys.map String.ofList) (keys t) := by
    rw [Parts.keys_ofSegments, keys_eq]
    exact firstAppearances_distinct _
  have splits : Splits p t.toList := splits_ofSegments _
  refine ⟨p, splits, fun p' h => h.eq_ofSegments, rendered, firsts, fun f f' same => render_congr same, ?_⟩
  have written : ∀ key : List Char,
      ((some ("\x7b" ++ String.ofList key ++ "\x7d")).getD "").toList = placeholder key := by
    simp [placeholder]
  rw [rendered]
  simp only [written, splits.whole, String.ofList_toList]

example :
    let t := "\x7b\x7ba\x7d \x7b\x7d \x7b b \x7d \x7b\x7bb\x7d\x7d\x7ba\x7d\x7b"
    keys t = ["a", "b"] ∧
      render t (fun key => if key = "a" then some "\x7bb\x7d" else none) =
        "\x7b\x7bb\x7d \x7b\x7d \x7b b \x7d \x7b\x7d\x7bb\x7d\x7b" := by
  decide +kernel

end FlowScript.Template

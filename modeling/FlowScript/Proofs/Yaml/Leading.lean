import FlowScript.Proofs.Yaml.Scan
import FlowScript.Proofs.Yaml.Tag
import Mathlib.Logic.Basic
import FlowScript.Proofs.Lists

/-!
# The first tokens of a node

The scanner puts a token behind those it has, or the mark of a key or of a block in between. So a scalar that starts a
node when all tokens are read has started it from the time when it was read on.
-/

namespace FlowScript.Yaml

/-! ## What a node starts with -/

/-- What the first tokens of a node tell: nothing yet, as long as they are anchors and tags; or that it is a scalar; or
that it is another kind of node, or empty. -/
inductive Start where
  | open
  | scalar (s : ScalarText)
  | other
  deriving DecidableEq

def Token.start : Token → Start
  | .anchor _ | .tag _ => .open
  | .scalar s => .scalar s
  | _ => .other

def startOf : List Token → Start
  | [] => .open
  | t :: rest => if t.start = .open then startOf rest else t.start

def Start.Grows : Start → Start → Prop
  | .open, _ | _, .other => True
  | .scalar s, .scalar t => s = t
  | _, _ => False

theorem Start.Grows.refl (s : Start) : s.Grows s := by
  cases s <;> simp [Grows]

theorem Start.Grows.trans {s t u : Start} (h : s.Grows t) (h' : t.Grows u) : s.Grows u := by
  cases s <;> cases t <;> cases u <;> simp_all [Grows]

theorem startOf_append (ts us : List Token) :
    startOf (ts ++ us) = if startOf ts = .open then startOf us else startOf ts := by
  induction ts with
  | nil => simp [startOf]
  | cons t rest ih =>
      rw [List.cons_append, startOf, startOf, ih]
      by_cases here : t.start = .open <;> simp [here]

theorem startOf_insert (ts us : List Token) {mark : Token} (own : mark.start = .other) :
    startOf (ts ++ mark :: us) = startOf (ts ++ us) ∨ startOf (ts ++ mark :: us) = .other := by
  rw [startOf_append, startOf_append]
  by_cases here : startOf ts = .open
  · simp [here, startOf, own]
  · simp [here]

namespace Scanner

/-- The tokens begin with some that stay, since no key candidate reaches back before them; others follow. -/
structure Behind (head : List Token) (s : Scanner) (later : List Token) : Prop where
  tokens : s.tokens.reverse = head ++ later
  candidate : ∀ k ∈ s.candidate, head.length ≤ k.tokensBefore
  outerCandidates : ∀ c ∈ s.outerCandidates, ∀ k ∈ c, head.length ≤ k.tokensBefore

def Keeps (head : List Token) (s s' : Scanner) : Prop :=
  ∀ later, Behind head s later → ∃ later', Behind head s' later' ∧
    (startOf later' = startOf later ∨ startOf later' = .other)

def Extends (head : List Token) (s s' : Scanner) : Prop :=
  ∀ later, Behind head s later → ∃ later', Behind head s' later' ∧ (startOf later).Grows (startOf later')

variable {head : List Token} {s s' s'' : Scanner}

theorem Keeps.refl (s : Scanner) : Keeps head s s := fun later behind => ⟨later, behind, .inl rfl⟩

theorem Keeps.trans (h : Keeps head s s') (h' : Keeps head s' s'') : Keeps head s s'' := by
  intro later behind
  obtain ⟨later', behind', same⟩ := h later behind
  obtain ⟨later'', behind'', same'⟩ := h' later' behind'
  refine ⟨later'', behind'', ?_⟩
  rcases same' with same' | other
  · exact same'.symm ▸ same
  · exact .inr other

theorem keeps_of_same (tokens : s'.tokens = s.tokens)
    (candidate : ∀ k ∈ s'.candidate, k ∈ s.candidate ∨ some k ∈ s.outerCandidates ∨ k.tokensBefore = s.tokens.length)
    (outerCandidates : ∀ c ∈ s'.outerCandidates, ∀ k ∈ c,
      k ∈ s.candidate ∨ some k ∈ s.outerCandidates ∨ k.tokensBefore = s.tokens.length) : Keeps head s s' := by
  intro later behind
  have enough (k : KeyCandidate)
      (own : k ∈ s.candidate ∨ some k ∈ s.outerCandidates ∨ k.tokensBefore = s.tokens.length) :
      head.length ≤ k.tokensBefore := by
    rcases own with own | own | all
    · exact behind.candidate k own
    · exact behind.outerCandidates _ own k rfl
    · have := congrArg List.length behind.tokens
      rw [List.length_reverse, List.length_append] at this
      omega
  refine ⟨later, ⟨by rw [tokens, behind.tokens], fun k own => enough k (candidate k own),
    fun c mem k own => ?_⟩, .inl rfl⟩
  exact enough k (outerCandidates c mem k own)

theorem keeps_of_eq (tokens : s'.tokens = s.tokens) (candidate : s'.candidate = s.candidate)
    (outerCandidates : s'.outerCandidates = s.outerCandidates) : Keeps head s s' :=
  keeps_of_same tokens (fun _ own => .inl (candidate ▸ own)) fun _ mem _ own =>
    .inr (.inl (outerCandidates ▸ own ▸ mem))

theorem tokens_insertAt (s : Scanner) (n : Nat) (t : Token) :
    (s.insertAt n t).tokens.reverse = s.tokens.reverse.take n ++ t :: s.tokens.reverse.drop n := by
  rw [insertAt, List.reverse_append, List.reverse_cons, List.append_assoc, List.singleton_append, List.take_reverse,
    List.drop_reverse]

theorem keeps_insertAt {n : Nat} {mark : Token} (own : mark.start = .other) (enough : head.length ≤ n) :
    Keeps head s (s.insertAt n mark) := by
  intro later behind
  refine ⟨later.take (n - head.length) ++ mark :: later.drop (n - head.length),
    ⟨?_, behind.candidate, behind.outerCandidates⟩, ?_⟩
  · rw [tokens_insertAt, behind.tokens, List.take_append, List.drop_append, List.take_of_length_le enough,
      List.drop_of_length_le enough]
    simp
  · have := startOf_insert (later.take (n - head.length)) (later.drop (n - head.length)) own
    rwa [List.take_append_drop] at this

theorem extends_push (t : Token) : Extends head s (s.push t) := by
  intro later behind
  refine ⟨later ++ [t], ⟨?_, behind.candidate, behind.outerCandidates⟩, ?_⟩
  · rw [push, List.reverse_cons, behind.tokens, List.append_assoc]
  · rw [startOf_append]
    split
    · rename_i same
      rw [same]
      trivial
    · exact .refl _

theorem Keeps.extends (h : Keeps head s s') : Extends head s s' := by
  intro later behind
  obtain ⟨later', behind', same⟩ := h later behind
  refine ⟨later', behind', ?_⟩
  rcases same with same | other
  · exact same ▸ .refl _
  · rw [other]
    cases startOf later <;> trivial

theorem Extends.trans (h : Extends head s s') (h' : Extends head s' s'') : Extends head s s'' := by
  intro later behind
  obtain ⟨later', behind', grows⟩ := h later behind
  obtain ⟨later'', behind'', grows'⟩ := h' later' behind'
  exact ⟨later'', behind'', grows.trans grows'⟩

/-! ## One token -/

theorem keeps_dropKey? (dropped : s.dropKey? = some s') : Keeps head s s' := by
  obtain ⟨k, given, same⟩ := Option.bind_eq_some_iff.1 dropped
  cases same
  have none : k = .none := by
    unfold giveUp? at given
    split at given
    · split at given
      · cases given
      · cases given
        rfl
    · cases given
      rfl
  subst none
  exact keeps_of_same rfl (by simp) fun c mem k own => .inr (.inl (own ▸ mem))

theorem keeps_saveKey? (saved : s.saveKey? = some s') : Keeps head s s' := by
  unfold saveKey? at saved
  split at saved
  · obtain ⟨s₁, dropped, same⟩ := Option.bind_eq_some_iff.1 saved
    cases same
    refine (keeps_dropKey? dropped).trans (keeps_of_same rfl ?_ fun c mem k own => .inr (.inl (own ▸ mem)))
    intro k own
    cases own
    exact .inr (.inr rfl)
  · cases saved
    exact .refl _

theorem keeps_openBlock {column n : Nat} {mark : Token} (own : mark.start = .other) (enough : head.length ≤ n) :
    Keeps head s (s.openBlock column n mark) := by
  unfold openBlock
  split
  · exact .refl s
  · have deeper : Keeps head s { s with indent := column, outerIndents := s.indent :: s.outerIndents } :=
      keeps_of_eq rfl rfl rfl
    exact deeper.trans (keeps_insertAt own enough)

theorem closeBlocksTo_tokens (column indent : Int) (tokens : List Token) (outer : List Int) :
    ∃ n, (closeBlocksTo column indent tokens outer).2.2 = List.replicate n .blockEnd ++ tokens := by
  induction outer generalizing indent tokens with
  | nil => exact ⟨0, rfl⟩
  | cons next more ih =>
      rw [closeBlocksTo]
      split
      · obtain ⟨n, same⟩ := ih next (.blockEnd :: tokens)
        exact ⟨n + 1, by rw [same, List.replicate_succ', List.append_assoc]; rfl⟩
      · exact ⟨0, rfl⟩

theorem keeps_closeBlocks (column : Int) : Keeps head s (s.closeBlocks column) := by
  unfold closeBlocks
  split
  · exact .refl s
  · intro later behind
    obtain ⟨n, tokens⟩ := closeBlocksTo_tokens column s.indent s.tokens s.outerIndents
    refine ⟨later ++ List.replicate n .blockEnd, ⟨?_, behind.candidate, behind.outerCandidates⟩, ?_⟩
    · dsimp only
      rw [tokens, List.reverse_append, behind.tokens, List.reverse_replicate, List.append_assoc]
    · rw [startOf_append]
      cases n with
      | zero => cases startOf later <;> simp [startOf]
      | succ n => cases startOf later <;> simp [startOf, List.replicate_succ, Token.start]

theorem keeps_blockMark? {block : Token} (own : block.start = .other) (marked : s.blockMark? block = some s') :
    Keeps head s s' := by
  unfold blockMark? at marked
  split at marked
  · cases marked
    exact .refl _
  · split at marked
    · cases marked
      intro later behind
      refine keeps_openBlock own ?_ later behind
      have := congrArg List.length behind.tokens
      rw [List.length_reverse, List.length_append] at this
      omega
    · cases marked

theorem keeps_value {k : KeyCandidate} (own : k ∈ s.candidate) :
    Keeps head s ((s.insertAt k.tokensBefore .key).openBlock k.place.column k.tokensBefore .blockMappingStart) := by
  intro later behind
  have enough := behind.candidate k own
  exact ((keeps_insertAt rfl enough).trans (keeps_openBlock rfl enough)) later behind

inductive Reading (s : Scanner) (c : Char) (rest : List Char) : Scanner → Prop
  | mark {s₁ : Scanner} {t : Token} (keeps : ∀ head, Keeps head s s₁) (other : t.start = .other) :
      Reading s c rest (s₁.push t)
  | property {s₁ : Scanner} {r : Rest} {t : Token} (saved : s.saveKey? = some s₁) (passes : s.rest.Passes r)
      (open_ : t.start = .open) : Reading s c rest (({ s₁ with rest := r }).allowKey false |>.push t)
  | quoted {s₁ : Scanner} {text : List Char} {r : Rest} (keeps : ∀ head, Keeps head s s₁)
      (read : Yaml.quoted? s.rest = some (text, r)) : Reading s c rest (s₁.push (.scalar ⟨String.ofList text, false⟩))
  | block {s₁ : Scanner} {text : List Char} {r : Rest} (keeps : ∀ head, Keeps head s s₁) (mark : c = '|' ∨ c = '>')
      (read : block? s.indent s.rest = some (text, r)) : Reading s c rest (s₁.push (.scalar ⟨String.ofList text, false⟩))
  | plain {s₁ : Scanner} {p : PlainEnd} (keeps : ∀ head, Keeps head s s₁)
      (begins : s.inFlow = false → startsPlain false c rest ∧ ¬ (c = '-' ∧ atSpace rest))
      (read : Yaml.plain? s.inFlow (s.indent + 1) s.rest = some p) :
      Reading s c rest (s₁.push (.scalar ⟨String.ofList p.text, true⟩))

theorem Reading.extends {c : Char} {rest : List Char} (reading : Reading s c rest s') : Extends head s s' := by
  cases reading with
  | mark keeps | quoted keeps | block keeps | plain keeps => exact (keeps head).extends.trans (extends_push _)
  | @property s₁ r t saved =>
      have moved : Keeps head s₁ (({ s₁ with rest := r }).allowKey false) := keeps_of_eq rfl rfl rfl
      exact ((keeps_saveKey? saved).trans moved).extends.trans (extends_push t)

variable {c : Char} {rest : List Char}

theorem rest_of_dropKey? (dropped : s.dropKey? = some s') : s' = { s with candidate := s'.candidate } := by
  obtain ⟨k, -, same⟩ := Option.bind_eq_some_iff.1 dropped
  cases same
  rfl

theorem rest_of_saveKey? (saved : s.saveKey? = some s') : s' = { s with candidate := s'.candidate } := by
  unfold saveKey? at saved
  split at saved
  · obtain ⟨s₁, dropped, same⟩ := Option.bind_eq_some_iff.1 saved
    cases same
    rw [rest_of_dropKey? dropped]
  · cases saved
    rfl

theorem reading_directive? (read : s.directive? = some s') : Reading s c rest s' := by
  obtain ⟨s₁, dropped, read⟩ := Option.bind_eq_some_iff.1 read
  obtain ⟨⟨d, r⟩, -, same⟩ := Option.bind_eq_some_iff.1 read
  cases same
  exact .mark (fun head => (keeps_closeBlocks _).trans ((keeps_dropKey? dropped).trans (keeps_of_eq rfl rfl rfl))) rfl

theorem reading_documentMark? {t : Token} (own : t.start = .other) (read : s.documentMark? t = some s') :
    Reading s c rest s' := by
  obtain ⟨s₁, dropped, same⟩ := Option.bind_eq_some_iff.1 read
  cases same
  exact .mark (fun head => (keeps_closeBlocks _).trans ((keeps_dropKey? dropped).trans (keeps_of_eq rfl rfl rfl))) own

theorem reading_openFlow? {t : Token} (own : t.start = .other) (read : s.openFlow? t = some s') :
    Reading s c rest s' := by
  obtain ⟨s₁, saved, same⟩ := Option.bind_eq_some_iff.1 read
  cases same
  refine .mark (fun head => (keeps_saveKey? saved).trans (keeps_of_same rfl (by simp [skip, allowKey]) ?_)) own
  intro k mem k' own
  rcases List.mem_cons.1 mem with rfl | mem
  · exact .inl own
  · exact .inr (.inl (own ▸ mem))

theorem reading_closeFlow? {t : Token} (own : t.start = .other) (read : s.closeFlow? t = some s') :
    Reading s c rest s' := by
  obtain ⟨s₁, dropped, same⟩ := Option.bind_eq_some_iff.1 read
  cases same
  refine .mark (fun head => (keeps_dropKey? dropped).trans ?_) own
  split
  · rename_i candidate outerCandidates outer
    refine keeps_of_same rfl (fun k own => .inr (.inl ?_)) fun k mem k' own => .inr (.inl ?_)
    · rw [outer]
      exact own ▸ List.mem_cons_self
    · rw [outer]
      exact own ▸ List.mem_cons_of_mem _ mem
  · exact keeps_of_eq rfl rfl rfl

theorem reading_flowEntry? (read : s.flowEntry? = some s') : Reading s c rest s' := by
  obtain ⟨s₁, dropped, same⟩ := Option.bind_eq_some_iff.1 read
  cases same
  exact .mark (fun head => (keeps_dropKey? dropped).trans (keeps_of_eq rfl rfl rfl)) rfl

theorem reading_blockEntry? (read : s.blockEntry? = some s') : Reading s c rest s' := by
  obtain ⟨s₁, marked, read⟩ := Option.bind_eq_some_iff.1 read
  obtain ⟨s₂, dropped, same⟩ := Option.bind_eq_some_iff.1 read
  cases same
  exact .mark (fun head =>
    (keeps_blockMark? rfl marked).trans ((keeps_dropKey? dropped).trans (keeps_of_eq rfl rfl rfl))) rfl

theorem reading_key? (read : s.key? = some s') : Reading s c rest s' := by
  obtain ⟨s₁, marked, read⟩ := Option.bind_eq_some_iff.1 read
  obtain ⟨s₂, dropped, same⟩ := Option.bind_eq_some_iff.1 read
  cases same
  exact .mark (fun head =>
    (keeps_blockMark? rfl marked).trans ((keeps_dropKey? dropped).trans (keeps_of_eq rfl rfl rfl))) rfl

theorem reading_value? (read : s.value? = some s') : Reading s c rest s' := by
  unfold value? at read
  split at read
  · rename_i k own
    cases read
    exact .mark (fun head => (keeps_value own).trans (keeps_of_same rfl (by simp [skip, allowKey]) fun _ mem _ own =>
      .inr (.inl (own ▸ mem)))) rfl
  · obtain ⟨s₁, marked, same⟩ := Option.bind_eq_some_iff.1 read
    cases same
    exact .mark (fun head => (keeps_blockMark? rfl marked).trans (keeps_of_eq rfl rfl rfl)) rfl

theorem inline?_eq_some {α : Type} {read : Rest → Option (α × Rest)} {token : α → Token}
    (inlined : s.inline? read token = some s') : ∃ s₁ a r, s.saveKey? = some s₁ ∧ read s.rest = some (a, r) ∧
      s' = (({ s₁ with rest := r }).allowKey false).push (token a) := by
  obtain ⟨s₁, saved, inlined⟩ := Option.bind_eq_some_iff.1 inlined
  obtain ⟨⟨a, r⟩, there, same⟩ := Option.bind_eq_some_iff.1 inlined
  cases same
  rw [rest_of_saveKey? saved] at there
  exact ⟨s₁, a, r, saved, there, rfl⟩

theorem keeps_inline {s₁ : Scanner} (saved : s.saveKey? = some s₁) (r : Rest) :
    Keeps head s (({ s₁ with rest := r }).allowKey false) :=
  (keeps_saveKey? saved).trans (keeps_of_eq rfl rfl rfl)

theorem reading_blockScalar? (mark : c = '|' ∨ c = '>') (read : s.blockScalar? = some s') : Reading s c rest s' := by
  obtain ⟨s₁, dropped, read⟩ := Option.bind_eq_some_iff.1 read
  obtain ⟨⟨text, r⟩, there, same⟩ := Option.bind_eq_some_iff.1 read
  cases same
  rw [rest_of_dropKey? dropped] at there
  exact .block (fun head => (keeps_dropKey? dropped).trans (keeps_of_eq rfl rfl rfl)) mark there

theorem reading_plain? (begins : s.inFlow = false → startsPlain false c rest ∧ ¬ (c = '-' ∧ atSpace rest))
    (read : s.plain? = some s') : Reading s c rest s' := by
  obtain ⟨s₁, saved, read⟩ := Option.bind_eq_some_iff.1 read
  obtain ⟨p, there, same⟩ := Option.bind_eq_some_iff.1 read
  cases same
  rw [rest_of_saveKey? saved] at there
  exact .plain (fun head => (keeps_saveKey? saved).trans (keeps_of_eq rfl rfl rfl)) begins there

theorem reading_of_tokenAt? (chars : s.rest.chars = c :: rest) (read : s.tokenAt? c rest = some s') :
    Reading s c rest s' := by
  unfold tokenAt? at read
  -- One by one, in the order in which the kinds of tokens are tried.
  rcases ite_eq_iff.1 read with ⟨-, read⟩ | ⟨-, read⟩
  · exact reading_directive? read
  rcases ite_eq_iff.1 read with ⟨-, read⟩ | ⟨-, read⟩
  · exact reading_documentMark? rfl read
  rcases ite_eq_iff.1 read with ⟨-, read⟩ | ⟨-, read⟩
  · exact reading_documentMark? rfl read
  rcases ite_eq_iff.1 read with ⟨-, read⟩ | ⟨-, read⟩
  · exact reading_openFlow? rfl read
  rcases ite_eq_iff.1 read with ⟨-, read⟩ | ⟨-, read⟩
  · exact reading_openFlow? rfl read
  rcases ite_eq_iff.1 read with ⟨-, read⟩ | ⟨-, read⟩
  · exact reading_closeFlow? rfl read
  rcases ite_eq_iff.1 read with ⟨-, read⟩ | ⟨-, read⟩
  · exact reading_closeFlow? rfl read
  rcases ite_eq_iff.1 read with ⟨-, read⟩ | ⟨-, read⟩
  · exact reading_flowEntry? read
  rcases ite_eq_iff.1 read with ⟨-, read⟩ | ⟨unentered, read⟩
  · exact reading_blockEntry? read
  rcases ite_eq_iff.1 read with ⟨-, read⟩ | ⟨-, read⟩
  · exact reading_key? read
  rcases ite_eq_iff.1 read with ⟨-, read⟩ | ⟨-, read⟩
  · exact reading_value? read
  rcases ite_eq_iff.1 read with ⟨-, read⟩ | ⟨-, read⟩
  · obtain ⟨s₁, name, r, saved, -, rfl⟩ := inline?_eq_some read
    exact .mark (fun head => keeps_inline saved r) rfl
  rcases ite_eq_iff.1 read with ⟨anchor, read⟩ | ⟨-, read⟩
  · obtain ⟨s₁, name, r, saved, there, rfl⟩ := inline?_eq_some read
    exact .property saved (passes_of_anchor? chars (anchor ▸ by decide) there) rfl
  rcases ite_eq_iff.1 read with ⟨-, read⟩ | ⟨-, read⟩
  · obtain ⟨s₁, name, r, saved, there, rfl⟩ := inline?_eq_some read
    exact .property saved (passes_of_tag? there) rfl
  rcases ite_eq_iff.1 read with ⟨bar, read⟩ | ⟨-, read⟩
  · refine reading_blockScalar? ?_ read
    simp only [Bool.and_eq_true, Bool.or_eq_true, decide_eq_true_eq] at bar
    exact bar.1
  rcases ite_eq_iff.1 read with ⟨-, read⟩ | ⟨-, read⟩
  · obtain ⟨s₁, text, r, saved, there, rfl⟩ := inline?_eq_some read
    exact .quoted (fun head => keeps_inline saved r) there
  rcases ite_eq_iff.1 read with ⟨starts, read⟩ | ⟨-, read⟩
  · refine reading_plain? (fun block => ⟨block ▸ starts, ?_⟩) read
    simpa using unentered
  · cases read

/-! ## All tokens -/

theorem keeps_toNextToken (fuel : Nat) (s : Scanner) : Keeps head s (s.toNextToken fuel) := by
  induction fuel generalizing s with
  | zero => exact .refl s
  | succ fuel ih =>
      rw [toNextToken_succ]
      split
      · rename_i c rest _
        split
        · have moved : Keeps head s { s with
              rest := ⟨rest, s.skipLine.pos.next c⟩, keyAllowed := s.keyAllowed || !s.inFlow } :=
            keeps_of_eq rfl rfl rfl
          exact moved.trans (ih _)
        · exact keeps_of_eq rfl rfl rfl
      · exact keeps_of_eq rfl rfl rfl

theorem mem_of_dropStale? {now : Position} {k k' : Option KeyCandidate} (dropped : dropStale? now k = some k') :
    ∀ c ∈ k', c ∈ k := by
  unfold dropStale? giveUp? at dropped
  grind

theorem keeps_dropStaleKeys? (dropped : s.dropStaleKeys? = some s') : Keeps head s s' := by
  obtain ⟨candidate, first, dropped⟩ := Option.bind_eq_some_iff.1 dropped
  obtain ⟨outerCandidates, others, same⟩ := Option.bind_eq_some_iff.1 dropped
  cases same
  refine keeps_of_same rfl (fun k own => .inl (mem_of_dropStale? first k own)) fun k mem k' own => .inr (.inl ?_)
  obtain ⟨k₀, mem₀, own₀⟩ := Lists.mem_of_mapM others k mem
  have := mem_of_dropStale? own₀ k' own
  exact this ▸ mem₀

theorem tokens?_eq_some {fuel : Nat} {tokens : List Token} (read : s.tokens? (fuel + 1) = some tokens) :
    ∃ s₁, (s.toNextToken (s.rest.chars.length + 1)).dropStaleKeys? = some s₁ ∧
      ((s₁.rest.chars = [] ∧ (s₁.closeBlocks s₁.column).finish? = some tokens) ∨
        ∃ c rest s', s₁.rest.chars = c :: rest ∧ (s₁.closeBlocks s₁.column).tokenAt? c rest = some s' ∧
          s'.tokens? fuel = some tokens) := by
  rw [tokens?] at read
  obtain ⟨s₁, fresh, read⟩ := Option.bind_eq_some_iff.1 read
  refine ⟨s₁, fresh, ?_⟩
  simp only [closeBlocks_rest] at read
  cases chars : s₁.rest.chars with
  | nil =>
      rw [chars] at read
      exact .inl ⟨rfl, read⟩
  | cons c rest =>
      rw [chars] at read
      obtain ⟨s', token, read⟩ := Option.bind_eq_some_iff.1 read
      exact .inr ⟨c, rest, s', rfl, token, read⟩

theorem extends_tokens? {fuel : Nat} {tokens later : List Token} (read : s.tokens? fuel = some tokens)
    (behind : Behind head s later) :
    ∃ later', tokens = head ++ later' ∧ (startOf later).Grows (startOf later') := by
  induction fuel generalizing s later with
  | zero => cases read
  | succ fuel ih =>
      obtain ⟨s₁, fresh, next⟩ := tokens?_eq_some read
      have ready : Keeps head s (s₁.closeBlocks s₁.column) :=
        (keeps_toNextToken _ s).trans ((keeps_dropStaleKeys? fresh).trans (keeps_closeBlocks _))
      rcases next with ⟨-, finished⟩ | ⟨c, rest, s', chars, token, read⟩
      · obtain ⟨s₂, dropped, same⟩ := Option.bind_eq_some_iff.1 finished
        cases same
        have all := ready.trans ((keeps_closeBlocks _).trans (keeps_dropKey? dropped))
        obtain ⟨later', behind', grows⟩ := all.extends later behind
        exact ⟨later', behind'.tokens, grows⟩
      · have reading := reading_of_tokenAt? (closeBlocks_rest s₁ _ ▸ chars) token
        obtain ⟨later', behind', grows⟩ := (ready.extends.trans reading.extends) later behind
        obtain ⟨later'', same, grows'⟩ := ih read behind'
        exact ⟨later'', same, grows.trans grows'⟩

end Scanner
end FlowScript.Yaml

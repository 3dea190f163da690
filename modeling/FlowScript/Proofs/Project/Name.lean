import FlowScript.Proofs.Project.Initial
import FlowScript.Proofs.Yaml.Marks
import FlowScript.Proofs.Yaml.Node
import FlowScript.Proofs.Yaml.Value

namespace FlowScript.Yaml.Decode
variable {α β : Type} {d : Document} {n n' : Nat}

theorem bind_eq_some {x : Decode α} {f : α → Decode β} {r : β × Nat} :
    ((x >>= f).run d).run n = some r ↔ ∃ a n', (x.run d).run n = some (a, n') ∧ ((f a).run d).run n' = some r := by
  rw [ReaderT.run_bind, StateT.run_bind]
  exact Option.bind_eq_some_iff.trans Prod.exists

theorem scalar_of_string {start : Start} {v : Node} {text : String} (own : Parse.ReadFrom start v)
    (read : ((string v).run d).run n = some (text, n')) : text = "" ∨ ∃ plain, start = .scalar ⟨text, plain⟩ := by
  cases v with
  | scalar s =>
      cases read
      exact own.imp id fun told => ⟨_, told⟩
  | «alias» => cases own
  | sequence | mapping => cases read

end FlowScript.Yaml.Decode

namespace FlowScript.ProjectFile
open Yaml Yaml.Scanner Yaml.Decode

theorem name_of_decode {v : Yaml.Node} {more : List (Yaml.Node × Yaml.Node)} {d : Document} {n n' : Nat}
    {file : ProjectFile} (read : ((decode (.mapping ((plainNode "name", v) :: more))).run d).run n = some (file, n')) :
    ∃ m m', ((string v).run d).run m = some (file.name, m') := by
  obtain ⟨fs, n₁, known, read⟩ := bind_eq_some.1 read
  obtain ⟨name, n₂, named, read⟩ := bind_eq_some.1 read
  obtain ⟨version, n₃, -, read⟩ := bind_eq_some.1 read
  obtain ⟨layout, n₄, -, read⟩ := bind_eq_some.1 read
  obtain ⟨output, n₅, -, read⟩ := bind_eq_some.1 read
  obtain ⟨catalog, n₆, -, read⟩ := bind_eq_some.1 read
  obtain ⟨settings, n₇, -, read⟩ := bind_eq_some.1 read
  obtain ⟨shape, n₈, -, read⟩ := bind_eq_some.1 read
  cases read
  obtain ⟨root, n₁₀, followed, known⟩ := bind_eq_some.1 known
  cases followed
  obtain ⟨key, n₁₁, keyed, known⟩ := bind_eq_some.1 known
  cases keyed
  obtain ⟨later, n₁₂, -, known⟩ := bind_eq_some.1 known
  have fs_eq : fs = ("name", v) :: later := by
    rw [if_pos (by decide)] at known
    split at known
    · cases known
    · cases known
      rfl
  subst fs_eq
  exact ⟨n₁, n₂, named⟩

theorem decode_of_parse {text : String} {file : ProjectFile} (read : parse text = .ok file) :
    ∃ tokens root p, tokenize? text = some tokens ∧ parseRoot tokens = some (root, p) ∧
      ∃ d n, ((decode root).run d).run 0 = some (file, n) := by
  have decoded : decode? text none decode = some file := by
    unfold parse at read
    split at read
    · cases read
    · rename_i own
      split at read <;> cases read
      exact own
  obtain ⟨document, parsed, decoded⟩ := Option.bind_eq_some_iff.1 decoded
  cases document with
  | none => cases decoded
  | some d =>
      obtain ⟨⟨file', n⟩, ran, same⟩ := Option.map_eq_some_iff.1 decoded
      cases same
      obtain ⟨tokens, tokenized, parsed⟩ := Option.bind_eq_some_iff.1 parsed
      dsimp only at parsed
      split at parsed
      · cases parsed
      · obtain ⟨⟨root, p⟩, rooted, parsed⟩ := Option.bind_eq_some_iff.1 parsed
        dsimp only at parsed
        split at parsed
        · cases parsed
          exact ⟨tokens, root, p, tokenized, rooted, _, n, ran⟩
        · cases parsed

theorem parse_untokenized {text : String} (unread : tokenize? text = none) :
    parse text = .error .settingsUnreadable := by
  simp [parse, decode?, Document.parse?, unread]

theorem scalarFrom_of_tokenize? {name : String} {tokens : List Token} {line : List Char}
    (uniform : uniformBreaks (name.toList ++ '\n' :: settingsLines) = line ++ '\n' :: settingsLines)
    (read : tokenize? (initialText name) = some tokens) :
    (∀ c ∈ name.toList, isAllowed c) ∧ ∃ later, tokens = nameTokens ++ later ∧
      ∀ t, startOf later = .scalar t → ScalarFrom line settingsLines t := by
  rw [tokenize?_initialText, uniform] at read
  split at read
  · rename_i allowed
    refine ⟨List.all_eq_true.1 allowed, ?_⟩
    obtain ⟨pos, -, reads⟩ := gets_opening (line ++ '\n' :: settingsLines) .start rfl
    let s := between 0 [-1] nameTokens.reverse false (line ++ '\n' :: settingsLines) (pos.advance 1)
    have read : s.tokens? _ = some tokens := (reads.trans (reads_space _)).tokens? read
    have behind : Behind nameTokens s [] :=
      ⟨by rw [List.append_nil, ← List.reverse_reverse nameTokens]; rfl, by simp [s, between], by simp [s, between]⟩
    obtain ⟨later, same, -⟩ := extends_tokens? read behind
    refine ⟨later, same, fun t own => ?_⟩
    have inValue : InValue nameTokens line settingsLines s [] :=
      ⟨rfl, rfl, rfl, by simp [s, between, CandidateBy], behind, rfl⟩
    exact @scalarFrom_of_tokens? s line t nameTokens [] "version".toList _ (by decide) rfl _ later inValue
      (same ▸ read) own
  · cases read

theorem name_of_parse {name : String} {file : ProjectFile} {line : List Char}
    (uniform : uniformBreaks (name.toList ++ '\n' :: settingsLines) = line ++ '\n' :: settingsLines)
    (read : parse (initialText name) = .ok file) :
    (∀ c ∈ name.toList, isAllowed c) ∧
      (file.name = "" ∨ ∃ plain, ScalarFrom line settingsLines ⟨file.name, plain⟩) := by
  obtain ⟨tokens, root, p, tokenized, rooted, d, n, decoded⟩ := decode_of_parse read
  obtain ⟨allowed, later, rfl, scalar⟩ := scalarFrom_of_tokenize? uniform tokenized
  refine ⟨allowed, ?_⟩
  obtain ⟨fuel, enough⟩ : ∃ fuel, 4 * (nameTokens ++ later).length + 4 = fuel + 5 :=
    ⟨4 * later.length + 15, by simp only [List.length_append, nameTokens, List.length_cons, List.length_nil]; omega⟩
  rw [parseRoot, enough] at rooted
  obtain ⟨v, more, rfl, own⟩ := @Parse.root_firstField _ _ _ ⟨"name", true⟩ later _ rfl rfl rooted
  obtain ⟨m, m', named⟩ := name_of_decode decoded
  rcases scalar_of_string own named with empty | ⟨plain, told⟩
  · exact .inl empty
  · exact .inr ⟨plain, scalar _ told⟩

theorem settingsLines_unmarked : ∀ mark ∈ scalarMarks, settingsLines.count mark = 0 := by
  have unmarked : scalarMarks.all (settingsLines.count · = 0) := by decide +kernel
  simpa using unmarked

theorem isPlainLine_of_parse {name : String} {file : ProjectFile} (read : parse (initialText name) = .ok file)
    (same : file.name = name) : name = "" ∨ isPlainLine name.toList := by
  obtain ⟨line, uniform, shorter, fewer⟩ := uniformBreaks_line name.toList uniform_settingsLines
  obtain ⟨allowed, empty | ⟨plain, scalar⟩⟩ := name_of_parse uniform read
  · exact .inl (same ▸ empty)
  · rw [same] at scalar
    have isPlain := isPlain_of_scalarFrom scalar settingsLines_unmarked fewer
    obtain ⟨own, inline, c, rest, split, begins, continues⟩ := line_of_scalarFrom scalar isPlain rfl shorter
    change name.toList = line at own
    have stays : ∀ d ∈ line, staysOnLine d := by
      intro d mem
      have uniformD : isUniform d := isUniform_of_mem (by rw [uniform]; exact List.mem_append_left _ mem)
      simp [staysOnLine, allowed d (own ▸ mem), inline d mem, uniformD]
    rw [own, split, isPlainLine, ← split, List.all_eq_true.2 stays, begins, continues]
    exact .inr rfl

theorem parse_initialText (name : String) :
    parse (initialText name) = .ok (initial name) ↔ name = "" ∨ isPlainLine name.toList :=
  ⟨fun read => isPlainLine_of_parse read rfl, fun own => own.elim (fun empty => empty ▸ parse_noName) parse_plainName⟩

end FlowScript.ProjectFile

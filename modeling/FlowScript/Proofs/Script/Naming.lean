import FlowScript.Catalog.Builtin
import FlowScript.Proofs.Script.Reference
import FlowScript.Proofs.Text.Decimal

namespace FlowScript.Script

variable {taken ids : List String} {name : String} {s : Settings}

/-! ## Numbered names -/

def numbered (name : String) (n : Nat) : String := name ++ "_" ++ toString n

theorem numbered_injective (name : String) : Function.Injective (numbered name) := by
  intro n k same
  have digits : Digits.ofNat n = Digits.ofNat k := by
    have chars := congrArg String.toList same
    simp only [numbered, String.toList_append] at chars
    exact List.append_cancel_left chars
  rw [← Digits.toNat_ofNat n, digits, Digits.toNat_ofNat]

theorem numbered_ne (name : String) (n : Nat) : numbered name n ≠ name := by
  intro same
  have longer := congrArg String.length same
  rw [numbered, String.length_append, String.length_append] at longer
  have one : "_".length = 1 := rfl
  omega

theorem exists_numbered_free (clash : name ∈ taken) :
    ∃ n, 2 ≤ n ∧ n ≤ taken.length + 1 ∧ numbered name n ∉ taken := by
  by_contra none
  push Not at none
  let candidates := name :: (List.range taken.length).map fun i => numbered name (i + 2)
  have distinct : candidates.Nodup := by
    refine List.nodup_cons.2 ⟨fun mem => ?_, List.nodup_range.map fun i j same => ?_⟩
    · obtain ⟨i, -, same⟩ := List.mem_map.1 mem
      exact numbered_ne name _ same
    · exact Nat.add_right_cancel (numbered_injective name same)
  have all_taken : candidates ⊆ taken := by
    refine List.cons_subset.2 ⟨clash, fun other mem => ?_⟩
    obtain ⟨i, inRange, rfl⟩ := List.mem_map.1 mem
    have inside := List.mem_range.1 inRange
    exact none (i + 2) (by omega) (by omega)
  have fits : candidates.length ≤ taken.length := (List.subperm_of_subset distinct all_taken).length_le
  rw [List.length_cons, List.length_map, List.length_range] at fits
  omega

theorem freshName_of_clash (clash : name ∈ taken) :
    freshName taken name = (((List.range (taken.length + 1)).find? fun i => numbered name (i + 2) ∉ taken).map
      fun i => numbered name (i + 2)).getD name := by
  rw [freshName, if_pos clash]
  exact congrArg (·.getD name) List.find?_map

theorem isLeast_of_clash (clash : name ∈ taken) :
    ∃ n < taken.length + 2, IsLeast {k | 2 ≤ k ∧ numbered name k ∉ taken} n ∧
      freshName taken name = numbered name n := by
  obtain ⟨m, two, small, free⟩ := exists_numbered_free clash
  rw [freshName_of_clash clash]
  cases found : (List.range (taken.length + 1)).find? fun i => numbered name (i + 2) ∉ taken with
  | none =>
      have missed := List.find?_eq_none.1 found (m - 2) (List.mem_range.2 (by omega))
      rw [Nat.sub_add_cancel two] at missed
      exact absurd (decide_eq_true free) missed
  | some i =>
      obtain ⟨isFree, -, earlier⟩ := List.find?_range_eq_some.1 found
      have least : IsLeast {k | 2 ≤ k ∧ numbered name k ∉ taken} (i + 2) := by
        refine ⟨⟨by omega, of_decide_eq_true isFree⟩, fun k ⟨atLeastTwo, alsoFree⟩ => ?_⟩
        by_contra before
        have skipped := earlier (k - 2) (by omega)
        rw [Nat.sub_add_cancel atLeastTwo] at skipped
        simp [alsoFree] at skipped
      have bound := least.2 ⟨two, free⟩
      exact ⟨i + 2, by omega, least, rfl⟩

/-! ## One name after the other -/

/-- The name of a handler, when others are taken: the one that the id suggests, or else the first free one of the
numbered ones, with a number below the limit. -/
def IsHandlerName (limit : Nat) (s : Settings) (taken : List String) (id name : String) : Prop :=
  if functionName s id ∈ taken then
    ∃ n < limit, IsLeast {k | 2 ≤ k ∧ numbered (functionName s id) k ∉ taken} n ∧
      name = numbered (functionName s id) n
  else name = functionName s id

theorem isHandlerName_freshName (s : Settings) (taken : List String) (id : String) :
    IsHandlerName (taken.length + 2) s taken id (freshName taken (functionName s id)) := by
  unfold IsHandlerName
  split
  case isTrue clash => exact isLeast_of_clash clash
  case isFalse free => exact if_neg free

theorem IsHandlerName.congr {limit limit' : Nat} {taken' : List String} {id : String}
    (h : IsHandlerName limit s taken id name) (same : ∀ other, other ∈ taken ↔ other ∈ taken') (le : limit ≤ limit') :
    IsHandlerName limit' s taken' id name := by
  unfold IsHandlerName at h ⊢
  simp only [← same]
  split at h
  case isTrue clash =>
    obtain ⟨n, less, rest⟩ := h
    rw [if_pos clash]
    exact ⟨n, Nat.lt_of_lt_of_le less le, rest⟩
  case isFalse free => rwa [if_neg free]

theorem IsHandlerName.not_mem {limit : Nat} {id : String} (h : IsHandlerName limit s taken id name) : name ∉ taken := by
  unfold IsHandlerName at h
  split at h
  case isTrue =>
    obtain ⟨n, -, least, rfl⟩ := h
    exact least.1.2
  case isFalse free => rwa [h]

theorem nodup_handlerNames (s : Settings) (taken ids : List String) :
    (handlerNames s taken ids).Nodup ∧ ∀ name ∈ handlerNames s taken ids, name ∉ taken := by
  induction ids generalizing taken with
  | nil => exact ⟨List.nodup_nil, by simp [handlerNames]⟩
  | cons id rest ih =>
      obtain ⟨distinct, apart⟩ := ih (freshName taken (functionName s id) :: taken)
      rw [handlerNames]
      refine ⟨List.nodup_cons.2 ⟨fun again => apart _ again List.mem_cons_self, distinct⟩, ?_⟩
      rw [List.forall_mem_cons]
      refine ⟨(isHandlerName_freshName s taken id).not_mem, fun name mem old => ?_⟩
      exact apart name mem (List.mem_cons_of_mem _ old)

theorem isHandlerName_handlerNames (s : Settings) (taken : List String) {i : Nat} {id : String}
    (own : ids[i]? = some id) :
    ∃ name, (handlerNames s taken ids)[i]? = some name ∧
      IsHandlerName (taken.length + i + 2) s ((handlerNames s taken ids).take i ++ taken) id name := by
  induction ids generalizing taken i with
  | nil => cases own
  | cons first rest ih =>
      rw [handlerNames]
      cases i with
      | zero =>
          obtain rfl : first = id := by simpa using own
          exact ⟨_, rfl, isHandlerName_freshName s taken first⟩
      | succ i =>
          obtain ⟨name, found, isName⟩ := ih (freshName taken (functionName s first) :: taken) own
          refine ⟨name, found, isName.congr (fun other => ?_) ?_⟩
          · simp only [List.take_succ_cons, List.mem_append, List.mem_cons]
            tauto
          · rw [List.length_cons]
            omega

/-! ## Ids that suggest different names -/

theorem handlerNames_of_distinct (distinct : (ids.map (functionName s)).Nodup)
    (apart : ∀ name ∈ ids.map (functionName s), name ∉ taken) : handlerNames s taken ids = ids.map (functionName s) := by
  induction ids generalizing taken with
  | nil => rfl
  | cons id rest ih =>
      rw [List.map_cons, List.nodup_cons] at distinct
      rw [List.map_cons, List.forall_mem_cons] at apart
      have free : freshName taken (functionName s id) = functionName s id := if_neg apart.1
      rw [handlerNames, free, List.map_cons]
      refine congrArg _ (ih distinct.2 fun name mem old => ?_)
      rcases List.mem_cons.1 old with rfl | old
      · exact distinct.1 mem
      · exact apart.2 name mem old

def IsPlain (tail : String) : Prop := tail ≠ "" ∧ tail.toList.all Char.isAlphanum = true

instance (tail : String) : Decidable (IsPlain tail) := inferInstanceAs (Decidable (_ ∧ _))

theorem functionName_of_plain {tail : String} (plain : IsPlain tail) :
    functionName s (NodeId.stem ++ tail) = s.functionStem ++ tail := by
  have long : 0 < tail.toList.length := by
    rw [List.length_pos_iff]
    exact fun none => plain.1 (String.toList_eq_nil_iff.1 none)
  have kept : tail.toList.map (fun c => if c.isAlphanum then c else '_') = tail.toList := by
    apply Eq.trans (List.map_congr_left fun c mem => ?_) (List.map_id _)
    simp [List.all_eq_true.1 plain.2 c mem]
  have cut : idTail (NodeId.stem ++ tail).toList = tail.toList := by
    rw [String.toList_append, idTail]
    simp [long]
  rw [functionName, cut, kept, String.ofList_toList]

theorem isPlain_number (n : Nat) : IsPlain (toString n) := by
  constructor
  · intro empty
    exact Digits.ofNat_ne_nil n (congrArg String.toList empty)
  · refine List.all_eq_true.2 fun c mem => ?_
    rw [Char.isAlphanum, Digits.isDigit_of_mem_ofNat mem, Bool.or_true]

theorem handlerNames_of_plain {tails : List String} (plain : ∀ tail ∈ tails, IsPlain tail)
    (distinct : (tails.map (NodeId.stem ++ ·)).Nodup) :
    handlerNames s [] (tails.map (NodeId.stem ++ ·)) = tails.map (s.functionStem ++ ·) := by
  have suggested : (tails.map (NodeId.stem ++ ·)).map (functionName s) = tails.map (s.functionStem ++ ·) := by
    rw [List.map_map]
    exact List.map_congr_left fun tail mem => functionName_of_plain (plain tail mem)
  rw [← suggested]
  apply handlerNames_of_distinct
  · rw [suggested]
    exact distinct.of_map.map fun one other same => (String.append_right_inj _).1 same
  · exact fun name _ => List.not_mem_nil

/-! ## The names in a script -/

variable {α : Type}

/-- The largest value of the counter that numbers names; it is one further on than the number that was tried last. -/
def lastCount : Nat := 2147483647

/-- A script has one name for each event, and no name twice. An event gets the name that its id suggests, if no earlier
event has it, and else the first numbered one that is free. Where the ids of all events are generated ones, or look
like it, their tails are the names. -/
theorem handlerNames_exact (o : Options) (g : Graph α) (catalog : Catalog)
    (few : g.nodes.countP (isEvent catalog) + 1 < lastCount) :
    let roots := g.nodes.filter (isEvent catalog)
    let names := handlerNames o.settings [] (roots.map Node.id)
    (∀ bot, compile o g catalog = .ok bot → HasHandlers o g catalog roots names bot.source) ∧
      names.length = roots.length ∧ names.Nodup ∧
      (∀ i root, roots[i]? = some root → ∃ name, names[i]? = some name ∧
        IsHandlerName lastCount o.settings (names.take i) root.id name) ∧
      (∀ tails : List String, g.ids.Nodup → roots.map Node.id = tails.map ("node_" ++ ·) →
        (∀ tail ∈ tails, IsPlain tail) → names = tails.map (o.settings.functionStem ++ ·)) ∧
      ∀ n, ∃ tail, IsPlain tail ∧ NodeId.ofNumber n = "node_" ++ tail := by
  intro roots names
  refine ⟨fun bot compiled => (hasHandlers_of_compile compiled).1, ?_, (nodup_handlerNames _ _ _).1,
    fun i root own => ?_, fun tails distinct tailed plain => ?_, fun n => ⟨toString n, isPlain_number n, rfl⟩⟩
  · rw [length_handlerNames, List.length_map]
  · have ownId : (roots.map Node.id)[i]? = some root.id := by rw [List.getElem?_map, own, Option.map_some]
    obtain ⟨name, found, isName⟩ := isHandlerName_handlerNames o.settings [] ownId
    refine ⟨name, found, isName.congr (fun other => by rw [List.append_nil]) ?_⟩
    have inside : i < (g.nodes.filter (isEvent catalog)).length := (List.getElem?_eq_some_iff.1 own).1
    rw [List.countP_eq_length_filter] at few
    rw [List.length_nil]
    omega
  · have kept : (roots.map Node.id).Nodup := distinct.sublist (List.filter_sublist.map _)
    rw [tailed] at kept
    exact (congrArg _ tailed).trans (handlerNames_of_plain plain kept)

theorem handlerNames_exact_clashes :
    let node (id : String) : Node Nat := ⟨id, "Command", ⟨0, 0⟩, id, .empty, ⟨0, 1⟩⟩
    let clashing : Graph Nat := ⟨["a-b", "a_b", "a_b_2", "node_a_b"].map node, [], 0⟩
    let plain : Graph Nat := ⟨["node_7", "node_x1"].map node, [], 8⟩
    let names (g : Graph Nat) := handlerNames {} [] ((g.nodes.filter (isEvent Catalog.builtin)).map Node.id)
    names clashing = ["cmd_a_b", "cmd_a_b_2", "cmd_a_b_2_2", "cmd_a_b_3"] ∧ (names clashing).Nodup ∧
      IsHandlerName lastCount {} ((names clashing).take 3) "node_a_b" "cmd_a_b_3" ∧
      names plain = ["cmd_7", "cmd_x1"] := by
  intro node clashing plain names
  have names_eq : names clashing = ["cmd_a_b", "cmd_a_b_2", "cmd_a_b_2_2", "cmd_a_b_3"] := by decide +kernel
  have third : (clashing.nodes.filter (isEvent Catalog.builtin))[3]? = some (node "node_a_b") := by decide +kernel
  obtain ⟨-, -, distinct, each, -, -⟩ := handlerNames_exact {} clashing Catalog.builtin (by decide +kernel)
  obtain ⟨-, -, -, -, tails, -⟩ := handlerNames_exact {} plain Catalog.builtin (by decide +kernel)
  obtain ⟨name, found, isName⟩ := each 3 _ third
  obtain rfl : "cmd_a_b_3" = name := by
    have last : (names clashing)[3]? = some "cmd_a_b_3" := by rw [names_eq]; rfl
    exact Option.some.inj (last.symm.trans found)
  refine ⟨names_eq, distinct, isName, ?_⟩
  exact tails ["7", "x1"] (by decide +kernel) (by decide +kernel) (by decide +kernel)

end FlowScript.Script

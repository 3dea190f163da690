import FlowScript.Host.Disk
import FlowScript.Proofs.Result

namespace FlowScript.Disk

/-! ## Finding, reading and writing -/

theorem find_eq_ok {d : Disk} {path : String} {place : Location} {entry : DiskEntry} :
    d.find path = .ok (place, entry) ↔ d.resolve path = .ok place ∧ d.lookup place = some entry := by
  unfold find
  rw [Result.bind_eq_ok]
  constructor
  · rintro ⟨p, resolved, found⟩
    cases there : d.lookup p with
    | none =>
        rw [there] at found
        cases found
    | some e =>
        rw [there] at found
        cases found
        exact ⟨resolved, there⟩
  · rintro ⟨resolved, there⟩
    exact ⟨place, resolved, by rw [there]⟩

def text (d : Disk) (path : String) : Except FileError String := do
  match String.fromUTF8? (← d.read path) with
  | some text => .ok text
  | none => .error .invalidText

theorem text_eq_ok {d : Disk} {path text : String} : d.text path = .ok text ↔
    ∃ place bytes, d.find path = .ok (place, .file bytes) ∧ String.fromUTF8? bytes = some text := by
  unfold Disk.text read
  constructor
  · intro h
    obtain ⟨bytes, got, h⟩ := Result.bind_eq_ok.1 h
    obtain ⟨⟨place, entry⟩, found, got⟩ := Result.bind_eq_ok.1 got
    cases entry with
    | directory => cases got
    | file contents =>
        cases got
        refine ⟨place, bytes, found, ?_⟩
        split at h <;> cases h
        assumption
  · rintro ⟨place, bytes, found, decoded⟩
    rw [found]
    simp only [bind, Except.bind, decoded]

theorem kind?_of_find {d : Disk} {path : String} {place : Location} {entry : DiskEntry}
    (found : d.find path = .ok (place, entry)) : d.kind? path = some entry.kind := by
  rw [kind?, found]
  rfl

theorem kind?_of_text {d : Disk} {path text : String} (read : d.text path = .ok text) :
    d.kind? path = some .file := by
  obtain ⟨place, bytes, found, -⟩ := text_eq_ok.1 read
  exact kind?_of_find found

theorem lookup_replaced (entries : List (Location × DiskEntry)) (place : Location) (entry : DiskEntry)
    (other : Location) :
    (entries.filter (·.1 ≠ place) ++ [(place, entry)]).lookup other =
      if other = place then some entry else entries.lookup other := by
  induction entries with
  | nil => grind
  | cons first rest ih =>
      obtain ⟨key, e⟩ := first
      by_cases replaced : key = place
      · rw [List.filter_cons_of_neg (by simpa using replaced), ih, replaced]
        grind
      · rw [List.filter_cons_of_pos (by simpa using replaced), List.cons_append]
        grind

theorem lookup_put {d : Disk} {place : Location} (named : place ≠ []) (entry : DiskEntry) (other : Location) :
    (d.put place entry).lookup other = if other = place then some entry else d.lookup other := by
  unfold lookup put
  by_cases root : other = []
  · simp [root, Ne.symm named]
  · rw [if_neg root, if_neg root]
    exact lookup_replaced d.entries place entry other

/-! ## A write -/

/-- The disks differ in one file: at most at one place, where neither has a directory. -/
structure Apart (place : Location) (d d' : Disk) : Prop where
  working : d'.working = d.working
  elsewhere : ∀ other ≠ place, d'.lookup other = d.lookup other
  before : d.lookup place ≠ some .directory
  after : d'.lookup place ≠ some .directory

variable {d d' : Disk} {place : Location}

theorem Apart.symm (h : Apart place d d') : Apart place d' d :=
  ⟨h.working.symm, fun other differs => (h.elsewhere other differs).symm, h.after, h.before⟩

theorem Apart.trans {d'' : Disk} (h : Apart place d d') (h' : Apart place d' d'') : Apart place d d'' :=
  ⟨h'.working.trans h.working, fun other differs => (h'.elsewhere other differs).trans (h.elsewhere other differs),
    h.before, h'.after⟩

theorem named_of_free (free : d.lookup place ≠ some .directory) : place ≠ [] := by
  rintro rfl
  exact free rfl

theorem apart_put (free : d.lookup place ≠ some .directory) (bytes : ByteArray) :
    Apart place d (d.put place (.file bytes)) := by
  have named := named_of_free free
  refine ⟨rfl, fun other differs => ?_, free, ?_⟩
  · rw [lookup_put named, if_neg differs]
  · simp [lookup_put named]

def Rewritten (path : String) (bytes : ByteArray) (d d' : Disk) : Prop :=
  ∃ place, d.resolve path = .ok place ∧ Apart place d d' ∧ d'.lookup place = some (.file bytes)

theorem rewritten_of_write {path : String} {bytes : ByteArray} (h : d.write path bytes = .ok d') :
    Rewritten path bytes d d' := by
  unfold write at h
  split at h
  · obtain ⟨place, -, h⟩ := Result.bind_eq_ok.1 h
    cases h
  · obtain ⟨place, resolved, h⟩ := Result.bind_eq_ok.1 h
    split at h
    · cases h
    · rename_i free
      cases h
      exact ⟨place, resolved, apart_put free bytes, by rw [lookup_put (named_of_free free), if_pos rfl]⟩

/-! ## More directories -/

/-- The second disk has what the first has, and new directories; only the file at one place may be another one. -/
structure Grown (place : Location) (d d' : Disk) : Prop where
  working : d'.working = d.working
  elsewhere : ∀ other ≠ place,
    d'.lookup other = d.lookup other ∨ d.lookup other = none ∧ d'.lookup other = some .directory
  before : d.lookup place ≠ some .directory

theorem Apart.grown (h : Apart place d d') : Grown place d d' :=
  ⟨h.working, fun other differs => .inl (h.elsewhere other differs), h.before⟩

theorem Grown.lookup (h : Grown place d d') {other : Location} {entry : DiskEntry} (there : d.lookup other = some entry)
    (differs : other ≠ place) : d'.lookup other = some entry := by
  rcases h.elsewhere other differs with same | ⟨absent, -⟩
  · exact same.trans there
  · rw [there] at absent
    cases absent

theorem Grown.enter (h : Grown place d d') {start next : Location} {name : String}
    (entered : d.enter start name = .ok next) : d'.enter start name = .ok next := by
  unfold Disk.enter at entered ⊢
  cases there : d.lookup start with
  | none =>
      rw [there] at entered
      cases entered
  | some entry =>
      rw [there] at entered
      cases entry with
      | file bytes => cases entered
      | directory =>
          -- No path passes through the place where a file may have changed, since there was no directory at it.
          rw [h.lookup there fun same => h.before (same ▸ there)]
          exact entered

theorem Grown.enter_all (h : Grown place d d') {start stop : Location} {names : List String}
    (entered : names.foldlM d.enter start = .ok stop) : names.foldlM d'.enter start = .ok stop := by
  induction names generalizing start with
  | nil => exact entered
  | cons name rest ih =>
      rw [List.foldlM_cons] at entered ⊢
      obtain ⟨next, first, later⟩ := Result.bind_eq_ok.1 entered
      exact Result.bind_eq_ok.2 ⟨next, h.enter first, ih later⟩

theorem Grown.resolve (h : Grown place d d') {path : String} {other : Location}
    (resolved : d.resolve path = .ok other) : d'.resolve path = .ok other := by
  unfold Disk.resolve at resolved ⊢
  split at resolved
  · cases resolved
  · split at resolved
    · cases resolved
    · rename_i named plain
      rw [if_neg named, if_neg plain, h.working]
      exact h.enter_all resolved

theorem Grown.find (h : Grown place d d') {path : String} {other : Location} {entry : DiskEntry}
    (found : d.find path = .ok (other, entry)) (differs : other ≠ place) :
    d'.find path = .ok (other, entry) := by
  obtain ⟨resolved, there⟩ := find_eq_ok.1 found
  exact find_eq_ok.2 ⟨h.resolve resolved, h.lookup there differs⟩

theorem Grown.directory (h : Grown place d d') {path : String} (directory : d.kind? path = some .directory) :
    d'.kind? path = some .directory := by
  cases found : d.find path with
  | error e =>
      rw [kind?, found] at directory
      cases directory
  | ok result =>
      obtain ⟨other, entry⟩ := result
      rw [kind?_of_find found] at directory
      cases entry with
      | file bytes => cases directory
      | directory =>
          refine kind?_of_find (h.find found ?_)
          rintro rfl
          exact h.before (find_eq_ok.1 found).2

theorem Grown.text (h : Grown place d d') {path text : String} (read : d.text path = .ok text)
    (differs : d.resolve path ≠ .ok place) : d'.text path = .ok text := by
  obtain ⟨other, bytes, found, decoded⟩ := text_eq_ok.1 read
  refine text_eq_ok.2 ⟨other, bytes, h.find found ?_, decoded⟩
  rintro rfl
  exact differs (find_eq_ok.1 found).1

end FlowScript.Disk

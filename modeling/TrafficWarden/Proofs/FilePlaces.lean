import TrafficWarden.Files.Tree
import TrafficWarden.Proofs.Results

/-!
# Places that stay

A path is walked through directories alone. So what happens to files changes neither the place of a
path that leads somewhere nor what is found at another place. A change of one file is seen at the
paths that lead to it and nowhere else.
-/

namespace TrafficWarden.Files.Tree

variable {t next : Tree} {path text : String} {place : Place} {f : TextFile}

def IsDirectory (t : Tree) (place : Place) : Prop :=
  ∃ moment, t.entryOf? place = some (.directory moment)

/-- The directories of one tree are directories of the other one. -/
def KeepsDirectories (t next : Tree) : Prop := ∀ place, t.IsDirectory place → next.IsDirectory place

theorem isDirectory_congr (h : next.entryOf? place = t.entryOf? place) :
    next.IsDirectory place ↔ t.IsDirectory place := by
  rw [IsDirectory, IsDirectory, h]

theorem keepsDirectories_drop (h : ¬ t.IsDirectory place) : t.KeepsDirectories (t.drop place) := by
  intro other hother
  have hne : other ≠ place := fun heq => h (heq ▸ hother)
  exact (isDirectory_congr (t.entryOf?_drop_of_ne hne)).mpr hother

theorem not_isDirectory_of_file (h : t.entryOf? place = some (.file f)) :
    ¬ t.IsDirectory place := by
  rintro ⟨moment, hmoment⟩
  rw [h] at hmoment
  cases hmoment

theorem number?_of_isDirectory (h : t.IsDirectory place) : t.number? place = none := by
  cases hn : t.number? place with
  | none => rfl
  | some n =>
    obtain ⟨moment, hmoment⟩ := h
    rw [entryOf?_of_number? hn] at hmoment
    cases hmoment

theorem keepsDirectories_change (h : ¬ t.IsDirectory place) (f : TextFile) :
    t.KeepsDirectories (t.change place f) := by
  intro other hother
  have hne : other ≠ place := fun heq => h (heq ▸ hother)
  have hlinked : ¬ t.Linked place other := by
    rintro ⟨n, -, hn⟩
    rw [number?_of_isDirectory hother] at hn
    cases hn
  exact (isDirectory_congr (t.entryOf?_change_of_not_linked f hne hlinked)).mpr hother

theorem keepsDirectories_share (h : ¬ t.IsDirectory place) (n : Nat) :
    t.KeepsDirectories (t.share n place) := by
  intro other hother
  have hne : other ≠ place := fun heq => h (heq ▸ hother)
  exact (isDirectory_congr (t.entryOf?_share_of_ne n hne)).mpr hother

theorem enter_of_isDirectory {here : Place} (h : t.IsDirectory here) (hnext : next.IsDirectory here)
    (name : String) : next.enter here name = t.enter here name := by
  obtain ⟨_, hmoment⟩ := h
  obtain ⟨_, hnext⟩ := hnext
  rw [enter, enter, hmoment, hnext]

theorem isDirectory_of_enter {here goal : Place} {name : String}
    (h : t.enter here name = .ok goal) :
    t.IsDirectory here := by
  unfold enter at h
  split at h
  · cases h
  · cases h
  · rename_i moment hmoment
    exact ⟨moment, hmoment⟩

theorem enter_cases {here goal : Place} {name : String} (h : t.enter here name = .ok goal) :
    goal = here ∨ goal = here.dropLast ∨ goal = here ++ [name] := by
  unfold enter at h
  split at h
  · cases h
  · cases h
  · split at h
    · split at h
      · exact .inl (Except.ok.inj h).symm
      · split at h
        · cases h
        · exact .inr (.inl (Except.ok.inj h).symm)
    · split at h
      · cases h
      · exact .inr (.inr (Except.ok.inj h).symm)

theorem walk_concat_iff {dirs : List String} {name : String} {start goal : Place} :
    (dirs ++ [name]).foldlM t.enter start = .ok goal ↔
      ∃ here, dirs.foldlM t.enter start = .ok here ∧ t.enter here name = .ok goal := by
  simp only [List.foldlM_append, List.foldlM_cons, List.foldlM_nil, bind_eq_ok_iff, pure_eq_ok_iff,
    exists_eq_right]

/-- A walk that arrives passes through directories alone. -/
theorem walk_of_keepsDirectories (hkeeps : t.KeepsDirectories next) {names : List String}
    {here goal : Place} (h : names.foldlM t.enter here = .ok goal) :
    names.foldlM next.enter here = .ok goal := by
  induction names generalizing here with
  | nil => exact h
  | cons name names ih =>
    rw [List.foldlM_cons] at h ⊢
    obtain ⟨there, henter, hrest⟩ := bind_eq_ok_iff.mp h
    have hhere := isDirectory_of_enter henter
    rw [enter_of_isDirectory hhere (hkeeps here hhere), henter]
    exact ih hrest

theorem locate_eq_ok_iff :
    t.locate path = .ok place ↔ path.toList.contains (Char.ofNat 0) = false ∧ path ≠ "" ∧
      (names path).foldlM t.enter (if isAbsolute path then ["/"] else []) = .ok place := by
  unfold locate
  cases path.toList.contains (Char.ofNat 0) <;> by_cases h : path = "" <;> simp [h]

theorem locate_of_keepsDirectories (hkeeps : t.KeepsDirectories next)
    (h : t.locate path = .ok place) : next.locate path = .ok place := by
  obtain ⟨hnul, hempty, hwalk⟩ := locate_eq_ok_iff.mp h
  exact locate_eq_ok_iff.mpr ⟨hnul, hempty, walk_of_keepsDirectories hkeeps hwalk⟩

theorem find_eq_ok_file_iff :
    t.find path = .ok (place, .file f) ↔
      t.locate path = .ok place ∧ t.entryOf? place = some (.file f) ∧
        mustBeDirectory path = false := by
  unfold find
  rw [bind_eq_ok_iff]
  constructor
  · rintro ⟨found, hlocate, hentry⟩
    split at hentry
    · cases hentry
    · split at hentry
      · cases hentry
      · rename_i hfile hmust
        cases hentry
        exact ⟨hlocate, hfile, by simpa using hmust⟩
    · cases hentry
      rename_i hnot _
      exact absurd rfl (hnot f)
  · rintro ⟨hlocate, hfile, hmust⟩
    exact ⟨place, hlocate, by simp [hfile, hmust]⟩

theorem exists?_of_find {found : Place × Entry} (h : t.find path = .ok found) :
    t.exists? path = true := by
  rw [exists?, h]
  rfl

/-- What is found at a path depends on its place, and on what is at this place. -/
theorem find_congr (hlocate : next.locate path = t.locate path)
    (hentry : ∀ place, t.locate path = .ok place → next.entryOf? place = t.entryOf? place) :
    next.find path = t.find path := by
  unfold find
  rw [hlocate]
  cases h : t.locate path with
  | error fault => rfl
  | ok place => simp only [bind, Except.bind, hentry place h]

theorem find_of_locate_of_none (hlocate : t.locate path = .ok place)
    (hentry : t.entryOf? place = none) : t.find path = .error .noSuchFile := by
  simp only [find, hlocate, bind, Except.bind, hentry]

section changes

/-- A text that is written is a file at the place of its path. -/
theorem write_eq_ok {now : Calendar.Timestamp} (h : t.write path text now = .ok next) :
    ∃ place mode, t.locate path = .ok place ∧ ¬ t.IsDirectory place ∧
      mustBeDirectory path = false ∧ next = t.change place ⟨text, mode, now⟩ := by
  unfold write at h
  obtain ⟨place, hlocate, hput⟩ := bind_eq_ok_iff.mp h
  refine ⟨place, ?_⟩
  split at hput
  · cases hput
  · rename_i f hfile
    split at hput
    · cases hput
    · rename_i hmust
      cases hput
      exact ⟨f.mode, hlocate, not_isDirectory_of_file hfile, by simpa using hmust, rfl⟩
  · rename_i hnone
    split at hput
    · cases hput
    · rename_i hmust
      cases hput
      refine ⟨newMode, hlocate, ?_, by simpa using hmust, rfl⟩
      rintro ⟨moment, hmoment⟩
      rw [hnone] at hmoment
      cases hmoment

/-- Whether a text can be written depends on the path alone. -/
theorem write_of_locate (hlocate : t.locate path = .ok place) (hplace : ¬ t.IsDirectory place)
    (hmust : mustBeDirectory path = false) (text : String) (now : Calendar.Timestamp) :
    ∃ mode, t.write path text now = .ok (t.change place ⟨text, mode, now⟩) := by
  simp only [write, hlocate, bind, Except.bind]
  cases hentry : t.entryOf? place with
  | none => exact ⟨newMode, by simp [hmust]⟩
  | some entry =>
    cases entry with
    | file f => exact ⟨f.mode, by simp [hmust]⟩
    | directory moment => exact absurd ⟨moment, hentry⟩ hplace

theorem find_change_file (hlocate : t.locate path = .ok place) (hplace : ¬ t.IsDirectory place)
    (hmust : mustBeDirectory path = false) (f : TextFile) :
    (t.change place f).find path = .ok (place, .file f) :=
  find_eq_ok_file_iff.mpr ⟨locate_of_keepsDirectories (keepsDirectories_change hplace f) hlocate,
    t.entryOf?_change_same place f, hmust⟩

theorem find_drop (hlocate : t.locate path = .ok place) (hplace : ¬ t.IsDirectory place) :
    (t.drop place).find path = .error .noSuchFile :=
  find_of_locate_of_none (locate_of_keepsDirectories (keepsDirectories_drop hplace) hlocate)
    (t.entryOf?_drop_same place)

theorem setMode_of_find (h : t.find path = .ok (place, .file f)) (mode : Nat) :
    t.setMode path mode = .ok (t.change place { f with mode }) := by
  simp only [setMode, h, bind, Except.bind]

theorem remove_of_find (h : t.find path = .ok (place, .file f)) :
    t.remove path = .ok (t.drop place) := by
  simp only [remove, h, bind, Except.bind]

theorem goal_eq_ok_iff {target : String} :
    t.goal target = .ok place ↔
      t.locate target = .ok place ∧ ¬ t.IsDirectory place ∧ mustBeDirectory target = false := by
  unfold goal
  rw [bind_eq_ok_iff]
  constructor
  · rintro ⟨found, hlocate, hgoal⟩
    split at hgoal
    · cases hgoal
    · rename_i hnot
      split at hgoal
      · cases hgoal
      · rename_i hmust
        cases hgoal
        exact ⟨hlocate, fun ⟨moment, hmoment⟩ => hnot moment hmoment, by simpa using hmust⟩
  · rintro ⟨hlocate, hplace, hmust⟩
    refine ⟨place, hlocate, ?_⟩
    split
    · rename_i moment hmoment
      exact absurd ⟨moment, hmoment⟩ hplace
    · simp [hmust]

/-- What is renamed is a file, whose link is moved to the place of its new path. -/
theorem rename_eq_ok {target : String} (h : t.find path = .ok (place, .file f))
    (hrename : t.rename path target = .ok next) :
    ∃ n goal, t.number? place = some n ∧ t.file n = f ∧ t.goal target = .ok goal ∧
      next = t.move n place goal := by
  obtain ⟨-, hfile, -⟩ := find_eq_ok_file_iff.mp h
  obtain ⟨n, hn, hf⟩ := number?_of_entryOf? hfile
  simp only [rename, h, hn, bind, Except.bind] at hrename
  cases hgoal : t.goal target with
  | error fault =>
    rw [hgoal] at hrename
    cases hrename
  | ok goal =>
    rw [hgoal] at hrename
    exact ⟨n, goal, hn, hf, rfl, (Except.ok.inj hrename).symm⟩

end changes

section ways

variable {now : Calendar.Timestamp}

/-- Some text can be written at a path once the directories on the way to it are made. -/
def CanWrite (t : Tree) (path : String) (now : Calendar.Timestamp) : Prop :=
  ∃ made text next, t.makeParents path now = .ok made ∧ made.write path text now = .ok next

/-- The files of one tree are those of the other one, with the same texts. -/
def KeepsFiles (t next : Tree) : Prop :=
  ∀ place f, next.entryOf? place = some (.file f) ↔ t.entryOf? place = some (.file f)

theorem keepsFiles_makeDirectory {here : Place} {last : Bool}
    (h : makeDirectory now t here last = .ok next) : t.KeepsFiles next := by
  unfold makeDirectory at h
  split at h
  · rename_i hnone
    cases h
    intro place f
    by_cases hplace : place = here
    · subst hplace
      simp [t.entryOf?_put_same, hnone]
    · rw [t.entryOf?_put_of_ne _ hplace]
  · cases h
    exact fun _ _ => Iff.rfl
  · cases h

/-- Making the directories on a way touches no file. -/
theorem keepsFiles_makeWay {here : Place} {names : List String}
    (h : makeWay now t here names = .ok next) : t.KeepsFiles next := by
  induction names generalizing t here with
  | nil =>
    cases h
    exact fun _ _ => Iff.rfl
  | cons name names ih =>
    simp only [makeWay] at h
    obtain ⟨there, -, h⟩ := bind_eq_ok_iff.mp h
    obtain ⟨made, hmade, hrest⟩ := bind_eq_ok_iff.mp h
    intro place f
    exact (ih hrest place f).trans (keepsFiles_makeDirectory hmade place f)

theorem keepsFiles_makeParents (h : t.makeParents path now = .ok next) : t.KeepsFiles next := by
  unfold makeParents at h
  split at h
  · cases h
  · exact keepsFiles_makeWay h

end ways

end TrafficWarden.Files.Tree

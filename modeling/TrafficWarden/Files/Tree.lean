import TrafficWarden.Calendar.Timestamp
import TrafficWarden.Fault
import TrafficWarden.Files.Path

/-!
# File trees

A file tree is a working directory with all that is in it. What is in it is known by the names that
lead to it from there; absolute paths begin with a name of their own, a single slash. A name leads
to a directory or to the number of a file, and names that lead to one number are links of one file.
Operations on a path fail in the order in which the path is walked.

There are no symbolic links and no files but texts, and the time of a directory is that of its
making.
-/

namespace TrafficWarden.Files

open Calendar

/-- A file: its text, its permissions and the time of its last change. -/
structure TextFile where
  text : String
  mode : Nat
  modified : Timestamp
deriving DecidableEq, Repr

instance : Inhabited TextFile := ⟨⟨"", 0o644, .epoch⟩⟩

inductive Entry where
  | file (f : TextFile)
  | directory (modified : Timestamp)
deriving DecidableEq, Repr

/-- What a name leads to. -/
inductive Link where
  | file (number : Nat)
  | directory (modified : Timestamp)
deriving DecidableEq, Repr

/-- The names that lead to an entry. -/
abbrev Place := List String

section lookup

variable {κ α : Type} [DecidableEq κ]

/-- The value of a key in a list. -/
def lookup (key : κ) (pairs : List (κ × α)) : Option α := (pairs.find? (·.1 = key)).map (·.2)

/-- The pairs of a list with other keys. -/
def without (key : κ) (pairs : List (κ × α)) : List (κ × α) := pairs.filter (·.1 ≠ key)

@[simp] theorem lookup_nil (key : κ) : lookup key ([] : List (κ × α)) = none := rfl

theorem lookup_cons (key : κ) (p : κ × α) (pairs : List (κ × α)) :
    lookup key (p :: pairs) = if p.1 = key then some p.2 else lookup key pairs := by
  by_cases h : p.1 = key <;> simp [lookup, h]

theorem mem_of_lookup {key : κ} {a : α} {pairs : List (κ × α)} (h : lookup key pairs = some a) :
    (key, a) ∈ pairs := by
  obtain ⟨p, hp, rfl⟩ := Option.map_eq_some_iff.mp h
  have hkey : p.1 = key := by simpa using List.find?_some hp
  rw [← hkey]
  exact List.mem_of_find?_eq_some hp

theorem lookup_without_same (key : κ) (pairs : List (κ × α)) :
    lookup key (without key pairs) = none := by
  simp [lookup, without]

theorem lookup_without_of_ne (pairs : List (κ × α)) {key other : κ} (h : other ≠ key) :
    lookup other (without key pairs) = lookup other pairs := by
  induction pairs with
  | nil => rfl
  | cons e rest ih =>
    by_cases hp : e.1 = key
    · have he : without key (e :: rest) = without key rest := by simp [without, hp]
      have ho : ¬ e.1 = other := fun ho => h (ho.symm.trans hp)
      rw [he, ih, lookup_cons, if_neg ho]
    · have he : without key (e :: rest) = e :: without key rest := by simp [without, hp]
      rw [he, lookup_cons, lookup_cons, ih]

end lookup

structure Tree where
  links : List (Place × Link)
  files : List (Nat × TextFile)
deriving DecidableEq, Repr

namespace Tree

/-- A working directory with nothing in it, made at a moment. -/
def empty (moment : Timestamp) : Tree := ⟨[([], .directory moment)], []⟩

/-- The number of the file at a place. -/
def number? (t : Tree) (place : Place) : Option Nat :=
  match lookup place t.links with
  | some (.file n) => some n
  | _ => none

/-- The file of a number. -/
def file (t : Tree) (n : Nat) : TextFile := (lookup n t.files).getD default

def entryOf? (t : Tree) (place : Place) : Option Entry :=
  match lookup place t.links with
  | none => none
  | some (.directory modified) => some (.directory modified)
  | some (.file n) => some (.file (t.file n))

/-- A number that no link has. -/
def unused (t : Tree) : Nat :=
  t.links.foldr (fun l least => match l.2 with
    | .file n => max (n + 1) least
    | .directory _ => least) 0

/-- Puts a new directory or file at a place, instead of what is there. -/
def put (t : Tree) (place : Place) : Entry → Tree
  | .directory modified => { t with links := (place, .directory modified) :: without place t.links }
  | .file f => ⟨(place, .file t.unused) :: without place t.links, (t.unused, f) :: t.files⟩

/-- Changes the file at a place, whatever links lead to it, or puts a new one there. -/
def change (t : Tree) (place : Place) (f : TextFile) : Tree :=
  match t.number? place with
  | some n => { t with files := (n, f) :: without n t.files }
  | none => t.put place (.file f)

/-- Takes the link at a place away. -/
def drop (t : Tree) (place : Place) : Tree := { t with links := without place t.links }

/-- Puts a link of a file at a place, instead of what is there. -/
def share (t : Tree) (n : Nat) (place : Place) : Tree :=
  { t with links := (place, .file n) :: without place t.links }

/-- Moves the link of a file to a place. If that is a link of the same file, both stay. -/
def move (t : Tree) (n : Nat) (place goal : Place) : Tree :=
  if t.number? goal = some n then t else (t.drop place).share n goal

/-- Two places are links of one file. -/
def Linked (t : Tree) (place other : Place) : Prop :=
  ∃ n, t.number? place = some n ∧ t.number? other = some n

instance (t : Tree) (place other : Place) : Decidable (t.Linked place other) :=
  decidable_of_iff (t.number? place ≠ none ∧ t.number? other = t.number? place) (by
    rw [Linked]
    cases t.number? place <;> simp)

section entries

variable {t : Tree} {place other : Place} {n : Nat}

theorem lookup_of_number? (h : t.number? place = some n) :
    lookup place t.links = some (.file n) := by
  unfold number? at h
  split at h
  · rename_i m hm
    rw [hm, Option.some.inj h]
  · cases h

theorem entryOf?_of_number? (h : t.number? place = some n) :
    t.entryOf? place = some (.file (t.file n)) := by
  rw [entryOf?, lookup_of_number? h]

theorem number?_of_entryOf? {f : TextFile} (h : t.entryOf? place = some (.file f)) :
    ∃ n, t.number? place = some n ∧ t.file n = f := by
  unfold entryOf? at h
  split at h
  · cases h
  · cases h
  · rename_i n hn
    refine ⟨n, ?_, by simpa using h⟩
    rw [number?, hn]

/-- What is seen at a place depends on its link, and on the file of its number. -/
theorem entryOf?_congr {next : Tree} (hlink : lookup place next.links = lookup place t.links)
    (hfile : ∀ n, t.number? place = some n → next.file n = t.file n) :
    next.entryOf? place = t.entryOf? place := by
  rw [entryOf?, entryOf?, hlink]
  cases h : lookup place t.links with
  | none => rfl
  | some link =>
    cases link with
    | directory modified => rfl
    | file n =>
      simp only
      rw [hfile n (by rw [number?, h])]

theorem number?_congr {next : Tree} (hlink : lookup place next.links = lookup place t.links) :
    next.number? place = t.number? place := by
  rw [number?, number?, hlink]

theorem lt_unused (h : t.number? place = some n) : n < t.unused := by
  have hmem := mem_of_lookup (lookup_of_number? h)
  unfold unused
  generalize t.links = links at hmem
  induction links with
  | nil => cases hmem
  | cons l links ih =>
    rw [List.foldr_cons]
    rcases List.mem_cons.mp hmem with rfl | hmem
    · exact Nat.lt_of_lt_of_le (Nat.lt_succ_self n) (Nat.le_max_left _ _)
    · split
      · exact Nat.lt_of_lt_of_le (ih hmem) (Nat.le_max_right _ _)
      · exact ih hmem

@[simp] theorem lookup_links_put_same (t : Tree) (place : Place) (e : Entry) :
    lookup place (t.put place e).links = some (match e with
      | .file _ => .file t.unused
      | .directory modified => .directory modified) := by
  cases e <;> simp [put, lookup_cons]

theorem lookup_links_put_of_ne (t : Tree) (e : Entry) (h : other ≠ place) :
    lookup other (t.put place e).links = lookup other t.links := by
  cases e <;> simp [put, lookup_cons, h.symm, lookup_without_of_ne _ h]

theorem entryOf?_put_same (t : Tree) (place : Place) (e : Entry) :
    (t.put place e).entryOf? place = some e := by
  rw [entryOf?, lookup_links_put_same]
  cases e with
  | directory modified => rfl
  | file f => simp [put, file, lookup_cons]

theorem number?_put_of_ne (t : Tree) (e : Entry) (h : other ≠ place) :
    (t.put place e).number? other = t.number? other :=
  number?_congr (t.lookup_links_put_of_ne e h)

theorem entryOf?_put_of_ne (t : Tree) (e : Entry) (h : other ≠ place) :
    (t.put place e).entryOf? other = t.entryOf? other := by
  refine entryOf?_congr (t.lookup_links_put_of_ne e h) fun n hn => ?_
  cases e with
  | directory modified => rfl
  | file f => rw [put, file, lookup_cons, if_neg (Nat.ne_of_gt (lt_unused hn)), file]

theorem change_of_number? (f : TextFile) (h : t.number? place = some n) :
    t.change place f = { t with files := (n, f) :: without n t.files } := by
  rw [change, h]

theorem change_of_none (f : TextFile) (h : t.number? place = none) :
    t.change place f = t.put place (.file f) := by
  rw [change, h]

theorem entryOf?_change_same (t : Tree) (place : Place) (f : TextFile) :
    (t.change place f).entryOf? place = some (.file f) := by
  cases h : t.number? place with
  | none =>
    rw [change_of_none f h]
    exact t.entryOf?_put_same place _
  | some n =>
    rw [change_of_number? f h, entryOf?, lookup_of_number? h]
    simp [file, lookup_cons]

/-- A change of a file is seen at its links alone. -/
theorem entryOf?_change_of_not_linked (t : Tree) (f : TextFile) (h : other ≠ place)
    (hlinked : ¬ t.Linked place other) : (t.change place f).entryOf? other = t.entryOf? other := by
  cases hn : t.number? place with
  | none =>
    rw [change_of_none f hn]
    exact t.entryOf?_put_of_ne _ h
  | some n =>
    rw [change_of_number? f hn]
    refine entryOf?_congr rfl fun m hm => ?_
    have hne : m ≠ n := fun heq => hlinked ⟨n, hn, heq ▸ hm⟩
    rw [file, lookup_cons, if_neg hne.symm, lookup_without_of_ne _ hne, file]

theorem number?_change_of_ne (t : Tree) (f : TextFile) (h : other ≠ place) :
    (t.change place f).number? other = t.number? other := by
  cases hn : t.number? place with
  | none =>
    rw [change_of_none f hn]
    exact t.number?_put_of_ne _ h
  | some n =>
    rw [change_of_number? f hn]
    rfl

/-- A change of a file makes no link of it. -/
theorem not_linked_change (f : TextFile) (h : other ≠ place) (hlinked : ¬ t.Linked other place) :
    ¬ (t.change place f).Linked other place := by
  rintro ⟨m, hother, hplace⟩
  rw [t.number?_change_of_ne f h] at hother
  cases hn : t.number? place with
  | some n =>
    rw [change_of_number? f hn] at hplace
    exact hlinked ⟨m, hother, hplace⟩
  | none =>
    have hnew : (t.put place (.file f)).number? place = some t.unused := by
      rw [number?, lookup_links_put_same]
    rw [change_of_none f hn, hnew] at hplace
    exact absurd (lt_unused hother) (by simp [Option.some.inj hplace])

theorem lookup_links_drop_of_ne (t : Tree) (h : other ≠ place) :
    lookup other (t.drop place).links = lookup other t.links :=
  lookup_without_of_ne t.links h

theorem entryOf?_drop_same (t : Tree) (place : Place) : (t.drop place).entryOf? place = none := by
  rw [entryOf?, drop, lookup_without_same]

@[simp] theorem file_drop (t : Tree) (place : Place) (n : Nat) :
    (t.drop place).file n = t.file n := rfl

theorem entryOf?_drop_of_ne (t : Tree) (h : other ≠ place) :
    (t.drop place).entryOf? other = t.entryOf? other :=
  entryOf?_congr (t.lookup_links_drop_of_ne h) fun _ _ => rfl

theorem number?_share_same (t : Tree) (n : Nat) (place : Place) :
    (t.share n place).number? place = some n := by
  simp [number?, share, lookup_cons]

theorem entryOf?_share_same (t : Tree) (n : Nat) (place : Place) :
    (t.share n place).entryOf? place = some (.file (t.file n)) :=
  entryOf?_of_number? (t.number?_share_same n place)

theorem entryOf?_share_of_ne (t : Tree) (n : Nat) (h : other ≠ place) :
    (t.share n place).entryOf? other = t.entryOf? other := by
  refine entryOf?_congr ?_ fun _ _ => rfl
  rw [share, lookup_cons, if_neg h.symm, lookup_without_of_ne _ h]

end entries

/-- The greatest number of bytes in a name. -/
def nameLimit : Nat := 255

/-- The place of a name within a place, which must be a directory. -/
def enter (t : Tree) (here : Place) (name : String) : Except IoFault Place :=
  match t.entryOf? here with
  | none => .error .noSuchFile
  | some (.file _) => .error .notADirectory
  | some (.directory _) =>
    if name = ".." then
      if here = ["/"] then .ok here
      else if here.isEmpty then .error .noSuchFile
      else .ok here.dropLast
    else if nameLimit < name.utf8ByteSize then .error .nameTooLong
    else .ok (here ++ [name])

/-- The place that a path leads to. All directories on the way must be there; the place itself may
be free. -/
def locate (t : Tree) (path : String) : Except IoFault Place :=
  if path.toList.contains (Char.ofNat 0) then .error .nulInName
  else if path = "" then .error .noSuchFile
  else (names path).foldlM t.enter (if isAbsolute path then ["/"] else [])

/-- Whether a path can only lead to a directory. -/
def mustBeDirectory (path : String) : Bool := path.toList.getLast? == some '/'

/-- The entry that a path leads to. -/
def find (t : Tree) (path : String) : Except IoFault (Place × Entry) := do
  let place ← t.locate path
  match t.entryOf? place with
  | none => .error .noSuchFile
  | some (.file f) =>
    if mustBeDirectory path then .error .notADirectory else .ok (place, .file f)
  | some e => .ok (place, e)

def exists? (t : Tree) (path : String) : Bool := (t.find path).isOk

def isFile (t : Tree) (path : String) : Bool :=
  match t.find path with
  | .ok (_, .file _) => true
  | _ => false

/-- The text of a file. -/
def read (t : Tree) (path : String) : Except IoFault String := do
  match ← t.find path with
  | (_, .file f) => .ok f.text
  | _ => .error .isADirectory

def lastChange (t : Tree) (path : String) : Except IoFault Timestamp := do
  match ← t.find path with
  | (_, .file f) => .ok f.modified
  | (_, .directory modified) => .ok modified

/-- The permissions of a new file. -/
def newMode : Nat := 0o644

/-- Writes the text of a file, which is made if it is not there. -/
def write (t : Tree) (path text : String) (now : Timestamp) : Except IoFault Tree := do
  let place ← t.locate path
  match t.entryOf? place with
  | some (.directory _) => .error .isADirectory
  | some (.file f) =>
    if mustBeDirectory path then .error .notADirectory
    else .ok (t.change place ⟨text, f.mode, now⟩)
  | none =>
    if mustBeDirectory path then .error .isADirectory
    else .ok (t.change place ⟨text, newMode, now⟩)

/-- Sets the permissions of a file. -/
def setMode (t : Tree) (path : String) (mode : Nat) : Except IoFault Tree := do
  match ← t.find path with
  | (place, .file f) => .ok (t.change place { f with mode })
  | _ => .ok t

/-- Sets the time of the last change of a file or directory. -/
def setLastChange (t : Tree) (path : String) (moment : Timestamp) : Except IoFault Tree := do
  match ← t.find path with
  | (place, .file f) => .ok (t.change place { f with modified := moment })
  | (place, .directory _) => .ok (t.put place (.directory moment))

/-- Removes a link of a file. -/
def remove (t : Tree) (path : String) : Except IoFault Tree := do
  match ← t.find path with
  | (place, .file _) => .ok (t.drop place)
  | _ => .error .isADirectory

/-- The place of another path, as a goal of a link of a file. No directory is replaced. -/
def goal (t : Tree) (target : String) : Except IoFault Place := do
  let goal ← t.locate target
  match t.entryOf? goal with
  | some (.directory _) => .error .isADirectory
  | _ => if mustBeDirectory target then .error .notADirectory else .ok goal

/-- Moves a file to the place of another path, and replaces the file that is there. -/
def rename (t : Tree) (source target : String) : Except IoFault Tree := do
  let (place, _) ← t.find source
  match t.number? place with
  | none => .error .notADirectory
  | some n =>
    let goal ← t.goal target
    return t.move n place goal

/-- Makes another link of a file, at a place where nothing is. -/
def link (t : Tree) (source target : String) : Except IoFault Tree := do
  let (place, _) ← t.find source
  match t.number? place with
  | none => .error (.other "Operation not permitted (os error 1)")
  | some n =>
    if t.exists? target then .error .fileExists
    else
      let goal ← t.goal target
      return t.share n goal

/-- Makes a directory on the way of a path, unless it is there. `last` tells whether the way ends
with it. -/
def makeDirectory (now : Timestamp) (t : Tree) (here : Place) (last : Bool) :
    Except IoFault Tree :=
  match t.entryOf? here with
  | none => .ok (t.put here (.directory now))
  | some (.directory _) => .ok t
  | some (.file _) => .error (if last then .fileExists else .notADirectory)

/-- Makes the directories of a list of names, each within the one before it. -/
def makeWay (now : Timestamp) (t : Tree) (here : Place) : List String → Except IoFault Tree
  | [] => .ok t
  | name :: rest => do
    let here ← t.enter here name
    let t ← makeDirectory now t here rest.isEmpty
    makeWay now t here rest

/-- Makes the directory that holds the place of a path, and all directories on the way to it. -/
def makeParents (t : Tree) (path : String) (now : Timestamp) : Except IoFault Tree :=
  if path.toList.contains (Char.ofNat 0) then .error .nulInName
  else makeWay now t (if isAbsolute path then ["/"] else []) (names path).dropLast

/-- Two paths lead to one file. -/
def SameFile (t : Tree) (path other : String) : Prop :=
  ∃ place goal, t.locate path = .ok place ∧ t.locate other = .ok goal ∧ t.Linked place goal

instance (t : Tree) (path other : String) : Decidable (t.SameFile path other) :=
  match hplace : t.locate path, hgoal : t.locate other with
  | .ok place, .ok goal =>
    decidable_of_iff (t.Linked place goal) (by simp [SameFile, hplace, hgoal])
  | .error _, _ => isFalse (by simp [SameFile, hplace])
  | _, .error _ => isFalse (by simp [SameFile, hgoal])

/-- The files of the working directory, by the paths to them. -/
def listing (t : Tree) : List (String × TextFile) :=
  t.links.filterMap fun (place, _) =>
    match place, t.entryOf? place with
    | "/" :: _, _ => none
    | place, some (.file f) => some ("/".intercalate place, f)
    | _, _ => none

end Tree

end TrafficWarden.Files

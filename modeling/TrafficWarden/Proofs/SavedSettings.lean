import TrafficWarden.Proofs.FilePlaces
import TrafficWarden.Proofs.SettingsLayers
import TrafficWarden.Proofs.TomlLines

/-!
# Saved settings are loaded again

The file of settings is a document of lines, from which its table is read; and this table has a
value for every setting, so that none is left to the standard ones.
-/

namespace TrafficWarden.Settings

open Toml

/-- What the file of settings says. -/
def fileTable (s : Settings) : Toml := .table [
  ("interfaces", .table [("outside", .string s.interfaces.outside),
    ("inside", .string s.interfaces.inside)]),
  ("dispatch", .table [("script_path", .string s.scriptPath), ("shell", .string s.shell),
    ("interval_secs", .integer s.interval.toNat)]),
  ("catalog", .table [("path", .string s.catalogPath)])]

/-- The statements in the file of settings. -/
def fileStatements (s : Settings) : List Toml.Statement := [
  .table [] "interfaces", .assign [] "outside" (.string s.interfaces.outside),
  .assign [] "inside" (.string s.interfaces.inside),
  .table [] "dispatch", .assign [] "script_path" (.string s.scriptPath),
  .assign [] "shell" (.string s.shell), .assign [] "interval_secs" (.integer s.interval.toNat),
  .table [] "catalog", .assign [] "path" (.string s.catalogPath)]

variable {s : Settings} {cs : List Char} {statements : List Toml.Statement}

theorem ofStatements?_fileStatements (s : Settings) :
    ofStatements? s.fileStatements = some s.fileTable := by
  rfl

section text

theorem toList_line (name value : String) :
    (line name value).toList = name.toList ++ ' ' :: '=' :: ' ' :: (value.toList ++ ['\n']) := by
  simp [line]

theorem lines_line (name : String) {value : String} {v : Toml} (hname : IsBare name.toList)
    (hvalue : Written value.toList v) (h : Lines cs statements) :
    Lines ((line name value).toList ++ cs) (.assign [] name v :: statements) := by
  have hline := Lines.assignment hname hvalue h
  rw [String.ofList_toList] at hline
  simpa [toList_line] using hline

theorem lines_header (name : String) (hname : IsBare name.toList) (h : Lines cs statements) :
    Lines (("[" ++ name ++ "]\n").toList ++ cs) (.table [] name :: statements) := by
  have hline := Lines.header hname h
  rw [String.ofList_toList] at hline
  simpa using hline

theorem written_writeString (t : String) : Written (writeString t).toList (.string t) := by
  have hwritten := written_writeChars t.toList
  rw [String.ofList_toList] at hwritten
  simpa [writeString] using hwritten

theorem written_toString {n : Nat} (h : n ≤ greatestInterval) :
    Written (toString n).toList (.integer n) := by
  have hgreatest : (n : Int) ≤ Text.Bounds.int64.greatest := Int.ofNat_le.2 h
  simpa [toString, Nat.repr] using written_toDigits hgreatest

theorem toList_fileText (s : Settings) :
    s.fileText.toList = ("[" ++ "interfaces" ++ "]\n").toList ++
      ((line "outside" (writeString s.interfaces.outside)).toList ++
      ((line "inside" (writeString s.interfaces.inside)).toList ++
      '\n' :: (("[" ++ "dispatch" ++ "]\n").toList ++
      ((line "script_path" (writeString s.scriptPath)).toList ++
      ((line "shell" (writeString s.shell)).toList ++
      ((line "interval_secs" (toString s.interval.toNat)).toList ++
      '\n' :: (("[" ++ "catalog" ++ "]\n").toList ++
      ((line "path" (writeString s.catalogPath)).toList ++ [])))))))) := by
  have hinterfaces : "[interfaces]\n" = "[" ++ "interfaces" ++ "]\n" := by decide +kernel
  have hdispatch : "\n[dispatch]\n" = "\n" ++ ("[" ++ "dispatch" ++ "]\n") := by decide +kernel
  have hcatalog : "\n[catalog]\n" = "\n" ++ ("[" ++ "catalog" ++ "]\n") := by decide +kernel
  have hbreak : "\n".toList = ['\n'] := by decide +kernel
  unfold fileText
  simp only [hinterfaces, hdispatch, hcatalog, String.toList_append, hbreak, List.append_assoc,
    List.cons_append, List.nil_append, List.append_nil]

theorem lines_fileText (h : s.interval.toNat ≤ greatestInterval) :
    Lines s.fileText.toList s.fileStatements := by
  have hcatalog := lines_header "catalog" (by decide +kernel) <|
    lines_line "path" (by decide +kernel) (written_writeString s.catalogPath) .nil
  have hdispatch := lines_header "dispatch" (by decide +kernel) <|
    lines_line "script_path" (by decide +kernel) (written_writeString s.scriptPath) <|
    lines_line "shell" (by decide +kernel) (written_writeString s.shell) <|
    lines_line "interval_secs" (by decide +kernel) (written_toString h) (.blank hcatalog)
  have hinterfaces := lines_header "interfaces" (by decide +kernel) <|
    lines_line "outside" (by decide +kernel)
      (written_writeString s.interfaces.outside) <|
    lines_line "inside" (by decide +kernel)
      (written_writeString s.interfaces.inside) (.blank hdispatch)
  rw [toList_fileText]
  exact hinterfaces

theorem read?_fileText (h : s.interval.toNat ≤ greatestInterval) :
    Toml.read? s.fileText = some s.fileTable := by
  have hmark : Text.withoutMark s.fileText.toList = s.fileText.toList := by
    rw [toList_fileText]
    rfl
  have hread := readStatements_of_lines (lines_fileText h) (Nat.lt_succ_self _)
  simp only [Toml.read?, hmark, hread, bind, Option.bind, ofStatements?_fileStatements]

end text

section loading

variable {files : Files.Tree} {path : String} {environment : Environment}

/-- The layer of a source that has every setting. -/
def layer (s : Settings) : Layer :=
  ⟨some s.interfaces.outside, some s.interfaces.inside, some s.scriptPath, some s.shell,
    some s.interval, some s.catalogPath⟩

theorem natural?_toNode_integer (n : UInt64) : (Toml.integer n.toNat).toNode.natural? = some n := by
  have hadmits : Text.Bounds.uint64.admits n.toNat = true := by
    have hlt := n.toNat_lt
    have hleast : Text.Bounds.uint64.least ≤ n.toNat := Int.natCast_nonneg n.toNat
    have hgreatest : (n.toNat : Int) ≤ Text.Bounds.uint64.greatest := by
      rw [show Text.Bounds.uint64.greatest = ((2 ^ 64 - 1 : Nat) : Int) from rfl]
      omega
    simp [Text.Bounds.admits, hleast, hgreatest]
  simp [Toml.toNode, Node.natural?, Option.filter, hadmits]

theorem of?_fileTable (s : Settings) : Layer.of? s.fileTable = some s.layer := by
  rw [Layer.of?_eq_some_iff]
  refine ⟨_, _, _, _, rfl, rfl, rfl, rfl, rfl, rfl, rfl, rfl, ?_, rfl⟩
  exact congrArg (Option.map some) (natural?_toNode_integer s.interval)

theorem ofEnvironment?_of_silent (h : ∀ v ∈ environment, settingPath? v.1 = none) :
    Layer.ofEnvironment? environment = some .empty := by
  unfold Layer.ofEnvironment?
  induction environment with
  | nil => rfl
  | cons v environment ih =>
    rw [List.forall_mem_cons] at h
    simp only [List.foldlM_cons, h.1]
    exact ih h.2

theorem readTable?_of_find {place : Files.Place} {f : Files.TextFile}
    (hfind : files.find path = .ok (place, .file f)) :
    readTable? files path = Toml.read? f.text := by
  simp only [readTable?, Files.Tree.isFile, Files.Tree.read, hfind, if_true, bind, Except.bind,
    Except.toOption, Option.bind]

end loading

section saving

variable {files : Files.Tree} {path : String} {now : Calendar.Timestamp}

theorem fileText?_of_le (h : s.interval.toNat ≤ greatestInterval) :
    s.fileText? = .ok s.fileText := if_pos h

theorem fileText?_of_lt (h : greatestInterval < s.interval.toNat) :
    s.fileText? = .error .unserializable := if_neg (Nat.not_le_of_gt h)

/-- Settings that are saved are a file at the path. -/
theorem save_of_canWrite (h : s.interval.toNat ≤ greatestInterval)
    (hwrite : files.CanWrite path now) :
    (s.save files path now).1 = .ok () ∧
      ∃ place f, (s.save files path now).2.find path = .ok (place, .file f) ∧
        f.text = s.fileText := by
  obtain ⟨made, text, next, hmade, hnext⟩ := hwrite
  obtain ⟨place, _, hlocate, hplace, hmust, -⟩ := Files.Tree.write_eq_ok hnext
  obtain ⟨mode, hwritten⟩ := Files.Tree.write_of_locate hlocate hplace hmust s.fileText now
  have hsave : s.save files path now =
      (.ok (), made.change place ⟨s.fileText, mode, now⟩) := by
    simp only [save, hmade, fileText?_of_le h, hwritten]
  rw [hsave]
  exact ⟨rfl, place, _, Files.Tree.find_change_file hlocate hplace hmust _, rfl⟩

/-- An interval that cannot be written keeps everything from being written. -/
theorem save_of_lt (h : greatestInterval < s.interval.toNat) (files : Files.Tree) (path : String)
    (now : Calendar.Timestamp) :
    (∃ fault, (s.save files path now).1 = .error fault) ∧
      files.KeepsFiles (s.save files path now).2 := by
  unfold save
  cases hmade : files.makeParents path now with
  | error cause => exact ⟨⟨_, rfl⟩, fun _ _ => Iff.rfl⟩
  | ok made =>
    simp only [fileText?_of_lt h]
    exact ⟨⟨_, rfl⟩, Files.Tree.keepsFiles_makeParents hmade⟩

/-- Settings that are saved are loaded again as they were, whatever characters are in them. With an
interval that no file can hold they are not saved, and all files stay as they are. -/
theorem saved_settings_load_back (s : Settings) (files : Files.Tree) (path : String)
    (now : Calendar.Timestamp) (platform : String) (environment : Environment)
    (hsilent : ∀ v ∈ environment, settingPath? v.1 = none) :
    (s.interval.toNat ≤ greatestInterval → files.CanWrite path now →
      (s.save files path now).1 = .ok () ∧
        load (s.save files path now).2 platform environment (some path) = .ok s) ∧
    (greatestInterval < s.interval.toNat →
      (∃ fault, (s.save files path now).1 = .error fault) ∧
        files.KeepsFiles (s.save files path now).2) := by
  refine ⟨fun hinterval hwrite => ?_, fun hinterval => save_of_lt hinterval files path now⟩
  obtain ⟨hsaved, place, f, hfind, htext⟩ := save_of_canWrite hinterval hwrite
  have hread : Toml.read? f.text = some s.fileTable := by rw [htext, read?_fileText hinterval]
  have hthere : ∀ other, some path = some other →
      (s.save files path now).2.exists? other = true := by
    rintro other ⟨⟩
    exact Files.Tree.exists?_of_find hfind
  have hlayer : (readTable? (s.save files path now).2 path).bind Layer.of? = some s.layer := by
    rw [readTable?_of_find hfind, hread]
    exact of?_fileTable s
  exact ⟨hsaved, load_of_layers hthere hlayer (ofEnvironment?_of_silent hsilent)⟩

/-- Names with quotes, line breaks and control characters, an empty path, and the greatest interval
that can be written; and an interval that is greater by one. -/
theorem saved_settings_load_back_of_strange_names :
    let strange : Settings :=
      ⟨⟨"", "a'b\"\"\"c\\\n\t\u0007é"⟩, "'''\r\n\"", "\u007f", 0x7FFFFFFFFFFFFFFF, ""⟩
    let endless : Settings := { standard with interval := 0x8000000000000000 }
    let files : Files.Tree := .empty .epoch
    let path := "etc/netcop.toml"
    (∀ v ∈ [("PATH", "/bin")], settingPath? v.1 = none) ∧
      strange.interval.toNat ≤ greatestInterval ∧ files.CanWrite path .epoch ∧
      ((strange.save files path .epoch).1 = .ok () ∧
        load (strange.save files path .epoch).2 "platform.toml" [("PATH", "/bin")] (some path) =
          .ok strange) ∧
      greatestInterval < endless.interval.toNat ∧
      (∃ fault, (endless.save files path .epoch).1 = .error fault) ∧
        files.KeepsFiles (endless.save files path .epoch).2 := by
  intro strange endless files path
  have hsilent : ∀ v ∈ [("PATH", "/bin")], settingPath? v.1 = none := by decide +kernel
  have hinterval : strange.interval.toNat ≤ greatestInterval := by decide
  have hgreater : greatestInterval < endless.interval.toNat := by decide
  have hwrite : files.CanWrite path .epoch :=
    let made := files.put ["etc"] (.directory .epoch)
    let next := made.put ["etc", "netcop.toml"] (.file ⟨"", Files.Tree.newMode, .epoch⟩)
    ⟨made, "", next, by decide +kernel, by decide +kernel⟩
  exact ⟨hsilent, hinterval, hwrite,
    (saved_settings_load_back strange files path .epoch "platform.toml" _ hsilent).1 hinterval
      hwrite,
    hgreater,
    (saved_settings_load_back endless files path .epoch "platform.toml" _ hsilent).2 hgreater⟩

end saving

end TrafficWarden.Settings

import TrafficWarden.Dispatch.ScriptFile
import TrafficWarden.Proofs.AddressText
import TrafficWarden.Proofs.FilePlaces

/-!
# The staged script

A script is staged beside the script file, in the same directory and under another name. So staging
a script, running it and taking it away leave the script file as it is, and only the last step of a
successful dispatch replaces it.
-/

namespace TrafficWarden

open Calendar Files Shell

/-- What follows a text belongs to its last piece. -/
theorem Text.exists_splitAt_append (sep : Char) (after : List Char) (h : sep ∉ after)
    (cs : List Char) : ∃ pieces last, splitAt sep cs = pieces ++ [last] ∧
      splitAt sep (cs ++ after) = pieces ++ [last ++ after] := by
  induction cs with
  | nil =>
    have halone : ∀ piece ∈ [after], sep ∉ piece := by simpa using h
    have hafter := splitAt_intercalate sep (by simp) halone
    exact ⟨[], [], rfl, by simpa using hafter⟩
  | cons c cs ih =>
    obtain ⟨pieces, last, hcs, hafter⟩ := ih
    rw [List.cons_append, splitAt, splitAt, hcs, hafter]
    by_cases hc : c = sep
    · exact ⟨[] :: pieces, last, by simp [hc], by simp [hc]⟩
    · cases pieces with
      | nil => exact ⟨[], c :: last, by simp [hc], by simp [hc]⟩
      | cons piece pieces => exact ⟨(c :: piece) :: pieces, last, by simp [hc], by simp [hc]⟩

namespace ScriptFile

variable {s : ScriptFile}

/-- The directories on the way are the same, and only the last name differs. The path may lead to
the directory itself. -/
theorem exists_names (s : ScriptFile) :
    ∃ dirs last, names s.stagePath = dirs ++ [last ++ ".tmp"] ∧
      (names s.path = dirs ∨ names s.path = dirs ++ [last]) := by
  obtain ⟨pieces, last, hpath, hstage⟩ :=
    Text.exists_splitAt_append '/' ".tmp".toList (by decide) s.path.toList
  have hstaged : (!(last ++ ".tmp".toList).isEmpty && (last ++ ".tmp".toList) != ['.']) = true := by
    rcases last with _ | ⟨c, last⟩ <;> simp
  refine ⟨(pieces.filter fun cs => !cs.isEmpty && cs != ['.']).map String.ofList,
    String.ofList last, ?_, ?_⟩
  · rw [names, stagePath, String.toList_append, hstage, List.filter_append, List.filter_singleton,
      hstaged]
    simp [String.ofList_append]
  · rw [names, hpath, List.filter_append, List.filter_singleton]
    cases !last.isEmpty && last != ['.'] <;> simp

theorem isAbsolute_stagePath (s : ScriptFile) : isAbsolute s.stagePath = isAbsolute s.path := by
  rw [isAbsolute, isAbsolute, stagePath, String.toList_append]
  cases s.path.toList <;> rfl

section places

variable {t next : Tree} {stage : Place}

/-- Where a script is staged, and what leads there. -/
theorem exists_directory (h : t.locate s.stagePath = .ok stage) :
    ∃ dirs last here, (names s.path = dirs ∨ names s.path = dirs ++ [last]) ∧
      dirs.foldlM t.enter (if isAbsolute s.path then ["/"] else []) = .ok here ∧
      t.IsDirectory here ∧ stage = here ++ [last ++ ".tmp"] := by
  obtain ⟨dirs, last, hstage, hpath⟩ := s.exists_names
  obtain ⟨-, -, hwalk⟩ := Tree.locate_eq_ok_iff.mp h
  rw [hstage, isAbsolute_stagePath, Tree.walk_concat_iff] at hwalk
  obtain ⟨here, hhere, hlast⟩ := hwalk
  have hdirectory := Tree.isDirectory_of_enter hlast
  refine ⟨dirs, last, here, hpath, hhere, hdirectory, ?_⟩
  obtain ⟨moment, hmoment⟩ := hdirectory
  have hname : last ++ ".tmp" ≠ ".." := by
    intro heq
    have hmem : 't' ∈ "..".toList := by simp [← heq]
    exact absurd hmem (by decide)
  simp only [Tree.enter, hmoment, hname, if_false] at hlast
  split at hlast
  · cases hlast
  · exact (Except.ok.inj hlast).symm

/-- The script is not staged at its own place. -/
theorem place_ne_stage (h : t.locate s.stagePath = .ok stage) {place : Place}
    (hplace : t.locate s.path = .ok place) : place ≠ stage := by
  obtain ⟨dirs, last, here, hnames, hhere, -, rfl⟩ := exists_directory h
  obtain ⟨-, -, hwalk⟩ := Tree.locate_eq_ok_iff.mp hplace
  have hcases : place = here ∨ place = here.dropLast ∨ place = here ++ [last] := by
    rcases hnames with hnames | hnames
    · rw [hnames, hhere] at hwalk
      exact .inl (Except.ok.inj hwalk).symm
    · rw [hnames, Tree.walk_concat_iff] at hwalk
      obtain ⟨there, hthere, henter⟩ := hwalk
      rw [Except.ok.inj (hhere.symm.trans hthere)]
      exact Tree.enter_cases henter
  rcases hcases with rfl | rfl | rfl
  · simp
  · intro heq
    have hlength := congrArg List.length heq
    simp only [List.length_dropLast, List.length_append, List.length_singleton] at hlength
    omega
  · intro heq
    have hname : last = last ++ ".tmp" := by simpa using heq
    have hlength := congrArg String.length hname
    rw [String.length_append] at hlength
    exact absurd hlength (by simp)

/-- As long as the directories stay, the script file has its place. -/
theorem locate_path_of_keepsDirectories (h : t.locate s.stagePath = .ok stage)
    (hkeeps : t.KeepsDirectories next) : next.locate s.path = t.locate s.path := by
  obtain ⟨dirs, last, here, hnames, hhere, hdirectory, -⟩ := exists_directory h
  have hnext := Tree.walk_of_keepsDirectories hkeeps hhere
  unfold Tree.locate
  rcases hnames with hnames | hnames
  · rw [hnames, hhere, hnext]
  · rw [hnames, List.foldlM_append, List.foldlM_append, hhere, hnext]
    simp only [bind, Except.bind, List.foldlM_cons, List.foldlM_nil,
      Tree.enter_of_isDirectory hdirectory (hkeeps here hdirectory)]

/-- The script file is no link of the staged file, nor is it the directory that holds the staged
file. -/
structure Apart (s : ScriptFile) (t : Tree) : Prop where
  notLinked : ¬ t.SameFile s.path s.stagePath
  notHolding : ∀ place moment, t.find s.path = .ok (place, .directory moment) →
    ∀ stage, t.locate s.stagePath = .ok stage → stage.dropLast ≠ place

theorem Apart.congr (h : s.Apart t) (hpath : next.find s.path = t.find s.path)
    (hbefore : t.locate s.stagePath = .ok stage) (hafter : next.locate s.stagePath = .ok stage)
    (hlinked : ¬ next.SameFile s.path s.stagePath) : s.Apart next where
  notLinked := hlinked
  notHolding place moment hdirectory other hother := by
    rw [hpath] at hdirectory
    obtain rfl : stage = other := Except.ok.inj (hafter.symm.trans hother)
    exact h.notHolding place moment hdirectory stage hbefore

/-- What is written to the staged file is not seen at the script file. -/
theorem find_path_change (hapart : s.Apart t) (h : t.locate s.stagePath = .ok stage)
    (hstage : ¬ t.IsDirectory stage) (f : TextFile) :
    (t.change stage f).find s.path = t.find s.path := by
  refine Tree.find_congr
    (locate_path_of_keepsDirectories h (Tree.keepsDirectories_change hstage f))
    fun place hplace => ?_
  refine t.entryOf?_change_of_not_linked f (place_ne_stage h hplace) ?_
  rintro ⟨n, hstaged, hn⟩
  exact hapart.notLinked ⟨place, stage, hplace, h, n, hn, hstaged⟩

theorem apart_change (hapart : s.Apart t) (h : t.locate s.stagePath = .ok stage)
    (hstage : ¬ t.IsDirectory stage) (f : TextFile) : s.Apart (t.change stage f) := by
  have hkeeps := Tree.keepsDirectories_change hstage f
  have hafter := Tree.locate_of_keepsDirectories hkeeps h
  refine hapart.congr (find_path_change hapart h hstage f) h hafter ?_
  rintro ⟨place, other, hplace, hother, hlinked⟩
  rw [locate_path_of_keepsDirectories h hkeeps] at hplace
  obtain rfl : stage = other := Except.ok.inj (hafter.symm.trans hother)
  refine Tree.not_linked_change f (place_ne_stage h hplace) ?_ hlinked
  exact fun hlinked => hapart.notLinked ⟨place, stage, hplace, h, hlinked⟩

theorem find_path_drop (h : t.locate s.stagePath = .ok stage) (hstage : ¬ t.IsDirectory stage) :
    (t.drop stage).find s.path = t.find s.path :=
  Tree.find_congr (locate_path_of_keepsDirectories h (Tree.keepsDirectories_drop hstage))
    fun _ hplace => t.entryOf?_drop_of_ne (place_ne_stage h hplace)

/-- Without a staged file there is no link of it. -/
theorem not_sameFile_of_find (h : t.find s.stagePath = .error .noSuchFile) :
    ¬ t.SameFile s.path s.stagePath := by
  rintro ⟨place, stage, -, hstage, n, -, hn⟩
  simp only [Tree.find, hstage, bind, Except.bind, Tree.entryOf?_of_number? hn] at h
  split at h <;> cases h

theorem find_path_write {text : String} {now : Timestamp} (hapart : s.Apart t)
    (h : t.write s.stagePath text now = .ok next) :
    next.find s.path = t.find s.path ∧ s.Apart next := by
  obtain ⟨stage, mode, hlocate, hstage, -, rfl⟩ := Tree.write_eq_ok h
  exact ⟨find_path_change hapart hlocate hstage _, apart_change hapart hlocate hstage _⟩

/-- A staged file that is renamed is the script file, and no staged file is left. -/
theorem rename_spec {f : TextFile} (hapart : s.Apart t)
    (h : t.find s.stagePath = .ok (stage, .file f))
    (hrename : t.rename s.stagePath s.path = .ok next) :
    (∃ place, next.find s.path = .ok (place, .file f)) ∧
      next.find s.stagePath = .error .noSuchFile := by
  obtain ⟨n, goal, hn, hf, hgoal, rfl⟩ := Tree.rename_eq_ok h hrename
  obtain ⟨hgoal, hdirectory, hmust⟩ := Tree.goal_eq_ok_iff.mp hgoal
  obtain ⟨hlocate, hfile, -⟩ := Tree.find_eq_ok_file_iff.mp h
  have hne := place_ne_stage hlocate hgoal
  have hmoved : t.number? goal ≠ some n := fun heq =>
    hapart.notLinked ⟨goal, stage, hgoal, hlocate, n, heq, hn⟩
  rw [Tree.move, if_neg hmoved]
  have hdrop := Tree.keepsDirectories_drop (Tree.not_isDirectory_of_file hfile)
  have hfree : ¬ (t.drop stage).IsDirectory goal := by
    rwa [Tree.isDirectory_congr (t.entryOf?_drop_of_ne hne)]
  have hkeeps : t.KeepsDirectories ((t.drop stage).share n goal) :=
    fun place hplace => Tree.keepsDirectories_share hfree n place (hdrop place hplace)
  constructor
  · refine ⟨goal, Tree.find_eq_ok_file_iff.mpr ⟨Tree.locate_of_keepsDirectories hkeeps hgoal, ?_,
      hmust⟩⟩
    rw [Tree.entryOf?_share_same, Tree.file_drop, hf]
  · refine Tree.find_of_locate_of_none (Tree.locate_of_keepsDirectories hkeeps hlocate) ?_
    rw [Tree.entryOf?_share_of_ne _ _ hne.symm, Tree.entryOf?_drop_same]

end places

section steps

variable {t next : Tree} {hazards : Hazards} {now : Timestamp} {script : String}

theorem find_path_writeStage (hapart : s.Apart t) (hazards : Hazards) (now : Timestamp)
    (script : String) :
    (s.writeStage hazards now t script).2.find s.path = t.find s.path ∧
      s.Apart (s.writeStage hazards now t script).2 := by
  unfold writeStage
  split
  · split
    · rename_i part _
      cases hwrite : t.write s.stagePath part now with
      | error cause => exact ⟨rfl, hapart⟩
      | ok next => exact find_path_write hapart hwrite
    · exact ⟨rfl, hapart⟩
  · split
    · rename_i next hwrite
      exact find_path_write hapart hwrite
    · exact ⟨rfl, hapart⟩

theorem writeStage_eq_ok (h : s.writeStage hazards now t script = (.ok (), next)) :
    ∃ stage mode, next.find s.stagePath = .ok (stage, .file ⟨script, mode, now⟩) := by
  unfold writeStage at h
  split at h
  · cases h
  · split at h
    · rename_i hwrite
      cases h
      obtain ⟨stage, mode, hlocate, hstage, hmust, rfl⟩ := Tree.write_eq_ok hwrite
      exact ⟨stage, mode, Tree.find_change_file hlocate hstage hmust _⟩
    · cases h

/-- A script is staged with its text, its permissions and the time. Until then nothing is seen at
the script file. -/
theorem stage_cases (hapart : s.Apart t) (hazards : Hazards) (now : Timestamp) (script : String) :
    (s.stage hazards now t script).2.find s.path = t.find s.path ∧
      s.Apart (s.stage hazards now t script).2 ∧
      ((∃ cause, (s.stage hazards now t script).1 = .error (s.unwritable cause)) ∨
        (s.stage hazards now t script).1 = .ok () ∧
          ∃ stage, (s.stage hazards now t script).2.find s.stagePath =
            .ok (stage, .file ⟨script, scriptMode, now⟩)) := by
  obtain ⟨hwrite, hkept⟩ := find_path_writeStage hapart hazards now script
  unfold stage
  split
  · rename_i cause written hwritten
    rw [hwritten] at hwrite hkept
    exact ⟨hwrite, hkept, .inl ⟨cause, rfl⟩⟩
  · rename_i written hwritten
    rw [hwritten] at hwrite hkept
    obtain ⟨stage, mode, hfind⟩ := writeStage_eq_ok hwritten
    obtain ⟨hlocate, hfile, hmust⟩ := Tree.find_eq_ok_file_iff.mp hfind
    have hfree := Tree.not_isDirectory_of_file hfile
    rw [Tree.setMode_of_find hfind]
    cases hazards.permit with
    | some cause => exact ⟨hwrite, hkept, .inl ⟨cause, rfl⟩⟩
    | none =>
      exact ⟨(find_path_change hkept hlocate hfree _).trans hwrite,
        apart_change hkept hlocate hfree _,
        .inr ⟨rfl, stage, Tree.find_change_file hlocate hfree hmust _⟩⟩

theorem eq_ok_of_unlessRefused {α : Type} {refusal : Option IoFault} {result : Except IoFault α}
    {a : α} (h : unlessRefused refusal result = .ok a) : result = .ok a := by
  cases refusal with
  | none => exact h
  | some cause => cases h

theorem find_path_clear (hapart : s.Apart t) {stage : Place} {f : TextFile}
    (h : t.find s.stagePath = .ok (stage, .file f)) :
    (s.clear hazards t).1.find s.path = t.find s.path ∧ s.Apart (s.clear hazards t).1 := by
  obtain ⟨hlocate, hfile, -⟩ := Tree.find_eq_ok_file_iff.mp h
  have hfree := Tree.not_isDirectory_of_file hfile
  have hdrop := find_path_drop hlocate hfree
  rw [clear, Tree.remove_of_find h]
  cases hazards.remove with
  | some cause => exact ⟨rfl, hapart⟩
  | none =>
    have hafter := Tree.locate_of_keepsDirectories (Tree.keepsDirectories_drop hfree) hlocate
    have hlinked := not_sameFile_of_find (Tree.find_drop hlocate hfree)
    exact ⟨hdrop, hapart.congr hdrop hlocate hafter hlinked⟩

theorem find_stagePath_clear {stage : Place} {f : TextFile}
    (h : t.find s.stagePath = .ok (stage, .file f)) (hremove : hazards.remove = none) :
    (s.clear hazards t).1.find s.stagePath = .error .noSuchFile := by
  obtain ⟨hlocate, hfile, -⟩ := Tree.find_eq_ok_file_iff.mp h
  rw [clear, Tree.remove_of_find h, hremove]
  exact Tree.find_drop hlocate (Tree.not_isDirectory_of_file hfile)

end steps

end ScriptFile

end TrafficWarden

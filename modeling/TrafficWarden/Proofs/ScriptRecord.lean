import Mathlib.Data.List.Induction
import TrafficWarden.Proofs.StagedScript

/-!
# The record of the last dispatch

The script file is the record of the last dispatch. Scripts are applied one after another, and each
attempt may end at any of its steps. The record follows the attempts that succeed and no others: at
every moment it is the file that was there at first, or the whole script of the last success.
-/

namespace TrafficWarden

open Calendar Files Shell

namespace ScriptFile

/-- An attempt to apply a script: what runs it, what the machine refuses, and when. -/
structure Attempt where
  program : Program
  hazards : Hazards
  now : Timestamp
  script : String

variable (s : ScriptFile)

/-- The script of an attempt is staged. -/
def staging (a : Attempt) (files : Tree) : Except Fault Unit × Tree :=
  s.stage a.hazards a.now files a.script

def attempt (a : Attempt) (files : Tree) : Except Fault Unit × Tree × List Warning :=
  s.apply a.program a.hazards a.now files a.script

/-- The files after some attempts. -/
def after (files : Tree) (attempts : List Attempt) : Tree :=
  attempts.foldl (fun files a => (s.attempt a files).2.1) files

/-- The attempts that succeed. -/
def successes : Tree → List Attempt → List Attempt
  | _, [] => []
  | files, a :: rest =>
    let later := successes (s.attempt a files).2.1 rest
    if (s.attempt a files).1.isOk then a :: later else later

/-- A script that is run, if it comes to that, touches neither the script file nor itself, and makes
no link between them. -/
def LeavesAlone (a : Attempt) (files : Tree) : Prop :=
  (s.staging a files).1 = .ok () →
    let staged := (s.staging a files).2
    let next := (a.program staged a.now s.stagePath).2
    next.find s.path = staged.find s.path ∧ next.find s.stagePath = staged.find s.stagePath ∧
      ¬ next.SameFile s.path s.stagePath

/-- None of the scripts that are run one after another touches the record or itself. -/
def AllLeaveAlone : Tree → List Attempt → Prop
  | _, [] => True
  | files, a :: rest => s.LeavesAlone a files ∧ AllLeaveAlone (s.attempt a files).2.1 rest

/-- The script file is the script of an attempt, with the permissions of a script. -/
def Records (a : Attempt) (files : Tree) : Prop :=
  ∃ place, files.find s.path = .ok (place, .file ⟨a.script, scriptMode, a.now⟩)

/-- The files at some moment of an attempt: while the script is written and after each step. -/
inductive Passes (a : Attempt) (before : Tree) : Tree → Prop
  | start : Passes a before before
  | writing {part : String} {files : Tree} (h : before.write s.stagePath part a.now = .ok files) :
    Passes a before files
  | written : Passes a before (s.writeStage a.hazards a.now before a.script).2
  | staged : Passes a before (s.staging a before).2
  | ran (h : (s.staging a before).1 = .ok ()) :
    Passes a before (a.program (s.staging a before).2 a.now s.stagePath).2
  | done : Passes a before (s.attempt a before).2.1

/-- What an attempt does to the record. -/
structure Atomic (a : Attempt) (before : Tree) : Prop where
  /-- A success needs a script that exited with zero. -/
  success : (s.attempt a before).1 = .ok () →
    (∃ e, (a.program (s.staging a before).2 a.now s.stagePath).1 = .ok e ∧
      e.ending = .exited 0) ∧
    s.Records a (s.attempt a before).2.1 ∧
    (s.attempt a before).2.1.find s.stagePath = .error .noSuchFile
  failure : ∀ fault, (s.attempt a before).1 = .error fault →
    (s.attempt a before).2.1.find s.path = before.find s.path ∧
    s.last (s.attempt a before).2.1 = s.last before
  cleared : ∀ status stderr, (s.attempt a before).1 = .error (.scriptFailed status stderr) →
    a.hazards.remove = none → (s.attempt a before).2.1.find s.stagePath = .error .noSuchFile

variable {s} {a : Attempt} {before : Tree}

theorem last_congr {files next : Tree} (h : next.find s.path = files.find s.path) :
    s.last next = s.last files := by
  rw [last, last, Tree.lastChange, Tree.lastChange, h]

theorem failure?_eq_none {result : Except IoFault Execution} (h : s.failure? result = none) :
    ∃ e, result = .ok e ∧ e.ending = .exited 0 := by
  unfold failure? at h
  split at h
  · cases h
  · rename_i e
    split at h
    · rename_i hsuccess
      exact ⟨e, rfl, of_decide_eq_true hsuccess⟩
    · cases h

theorem failure?_eq_some {result : Except IoFault Execution} {fault : Fault}
    (h : s.failure? result = some fault) :
    ∃ status stderr, fault = .scriptFailed status stderr := by
  unfold failure? at h
  split at h
  · exact ⟨_, _, (Option.some.inj h).symm⟩
  · split at h
    · cases h
    · exact ⟨_, _, (Option.some.inj h).symm⟩

/-- How an attempt may end. -/
inductive Ends (s : ScriptFile) (a : Attempt) (before : Tree) : Prop
  | unwritten (cause : IoFault) (hresult : (s.attempt a before).1 = .error (s.unwritable cause))
    (hpath : (s.attempt a before).2.1.find s.path = before.find s.path)
    (hapart : s.Apart (s.attempt a before).2.1)
  | failed (status stderr : String)
    (hresult : (s.attempt a before).1 = .error (.scriptFailed status stderr))
    (hpath : (s.attempt a before).2.1.find s.path = before.find s.path)
    (hapart : s.Apart (s.attempt a before).2.1)
    (hstage : a.hazards.remove = none →
      (s.attempt a before).2.1.find s.stagePath = .error .noSuchFile)
  | applied (e : Execution) (hresult : (s.attempt a before).1 = .ok ())
    (hexit : (a.program (s.staging a before).2 a.now s.stagePath).1 = .ok e)
    (hzero : e.ending = .exited 0)
    (hrecords : s.Records a (s.attempt a before).2.1)
    (hstage : (s.attempt a before).2.1.find s.stagePath = .error .noSuchFile)

theorem attempt_of_not_staged {fault : Fault} (h : (s.staging a before).1 = .error fault) :
    s.attempt a before = (.error fault, (s.staging a before).2, []) := by
  unfold staging at h ⊢
  unfold attempt apply
  generalize s.stage a.hazards a.now before a.script = staged at h ⊢
  obtain ⟨result, files⟩ := staged
  cases h
  rfl

theorem attempt_of_failure {fault : Fault} (h : (s.staging a before).1 = .ok ())
    (hfails : s.failure? (a.program (s.staging a before).2 a.now s.stagePath).1 = some fault) :
    s.attempt a before =
      (.error fault, s.clear a.hazards (a.program (s.staging a before).2 a.now s.stagePath).2) := by
  unfold staging at h hfails ⊢
  unfold attempt apply
  generalize s.stage a.hazards a.now before a.script = staged at h hfails ⊢
  obtain ⟨result, files⟩ := staged
  cases h
  simp only [hfails]

theorem attempt_of_success (h : (s.staging a before).1 = .ok ())
    (hsucceeds : s.failure? (a.program (s.staging a before).2 a.now s.stagePath).1 = none) :
    let ran := (a.program (s.staging a before).2 a.now s.stagePath).2
    s.attempt a before =
      match unlessRefused a.hazards.replace (ran.rename s.stagePath s.path) with
      | .ok files => (.ok (), files, [])
      | .error cause => (.error (s.unwritable cause), ran, []) := by
  unfold staging at h hsucceeds ⊢
  unfold attempt apply
  generalize s.stage a.hazards a.now before a.script = staged at h hsucceeds ⊢
  obtain ⟨result, files⟩ := staged
  cases h
  dsimp only at hsucceeds ⊢
  cases unlessRefused a.hazards.replace
    ((a.program files a.now s.stagePath).2.rename s.stagePath s.path) <;>
  simp only [hsucceeds]

/-- Whatever step an attempt ends at, the record is as it was or is the script of the attempt. -/
theorem ends (hapart : s.Apart before) (h : s.LeavesAlone a before) : s.Ends a before := by
  obtain ⟨hpath, hstaged, ⟨cause, hfault⟩ | ⟨hok, stage, hstage⟩⟩ :=
    stage_cases hapart a.hazards a.now a.script
  · have hattempt := attempt_of_not_staged hfault
    refine .unwritten cause (congrArg Prod.fst hattempt) ?_ ?_
    · rw [hattempt]
      exact hpath
    · rw [hattempt]
      exact hstaged
  · obtain ⟨hranPath, hranStage, hranLinked⟩ := h hok
    have hran := hranPath.trans hpath
    rw [show (s.staging a before).2.find s.stagePath = _ from hstage] at hranStage
    have hranApart := hstaged.congr hranPath (Tree.find_eq_ok_file_iff.mp hstage).1
      (Tree.find_eq_ok_file_iff.mp hranStage).1 hranLinked
    cases hfailure : s.failure? (a.program (s.staging a before).2 a.now s.stagePath).1 with
    | some fault =>
      obtain ⟨status, stderr, rfl⟩ := failure?_eq_some hfailure
      have hattempt := attempt_of_failure hok hfailure
      obtain ⟨hcleared, hclearedApart⟩ := find_path_clear hranApart hranStage
      refine .failed status stderr (congrArg Prod.fst hattempt) ?_ ?_ ?_
      · rw [hattempt]
        exact hcleared.trans hran
      · rw [hattempt]
        exact hclearedApart
      · intro hremove
        rw [hattempt]
        exact find_stagePath_clear hranStage hremove
    | none =>
      obtain ⟨e, hexit, hzero⟩ := failure?_eq_none hfailure
      have hattempt := attempt_of_success hok hfailure
      cases hrename : unlessRefused a.hazards.replace
        ((a.program (s.staging a before).2 a.now s.stagePath).2.rename s.stagePath s.path) with
      | error cause =>
        simp only [hrename] at hattempt
        refine .unwritten cause (congrArg Prod.fst hattempt) ?_ ?_
        · rw [hattempt]
          exact hran
        · rw [hattempt]
          exact hranApart
      | ok next =>
        simp only [hrename] at hattempt
        obtain ⟨hrecords, hfree⟩ := rename_spec hranApart hranStage (eq_ok_of_unlessRefused hrename)
        refine .applied e (congrArg Prod.fst hattempt) hexit hzero ?_ ?_
        · rw [hattempt]
          exact hrecords
        · rw [hattempt]
          exact hfree

/-- The script file stays apart from the staged one. -/
theorem apart_attempt (hapart : s.Apart before) (h : s.LeavesAlone a before) :
    s.Apart (s.attempt a before).2.1 := by
  rcases ends hapart h with ⟨_, _, _, hnext⟩ | ⟨_, _, _, _, hnext, _⟩ |
    ⟨_, _, _, _, ⟨place, hplace⟩, hstage⟩
  · exact hnext
  · exact hnext
  · refine ⟨not_sameFile_of_find hstage, fun other moment hdirectory => ?_⟩
    rw [hplace] at hdirectory
    cases hdirectory

theorem atomic (hapart : s.Apart before) (h : s.LeavesAlone a before) : s.Atomic a before := by
  rcases ends hapart h with ⟨cause, hresult, hpath, -⟩ |
    ⟨status, stderr, hresult, hpath, -, hstage⟩ | ⟨e, hresult, hexit, hzero, hrecords, hstage⟩
  · refine ⟨fun hok => ?_, fun _ _ => ⟨hpath, last_congr hpath⟩, fun _ _ hfailed => ?_⟩
    · rw [hresult] at hok
      cases hok
    · rw [hresult] at hfailed
      cases hfailed
  · refine ⟨fun hok => ?_, fun _ _ => ⟨hpath, last_congr hpath⟩, fun _ _ _ => hstage⟩
    rw [hresult] at hok
    cases hok
  · refine ⟨fun _ => ⟨⟨e, hexit, hzero⟩, hrecords, hstage⟩, fun _ hfault => ?_,
      fun _ _ hfault => ?_⟩
    · rw [hresult] at hfault
      cases hfault
    · rw [hresult] at hfault
      cases hfault

/-- At every moment of an attempt the record is as it was before, or the script of a success. -/
theorem Passes.find_path {files : Tree} (hpasses : s.Passes a before files)
    (hapart : s.Apart before) (h : s.LeavesAlone a before) :
    files.find s.path = before.find s.path ∨
      (s.attempt a before).1 = .ok () ∧ s.Records a files := by
  have hstaged : (s.staging a before).2.find s.path = before.find s.path :=
    (stage_cases hapart a.hazards a.now a.script).1
  cases hpasses with
  | start => exact .inl rfl
  | writing hwrite => exact .inl (find_path_write hapart hwrite).1
  | written => exact .inl (find_path_writeStage hapart a.hazards a.now a.script).1
  | staged => exact .inl hstaged
  | ran hok => exact .inl ((h hok).1.trans hstaged)
  | done =>
    cases hresult : (s.attempt a before).1 with
    | error fault => exact .inl ((atomic hapart h).failure fault hresult).1
    | ok _ => exact .inr ⟨rfl, ((atomic hapart h).success hresult).2.1⟩

section runs

variable {files : Tree}

theorem after_append (s : ScriptFile) (files : Tree) (earlier later : List Attempt) :
    s.after files (earlier ++ later) = s.after (s.after files earlier) later :=
  List.foldl_append

theorem successes_append (s : ScriptFile) (files : Tree) (earlier later : List Attempt) :
    s.successes files (earlier ++ later) =
      s.successes files earlier ++ s.successes (s.after files earlier) later := by
  induction earlier generalizing files with
  | nil => rfl
  | cons a earlier ih =>
    rw [List.cons_append, successes, successes, ih]
    cases (s.attempt a files).1.isOk <;> rfl

theorem allLeaveAlone_append (s : ScriptFile) (files : Tree) (earlier later : List Attempt) :
    s.AllLeaveAlone files (earlier ++ later) ↔
      s.AllLeaveAlone files earlier ∧ s.AllLeaveAlone (s.after files earlier) later := by
  induction earlier generalizing files with
  | nil => exact ⟨fun h => ⟨trivial, h⟩, And.right⟩
  | cons a earlier ih =>
    rw [List.cons_append, AllLeaveAlone, AllLeaveAlone, ih, and_assoc]
    rfl

/-- The record is what it was at first, or the script of the given attempt. -/
def Shows (s : ScriptFile) (first files : Tree) : Option Attempt → Prop
  | none => files.find s.path = first.find s.path
  | some a => s.Records a files

theorem Shows.congr {first next : Tree} {latest : Option Attempt} (h : s.Shows first files latest)
    (hnext : next.find s.path = files.find s.path) : s.Shows first next latest := by
  cases latest with
  | none => exact hnext.trans h
  | some a =>
    obtain ⟨place, hplace⟩ := h
    exact ⟨place, hnext.trans hplace⟩

theorem getLast?_successes_of_ok {earlier : List Attempt}
    (h : (s.attempt a (s.after files earlier)).1 = .ok ()) :
    (s.successes files (earlier ++ [a])).getLast? = some a := by
  rw [successes_append, successes, h]
  exact List.getLast?_concat

/-- The script file stays apart from the staged one over some attempts. -/
theorem apart_after (hapart : s.Apart files) {attempts : List Attempt}
    (h : s.AllLeaveAlone files attempts) : s.Apart (s.after files attempts) := by
  induction attempts generalizing files with
  | nil => exact hapart
  | cons a rest ih => exact ih (apart_attempt hapart h.1) h.2

/-- After some attempts the record is the script of the last one that succeeded. -/
theorem shows_after (hapart : s.Apart files) {attempts : List Attempt}
    (h : s.AllLeaveAlone files attempts) :
    s.Shows files (s.after files attempts) (s.successes files attempts).getLast? := by
  induction attempts using List.reverseRecOn with
  | nil => rfl
  | append_singleton earlier a ih =>
    obtain ⟨hearlier, halone, -⟩ := (s.allLeaveAlone_append files earlier [a]).mp h
    have hatomic := atomic (apart_after hapart hearlier) halone
    have hnext : s.after files (earlier ++ [a]) = (s.attempt a (s.after files earlier)).2.1 :=
      s.after_append files earlier [a]
    rw [hnext]
    cases hresult : (s.attempt a (s.after files earlier)).1 with
    | error fault =>
      have hsame : s.successes files (earlier ++ [a]) = s.successes files earlier := by
        rw [successes_append, successes, hresult]
        exact List.append_nil _
      rw [hsame]
      exact (ih hearlier).congr (hatomic.failure fault hresult).1
    | ok _ =>
      rw [getLast?_successes_of_ok hresult]
      exact (hatomic.success hresult).2.1

/-- If the script file is apart from the staged one at first, attempts whose scripts keep to
themselves leave a record of the successes: each attempt is atomic, and at every moment the record
is what was there at first, or the script of the latest success. -/
theorem record_follows_successes (s : ScriptFile) (files : Tree) (hapart : s.Apart files)
    (attempts : List Attempt) (h : s.AllLeaveAlone files attempts) :
    (∀ earlier a later, attempts = earlier ++ a :: later →
      s.Atomic a (s.after files earlier) ∧
        ∀ moment, s.Passes a (s.after files earlier) moment →
          s.Shows files moment (s.successes files earlier).getLast? ∨
            (s.attempt a (s.after files earlier)).1 = .ok () ∧
              s.Shows files moment (s.successes files (earlier ++ [a])).getLast?) ∧
      s.Shows files (s.after files attempts) (s.successes files attempts).getLast? := by
  refine ⟨fun earlier a later hsplit => ?_, shows_after hapart h⟩
  rw [hsplit, allLeaveAlone_append] at h
  obtain ⟨hearlier, halone, -⟩ := h
  have hbefore := apart_after hapart hearlier
  refine ⟨atomic hbefore halone, fun moment hmoment => ?_⟩
  rcases hmoment.find_path hbefore halone with hsame | ⟨hresult, hrecords⟩
  · exact .inl ((shows_after hapart hearlier).congr hsame)
  · refine .inr ⟨hresult, ?_⟩
    rw [getLast?_successes_of_ok hresult]
    exact hrecords

/-- A script succeeds, another one fails, and a third one succeeds and cannot take the place of the
first one. -/
theorem record_follows_successes_of_refusals :
    let s : ScriptFile := ⟨"dispatch.sh", "/bin/sh"⟩
    let noon : Timestamp := { Timestamp.epoch with time := ⟨12, 0, 0⟩ }
    let attempts : List Attempt := [
      ⟨Shell.program s.shell, .none, .epoch, "true\n"⟩,
      ⟨Shell.program s.shell, .none, noon, "exit 3\n"⟩,
      ⟨Shell.program s.shell, { Hazards.none with replace := some .permissionDenied }, noon,
        "exit 0\n"⟩]
    s.Apart (.empty .epoch) ∧ s.AllLeaveAlone (.empty .epoch) attempts ∧
      (∀ earlier a later, attempts = earlier ++ a :: later →
        s.Atomic a (s.after (.empty .epoch) earlier) ∧
          ∀ moment, s.Passes a (s.after (.empty .epoch) earlier) moment →
            s.Shows (.empty .epoch) moment (s.successes (.empty .epoch) earlier).getLast? ∨
              (s.attempt a (s.after (.empty .epoch) earlier)).1 = .ok () ∧
                s.Shows (.empty .epoch) moment
                  (s.successes (.empty .epoch) (earlier ++ [a])).getLast?) ∧
        s.Shows (.empty .epoch) (s.after (.empty .epoch) attempts)
          (s.successes (.empty .epoch) attempts).getLast? := by
  intro s noon attempts
  have hfree : (Tree.empty .epoch).find s.path = .error .noSuchFile := by decide +kernel
  have hapart : s.Apart (.empty .epoch) := ⟨by decide +kernel, by simp [hfree]⟩
  have h : s.AllLeaveAlone (.empty .epoch) attempts := by
    refine ⟨fun _ => ?_, fun _ => ?_, fun _ => ?_, trivial⟩ <;> decide +kernel
  exact ⟨hapart, h, record_follows_successes s (.empty .epoch) hapart attempts h⟩

/-- If the staged file is a link of the script file, a script that fails is kept and recorded,
although it touches neither of them. -/
theorem failed_script_recorded :
    let s : ScriptFile := ⟨"dispatch.sh", "/bin/sh"⟩
    let noon : Timestamp := { Timestamp.epoch with time := ⟨12, 0, 0⟩ }
    let alone := (Tree.empty .epoch).put [s.path] (.file ⟨"true\n", scriptMode, .epoch⟩)
    let a : Attempt := ⟨Shell.program s.shell, .none, noon, "exit 3\n"⟩
    ∃ files, alone.link s.path s.stagePath = .ok files ∧
      (a.program (s.staging a files).2 noon s.stagePath).2 = (s.staging a files).2 ∧
      (s.attempt a files).1 = .error (.scriptFailed "exit status: 3" "") ∧
      files.read s.path = .ok "true\n" ∧ (s.attempt a files).2.1.read s.path = .ok "exit 3\n" ∧
      s.last files = .ok (some .epoch) ∧ s.last (s.attempt a files).2.1 = .ok (some noon) := by
  intro s noon alone a
  refine ⟨alone.share 0 [s.stagePath], ?_, ?_, ?_, ?_, ?_, ?_, ?_⟩ <;> decide +kernel

end runs

end ScriptFile

end TrafficWarden

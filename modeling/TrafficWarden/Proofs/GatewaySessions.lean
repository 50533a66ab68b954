import TrafficWarden.Proofs.GatewayState

/-!
# Running a script line by line

A script that was read from its text runs on a gateway as a session. Its lines set the interfaces
and make a fault end the script before they change the gateway, so that a session of a plan comes
down to a run of the commands of the plan, whatever prefix of the lines is run.
-/

namespace TrafficWarden

/-- What a shell keeps while it runs a script on a gateway: the values of the interfaces, and
whether a fault ends the script. -/
structure Session where
  interfaces : Interfaces
  stopsOnFault : Bool
  gateway : Gateway

namespace Session

/-- A session that has run no line. The interfaces are not set, and a fault ends nothing. -/
def start (g : Gateway) : Session := ⟨⟨"", ""⟩, false, g⟩

def assign (s : Session) (name value : String) : Session :=
  if name = "OUTSIDE" then { s with interfaces := ⟨value, s.interfaces.inside⟩ }
  else if name = "INSIDE" then { s with interfaces := ⟨s.interfaces.outside, value⟩ }
  else s

/-- The session after a line, and whether the script goes on. -/
def step (s : Session) : ScriptLine → Session × Bool
  | .interpreter _ | .comment _ | .blank => (s, true)
  | .stopOnFault => ({ s with stopsOnFault := true }, true)
  | .assign name value => (s.assign name value, true)
  | .run c =>
    ({ s with gateway := (s.gateway.execute s.interfaces c).1 },
      (s.gateway.execute s.interfaces c).2 || !s.stopsOnFault)

/-- The session after some lines, and whether none of them ended the script. -/
def run : Script → Session → Session × Bool
  | [], s => (s, true)
  | line :: lines, s => if (s.step line).2 then run lines (s.step line).1 else s.step line

/-- Once a fault ends the script, commands run as they do on the gateway. -/
theorem run_commands (i : Interfaces) (cs : List Command) (g : Gateway) :
    run (cs.map .run) ⟨i, true, g⟩ = (⟨i, true, (g.run i cs).1⟩, (g.run i cs).2) := by
  induction cs generalizing g with
  | nil => rfl
  | cons c cs ih =>
    have hstep : step ⟨i, true, g⟩ (.run c) =
        (⟨i, true, (g.execute i c).1⟩, (g.execute i c).2) := by
      rw [step, Bool.not_true, Bool.or_false]
    rw [List.map_cons, run, hstep, Gateway.run]
    split
    · exact ih _
    · rfl

end Session

/-- The gateway after some lines of a script, and whether none of them ended it. -/
def Gateway.runLines (g : Gateway) (lines : Script) : Gateway × Bool :=
  ((Session.run lines (.start g)).1.gateway, (Session.run lines (.start g)).2)

theorem Gateway.run_take_of_run {i : Interfaces} {cs : List Command} {g g' : Gateway}
    (h : g.run i cs = (g', true)) (n : Nat) : (g.run i (cs.take n)).2 = true := by
  rw [← List.take_append_drop n cs, run_append] at h
  split at h
  · assumption
  · rw [h]

namespace Script

theorem eq_map_steps {s : Script} (h : ∀ line ∈ s, RunsProgram line) : s = s.steps.map .run := by
  induction s with
  | nil => rfl
  | cons line s ih =>
    obtain ⟨⟨name, words, tolerated, -, rfl⟩, hs⟩ := List.forall_mem_cons.mp h
    exact congrArg _ (ih hs)

theorem spoken_policySections (place : Nat) (cs : List CompiledPolicy) :
    (policySections place cs).spoken = (policySections place cs).steps.map .run := by
  induction cs generalizing place with
  | nil => rfl
  | cons c cs ih =>
    have hsteps : (policySection place c).steps = (policyCommands place c).steps := rfl
    rw [policySections, spoken_append, spoken_policySection, ih, steps_append, List.map_append,
      hsteps, ← eq_map_steps (runsProgram_policyCommands place c)]

end Script

namespace Plan

variable (p : Plan)

/-- The lines of a script that change no gateway. -/
def preamble : Script :=
  [.stopOnFault, .assign "OUTSIDE" p.interfaces.outside, .assign "INSIDE" p.interfaces.inside,
    .assign "HIGH_PRIORITY_POLICIES" (toString p.highPriorityCount)]

/-- The script that is read from a text sets the interfaces, and then has the commands of the plan
alone. -/
theorem written_eq_append : p.written = p.preamble ++ (Script.ofPlan p).steps.map .run := by
  have hreset : Script.reset.spoken = Script.reset.steps.map .run := by decide
  have hheader : (Script.header p).spoken = p.preamble := rfl
  rw [written_eq, Script.steps_ofPlan, Script.ofPlan, Script.spoken_append, Script.spoken_append,
    hheader, hreset, Script.spoken_policySections, List.map_append, List.append_assoc]

theorem runLines_take (n : Nat) (g : Gateway) :
    g.runLines (p.written.take n) = g.run p.interfaces ((Script.ofPlan p).steps.take (n - 4)) := by
  rw [written_eq_append]
  match n with
  | 0 | 1 | 2 | 3 => rfl
  | n + 4 =>
    have htake : (p.preamble ++ (Script.ofPlan p).steps.map ScriptLine.run).take (n + 4) =
        p.preamble ++ ((Script.ofPlan p).steps.take n).map .run := by
      rw [List.map_take]
      rfl
    have hpreamble : ∀ lines : Script, Session.run (p.preamble ++ lines) (.start g) =
        Session.run lines ⟨p.interfaces, true, g⟩ := fun lines => rfl
    rw [htake, Gateway.runLines, hpreamble, Session.run_commands, Nat.add_sub_cancel]

theorem runLines_written (g : Gateway) :
    g.runLines p.written = g.run p.interfaces (Script.ofPlan p).steps := by
  have htake := p.runLines_take (p.written.length + 4) g
  rw [List.take_of_length_le (Nat.le_add_right _ _), Nat.add_sub_cancel] at htake
  rw [htake, List.take_of_length_le]
  rw [written_eq_append]
  simp

end Plan

end TrafficWarden

import TrafficWarden.Proofs.ScriptArguments

/-!
# Texts that stay in comments

The names and identities of policies and the moment of a plan are written into comments alone, and
no text of theirs ends the line of its comment. So plans that ask for the same commands have the
same scripts up to their comments, and a shell cannot tell these scripts apart.
-/

namespace TrafficWarden

open Shell

/-- Two compiled policies ask for the same commands. Their names, descriptions, identities and
windows may be any. -/
structure CompiledPolicy.Alike (c e : CompiledPolicy) : Prop where
  priority : c.policy.priority = e.policy.priority
  upload : c.policy.upload = e.policy.upload
  download : c.policy.download = e.policy.download
  rules : c.rules = e.rules

/-- Two plans ask for the same commands, policy by policy, at any two moments. -/
structure Plan.Alike (p q : Plan) : Prop where
  interfaces : p.interfaces = q.interfaces
  policies : List.Forall₂ CompiledPolicy.Alike p.policies q.policies

/-- Two lines are the same, or both comments on one line. -/
inductive ScriptLine.SameButComment : ScriptLine → ScriptLine → Prop
  | same {line : ScriptLine} (h : line.Readable) : SameButComment line line
  | comments {s t : String} (hs : '\n' ∉ s.toList) (ht : '\n' ∉ t.toList) :
    SameButComment (.comment s) (.comment t)

/-- Two lines of a text are the same, or begin both with a number sign. -/
def Text.SameButComment (a b : List Char) : Prop :=
  a = b ∨ a.head? = some '#' ∧ b.head? = some '#'

namespace Script

section text

/-- Scripts that are the same up to comments have the same lines up to comments. -/
theorem forall₂_linesOf {s t : Script} (h : List.Forall₂ ScriptLine.SameButComment s t) :
    List.Forall₂ Text.SameButComment (linesOf s.text) (linesOf t.text) := by
  induction h with
  | nil => exact List.forall₂_same.mpr fun _ _ => .inl rfl
  | cons hline hrest ih =>
    cases hline with
    | same hreadable =>
      rw [linesOf_cons, linesOf_cons]
      exact List.rel_append (List.forall₂_same.mpr fun _ _ => .inl rfl) ih
    | comments hs ht =>
      have hcomment : ∀ {s : String}, '\n' ∉ s.toList →
          '\n' ∉ (ScriptLine.comment s).text.toList := by
        intro s hs
        simp [ScriptLine.text, hs]
      rw [linesOf_text_cons (hcomment hs), linesOf_text_cons (hcomment ht)]
      exact .cons (.inr ⟨by simp [ScriptLine.text], by simp [ScriptLine.text]⟩) ih

theorem yields_comment {s : String} (hs : '\n' ∉ s.toList) (n : Nat) (rest : List Char) :
    Yields n (ScriptLine.comment s).text.toList ('\n' :: rest) [] n := by
  have hspace : '\n' ∉ ' ' :: s.toList := by simpa using hs
  simpa [ScriptLine.text] using Yields.comment hspace n rest

/-- Scripts that are the same up to comments yield the same tokens. -/
theorem exists_yields_both {s t : Script} (h : List.Forall₂ ScriptLine.SameButComment s t)
    (n : Nat) :
    ∃ ts next, Yields n s.text.toList [] ts next ∧ Yields n t.text.toList [] ts next := by
  induction h generalizing n with
  | nil => exact ⟨[], n, .nil n [], .nil n []⟩
  | @cons line line' s t hline hrest ih =>
    have hboth : ∃ ts mid, (∀ rest, Yields n line.text.toList ('\n' :: rest) ts mid) ∧
        ∀ rest, Yields n line'.text.toList ('\n' :: rest) ts mid := by
      cases hline with
      | same hreadable =>
        obtain ⟨ts, mid, -, hyields⟩ := ScriptLine.exists_yields hreadable n
        exact ⟨ts, mid, hyields, hyields⟩
      | comments hs ht => exact ⟨[], n, yields_comment hs n, yields_comment ht n⟩
    obtain ⟨ts, mid, hfirst, hsecond⟩ := hboth
    obtain ⟨ts', next, hs, ht⟩ := ih (mid + 1)
    exact ⟨_, next, yields_cons hfirst hs, yields_cons hsecond ht⟩

theorem statements_text_eq {s t : Script} (h : List.Forall₂ ScriptLine.SameButComment s t) :
    statements s.text = statements t.text := by
  obtain ⟨ts, next, hs, ht⟩ := exists_yields_both h 1
  rw [statements, statements, tokens_of_yields hs, tokens_of_yields ht]

end text

section plan

variable {p q : Plan}

theorem sameButComment_refl {s : Script} (h : ∀ line ∈ s, line.Readable) :
    List.Forall₂ ScriptLine.SameButComment s s :=
  List.forall₂_same.mpr fun line hline => .same (h line hline)

theorem policyCommands_eq {c e : CompiledPolicy} (h : c.Alike e) (place : Nat) :
    policyCommands place c = policyCommands place e := by
  have hblocks : c.policy.isBlocking = e.policy.isBlocking := by
    rw [Policy.isBlocking, Policy.isBlocking, h.upload, h.download, h.priority]
  rw [policyCommands, policyCommands, hblocks, h.upload, h.download, h.priority, h.rules]

theorem highPriorityCount_eq (h : p.Alike q) : p.highPriorityCount = q.highPriorityCount := by
  have hpriorities := map_eq_of_forall₂ h.policies fun _ _ hce => hce.priority
  have hcount : ∀ p : Plan, p.highPriorityCount =
      ((p.policies.map (·.policy.priority)).filter (· = some .high)).length := by
    intro p
    rw [Plan.highPriorityCount, List.filter_map, List.length_map]
    rfl
  rw [hcount, hcount, hpriorities]

theorem sameButComment_header (h : p.Alike q) :
    List.Forall₂ ScriptLine.SameButComment (header p) (header q) := by
  have hp := readable_header p
  have hq := readable_header q
  have htail : (header p).drop 2 = (header q).drop 2 := by
    simp only [header, h.interfaces, highPriorityCount_eq h, List.drop_succ_cons]
  have hmoments : ScriptLine.SameButComment _ _ :=
    .comments (hp _ (.tail _ (.head _))) (hq _ (.tail _ (.head _)))
  have hrest : List.Forall₂ ScriptLine.SameButComment ((header p).drop 2) ((header q).drop 2) := by
    rw [← htail]
    exact sameButComment_refl fun line hline => hp line (List.mem_of_mem_drop hline)
  exact .cons (.same (hp _ (.head _))) (.cons hmoments hrest)

theorem sameButComment_policySection {c e : CompiledPolicy} (h : c.Alike e) (place : Nat) :
    List.Forall₂ ScriptLine.SameButComment (policySection place c) (policySection place e) := by
  have hc := readable_policySection place c
  have he := readable_policySection place e
  have hnames : ScriptLine.SameButComment _ _ :=
    .comments (hc _ (.tail _ (.head _))) (he _ (.tail _ (.head _)))
  have hcommands :
      List.Forall₂ ScriptLine.SameButComment (policyCommands place c) (policyCommands place e) := by
    rw [← policyCommands_eq h place]
    exact sameButComment_refl fun line hline =>
      (runsProgram_policyCommands place c line hline).readable
  exact .cons (.same trivial) (.cons hnames hcommands)

theorem sameButComment_policySections {cs es : List CompiledPolicy}
    (h : List.Forall₂ CompiledPolicy.Alike cs es) (place : Nat) :
    List.Forall₂ ScriptLine.SameButComment (policySections place cs) (policySections place es) := by
  induction h generalizing place with
  | nil => exact .nil
  | cons hce _ ih => exact List.rel_append (sameButComment_policySection hce place) (ih (place + 1))

theorem sameButComment_ofPlan (h : p.Alike q) :
    List.Forall₂ ScriptLine.SameButComment (ofPlan p) (ofPlan q) :=
  List.rel_append
    (List.rel_append (sameButComment_header h) (sameButComment_refl readable_reset))
    (sameButComment_policySections h.policies 1)

/-- Whatever the names, identities and moments of two plans are that ask for the same commands:
their scripts have as many lines, of which those that differ are comments in both, and a shell reads
the same statements from them. -/
theorem names_stay_in_comments (h : p.Alike q) :
    (linesOf p.script).length = (linesOf q.script).length ∧
      (∀ (n : Nat) (a b : List Char), (linesOf p.script)[n]? = some a →
        (linesOf q.script)[n]? = some b → a ≠ b → a.head? = some '#' ∧ b.head? = some '#') ∧
      statements p.script = statements q.script := by
  have hlines := forall₂_linesOf (sameButComment_ofPlan h)
  refine ⟨hlines.length_eq, fun n a b ha hb hne => ?_, statements_text_eq (sameButComment_ofPlan h)⟩
  obtain ⟨hp, rfl⟩ := List.getElem?_eq_some_iff.mp ha
  obtain ⟨hq, rfl⟩ := List.getElem?_eq_some_iff.mp hb
  exact (hlines.get hp hq).resolve_left hne

/-- A name that holds a line break and a command of its own is read like any other name. -/
theorem names_stay_in_comments_of_line_break :
    let guests : CompiledPolicy :=
      ⟨⟨⟨7⟩, "guests\nreboot", none, true, none, some 512, none, []⟩, ⟨[∅], 1⟩⟩
    let staff : CompiledPolicy :=
      ⟨⟨⟨8⟩, "staff", some "all floors", true, none, some 512, none, []⟩, ⟨[∅], 1⟩⟩
    let p : Plan := ⟨.standard, ⟨⟨2024, 3, 5, by decide⟩, ⟨10, 0, 0⟩⟩, [guests]⟩
    let q : Plan := ⟨.standard, ⟨⟨2024, 3, 6, by decide⟩, ⟨11, 0, 0⟩⟩, [staff]⟩
    p ≠ q ∧ p.Alike q ∧ (linesOf p.script).length = (linesOf q.script).length ∧
      statements p.script = statements q.script := by
  intro guests staff p q
  have halike : p.Alike q := ⟨rfl, .cons ⟨rfl, rfl, rfl, rfl⟩ .nil⟩
  obtain ⟨hlength, -, hstatements⟩ := names_stay_in_comments halike
  exact ⟨by decide, halike, hlength, hstatements⟩

end plan

end Script

end TrafficWarden

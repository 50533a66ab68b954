import TrafficWarden.Plan
import TrafficWarden.Proofs.Results

/-!
# Verdicts of policies

The verdict of a policy is the fault of the first read that fails for it. A policy that is refused
because something is not found or invalid is left out with a warning, and the first policy that any
other fault befalls ends the compilation with that fault.
-/

namespace TrafficWarden

/-- The fault of a read that fails. -/
def faultOf? {α : Type} : Except Fault α → Option Fault
  | .ok _ => none
  | .error fault => some fault

@[simp] theorem faultOf?_ok {α : Type} (a : α) : faultOf? (.ok a) = none := rfl

@[simp] theorem faultOf?_error {α : Type} (fault : Fault) :
    faultOf? (.error fault : Except Fault α) = some fault := rfl

theorem faultOf?_eq_none_iff {α : Type} {x : Except Fault α} :
    faultOf? x = none ↔ ∃ a, x = .ok a := by
  cases x <;> simp

theorem faultOf?_eq_some_iff {α : Type} {x : Except Fault α} {fault : Fault} :
    faultOf? x = some fault ↔ x = .error fault := by
  cases x <;> simp

/-- Something else is wrong than that an entity is not found or invalid. -/
def Fault.IsGeneral (fault : Fault) : Prop :=
  (∀ kind id, fault ≠ .notFound kind id) ∧ ∀ kind id reason, fault ≠ .invalid kind id reason

theorem Fault.isGeneral_iff (fault : Fault) : fault.IsGeneral ↔ fault.isLocal = false := by
  cases fault <;> simp [IsGeneral, isLocal]

/-- A collection fails with the fault of the first class that is not to be had. -/
theorem ParameterBag.faultOf?_collect (classOf : EntityId → Except Fault TrafficClass)
    (b : ParameterBag) (targets : List Target) :
    faultOf? (collect classOf b targets) =
      (targets.filterMap (·.trafficClass)).findSome? fun id => faultOf? (classOf id) := by
  induction targets generalizing b with
  | nil => rfl
  | cons t rest ih =>
    unfold collect
    cases ht : t.trafficClass with
    | none => rw [List.filterMap_cons_none ht, ih]
    | some id =>
      rw [List.filterMap_cons_some ht, List.findSome?_cons]
      cases hid : classOf id with
      | error fault => simp [hid]
      | ok c => simp [hid, ih]

namespace PolicySource

variable (s : PolicySource)

/-- The fault of the first read that fails for a policy: the read of its targets, or of a class that
one of them names, in their order. -/
def verdict (p : Policy) : Option Fault :=
  match s.targets p.id with
  | .error fault => some fault
  | .ok targets =>
    (targets.filterMap (·.trafficClass)).findSome? fun id => faultOf? (s.trafficClass id)

/-- No read fails for a policy. -/
def passes (p : Policy) : Bool := (s.verdict p).isNone

/-- What befalls a policy concerns more than its own parameters. -/
def Stops (p : Policy) : Prop := ∃ fault, s.verdict p = some fault ∧ fault.IsGeneral

/-- The compiled form of a policy, with the bag that the source has for it. -/
def Compiles (p : Policy) (c : CompiledPolicy) : Prop :=
  ∃ b, s.bag p.id = .ok b ∧ c = .compile p b

/-- The warning that a policy is left out, with its verdict. -/
def WarnsOf (p : Policy) (w : Warning) : Prop :=
  ∃ fault, s.verdict p = some fault ∧ w = .policySkipped p.id p.name fault

variable {s} {p : Policy}

theorem faultOf?_bag (s : PolicySource) (p : Policy) : faultOf? (s.bag p.id) = s.verdict p := by
  unfold bag verdict
  cases s.targets p.id with
  | error fault => rfl
  | ok targets => exact ParameterBag.faultOf?_collect s.trafficClass ∅ targets

theorem passes_iff : s.passes p = true ↔ ∃ b, s.bag p.id = .ok b := by
  rw [passes, Option.isNone_iff_eq_none, ← faultOf?_bag, faultOf?_eq_none_iff]

theorem bag_eq_error_iff {fault : Fault} :
    s.bag p.id = .error fault ↔ s.verdict p = some fault := by
  rw [← faultOf?_bag, faultOf?_eq_some_iff]

theorem Compiles.policy {c : CompiledPolicy} (h : s.Compiles p c) : c.policy = p := by
  obtain ⟨b, -, rfl⟩ := h
  rfl

theorem rightUnique_compiles (s : PolicySource) : Relator.RightUnique s.Compiles := by
  rintro p c d ⟨b, hb, rfl⟩ ⟨b', hb', rfl⟩
  rw [Except.ok.inj (hb.symm.trans hb')]

/-- As long as no policy stops the compilation, every policy is compiled or left out with a warning,
and what follows is compiled as if it stood alone. -/
theorem exists_compilePolicies_append {ps : List Policy} (h : ∀ p ∈ ps, ¬ s.Stops p) :
    ∃ compiled warnings, List.Forall₂ s.Compiles (ps.filter s.passes) compiled ∧
      List.Forall₂ s.WarnsOf (ps.filter (!s.passes ·)) warnings ∧
      ∀ rest, s.compilePolicies (ps ++ rest) =
        ((s.compilePolicies rest).1.map (compiled ++ ·),
          warnings ++ (s.compilePolicies rest).2) := by
  induction ps with
  | nil =>
    refine ⟨[], [], .nil, .nil, fun rest => ?_⟩
    rw [List.nil_append]
    rcases s.compilePolicies rest with ⟨fault | compiled, warnings⟩ <;> rfl
  | cons p ps ih =>
    rw [List.forall_mem_cons] at h
    obtain ⟨compiled, warnings, hcompiled, hwarnings, hrun⟩ := ih h.2
    cases hbag : s.bag p.id with
    | ok b =>
      have hpasses : s.passes p = true := passes_iff.mpr ⟨b, hbag⟩
      refine ⟨.compile p b :: compiled, warnings, ?_, ?_, fun rest => ?_⟩
      · rw [List.filter_cons_of_pos hpasses]
        exact .cons ⟨b, hbag, rfl⟩ hcompiled
      · rw [List.filter_cons_of_neg (by simp [hpasses])]
        exact hwarnings
      · rw [List.cons_append, compilePolicies, hbag]
        simp only [hrun rest]
        cases (s.compilePolicies rest).1 <;> rfl
    | error fault =>
      have hverdict : s.verdict p = some fault := bag_eq_error_iff.mp hbag
      have hfails : s.passes p = false := by rw [passes, hverdict]; rfl
      have hlocal : fault.isLocal = true := by
        by_contra hgeneral
        exact h.1 ⟨fault, hverdict, fault.isGeneral_iff.mpr (by simpa using hgeneral)⟩
      refine ⟨compiled, .policySkipped p.id p.name fault :: warnings, ?_, ?_, fun rest => ?_⟩
      · rw [List.filter_cons_of_neg (by simp [hfails])]
        exact hcompiled
      · rw [List.filter_cons_of_pos (by simp [hfails])]
        exact .cons ⟨fault, hverdict, rfl⟩ hwarnings
      · rw [List.cons_append, compilePolicies, hbag]
        simp only [hlocal, if_true, hrun rest, List.cons_append]

/-- If no policy stops the compilation, it gives the policies that pass. -/
theorem exists_compilePolicies_of_not_stops {ps : List Policy} (h : ∀ p ∈ ps, ¬ s.Stops p) :
    ∃ compiled warnings, s.compilePolicies ps = (.ok compiled, warnings) ∧
      List.Forall₂ s.Compiles (ps.filter s.passes) compiled ∧
      List.Forall₂ s.WarnsOf (ps.filter (!s.passes ·)) warnings := by
  obtain ⟨compiled, warnings, hcompiled, hwarnings, hrun⟩ := exists_compilePolicies_append h
  refine ⟨compiled, warnings, ?_, hcompiled, hwarnings⟩
  have hall := hrun []
  simpa [compilePolicies, Except.map] using hall

theorem not_stops_of_passes (h : s.passes p = true) : ¬ s.Stops p := by
  rintro ⟨fault, hverdict, -⟩
  rw [passes, hverdict] at h
  exact absurd h (by simp)

/-- Policies that have bags are all compiled, without a warning. -/
theorem exists_compilePolicies_of_bags {ps : List Policy} (h : ∀ p ∈ ps, ∃ b, s.bag p.id = .ok b) :
    ∃ cs, s.compilePolicies ps = (.ok cs, []) ∧ List.Forall₂ s.Compiles ps cs := by
  have hpass : ∀ p ∈ ps, s.passes p = true := fun p hp => passes_iff.mpr (h p hp)
  obtain ⟨cs, warnings, hrun, hcs, hwarnings⟩ :=
    exists_compilePolicies_of_not_stops fun p hp => not_stops_of_passes (hpass p hp)
  have hnone : ps.filter (!s.passes ·) = [] := by simpa using hpass
  rw [List.filter_eq_self.mpr hpass] at hcs
  rw [hnone, List.forall₂_nil_left_iff] at hwarnings
  rw [hwarnings] at hrun
  exact ⟨cs, hrun, hcs⟩

/-- A policy that stops the compilation ends it with its verdict, whatever follows. -/
theorem compilePolicies_cons_of_stops {fault : Fault} (hverdict : s.verdict p = some fault)
    (hgeneral : fault.IsGeneral) (rest : List Policy) :
    s.compilePolicies (p :: rest) = (.error fault, []) := by
  have hlocal : fault.isLocal = false := fault.isGeneral_iff.mp hgeneral
  rw [compilePolicies, bag_eq_error_iff.mpr hverdict]
  simp [hlocal]

/-- Either no policy stops the compilation, and then it gives the policies that pass, in their order
and with the rules of their own bags, and one warning for each of the others, and it gives the same
policies without these; or it ends with the verdict of the first policy that stops it, whatever
follows, and compiles nothing. -/
theorem compiled_by_verdicts (s : PolicySource) (ps : List Policy) :
    ((∀ p ∈ ps, ¬ s.Stops p) ∧ ∃ compiled warnings,
        s.compilePolicies ps = (.ok compiled, warnings) ∧
        List.Forall₂ s.Compiles (ps.filter s.passes) compiled ∧
        List.Forall₂ s.WarnsOf (ps.filter (!s.passes ·)) warnings ∧
        s.compilePolicies (ps.filter s.passes) = (.ok compiled, [])) ∨
      ∃ before p later fault warnings, ps = before ++ p :: later ∧
        (∀ q ∈ before, ¬ s.Stops q) ∧ s.verdict p = some fault ∧ fault.IsGeneral ∧
        List.Forall₂ s.WarnsOf (before.filter (!s.passes ·)) warnings ∧
        ∀ others, s.compilePolicies (before ++ p :: others) = (.error fault, warnings) := by
  classical
  by_cases hstops : ∀ p ∈ ps, ¬ s.Stops p
  · obtain ⟨compiled, warnings, hrun, hcompiled, hwarnings⟩ :=
      exists_compilePolicies_of_not_stops hstops
    have hbags : ∀ p ∈ ps.filter s.passes, ∃ b, s.bag p.id = .ok b := fun p hp =>
      passes_iff.mp (List.of_mem_filter hp)
    obtain ⟨again, hagain, hsame⟩ := exists_compilePolicies_of_bags hbags
    have heq : again = compiled := (rightUnique_compiles s).forall₂ hsame hcompiled
    rw [heq] at hagain
    exact .inl ⟨hstops, compiled, warnings, hrun, hcompiled, hwarnings, hagain⟩
  · have hfirst : (ps.find? fun p => decide (s.Stops p)).isSome = true := by
      simpa using hstops
    obtain ⟨p, hp⟩ := Option.isSome_iff_exists.mp hfirst
    obtain ⟨hp, before, later, hps, hbefore⟩ := List.find?_eq_some_iff_append.mp hp
    obtain ⟨fault, hverdict, hgeneral⟩ : s.Stops p := of_decide_eq_true hp
    have hbefore : ∀ q ∈ before, ¬ s.Stops q := by simpa using hbefore
    obtain ⟨compiled, warnings, -, hwarnings, hrun⟩ := exists_compilePolicies_append hbefore
    refine .inr ⟨before, p, later, fault, warnings, hps, hbefore, hverdict, hgeneral, hwarnings,
      fun others => ?_⟩
    rw [hrun, compilePolicies_cons_of_stops hverdict hgeneral, List.append_nil]
    rfl

end PolicySource

end TrafficWarden

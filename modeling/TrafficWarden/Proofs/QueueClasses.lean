import TrafficWarden.Proofs.GatewayChanges

/-!
# Marks, classes and filters

The policy at place `n` sets the mark `n`, and its packets are queued in the class `1:n` by the one
filter for that mark, on each device where it shapes the traffic.
-/

namespace TrafficWarden

/-- The value of an option. The kind of a class or a filter stands alone, and every other word is
followed by its value. -/
def optionOf (key : String) : List String → Option String
  | word :: value :: options =>
    if word = key then some value
    else if word = "htb" ∨ word = "fw" then optionOf key (value :: options)
    else optionOf key options
  | _ => none

/-- A class of a queue, with its rate and its tier. -/
structure QueueClass where
  id : Option String
  rate : Option String
  tier : Option String
deriving DecidableEq, Repr

def QueueClass.read (options : List String) : QueueClass :=
  ⟨optionOf "classid" options, optionOf "rate" options, optionOf "prio" options⟩

/-- A filter of a queue, with the class that it leads to. -/
structure QueueFilter where
  handle : Option Nat
  byMark : Bool
  flow : Option String
deriving DecidableEq, Repr

def QueueFilter.read (options : List String) : QueueFilter :=
  ⟨(optionOf "handle" options).bind Script.readMark, options.contains "fw",
    optionOf "flowid" options⟩

namespace Change

/-- The class that a change adds to a device. -/
def class? (device : ScriptWord) (change : Change) : Option QueueClass :=
  (change.addedClass? device).map .read

/-- The filter that a change adds to a device. -/
def filter? (device : ScriptWord) (change : Change) : Option QueueFilter :=
  (change.addedFilter? device).map .read

theorem device?_of_class? {device : ScriptWord} {change : Change} {k : QueueClass}
    (h : change.class? device = some k) : change.device? = some device := by
  obtain ⟨options, hoptions, -⟩ := Option.map_eq_some_iff.mp h
  exact device?_of_addedClass? hoptions

theorem device?_of_filter? {device : ScriptWord} {change : Change} {f : QueueFilter}
    (h : change.filter? device = some f) : change.device? = some device := by
  obtain ⟨options, hoptions, -⟩ := Option.map_eq_some_iff.mp h
  exact device?_of_addedFilter? hoptions

end Change

/-- The policies of a plan that shape a direction, with their places counted from 1. -/
def Plan.shaped (p : Plan) (d : Direction) : List (CompiledPolicy × Nat) :=
  (p.policies.zipIdx 1).filter fun (c, _) => d.shapes c.policy

namespace Script

/-- The classes that a script adds to a device, in order. -/
def classes (s : Script) (device : ScriptWord) : List QueueClass :=
  s.changes.filterMap (Change.class? device)

/-- The filters that a script adds to a device, in order. -/
def queueFilters (s : Script) (device : ScriptWord) : List QueueFilter :=
  s.changes.filterMap (Change.filter? device)

/-- The mark that a rule sets at its end. -/
def markOf (rule : List ScriptWord) : Option Nat :=
  match rule.reverse with
  | .literal mark :: .literal "--set-mark" :: .literal "MARK" :: .literal "-j" :: _ =>
    readMark mark
  | _ => none

/-- Whether a rule drops packets at its end. -/
def isDrop (rule : List ScriptWord) : Bool :=
  match rule.reverse with
  | .literal "DROP" :: .literal "-j" :: _ => true
  | _ => false

/-- The marks that the rules of a script set in a chain, in order. -/
def marks (s : Script) (table chain : String) : List Nat :=
  (s.appended table chain).filterMap markOf

/-- The rate of a class for a cap. -/
def rateText (cap : Option UInt32) : String :=
  (cap.map fun kbps => toString kbps.toNat ++ "kbit").getD uncappedRate

theorem hex_injective : Function.Injective hex := fun m n h => by
  have hmark : readMark ("0x" ++ hex m) = readMark ("0x" ++ hex n) := by rw [h]
  simpa using hmark

/-- The identity of the class for a place. -/
def classId (place : Nat) : Option String := some ("1:" ++ hex place)

theorem classId_injective : Function.Injective classId := fun m n h => by
  have hchars := congrArg String.toList (Option.some.inj h)
  simp only [String.toList_append] at hchars
  exact hex_injective (String.toList_inj.mp (List.append_cancel_left hchars))

section reading

variable (place : Nat)

theorem read_classOptions (cap : Option UInt32) (priority : Option Priority) :
    QueueClass.read (classOptions place cap priority) =
      ⟨classId place, some (rateText cap), priority.map (toString ·.value)⟩ := by
  cases cap <;> cases priority <;>
    simp [QueueClass.read, classOptions, optionOf, rateWords, tierWords, rateText, classId]

theorem read_filterOptions :
    QueueFilter.read (filterOptions place) = ⟨some place, true, classId place⟩ := by
  simp [QueueFilter.read, filterOptions, optionOf, classId]

@[simp] theorem markOf_mark (r : Rule) :
    markOf (literals (r.words ++ markTarget place)) = some place := by
  simp [markOf, literals, markTarget]

@[simp] theorem markOf_drop (r : Rule) : markOf (literals (r.words ++ ["-j", "DROP"])) = none := by
  simp [markOf, literals]

@[simp] theorem isDrop_mark (r : Rule) :
    isDrop (literals (r.words ++ markTarget place)) = false := by
  simp [isDrop, literals, markTarget]

end reading

section queue

/-- What is read from a script for one device is read from the changes of its queues. -/
theorem filterMap_queue {α : Type} {f : Change → Option α} {device : ScriptWord}
    (h : ∀ change a, f change = some a → change.device? = some device) (s : Script) :
    (s.queue device).filterMap f = s.changes.filterMap f := by
  rw [queue, List.filterMap_filter]
  refine List.filterMap_congr fun change _ => ?_
  cases hchange : f change with
  | none => exact ite_self _
  | some a => rw [if_pos (decide_eq_true (h change a hchange))]

theorem classes_eq (s : Script) (device : ScriptWord) :
    s.classes device = (s.queue device).filterMap (Change.class? device) :=
  (filterMap_queue (fun _ _ => Change.device?_of_class?) s).symm

theorem queueFilters_eq (s : Script) (device : ScriptWord) :
    s.queueFilters device = (s.queue device).filterMap (Change.filter? device) :=
  (filterMap_queue (fun _ _ => Change.device?_of_filter?) s).symm

variable (d : Direction)

/-- What the policy at a place changes of the queues of a device. -/
def queueChanges (place : Nat) (c : CompiledPolicy) : List Change :=
  [.addClass d.device (classOptions place (d.cap c.policy) c.policy.priority),
    .addFilter d.device (filterOptions place)]

theorem filter_device?_ruleChange (device : ScriptWord) (table chain : String)
    (target : List String) (rules : List Rule) :
    (rules.map (ruleChange table chain target)).filter (·.device? = some device) = [] := by
  refine List.filter_eq_nil_iff.mpr fun change hchange => ?_
  obtain ⟨r, -, rfl⟩ := List.mem_map.mp hchange
  simp [ruleChange, Change.device?]

theorem filter_device?_shapingChanges (place : Nat) (c : CompiledPolicy) (e : Direction) :
    (shapingChanges place c e).filter (·.device? = some d.device) =
      if e = d ∧ d.shapes c.policy then queueChanges d place c else [] := by
  have hdevice : e.device = d.device ↔ e = d := by cases e <;> cases d <;> decide
  rw [shapingChanges]
  split
  · rename_i hshapes
    rw [List.filter_append, List.filter_cons, filter_device?_ruleChange]
    by_cases hed : e = d
    · subst hed
      simp [Change.device?, hshapes, queueChanges]
    · simp [Change.device?, hdevice, hed]
  · rename_i hshapes
    rw [if_neg]
    · rfl
    · rintro ⟨rfl, h⟩
      exact hshapes h

theorem queue_policySection (place : Nat) (c : CompiledPolicy) :
    (policySection place c).queue d.device =
      if d.shapes c.policy then queueChanges d place c else [] := by
  rw [queue, changes_policySection]
  split
  · rename_i hblocks
    rw [if_neg (not_shapes_of_isBlocking d hblocks), filter_device?_ruleChange]
  · rw [List.filter_append, filter_device?_shapingChanges, filter_device?_shapingChanges]
    cases d <;> simp

theorem queue_policySections (place : Nat) (cs : List CompiledPolicy) :
    (policySections place cs).queue d.device =
      ((cs.zipIdx place).filter fun (c, _) => d.shapes c.policy).flatMap fun (c, n) =>
        queueChanges d n c := by
  induction cs generalizing place with
  | nil => rfl
  | cons c cs ih =>
    rw [policySections, queue_append, queue_policySection, ih, List.zipIdx_cons, List.filter_cons]
    split
    · rw [List.flatMap_cons]
    · rfl

/-- A script makes the root queue of a device anew, and then adds a class and its filter for each
policy that shapes the direction. -/
theorem queue_ofPlan (p : Plan) :
    (ofPlan p).queue d.device =
      [.deleteRoot d.device, .addRoot d.device ["handle", "1:", "htb"]] ++
        (p.shaped d).flatMap fun (c, n) => queueChanges d n c := by
  have hheader : (header p).queue d.device = [] := rfl
  have hreset : reset.queue d.device =
      [.deleteRoot d.device, .addRoot d.device ["handle", "1:", "htb"]] := by
    cases d <;> decide
  rw [ofPlan, queue_append, queue_append, hheader, hreset, queue_policySections]
  rfl

end queue

section policy

variable (place : Nat) (c : CompiledPolicy)

theorem mem_appended {s : Script} {table chain : String} {rule : List ScriptWord} :
    rule ∈ s.appended table chain ↔ .appendRule table chain rule ∈ s.changes := by
  rw [appended, List.mem_filterMap]
  constructor
  · rintro ⟨change, hchange, hrule⟩
    cases change with
    | appendRule t c r =>
      obtain ⟨⟨rfl, rfl⟩, hr⟩ := Option.ite_none_right_eq_some.mp hrule
      rwa [Option.some.inj hr] at hchange
    | _ => exact absurd hrule (by simp [Change.appended?])
  · intro h
    exact ⟨_, h, if_pos ⟨rfl, rfl⟩⟩

theorem mem_marks {s : Script} {table chain : String} {m : Nat} :
    m ∈ s.marks table chain ↔
      ∃ rule, .appendRule table chain rule ∈ s.changes ∧ markOf rule = some m := by
  simp only [marks, List.mem_filterMap, mem_appended]

/-- What a policy at a place adds to the marks, classes, filters and drops of a script. -/
structure SectionCoherent (added : Script) : Prop where
  mark : ∀ table chain, ∀ m ∈ added.marks table chain, m = place
  blocking : c.policy.isBlocking = true →
    (∀ device, added.classes device = [] ∧ added.queueFilters device = []) ∧
      ∀ table chain, added.marks table chain = []
  shaping : c.policy.isBlocking = false →
    ∀ table chain, ∀ rule ∈ added.appended table chain, isDrop rule = false

variable {place c}

theorem markOf_of_policyChange {table chain : String} {rule : List ScriptWord} {m : Nat}
    (h : PolicyChange place c (.appendRule table chain rule)) (hm : markOf rule = some m) :
    m = place ∧ ∃ d : Direction, d.shapes c.policy = true ∧ chain = d.chain := by
  cases h with
  | drop hblocks r => exact absurd hm (by simp)
  | mark d hshapes r => exact ⟨by simpa using hm.symm, d, hshapes, rfl⟩

theorem isDrop_of_policyChange {table chain : String} {rule : List ScriptWord}
    (h : PolicyChange place c (.appendRule table chain rule)) (hdrop : isDrop rule = true) :
    c.policy.isBlocking = true := by
  cases h with
  | drop hblocks r => exact hblocks
  | mark d hshapes r => exact absurd hdrop (by simp)

/-- What is read of the queues and the marks of a script is read from its changes. -/
theorem readings_eq {s t : Script} (h : s.changes = t.changes) :
    s.classes = t.classes ∧ s.queueFilters = t.queueFilters ∧ s.marks = t.marks ∧
      s.appended = t.appended := by
  have happended : s.appended = t.appended := by
    funext table chain
    rw [appended, h, appended]
  refine ⟨?_, ?_, ?_, happended⟩
  · funext device
    rw [classes, h, classes]
  · funext device
    rw [queueFilters, h, queueFilters]
  · funext table chain
    rw [marks, happended, marks]

theorem SectionCoherent.congr {s t : Script} (h : s.changes = t.changes)
    (ht : SectionCoherent place c t) : SectionCoherent place c s := by
  obtain ⟨hclasses, hfilters, hmarks, happended⟩ := readings_eq h
  obtain ⟨hmark, hblocking, hshaping⟩ := ht
  constructor
  · rwa [hmarks]
  · rwa [hmarks, hclasses, hfilters]
  · rwa [happended]

theorem sectionCoherent_policySection (place : Nat) (c : CompiledPolicy) :
    SectionCoherent place c (policySection place c) where
  mark table chain m hm := by
    obtain ⟨rule, hrule, hmark⟩ := mem_marks.mp hm
    exact (markOf_of_policyChange (policyChange_of_mem hrule) hmark).1
  blocking hblocks := by
    have hqueue : ∀ device, (policySection place c).queue device = [] := fun device => by
      rw [queue, changes_policySection, if_pos hblocks, filter_device?_ruleChange]
    refine ⟨fun device => ?_, fun table chain => List.eq_nil_iff_forall_not_mem.mpr fun m hm => ?_⟩
    · rw [classes_eq, queueFilters_eq, hqueue device]
      exact ⟨rfl, rfl⟩
    · obtain ⟨rule, hrule, hmark⟩ := mem_marks.mp hm
      obtain ⟨-, d, hshapes, -⟩ := markOf_of_policyChange (policyChange_of_mem hrule) hmark
      exact not_shapes_of_isBlocking d hblocks hshapes
  shaping hshapes table chain rule hrule := by
    have hchange := policyChange_of_mem (mem_appended.mp hrule)
    refine Bool.eq_false_iff.mpr fun hdrop => ?_
    rw [isDrop_of_policyChange hchange hdrop] at hshapes
    exact absurd hshapes (by simp)

theorem sectionCoherent {p : Plan} (h : (c, place) ∈ p.policies.zipIdx 1) :
    SectionCoherent place c (p.added place) :=
  .congr (p.changes_added h) (sectionCoherent_policySection place c)

end policy

section plan

variable (p : Plan) (d : Direction)

theorem pairwise_zipIdx_lt {α : Type} (items : List α) (first : Nat) :
    (items.zipIdx first).Pairwise fun a b => a.2 < b.2 := by
  have hplaces : ((items.zipIdx first).map Prod.snd).Pairwise (· < ·) := by
    rw [List.zipIdx_map_snd]
    exact List.pairwise_lt_range'
  exact List.pairwise_map.mp hplaces

theorem pairwise_shaped : (p.shaped d).Pairwise fun a b => a.2 < b.2 :=
  (pairwise_zipIdx_lt p.policies 1).filter _

/-- The class of the policy at a place. -/
def classAt (place : Nat) (c : CompiledPolicy) : QueueClass :=
  ⟨classId place, some (rateText (d.cap c.policy)), c.policy.priority.map (toString ·.value)⟩

/-- The filter for the mark of a place. -/
def filterAt (place : Nat) : QueueFilter := ⟨some place, true, classId place⟩

theorem class?_queueChanges (place : Nat) (c : CompiledPolicy) :
    (queueChanges d place c).filterMap (Change.class? d.device) = [classAt d place c] := by
  simp [queueChanges, List.filterMap_cons, Change.class?, Change.addedClass?, read_classOptions,
    classAt]

theorem filter?_queueChanges (place : Nat) (c : CompiledPolicy) :
    (queueChanges d place c).filterMap (Change.filter? d.device) = [filterAt place] := by
  simp [queueChanges, List.filterMap_cons, Change.filter?, Change.addedFilter?, read_filterOptions,
    filterAt]

/-- There is a class for each policy that shapes the direction, under the place of the policy. -/
theorem classes_ofPlan :
    (ofPlan p).classes d.device = (p.shaped d).map fun (c, n) => classAt d n c := by
  rw [classes_eq, queue_ofPlan, List.filterMap_append, List.filterMap_flatMap, List.map_eq_flatMap]
  exact (List.nil_append _).trans (List.flatMap_congr fun e _ => class?_queueChanges d e.2 e.1)

theorem queueFilters_ofPlan :
    (ofPlan p).queueFilters d.device = (p.shaped d).map fun (_, n) => filterAt n := by
  rw [queueFilters_eq, queue_ofPlan, List.filterMap_append, List.filterMap_flatMap,
    List.map_eq_flatMap]
  exact (List.nil_append _).trans (List.flatMap_congr fun e _ => filter?_queueChanges d e.2 e.1)

/-- On the device of a direction, the marks, classes and filters of a script fit together, and the
classes are those that the plan asks for. -/
structure QueueCoherent (s : Script) : Prop where
  classes : s.classes d.device = (p.shaped d).map fun (c, n) =>
    ⟨classId n, some (rateText (d.cap c.policy)), c.policy.priority.map (toString ·.value)⟩
  nodup : ((s.classes d.device).map (·.id)).Nodup
  filtered : ∀ k ∈ s.classes d.device, ∃ n, k.id = classId n ∧
    (s.queueFilters d.device).filter (·.flow = k.id) = [⟨some n, true, k.id⟩]
  flows : ∀ f ∈ s.queueFilters d.device, ∃ k ∈ s.classes d.device, f.flow = k.id
  marked : ∀ m ∈ s.marks "mangle" d.chain, ∃ k ∈ s.classes d.device, k.id = classId m
  ordered : ∀ before after, s.changes = before ++ after →
    ∀ f ∈ before.filterMap (Change.filter? d.device),
      ∀ k ∈ after.filterMap (Change.class? d.device), f.flow ≠ k.id

/-- No class is added after a filter that leads to it. -/
theorem pairwise_queue_ofPlan :
    ((ofPlan p).queue d.device).Pairwise fun a b => ∀ f k,
      a.filter? d.device = some f → b.class? d.device = some k → f.flow ≠ k.id := by
  rw [queue_ofPlan]
  refine List.pairwise_append.mpr ⟨by simp [Change.filter?, Change.addedFilter?], ?_,
    by simp [Change.filter?, Change.addedFilter?]⟩
  refine List.pairwise_flatMap.mpr ⟨fun e _ => ?_, (pairwise_shaped p d).imp ?_⟩
  · simp [queueChanges, Change.filter?, Change.addedFilter?]
  -- a later place has another class
  intro e e' hplaces a ha b hb f k hf hk
  have hfilter : f ∈ (queueChanges d e.2 e.1).filterMap (Change.filter? d.device) :=
    List.mem_filterMap.mpr ⟨a, ha, hf⟩
  have hclass : k ∈ (queueChanges d e'.2 e'.1).filterMap (Change.class? d.device) :=
    List.mem_filterMap.mpr ⟨b, hb, hk⟩
  rw [filter?_queueChanges, List.mem_singleton] at hfilter
  rw [class?_queueChanges, List.mem_singleton] at hclass
  rw [hfilter, hclass]
  exact fun hid => (Nat.ne_of_lt hplaces) (classId_injective hid)

theorem nodup_ids : (((ofPlan p).classes d.device).map (·.id)).Nodup := by
  rw [classes_ofPlan, List.map_map]
  refine List.pairwise_map.mpr ((pairwise_shaped p d).imp fun {a b} hplaces hid => ?_)
  exact (Nat.ne_of_lt hplaces) (classId_injective hid)

theorem filter_flow_ofPlan {place : Nat} (h : place ∈ (p.shaped d).map Prod.snd) :
    ((ofPlan p).queueFilters d.device).filter (·.flow = classId place) = [filterAt place] := by
  have hnodup : ((p.shaped d).map Prod.snd).Nodup :=
    List.pairwise_map.mpr ((pairwise_shaped p d).imp fun {a b} hplaces => Nat.ne_of_lt hplaces)
  have hfilters : (ofPlan p).queueFilters d.device = ((p.shaped d).map Prod.snd).map filterAt := by
    rw [queueFilters_ofPlan, List.map_map]
    rfl
  have hflow : ((fun f => decide (f.flow = classId place)) ∘ filterAt) =
      fun n => decide (n = place) := by
    funext n
    simp [filterAt, classId_injective.eq_iff]
  rw [hfilters, List.filter_map, hflow, List.filter_eq, hnodup.count, if_pos h]
  rfl

theorem mem_marks_ofPlan {m : Nat} (h : m ∈ (ofPlan p).marks "mangle" d.chain) :
    ∃ c, (c, m) ∈ p.shaped d := by
  obtain ⟨rule, hrule, hmark⟩ := mem_marks.mp h
  rw [changes_ofPlan, List.mem_append, List.mem_flatMap] at hrule
  rcases hrule with hrule | ⟨⟨c, n⟩, hc, hrule⟩
  · have hreset : reset.appended "mangle" d.chain = [] := by cases d <;> decide
    rw [← mem_appended, hreset] at hrule
    exact absurd hrule List.not_mem_nil
  · obtain ⟨rfl, e, hshapes, hchain⟩ := markOf_of_policyChange (policyChange_of_mem hrule) hmark
    obtain rfl : d = e := by cases d <;> cases e <;> first | rfl | exact absurd hchain (by decide)
    exact ⟨c, List.mem_filter.mpr ⟨hc, hshapes⟩⟩

theorem queueCoherent_ofPlan : QueueCoherent p d (ofPlan p) where
  classes := classes_ofPlan p d
  nodup := nodup_ids p d
  filtered k hk := by
    rw [classes_ofPlan] at hk
    obtain ⟨⟨c, n⟩, hc, rfl⟩ := List.mem_map.mp hk
    exact ⟨n, rfl, filter_flow_ofPlan p d (List.mem_map.mpr ⟨_, hc, rfl⟩)⟩
  flows f hf := by
    rw [queueFilters_ofPlan] at hf
    obtain ⟨⟨c, n⟩, hc, rfl⟩ := List.mem_map.mp hf
    rw [classes_ofPlan]
    exact ⟨_, List.mem_map.mpr ⟨_, hc, rfl⟩, rfl⟩
  marked m hm := by
    obtain ⟨c, hc⟩ := mem_marks_ofPlan p d hm
    rw [classes_ofPlan]
    exact ⟨_, List.mem_map.mpr ⟨_, hc, rfl⟩, rfl⟩
  ordered before after h f hf k hk := by
    obtain ⟨a, ha, hfa⟩ := List.mem_filterMap.mp hf
    obtain ⟨b, hb, hkb⟩ := List.mem_filterMap.mp hk
    have hpairs := pairwise_queue_ofPlan p d
    rw [queue, h, List.filter_append] at hpairs
    refine (List.pairwise_append.mp hpairs).2.2 a ?_ b ?_ f k hfa hkb
    · exact List.mem_filter.mpr ⟨ha, decide_eq_true (Change.device?_of_filter? hfa)⟩
    · exact List.mem_filter.mpr ⟨hb, decide_eq_true (Change.device?_of_class? hkb)⟩

theorem QueueCoherent.congr {s t : Script} (h : s.changes = t.changes) (ht : QueueCoherent p d t) :
    QueueCoherent p d s := by
  obtain ⟨hclasses, hfilters, hmarks, -⟩ := readings_eq h
  obtain ⟨hall, hnodup, hfiltered, hflows, hmarked, hordered⟩ := ht
  constructor
  · rwa [hclasses]
  · rwa [hclasses]
  · rwa [hclasses, hfilters]
  · rwa [hclasses, hfilters]
  · rwa [hclasses, hmarks]
  · rwa [h]

/-- The script that is read from the text of a plan adds its marks, classes and filters so that they
fit together: on each of the two devices, and for each of the policies in what it adds to the text.
No two policies share a mark. The reading misses no command. -/
theorem marks_classes_and_filters_coherent :
    read? p.script = some p.written ∧
      (∀ n, read? (p.upTo n).script = some (p.upTo n).written) ∧
      (∀ words ∈ p.written.commands, (Change.read? words).isSome = true) ∧
      (∀ d, QueueCoherent p d p.written) ∧
      p.written.changes = (p.upTo 0).written.changes ++
        (p.policies.zipIdx 1).flatMap (fun (_, n) => (p.added n).changes) ∧
      (∀ e ∈ p.policies.zipIdx 1, SectionCoherent e.2 e.1 (p.added e.2)) ∧
      ∀ e ∈ p.policies.zipIdx 1, ∀ e' ∈ p.policies.zipIdx 1, ∀ table chain table' chain' m,
        m ∈ (p.added e.2).marks table chain → m ∈ (p.added e'.2).marks table' chain' → e = e' := by
  refine ⟨p.read?_script, fun n => (p.upTo n).read?_script, ?_,
    fun d => .congr p d p.changes_written (queueCoherent_ofPlan p d), p.changes_written_eq_added,
    fun e he => sectionCoherent he, ?_⟩
  · rw [p.commands_written]
    exact isSome_read?_ofPlan p
  · rintro ⟨c, n⟩ he ⟨c', n'⟩ he' table chain table' chain' m hm hm'
    obtain rfl : m = n := (sectionCoherent he).mark table chain m hm
    obtain rfl : m = n' := (sectionCoherent he').mark table' chain' m hm'
    have hc := (List.mk_mem_zipIdx_iff_le_and_getElem?_sub.mp he).2
    have hc' := (List.mk_mem_zipIdx_iff_le_and_getElem?_sub.mp he').2
    rw [Option.some.inj (hc.symm.trans hc')]

end plan

end Script

end TrafficWarden

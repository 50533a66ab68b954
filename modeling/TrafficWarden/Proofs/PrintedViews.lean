import TrafficWarden.Proofs.OutputOptions
import TrafficWarden.Proofs.PrintedTables
import TrafficWarden.Proofs.ShellComments

/-!
# Views of the active policies

No active policy of a catalog is lost when the policies are compiled. So the listing, the table of
rules, the plan and the script show the same policies in the same order, and all of them can be read
back from what is printed.
-/

namespace TrafficWarden

open Calendar

section tables

variable {site : Site} {o : Options}

theorem Options.firstColumn_print (hquiet : o.quiet = false) (r : Report) :
    Text.firstColumn (o.print site r) = Text.firstColumn (r.render (o.style site)) := by
  unfold Options.print
  dsimp only
  rw [hquiet, Bool.false_or]
  split
  · rename_i hempty
    rw [String.isEmpty_iff.mp hempty]
  · exact Text.firstColumn_append_newline _

theorem firstColumn_policyTable (ps : List Policy) :
    Text.firstColumn (policyTable ps).text = ps.map (·.id) := by
  refine Text.Table.firstColumn_text _ rfl (by decide) (by decide) ?_
  rw [policyTable, List.forall₂_map_left_iff, List.forall₂_map_right_iff, List.forall₂_same]
  exact fun p _ => ⟨_, rfl⟩

/-- Each rule of a policy has a row with the identity of the policy. -/
theorem firstColumn_ruleTable (cs : List CompiledPolicy) :
    Text.firstColumn (ruleTable cs).text =
      cs.flatMap fun c => List.replicate c.rules.rules.length c.policy.id := by
  refine Text.Table.firstColumn_text _ rfl (by decide) (by decide) ?_
  induction cs with
  | nil => exact .nil
  | cons c cs ih =>
    have hrows : List.Forall₂ (fun row id => ∃ cells, row = id.text :: cells) c.rows
        (List.replicate c.rules.rules.length c.policy.id) := by
      have hids : List.replicate c.rules.rules.length c.policy.id =
          c.rules.rules.zipIdx.map fun _ => c.policy.id := by
        rw [List.map_const', List.length_zipIdx]
      rw [hids, CompiledPolicy.rows, List.forall₂_map_left_iff, List.forall₂_map_right_iff,
        List.forall₂_same]
      exact fun r _ => ⟨_, rfl⟩
    exact List.rel_append hrows ih

section blocks

theorem destutter'_replicate_append (a : EntityId) (n : Nat) (ids : List EntityId) :
    (List.replicate n a ++ ids).destutter' (· ≠ ·) a = ids.destutter' (· ≠ ·) a := by
  induction n with
  | zero => rfl
  | succ n ih =>
    rw [List.replicate_succ, List.cons_append, List.destutter'_cons_neg _ (not_not.mpr rfl), ih]

/-- After another identity, distinct ones are found once for each of their runs. -/
theorem destutter'_flatMap_replicate {runs : List (EntityId × Nat)} {a : EntityId}
    (hids : (a :: runs.map Prod.fst).Nodup) :
    (runs.flatMap fun run => List.replicate (run.2 + 1) run.1).destutter' (· ≠ ·) a =
      a :: runs.map Prod.fst := by
  induction runs generalizing a with
  | nil => rfl
  | cons run runs ih =>
    obtain ⟨ha, hrest⟩ := List.nodup_cons.mp hids
    have hne : a ≠ run.1 := fun heq => ha (heq ▸ List.mem_cons_self)
    rw [List.flatMap_cons, List.replicate_succ, List.cons_append, List.destutter'_cons_pos _ hne,
      destutter'_replicate_append, ih hrest]
    rfl

theorem destutter_flatMap_replicate {runs : List (EntityId × Nat)}
    (hids : (runs.map Prod.fst).Nodup) :
    (runs.flatMap fun run => List.replicate (run.2 + 1) run.1).destutter (· ≠ ·) =
      runs.map Prod.fst := by
  cases runs with
  | nil => rfl
  | cons run runs =>
    rw [List.flatMap_cons, List.replicate_succ, List.cons_append, List.destutter_cons',
      destutter'_replicate_append]
    exact destutter'_flatMap_replicate hids

theorem blocks_ruleTable {cs : List CompiledPolicy} (hrules : ∀ c ∈ cs, c.rules.rules ≠ [])
    (hids : (cs.map (·.policy.id)).Nodup) :
    Text.blocks (ruleTable cs).text = cs.map (·.policy.id) := by
  have hruns : (cs.flatMap fun c => List.replicate c.rules.rules.length c.policy.id) =
      (cs.map fun c => (c.policy.id, c.rules.rules.length - 1)).flatMap fun run =>
        List.replicate (run.2 + 1) run.1 := by
    rw [List.flatMap_map]
    refine List.flatMap_congr fun c hc => ?_
    dsimp only
    rw [Nat.sub_add_cancel (List.length_pos_iff.mpr (hrules c hc))]
  have hfirst : (cs.map fun c => (c.policy.id, c.rules.rules.length - 1)).map Prod.fst =
      cs.map (·.policy.id) := List.map_map
  rw [Text.blocks, firstColumn_ruleTable, hruns, destutter_flatMap_replicate (hfirst ▸ hids),
    hfirst]

end blocks

end tables

namespace PolicySource

/-- All views of a moment show the policies of some identities, in their order: the listing of the
active policies in each format, the table of their rules with a block for each, the plan, and the
text of the script with its sections numbered from 1. Nothing is warned about. The identities that
JSON can tell are those of 64 bits. -/
structure Shows (s : PolicySource) (site : Site) (interfaces : Interfaces) (raw : Option String)
    (moment : Timestamp) (ids : List EntityId) : Prop where
  listing : ∃ report, s.listing site true raw = .ok report ∧ ∀ o : Options, o.quiet = false →
    (o.output = .table → Text.firstColumn (o.print site report) = ids) ∧
      (o.output = .plain →
        o.print site report = String.join (ids.map fun id => id.text ++ "\n")) ∧
      (o.output = .json ∨ o.output = .jsonCompact → (∀ id ∈ ids, Json.FitsWord id.value) →
        ∃ records, Json.read? (o.print site report) = some (.array records) ∧
          records.map (·.get? "id") = ids.map fun id => some (.integer id.value))
  rules : ∃ report, s.compilation site [] raw = (.ok report, []) ∧ ∀ o : Options,
    o.quiet = false → o.output = .table → Text.blocks (o.print site report) = ids
  script : ∃ plan text, s.plan interfaces moment = (.ok plan, []) ∧
    plan.policies.map (·.policy.id) = ids ∧ s.preview interfaces moment = (.ok text, []) ∧
      Script.sections text = ids.zipIdx 1

end PolicySource

namespace Store

section shows

variable {site : Site} {o : Options}

/-- A printed listing shows its policies in each format. -/
theorem printed_policies (ps : List Policy) (hquiet : o.quiet = false) :
    (o.output = .table → Text.firstColumn (o.print site (.policies ps)) = ps.map (·.id)) ∧
      (o.output = .plain → o.print site (.policies ps) =
        String.join ((ps.map (·.id)).map fun id => id.text ++ "\n")) ∧
      (o.output = .json ∨ o.output = .jsonCompact →
        (∀ id ∈ ps.map (·.id), Json.FitsWord id.value) →
        ∃ records, Json.read? (o.print site (.policies ps)) = some (.array records) ∧
          records.map (·.get? "id") = (ps.map (·.id)).map fun id => some (.integer id.value)) := by
  refine ⟨fun htable => ?_, fun hplain => ?_, fun hjson hfits => ?_⟩
  · have hrender : (Report.policies ps).render (o.style site) = (policyTable ps).text := by
      simp [Report.render, Options.style, htable, Report.detail]
    rw [Options.firstColumn_print hquiet, hrender, firstColumn_policyTable]
  · simpa [Function.comp_def] using Options.print_policies_plain hquiet hplain
  · have hfits : ∀ p ∈ ps, Json.FitsWord p.id.value :=
      fun p hp => hfits p.id (List.mem_map_of_mem hp)
    refine ⟨_, Options.read?_print_policies hquiet hjson hfits, ?_⟩
    rw [List.map_map, List.map_map]
    rfl

theorem printed_rules {cs : List CompiledPolicy} (hrules : ∀ c ∈ cs, c.rules.rules ≠ [])
    (hids : (cs.map (·.policy.id)).Nodup) (hquiet : o.quiet = false) (htable : o.output = .table) :
    Text.blocks (o.print site (.compiled cs)) = cs.map (·.policy.id) := by
  have hrender : (Report.compiled cs).render (o.style site) = (ruleTable cs).text := by
    simp [Report.render, Options.style, htable, Report.detail]
  have hblocks := blocks_ruleTable hrules hids
  rw [Text.blocks] at hblocks ⊢
  rw [Options.firstColumn_print hquiet, hrender, hblocks]

/-- If the active policies are all compiled, every view of the moment shows them. -/
theorem shows_of_compilePolicies {store : Store} (hstore : store.DistinctIds)
    {raw : Option String} {moment : Timestamp} (hmoment : momentOf site raw = .ok moment)
    (interfaces : Interfaces) {cs : List CompiledPolicy}
    (hcs : store.source.compilePolicies (store.activeAt moment) = (.ok cs, []))
    (hall : List.Forall₂ store.source.Compiles (store.activeAt moment) cs) :
    store.source.Shows site interfaces raw moment ((store.activeAt moment).map (·.id)) := by
  have hids : cs.map (·.policy.id) = (store.activeAt moment).map (·.id) := by
    rw [← PolicySource.map_policy_of_forall₂ hall, List.map_map]
    rfl
  have hplan : store.source.plan interfaces moment = (.ok ⟨interfaces, moment, cs⟩, []) := by
    simp [PolicySource.plan, active_source, hcs, Except.map]
  have hnodup : (cs.map (·.policy.id)).Nodup := by
    rw [hids]
    exact hstore.sublist (List.filter_sublist.map _)
  refine ⟨⟨.policies (store.activeAt moment), ?_, fun o => printed_policies _⟩,
    ⟨.compiled cs, ?_, fun o hquiet htable => ?_⟩,
    ⟨⟨interfaces, moment, cs⟩, Plan.script ⟨interfaces, moment, cs⟩, hplan, hids, ?_, ?_⟩⟩
  · simp [PolicySource.listing, hmoment, source, activeAt, Except.mapError, bind, Except.bind, pure,
      Except.pure]
  · simp [PolicySource.compilation, hmoment, PolicySource.selection, active_source, hcs,
      Except.mapError, Except.map]
  · rw [printed_rules (PolicySource.rules_ne_nil_of_forall₂ hall) hnodup hquiet htable, hids]
  · rw [PolicySource.preview, hplan]
    rfl
  · rw [Script.sections_script, hids]

end shows

end Store

namespace Catalog

/-- The store of a catalog is intact. So at every moment all active policies are compiled, and all
views show them. -/
theorem active_views_agree (c : Catalog) (site : Site) (interfaces : Interfaces)
    (raw : Option String) (moment : Timestamp) (hmoment : momentOf site raw = .ok moment) :
    let store := c.toStore.1
    store.Intact ∧
      (∃ cs, store.source.compilePolicies (store.activeAt moment) = (.ok cs, []) ∧
        List.Forall₂ store.source.Compiles (store.activeAt moment) cs) ∧
      store.source.Shows site interfaces raw moment ((store.activeAt moment).map (·.id)) := by
  intro store
  have hbags : ∀ p ∈ store.activeAt moment, ∃ b, store.source.bag p.id = .ok b :=
    fun p hp => exists_bag ⟨p, List.mem_of_mem_filter hp, rfl⟩
  obtain ⟨cs, hcs, hall⟩ := PolicySource.exists_compilePolicies_of_bags hbags
  exact ⟨intact_toStore, ⟨cs, hcs, hall⟩,
    Store.shows_of_compilePolicies distinctIds_toStore hmoment interfaces hcs hall⟩

/-- The office is open on Tuesday at ten, and a cap is always there. A policy of a class that cannot
be joined is no policy of the store. -/
theorem active_views_agree_of_office :
    let c : Catalog := {
      classes := [⟨1, "web", "", 1, true⟩, ⟨2, "broken", "", 1, true⟩]
      cidrs := []
      ports := [⟨1, 80, 6⟩]
      classCidrs := [⟨2, 9, "i"⟩]
      classPorts := [⟨1, 1, "o"⟩]
      policies := [⟨5, "cap", none, true, none, some 512, some 0⟩,
        ⟨1, "office", none, true, none, none, none⟩, ⟨3, "broken", none, true, some 1, none, none⟩]
      targets := [⟨1, 1, some 1, "d", none⟩, ⟨2, 3, some 2, "d", none⟩]
      windows := [⟨1, 1, 2, "09:00", "17:00"⟩] }
    let site : Site := ⟨.empty .epoch, "", [], .epoch, false⟩
    let moment : Timestamp := ⟨⟨2024, 3, 5, by decide⟩, ⟨10, 0, 0⟩⟩
    momentOf site (some "2024-03-05 10:00") = .ok moment ∧
      let store := c.toStore.1
      store.Intact ∧
        (∃ cs, store.source.compilePolicies (store.activeAt moment) = (.ok cs, []) ∧
          List.Forall₂ store.source.Compiles (store.activeAt moment) cs) ∧
        store.source.Shows site .standard (some "2024-03-05 10:00") moment
          ((store.activeAt moment).map (·.id)) := by
  intro c site moment
  have hmoment : momentOf site (some "2024-03-05 10:00") = .ok moment := by decide +kernel
  exact ⟨hmoment, active_views_agree c site .standard _ moment hmoment⟩

end Catalog

end TrafficWarden

import TrafficWarden.Proofs.DistinctNames
import TrafficWarden.Settings.Environment

/-!
# Tables over one another

What is at a name of a table that is laid over another one. Names that are different stay different,
in the tables that variables of an environment are read as, too.
-/

namespace TrafficWarden.Toml

variable {name other : String} {v w : Toml} {entries lower upper : List (String × Toml)}

section lookup

theorem lookup_cons (name : String) (e : String × Toml) (entries : List (String × Toml)) :
    lookup name (e :: entries) = if e.1 = name then some e.2 else lookup name entries := rfl

theorem lookup_eq_none_iff : lookup name entries = none ↔ name ∉ entries.map Prod.fst := by
  induction entries with
  | nil => simp [lookup]
  | cons e entries ih =>
    rw [lookup_cons, List.map_cons, List.mem_cons, not_or, ← ih]
    by_cases h : e.1 = name
    · simp [h]
    · simp [h, Ne.symm h]

theorem mem_of_lookup (h : lookup name entries = some v) : (name, v) ∈ entries := by
  induction entries with
  | nil => cases h
  | cons e entries ih =>
    rw [lookup_cons] at h
    split at h
    · rename_i heq
      cases h
      exact heq ▸ List.mem_cons_self
    · exact List.mem_cons_of_mem e (ih h)

theorem mem_names_assign :
    other ∈ (assign name v entries).map Prod.fst ↔ other = name ∨ other ∈ entries.map Prod.fst := by
  induction entries with
  | nil => simp [assign]
  | cons e entries ih =>
    rw [assign]
    split
    · rename_i heq
      simp [heq]
    · rw [List.map_cons, List.mem_cons, ih, List.map_cons, List.mem_cons]
      exact or_left_comm

theorem keyed_assign {P : Toml → Prop} (hentries : Keyed P entries) (hv : P v) :
    Keyed P (assign name v entries) := by
  induction entries with
  | nil => exact ⟨by simp [assign], by simpa [assign] using hv⟩
  | cons e entries ih =>
    obtain ⟨hnames, hvalues⟩ := hentries
    rw [List.map_cons, List.nodup_cons] at hnames
    rw [List.forall_mem_cons] at hvalues
    rw [assign]
    split
    · rename_i heq
      refine ⟨?_, List.forall_mem_cons.2 ⟨hv, hvalues.2⟩⟩
      rw [List.map_cons, List.nodup_cons]
      exact heq ▸ hnames
    · rename_i hne
      have hkeyed := ih ⟨hnames.2, hvalues.2⟩
      refine ⟨?_, List.forall_mem_cons.2 ⟨hvalues.1, hkeyed.values⟩⟩
      rw [List.map_cons, List.nodup_cons, mem_names_assign, not_or]
      exact ⟨⟨hne, hnames.1⟩, hkeyed.names⟩

end lookup

section overlay

/-- The upper table counts at its names, joined with what is below, and the lower one elsewhere. -/
theorem lookup_overlayEntries (hupper : (upper.map Prod.fst).Nodup) (name : String) :
    lookup name (overlayEntries lower upper) =
      match lookup name upper with
      | none => lookup name lower
      | some v => some ((lookup name lower).elim v (overlay · v)) := by
  induction upper generalizing lower with
  | nil => rw [overlayEntries, lookup]
  | cons e upper ih =>
    rw [List.map_cons, List.nodup_cons] at hupper
    rw [overlayEntries, ih hupper.2, lookup_cons]
    by_cases heq : e.1 = name
    · subst heq
      rw [if_pos rfl, lookup_eq_none_iff.2 hupper.1, lookup_assign_same]
      cases lookup e.1 lower <;> rfl
    · rw [if_neg heq, lookup_assign_of_ne _ _ (Ne.symm heq)]

theorem keyed_overlayEntries (hlower : Keyed Distinct lower)
    (hupper : ∀ e ∈ upper, e.2.Distinct)
    (hjoin : ∀ e ∈ upper, ∀ w : Toml, w.Distinct → (w.overlay e.2).Distinct) :
    Keyed Distinct (overlayEntries lower upper) := by
  induction upper generalizing lower with
  | nil => rwa [overlayEntries]
  | cons e upper ih =>
    rw [List.forall_mem_cons] at hupper hjoin
    rw [overlayEntries]
    refine ih (keyed_assign hlower ?_) hupper.2 hjoin.2
    cases hw : lookup e.1 lower with
    | none => exact hupper.1
    | some w => exact hjoin.1 w (hlower.values _ (mem_of_lookup hw))

/-- Tables that are joined have no name twice if neither of them has. -/
theorem Distinct.overlay (hlower : w.Distinct) (hupper : v.Distinct) :
    (w.overlay v).Distinct := by
  induction hupper generalizing w with
  | table hnames hvalues ih =>
    cases w with
    | table lower =>
      rw [Toml.overlay]
      exact distinct_table_iff.2
        (keyed_overlayEntries (distinct_table_iff.1 hlower) hvalues fun e he _ => ih e he)
    | _ => exact .table hnames hvalues
  | string s => exact .string s
  | integer n => exact .integer n
  | float text => exact .float text
  | bool b => exact .bool b
  | datetime text => exact .datetime text
  | array h => exact .array h

end overlay

end TrafficWarden.Toml

namespace TrafficWarden.Settings

open Toml

variable {v : Toml} {cs rest : List Char}

section values

theorem distinct_bareValue (cs : List Char) : (bareValue cs).Distinct := by
  unfold bareValue
  split
  · exact .float _
  · split
    · exact .integer _
    · split
      · exact .integer _
      · exact .string _

theorem forall_mem_of_readUpTo {α : Type} {P : α → Prop} {close : Char} {item : Step α}
    (hitem : ∀ cs a rest, item cs = some (a, rest) → P a) {fuel : Nat} {as : List α}
    (h : readUpTo close item fuel cs = some (as, rest)) : ∀ a ∈ as, P a := by
  induction fuel generalizing cs as with
  | zero => cases h
  | succ fuel ih =>
    rw [readUpTo] at h
    split at h
    · cases h
      simp
    · obtain ⟨⟨a, after⟩, ha, h⟩ := Option.bind_eq_some_iff.1 h
      have hfirst := hitem _ _ _ ha
      dsimp only at h
      split at h
      · obtain ⟨⟨tail, _⟩, htail, h⟩ := Option.bind_eq_some_iff.1 h
        cases h
        exact List.forall_mem_cons.2 ⟨hfirst, ih htail⟩
      · split at h
        · cases h
          simpa using hfirst
        · cases h
      · cases h

theorem distinct_of_readPair {value : Step Toml} {pair : String × Toml}
    (hvalue : ∀ cs v rest, value cs = some (v, rest) → v.Distinct)
    (h : readPair value cs = some (pair, rest)) : pair.2.Distinct := by
  obtain ⟨⟨name, after⟩, -, h⟩ := Option.bind_eq_some_iff.1 h
  dsimp only at h
  split at h
  · obtain ⟨⟨v, _⟩, hv, h⟩ := Option.bind_eq_some_iff.1 h
    cases h
    exact hvalue _ _ _ hv
  · cases h

theorem keyed_foldl_assign {pairs entries : List (String × Toml)}
    (hpairs : ∀ e ∈ pairs, e.2.Distinct) (hentries : Keyed Distinct entries) :
    Keyed Distinct (pairs.foldl (fun entries (name, v) => Toml.assign name v entries) entries) := by
  induction pairs generalizing entries with
  | nil => exact hentries
  | cons e pairs ih =>
    rw [List.forall_mem_cons] at hpairs
    exact ih hpairs.2 (keyed_assign hentries hpairs.1)

theorem distinct_of_readValue {depth : Nat} (h : readValue depth cs = some (v, rest)) :
    v.Distinct := by
  induction depth generalizing cs v rest with
  | zero => cases h
  | succ depth ih =>
    rw [readValue] at h
    split at h
    · cases h
      exact .bool _
    · cases h
      exact .bool _
    · obtain ⟨⟨pairs, _⟩, hpairs, h⟩ := Option.bind_eq_some_iff.1 h
      cases h
      have hvalues := forall_mem_of_readUpTo
        (fun _ _ _ hpair => distinct_of_readPair (fun _ _ _ hv => ih hv) hpair) hpairs
      exact distinct_table_iff.2 (keyed_foldl_assign hvalues (keyed_nil _))
    · obtain ⟨⟨items, _⟩, hitems, h⟩ := Option.bind_eq_some_iff.1 h
      cases h
      exact .array (forall_mem_of_readUpTo (fun _ _ _ hitem => ih hitem) hitems)
    · obtain ⟨⟨chars, _⟩, -, h⟩ := Option.bind_eq_some_iff.1 h
      cases h
      exact .string _
    · cases h
      exact .string _
    · cases h
    · cases h
      exact distinct_bareValue _

theorem distinct_variableValue (raw : String) : (variableValue raw).Distinct := by
  unfold variableValue
  split
  · rename_i hread
    exact distinct_of_readValue hread
  · exact .string raw

theorem distinct_nested (hv : v.Distinct) (path : List String) : (nested v path).Distinct := by
  induction path with
  | nil => exact hv
  | cons name path ih =>
    rw [nested]
    split
    · exact hv
    · exact distinct_table_iff.2 ⟨by simp, by simpa using ih⟩

end values

end TrafficWarden.Settings

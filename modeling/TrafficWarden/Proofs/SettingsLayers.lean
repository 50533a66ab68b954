import Mathlib.Data.List.Induction
import TrafficWarden.Proofs.DocumentFields
import TrafficWarden.Proofs.TableOverlay
import TrafficWarden.Settings.File

/-!
# Layers of settings

A layer has a value for some settings and none for others. A table in which every setting that is
there has its type is such a layer, and a table over another one is the layer over the other one,
setting by setting. Settings are read from a table as its layer over the standard settings.
-/

namespace TrafficWarden

namespace Toml

/-- The value at a name, if there is one. It must be of the type that is read. -/
def typed? {α : Type} (read : Node → Option α) (name : String) (entries : List (String × Toml)) :
    Option (Option α) :=
  match lookup name entries with
  | none => some none
  | some v => (read v.toNode).map some

/-- The entries of a table within a table. There are none if it is missing. -/
def tableAt? (name : String) (entries : List (String × Toml)) : Option (List (String × Toml)) :=
  match lookup name entries with
  | none => some []
  | some (.table inner) => some inner
  | some _ => none

end Toml

namespace Settings

open Toml

/-- The settings that one source has. -/
structure Layer where
  outside : Option String
  inside : Option String
  scriptPath : Option String
  shell : Option String
  interval : Option UInt64
  catalogPath : Option String
deriving DecidableEq, Repr

namespace Layer

def empty : Layer := ⟨none, none, none, none, none, none⟩

/-- Each setting of the upper layer, or else of the lower one. -/
def onto (upper lower : Layer) : Layer :=
  ⟨upper.outside.or lower.outside, upper.inside.or lower.inside,
    upper.scriptPath.or lower.scriptPath, upper.shell.or lower.shell,
    upper.interval.or lower.interval, upper.catalogPath.or lower.catalogPath⟩

/-- Each setting of a layer, or else the standard one. -/
def settle (l : Layer) : Settings where
  interfaces :=
    ⟨l.outside.getD standard.interfaces.outside, l.inside.getD standard.interfaces.inside⟩
  scriptPath := l.scriptPath.getD standard.scriptPath
  shell := l.shell.getD standard.shell
  interval := l.interval.getD standard.interval
  catalogPath := l.catalogPath.getD standard.catalogPath

/-- The layer of a table, in which every setting that is there has its type. -/
def of? : Toml → Option Layer
  | .table entries => do
    let interfaces ← tableAt? "interfaces" entries
    let dispatch ← tableAt? "dispatch" entries
    let catalog ← tableAt? "catalog" entries
    return {
      outside := ← typed? Node.text? "outside" interfaces
      inside := ← typed? Node.text? "inside" interfaces
      scriptPath := ← typed? Node.text? "script_path" dispatch
      shell := ← typed? Node.text? "shell" dispatch
      interval := ← typed? Node.natural? "interval_secs" dispatch
      catalogPath := ← typed? Node.text? "path" catalog }
  | _ => none

end Layer

variable {t lower upper : Toml} {l low high : Layer}

/-- The sections of a table, and what they have of a layer. -/
theorem Layer.of?_eq_some_iff :
    Layer.of? t = some l ↔ ∃ entries interfaces dispatch catalog, t = .table entries ∧
      tableAt? "interfaces" entries = some interfaces ∧
      tableAt? "dispatch" entries = some dispatch ∧ tableAt? "catalog" entries = some catalog ∧
      typed? Node.text? "outside" interfaces = some l.outside ∧
      typed? Node.text? "inside" interfaces = some l.inside ∧
      typed? Node.text? "script_path" dispatch = some l.scriptPath ∧
      typed? Node.text? "shell" dispatch = some l.shell ∧
      typed? Node.natural? "interval_secs" dispatch = some l.interval ∧
      typed? Node.text? "path" catalog = some l.catalogPath := by
  constructor
  · intro h
    cases t with
    | table entries =>
      simp only [Layer.of?, bind, Option.bind_eq_some_iff, pure, Option.some.injEq] at h
      obtain ⟨interfaces, hinterfaces, dispatch, hdispatch, catalog, hcatalog, outside, houtside,
        inside, hinside, scriptPath, hscript, shell, hshell, interval, hinterval, catalogPath,
        hpath, rfl⟩ := h
      exact ⟨entries, interfaces, dispatch, catalog, rfl, hinterfaces, hdispatch, hcatalog,
        houtside, hinside, hscript, hshell, hinterval, hpath⟩
    | _ => cases h
  · rintro ⟨entries, interfaces, dispatch, catalog, rfl, hinterfaces, hdispatch, hcatalog, houtside,
      hinside, hscript, hshell, hinterval, hpath⟩
    simp only [Layer.of?, hinterfaces, hdispatch, hcatalog, houtside, hinside, hscript, hshell,
      hinterval, hpath, bind, Option.bind, pure]

section joining

variable {name : String} {bottom top below above : List (String × Toml)}

theorem assign_of_not_mem {v : Toml} (h : name ∉ below.map Prod.fst) :
    Toml.assign name v below = below ++ [(name, v)] := by
  induction below with
  | nil => rfl
  | cons e below ih =>
    rw [List.map_cons, List.mem_cons, not_or] at h
    rw [Toml.assign, if_neg (Ne.symm h.1), ih h.2, List.cons_append]

/-- Tables without a name in common stand one after the other. -/
theorem overlayEntries_of_disjoint (habove : (above.map Prod.fst).Nodup)
    (h : ∀ e ∈ above, e.1 ∉ below.map Prod.fst) : overlayEntries below above = below ++ above := by
  induction above generalizing below with
  | nil => rw [overlayEntries, List.append_nil]
  | cons e above ih =>
    rw [List.map_cons, List.nodup_cons] at habove
    rw [List.forall_mem_cons] at h
    have hrest : ∀ other ∈ above, other.1 ∉ (below ++ [(e.1, e.2)]).map Prod.fst := by
      intro other hother
      have hne : other.1 ≠ e.1 := fun heq => habove.1 (heq ▸ List.mem_map_of_mem hother)
      simpa [hne] using h.2 other hother
    simp only [overlayEntries, lookup_eq_none_iff.2 h.1, assign_of_not_mem h.1]
    rw [ih habove.2 hrest, List.append_assoc, List.singleton_append]

theorem tableAt?_overlayEntries (hbottom : tableAt? name bottom = some below)
    (htop : Keyed Distinct top) (habove : tableAt? name top = some above) :
    tableAt? name (overlayEntries bottom top) = some (overlayEntries below above) := by
  unfold tableAt? at hbottom habove ⊢
  rw [lookup_overlayEntries htop.names]
  cases hupper : lookup name top with
  | none =>
    rw [hupper] at habove
    cases habove
    exact hbottom
  | some v =>
    rw [hupper] at habove
    cases v with
    | table inner =>
      cases habove
      have hinner := distinct_table_iff.1 (htop.values _ (mem_of_lookup hupper))
      cases hlower : lookup name bottom with
      | none =>
        rw [hlower] at hbottom
        cases hbottom
        simp [overlayEntries_of_disjoint hinner.names]
      | some w =>
        rw [hlower] at hbottom
        cases w with
        | table inner =>
          cases hbottom
          rfl
        | _ => cases hbottom
    | _ => cases habove

/-- A reader for values that are no tables. -/
def Scalars {α : Type} (read : Node → Option α) : Prop :=
  ∀ v a, read (toNode v) = some a → ∀ w, Toml.overlay w v = v

theorem scalars_text? : Scalars Node.text? := by
  intro v a h w
  cases v with
  | table => cases h
  | _ => rfl

theorem scalars_natural? : Scalars Node.natural? := by
  intro v a h w
  cases v with
  | table => cases h
  | _ => rfl

theorem typed?_overlayEntries {α : Type} {read : Node → Option α} (hread : Scalars read)
    {a b : Option α} (hbelow : typed? read name below = some a)
    (hnames : (above.map Prod.fst).Nodup) (habove : typed? read name above = some b) :
    typed? read name (overlayEntries below above) = some (b.or a) := by
  unfold typed? at hbelow habove ⊢
  rw [lookup_overlayEntries hnames]
  cases hupper : lookup name above with
  | none =>
    rw [hupper] at habove
    cases habove
    exact hbelow
  | some v =>
    rw [hupper] at habove
    obtain ⟨value, hvalue, rfl⟩ := Option.map_eq_some_iff.1 habove
    cases lookup name below with
    | none => exact habove
    | some w =>
      simp [hread v value hvalue w, hvalue]

theorem keyed_of_tableAt? (htop : Keyed Distinct top) (h : tableAt? name top = some above) :
    Keyed Distinct above := by
  unfold tableAt? at h
  split at h
  · cases h
    exact keyed_nil _
  · rename_i hinner
    cases h
    exact distinct_table_iff.1 (htop.values _ (mem_of_lookup hinner))
  · cases h

/-- A table over another one is one layer over another. -/
theorem Layer.of?_overlay (hlower : Layer.of? lower = some low) (hdistinct : upper.Distinct)
    (hupper : Layer.of? upper = some high) :
    Layer.of? (lower.overlay upper) = some (high.onto low) := by
  obtain ⟨bottom, interfaces, dispatch, catalog, rfl, hinterfaces, hdispatch, hcatalog, houtside,
    hinside, hscript, hshell, hinterval, hpath⟩ := Layer.of?_eq_some_iff.1 hlower
  obtain ⟨top, interfaces', dispatch', catalog', rfl, hinterfaces', hdispatch', hcatalog',
    houtside', hinside', hscript', hshell', hinterval', hpath'⟩ := Layer.of?_eq_some_iff.1 hupper
  have htop := distinct_table_iff.1 hdistinct
  have hnames := (keyed_of_tableAt? htop hinterfaces').names
  have hdispatches := (keyed_of_tableAt? htop hdispatch').names
  rw [Layer.of?_eq_some_iff]
  exact ⟨_, _, _, _, rfl, tableAt?_overlayEntries hinterfaces htop hinterfaces',
    tableAt?_overlayEntries hdispatch htop hdispatch',
    tableAt?_overlayEntries hcatalog htop hcatalog',
    typed?_overlayEntries scalars_text? houtside hnames houtside',
    typed?_overlayEntries scalars_text? hinside hnames hinside',
    typed?_overlayEntries scalars_text? hscript hdispatches hscript',
    typed?_overlayEntries scalars_text? hshell hdispatches hshell',
    typed?_overlayEntries scalars_natural? hinterval hdispatches hinterval',
    typed?_overlayEntries scalars_text? hpath (keyed_of_tableAt? htop hcatalog').names hpath'⟩

end joining

section reading

variable {entries : List (String × Toml)}

theorem toNodeEntries_eq_map (entries : List (String × Toml)) :
    toNodeEntries entries = entries.map fun e => (e.1, e.2.toNode) := by
  induction entries with
  | nil => rfl
  | cons e entries ih => rw [toNodeEntries, ih, List.map_cons]

theorem valueOf?_toNodeEntries (entries : List (String × Toml)) (name : String) :
    Fields.valueOf? (toNodeEntries entries) name = (lookup name entries).map toNode := by
  induction entries with
  | nil => rfl
  | cons e entries ih =>
    unfold Fields.valueOf? at ih ⊢
    rw [toNodeEntries, List.find?_cons, lookup_cons]
    by_cases heq : e.1 = name
    · simp [heq]
    · simp [heq, ih]

/-- Where no name occurs twice, a field is read from what is at its name. -/
theorem exists_fields? (hnames : (entries.map Prod.fst).Nodup) (form : ListRows)
    (names : List String) :
    ∃ fields, (toNode (.table entries)).fields? form names = some fields ∧
      ∀ name ∈ names, Fields.valueOf? fields name = (lookup name entries).map toNode := by
  have hsub := List.filter_sublist (p := fun e => names.contains e.1) (l := toNodeEntries entries)
  have hnodup : ((toNodeEntries entries).map Prod.fst).Nodup := by
    rw [toNodeEntries_eq_map, List.map_map]
    exact hnames
  obtain ⟨fields, hfields, hvalue⟩ :=
    Node.exists_fields?_table (hnodup.sublist (hsub.map Prod.fst)) form
  refine ⟨fields, by rw [toNode, hfields], fun name hname => ?_⟩
  rw [hvalue name hname, valueOf?_toNodeEntries]

theorem withDefault_typed? {α : Type} {read : Node → Option α} {name : String} {a : Option α}
    {fields : Fields} (hvalue : Fields.valueOf? fields name = (lookup name entries).map toNode)
    (ha : typed? read name entries = some a) (default : α) :
    Fields.withDefault default read name fields = some (a.getD default) := by
  unfold typed? at ha
  rw [Fields.withDefault, hvalue]
  cases hlookup : lookup name entries with
  | none =>
    rw [hlookup] at ha
    cases ha
    rfl
  | some v =>
    rw [hlookup] at ha
    obtain ⟨value, hread, rfl⟩ := Option.map_eq_some_iff.1 ha
    exact hread

/-- A section is read as a table, which is empty if it is missing. -/
theorem withDefault_tableAt? {α : Type} {read : Node → Option α} {name : String} {a default : α}
    {inner : List (String × Toml)} {fields : Fields}
    (hvalue : Fields.valueOf? fields name = (lookup name entries).map toNode)
    (hinner : tableAt? name entries = some inner) (hread : read (toNode (.table inner)) = some a)
    (hdefault : read (toNode (.table [])) = some default) :
    Fields.withDefault default read name fields = some a := by
  unfold tableAt? at hinner
  rw [Fields.withDefault, hvalue]
  split at hinner
  · rename_i hlookup
    cases hinner
    rw [hlookup]
    exact hdefault.symm.trans hread
  · rename_i hlookup
    cases hinner
    rw [hlookup]
    exact hread
  · cases hinner

theorem readInterfaces_table (hnames : (entries.map Prod.fst).Nodup) (form : ListRows)
    {outside inside : Option String}
    (houtside : typed? Node.text? "outside" entries = some outside)
    (hinside : typed? Node.text? "inside" entries = some inside) :
    readInterfaces form (toNode (.table entries)) =
      some ⟨outside.getD standard.interfaces.outside, inside.getD standard.interfaces.inside⟩ := by
  obtain ⟨fields, hfields, hvalue⟩ := exists_fields? hnames form ["outside", "inside"]
  simp only [readInterfaces, hfields, withDefault_typed? (hvalue _ (by simp)) houtside,
    withDefault_typed? (hvalue _ (by simp)) hinside, bind, Option.bind, pure]

theorem readDispatch_table (hnames : (entries.map Prod.fst).Nodup) (form : ListRows)
    {scriptPath shell : Option String} {interval : Option UInt64}
    (hscript : typed? Node.text? "script_path" entries = some scriptPath)
    (hshell : typed? Node.text? "shell" entries = some shell)
    (hinterval : typed? Node.natural? "interval_secs" entries = some interval) :
    readDispatch form (toNode (.table entries)) =
      some (scriptPath.getD standard.scriptPath, shell.getD standard.shell,
        interval.getD standard.interval) := by
  obtain ⟨fields, hfields, hvalue⟩ :=
    exists_fields? hnames form ["script_path", "shell", "interval_secs"]
  simp only [readDispatch, hfields, withDefault_typed? (hvalue _ (by simp)) hscript,
    withDefault_typed? (hvalue _ (by simp)) hshell,
    withDefault_typed? (hvalue _ (by simp)) hinterval, bind, Option.bind, pure]

theorem readCatalogPath_table (hnames : (entries.map Prod.fst).Nodup) (form : ListRows)
    {path : Option String} (hpath : typed? Node.text? "path" entries = some path) :
    readCatalogPath form (toNode (.table entries)) = some (path.getD standard.catalogPath) := by
  obtain ⟨fields, hfields, hvalue⟩ := exists_fields? hnames form ["path"]
  simp only [readCatalogPath, hfields, withDefault_typed? (hvalue _ (by simp)) hpath, bind,
    Option.bind]

/-- The settings of a table are those of its layer, and else the standard ones. -/
theorem ofNode?_of_layer (hdistinct : t.Distinct) (hlayer : Layer.of? t = some l)
    (form : ListRows) : ofNode? form t.toNode = some l.settle := by
  obtain ⟨entries, interfaces, dispatch, catalog, rfl, hinterfaces, hdispatch, hcatalog, houtside,
    hinside, hscript, hshell, hinterval, hpath⟩ := Layer.of?_eq_some_iff.1 hlayer
  have hkeyed := distinct_table_iff.1 hdistinct
  obtain ⟨fields, hfields, hvalue⟩ :=
    exists_fields? hkeyed.names form ["interfaces", "dispatch", "catalog"]
  have hread := readInterfaces_table (keyed_of_tableAt? hkeyed hinterfaces).names form houtside
    hinside
  have hreadDispatch := readDispatch_table (keyed_of_tableAt? hkeyed hdispatch).names form hscript
    hshell hinterval
  have hreadCatalog := readCatalogPath_table (keyed_of_tableAt? hkeyed hcatalog).names form hpath
  simp only [ofNode?, hfields,
    withDefault_tableAt? (hvalue _ (by simp)) hinterfaces hread rfl,
    withDefault_tableAt? (hvalue _ (by simp)) hdispatch hreadDispatch rfl,
    withDefault_tableAt? (hvalue _ (by simp)) hcatalog hreadCatalog rfl, bind, Option.bind, pure]
  rfl

end reading

section loading

variable {files : Files.Tree} {path platform : String} {environment : Environment}

/-- The layer of an environment, in which each variable goes over those before it. Every setting in
it has its type. -/
def Layer.ofEnvironment? (environment : Environment) : Option Layer :=
  environment.foldlM
    (fun below (entry, raw) =>
      match settingPath? entry with
      | some path => (Layer.of? (nested (variableValue raw) path)).map (·.onto below)
      | none => some below)
    .empty

theorem ofEnvironment_append_singleton (environment : Environment) (v : String × String) :
    ofEnvironment (environment ++ [v]) =
      match settingPath? v.1 with
      | some path => (ofEnvironment environment).overlay (nested (variableValue v.2) path)
      | none => ofEnvironment environment := by
  rw [ofEnvironment, List.foldl_append]
  rfl

theorem Layer.ofEnvironment?_append_singleton (environment : Environment) (v : String × String) :
    Layer.ofEnvironment? (environment ++ [v]) =
      (Layer.ofEnvironment? environment).bind fun below =>
        match settingPath? v.1 with
        | some path => (Layer.of? (nested (variableValue v.2) path)).map (·.onto below)
        | none => some below := by
  rw [Layer.ofEnvironment?, List.foldlM_append]
  simp only [List.foldlM_cons, List.foldlM_nil, bind_pure]
  rfl

/-- Variables that go over one another are layers that go over one another. -/
theorem Layer.of?_ofEnvironment (h : Layer.ofEnvironment? environment = some high) :
    (ofEnvironment environment).Distinct ∧ Layer.of? (ofEnvironment environment) = some high := by
  induction environment using List.reverseRecOn generalizing high with
  | nil =>
    cases h
    exact ⟨distinct_table_iff.2 (keyed_nil _), rfl⟩
  | append_singleton earlier v ih =>
    rw [Layer.ofEnvironment?_append_singleton] at h
    obtain ⟨below, hbelow, h⟩ := Option.bind_eq_some_iff.1 h
    obtain ⟨hdistinct, hearlier⟩ := ih hbelow
    rw [ofEnvironment_append_singleton]
    cases hpath : settingPath? v.1 with
    | none =>
      rw [hpath] at h
      cases h
      exact ⟨hdistinct, hearlier⟩
    | some path =>
      rw [hpath] at h
      obtain ⟨above, habove, rfl⟩ := Option.map_eq_some_iff.1 h
      have hvariable := distinct_nested (distinct_variableValue v.2) path
      exact ⟨hdistinct.overlay hvariable, Layer.of?_overlay hearlier hvariable habove⟩

theorem distinct_of_readTable? (h : readTable? files path = some t) : t.Distinct := by
  unfold readTable? at h
  split at h
  · obtain ⟨text, -, hread⟩ := Option.bind_eq_some_iff.1 h
    exact distinct_of_read? hread
  · cases h
    exact distinct_table_iff.2 (keyed_nil _)

/-- Settings are loaded from the layer of their file and the layer of the environment over it. -/
theorem load_of_layers {config : Option String}
    (hthere : ∀ path, config = some path → files.exists? path = true)
    (hfile : (readTable? files (config.getD platform)).bind Layer.of? = some low)
    (henvironment : Layer.ofEnvironment? environment = some high) :
    load files platform environment config = .ok (high.onto low).settle := by
  obtain ⟨table, htable, hlow⟩ := Option.bind_eq_some_iff.1 hfile
  obtain ⟨hdistinct, hhigh⟩ := Layer.of?_ofEnvironment henvironment
  have hlayers : ofLayers? table environment = some (high.onto low).settle :=
    ofNode?_of_layer ((distinct_of_readTable? htable).overlay hdistinct)
      (Layer.of?_overlay hlow hdistinct hhigh) .loose
  have hread : readLayers files (config.getD platform) environment =
      .ok (high.onto low).settle := by
    simp only [readLayers, htable, Option.bind, hlayers]
  cases config with
  | none => exact hread
  | some path => rw [load, if_pos (hthere path rfl)]; exact hread

end loading

end Settings

end TrafficWarden

import Mathlib.Data.Option.Basic
import TrafficWarden.Command.Run
import TrafficWarden.Proofs.SettingsLayers

/-!
# Settings in effect

Each setting in effect is that of the command line, or else that of the environment, or else that of
the file, or else the standard one. A command has its settings exactly if those in effect are valid,
whatever has been overridden.
-/

namespace TrafficWarden

section validity

/-- A name that an interface can have. -/
structure IsInterfaceName (name : String) : Prop where
  nonempty : name ≠ ""
  short : name.utf8ByteSize ≤ interfaceNameLimit
  plain : ∀ c ∈ name.toList, Text.isBlank c = false ∧ c ≠ '/'

theorem interfaceComplaint?_eq_none_iff {name : String} :
    interfaceComplaint? name = none ↔ IsInterfaceName name := by
  unfold interfaceComplaint?
  constructor
  · intro h
    split at h
    · cases h
    · split at h
      · cases h
      · split at h
        · cases h
        · rename_i hempty hlong hany
          refine ⟨hempty, Nat.le_of_not_lt hlong, fun c hc => ?_⟩
          simpa using (List.any_eq_false.1 (Bool.eq_false_iff.2 hany)) c hc
  · rintro ⟨hempty, hshort, hplain⟩
    have hany : (name.toList.any fun c => Text.isBlank c || c == '/') = false := by
      rw [List.any_eq_false]
      intro c hc
      simp [hplain c hc]
    rw [if_neg hempty, if_neg (Nat.not_lt_of_le hshort), hany]
    rfl

namespace Settings

variable {s : Settings}

/-- Settings that a command can run with. -/
structure IsValid (s : Settings) : Prop where
  outside : IsInterfaceName s.interfaces.outside
  inside : IsInterfaceName s.interfaces.inside
  different : s.interfaces.outside ≠ s.interfaces.inside
  interval : 1 ≤ s.interval.toNat
  scriptPath : s.scriptPath ≠ ""
  shell : s.shell ≠ ""

theorem fault?_eq_none_iff : s.fault? = none ↔ s.IsValid := by
  simp only [fault?, Option.orElse_eq_none, Option.map_eq_none_iff,
    interfaceComplaint?_eq_none_iff, ite_eq_right_iff, reduceCtorEq, imp_false]
  constructor
  · rintro ⟨houtside, hinside, hdifferent, hinterval, hscript, hshell⟩
    refine ⟨houtside, hinside, hdifferent, ?_, hscript, hshell⟩
    exact Nat.pos_of_ne_zero fun hzero => hinterval (UInt64.toNat_inj.1 hzero)
  · rintro ⟨houtside, hinside, hdifferent, hinterval, hscript, hshell⟩
    refine ⟨houtside, hinside, hdifferent, fun hzero => ?_, hscript, hshell⟩
    rw [hzero] at hinterval
    exact absurd hinterval (by decide)

/-- Every fault of settings names the one that is refused. -/
theorem exists_of_fault? {f : SettingsFault} (h : s.fault? = some f) :
    ∃ setting reason, f = .invalid setting reason := by
  simp only [fault?, Option.orElse_eq_some, Option.map_eq_some_iff,
    Option.ite_none_right_eq_some, Option.some.injEq] at h
  rcases h with ⟨_, -, rfl⟩ | ⟨-, ⟨_, -, rfl⟩ | ⟨-, ⟨-, rfl⟩ | ⟨-, ⟨-, rfl⟩ | ⟨-, ⟨-, rfl⟩ |
    ⟨-, -, rfl⟩⟩⟩⟩⟩
  all_goals exact ⟨_, _, rfl⟩

theorem validate_of_isValid (h : s.IsValid) : s.validate = .ok s := by
  rw [validate, fault?_eq_none_iff.2 h]

theorem validate_of_not_isValid (h : ¬ s.IsValid) :
    ∃ setting reason, s.validate = .error (.invalid setting reason) := by
  cases hfault : s.fault? with
  | none => exact absurd (fault?_eq_none_iff.1 hfault) h
  | some f =>
    obtain ⟨setting, reason, rfl⟩ := exists_of_fault? hfault
    exact ⟨setting, reason, by rw [validate, hfault]⟩

end Settings

end validity

section flags

open Settings

/-- The layer of the settings that a command line has. -/
def Options.layer (o : Options) : Layer :=
  ⟨o.outside, o.inside, o.script, none, none, o.catalog⟩

theorem Options.override_settle (o : Options) (l : Layer) :
    o.override l.settle = (o.layer.onto l).settle := by
  obtain ⟨config, catalog, script, outside, inside, _⟩ := o
  cases catalog <;> cases script <;> cases outside <;> cases inside <;> rfl

variable {o : Options} {site : Site} {low high : Layer}

/-- The settings of a command are found setting by setting, and they are checked afterwards. -/
theorem settings_by_layer (o : Options) (site : Site)
    (hthere : ∀ path, o.config = some path → site.files.exists? path = true)
    (hfile : (readTable? site.files (o.settingsPath site)).bind Layer.of? = some low)
    (henvironment : Layer.ofEnvironment? site.environment = some high) :
    let s := (o.layer.onto (high.onto low)).settle
    o.settings site = .ok s ∧ (∀ r, o.validSettings site = .ok r ↔ r = s ∧ s.IsValid) ∧
      (¬ s.IsValid → ∃ setting reason,
        o.validSettings site = .error (.settings (.invalid setting reason))) := by
  intro s
  have hsettings : o.settings site = .ok s := by
    rw [Options.settings, load_of_layers hthere hfile henvironment]
    exact congrArg Except.ok (o.override_settle _)
  have hvalid : o.validSettings site = s.validate.mapError .settings := by
    rw [Options.validSettings, hsettings]
    rfl
  by_cases h : s.IsValid
  · rw [hvalid, validate_of_isValid h]
    refine ⟨hsettings, fun r => ⟨fun heq => ?_, fun ⟨heq, _⟩ => heq ▸ rfl⟩, absurd h⟩
    exact ⟨(Except.ok.inj heq).symm, h⟩
  · obtain ⟨setting, reason, hfault⟩ := validate_of_not_isValid h
    rw [hvalid, hfault]
    refine ⟨hsettings, fun r => ⟨fun heq => ?_, fun ⟨_, hok⟩ => absurd hok h⟩, fun _ => ?_⟩
    · cases heq
    · exact ⟨setting, reason, rfl⟩

/-- What the file and the environment say of the name inside and of the interval is not valid, but
it is overridden. -/
theorem settings_by_layer_of_overridden_faults :
    let text :=
      "[interfaces]\noutside = \"ppp0\"\ninside = \"no name\"\n[dispatch]\ninterval_secs = 0\n"
    let files := (Files.Tree.empty .epoch).put ["netcop.toml"] (.file ⟨text, 0o644, .epoch⟩)
    let site : Site := ⟨files, "platform.toml",
      [("NETCOP_INTERFACES__INSIDE", "a/b"), ("NETCOP_DISPATCH__INTERVAL_SECS", "30")],
      .epoch, false⟩
    let o : Options :=
      ⟨some "netcop.toml", none, none, none, some "br-lan", .plain, .never, 0, false, false⟩
    let low : Layer := { Layer.empty with
      outside := some "ppp0", inside := some "no name", interval := some 0 }
    let high : Layer := { Layer.empty with inside := some "a/b", interval := some 30 }
    let s : Settings := { standard with interfaces := ⟨"ppp0", "br-lan"⟩, interval := 30 }
    (∀ path, o.config = some path → site.files.exists? path = true) ∧
      (readTable? site.files (o.settingsPath site)).bind Layer.of? = some low ∧
      Layer.ofEnvironment? site.environment = some high ∧
      s.IsValid ∧ o.validSettings site = .ok s := by
  intro text files site o low high s
  have hthere : ∀ path, o.config = some path → site.files.exists? path = true := by
    rintro path ⟨⟩
    decide +kernel
  have hfile : (readTable? site.files (o.settingsPath site)).bind Layer.of? = some low := by
    decide +kernel
  have henvironment : Layer.ofEnvironment? site.environment = some high := by decide +kernel
  have hvalid : s.IsValid := fault?_eq_none_iff.1 (by decide +kernel)
  have hsettings := settings_by_layer o site hthere hfile henvironment
  exact ⟨hthere, hfile, henvironment, hvalid, (hsettings.2.1 s).2 ⟨rfl, hvalid⟩⟩

end flags

end TrafficWarden

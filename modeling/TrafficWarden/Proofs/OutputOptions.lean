import TrafficWarden.Command.Run
import TrafficWarden.Proofs.CatalogStore
import TrafficWarden.Proofs.JsonForms
import TrafficWarden.Proofs.QuietLines
import TrafficWarden.Proofs.RowNumbers

/-!
# Output options

The format of what is printed, and the wish that the program be quiet, change what is printed and
nothing else. They are read apart from the rest of a command line, and a command runs without them.
-/

namespace TrafficWarden

open Hushable

/-- What came of a command when nothing of it is printed. -/
def Outcome.silent (o : Outcome) : Outcome := { o with output := "" }

/-- The same options, but for what is printed. -/
def Options.printing (o : Options) (output : OutputFormat) (quiet : Bool) : Options :=
  { o with output := output, quiet := quiet }

/-- The same request, but for what is printed. -/
def Request.printing (r : Request) (output : OutputFormat) (quiet : Bool) : Request :=
  { r with options := r.options.printing output quiet }

section reading

variable {environment : Settings.Environment} {defaults : OptionVariables} {hushed : Bool}
variable {words words' before after : List String} {word : String} {r r' : Request}

/-- What is read of all levels. -/
def readLevels (environment : Settings.Environment) (words : List String) :
    Except Stop (Level × Given) :=
  readLevel (.ofEnvironment environment) (.start .program) words

/-- The request of the levels that were read. -/
def Request.ofLevels (defaults : OptionVariables) (p : Level × Given) : Except Stop Request :=
  return ⟨.ofGiven defaults p.2, ← p.1.verb p.2⟩

theorem Request.read_eq (environment : Settings.Environment) (words : List String) :
    Request.read environment words =
      (readLevels environment words >>= ofLevels (.ofEnvironment environment)) := rfl

theorem Request.options_ofLevels {p : Level × Given} (h : ofLevels defaults p = .ok r) :
    r.options = .ofGiven defaults p.2 := by
  obtain ⟨verb, -, hr⟩ := bind_eq_ok_iff.mp h
  cases hr
  rfl

/-- Levels that are alike lead to the same request, but for what is printed. -/
theorem Request.ofLevels_of_alike (defaults : OptionVariables) {p p' : Level × Given}
    (h : Hushable.Alike hushed p p') :
    ∃ output, (hushed = true → output = (Options.ofGiven defaults p.2).output) ∧
      ofLevels defaults p' =
        (ofLevels defaults p).map fun r => r.printing output (isQuiet p || hushed) := by
  obtain ⟨lowest, given⟩ := p
  obtain ⟨lowest', given'⟩ := p'
  obtain ⟨hlowest, output, -, hsame, hgiven⟩ := h
  obtain rfl : lowest' = lowest := hlowest
  obtain rfl : given' = { given with output := output, quiet := given.quiet || hushed } := hgiven
  have hverb : lowest'.verb { given with output := output, quiet := given.quiet || hushed } =
      lowest'.verb given := by cases lowest' <;> rfl
  refine ⟨(Options.ofGiven defaults { given with output := output }).output, ?_, ?_⟩
  · intro hushed
    rw [hsame hushed]
  · change (lowest'.verb _ >>= _) = Except.map _ (lowest'.verb given >>= _)
    rw [hverb]
    cases lowest'.verb given <;> rfl

/-- With other formats the same is asked for, or the command line is wrong in the same way. -/
theorem Reformatted.read (h : Reformatted words words') (environment : Settings.Environment) :
    ∃ output, Request.read environment words' = (Request.read environment words).map fun r =>
      r.printing output r.options.quiet := by
  have hfollows : Follows false (readLevels environment words) (readLevels environment words') :=
    h.readLevel (.refl (.start .program)) rfl
  rw [Request.read_eq, Request.read_eq]
  generalize readLevels environment words = x, readLevels environment words' = x' at hfollows
  cases hfollows with
  | stop hstop =>
    rw [hstop rfl]
    exact ⟨.table, rfl⟩
  | refused hfalse => exact absurd hfalse (by decide)
  | @ok p p' hp =>
    obtain ⟨output, -, hrequest⟩ :=
      Request.ofLevels_of_alike (.ofEnvironment environment) hp
    refine ⟨output, ?_⟩
    change Request.ofLevels _ p' = Except.map _ (Request.ofLevels _ p)
    rw [hrequest]
    cases hr : Request.ofLevels (.ofEnvironment environment) p with
    | error s => rfl
    | ok r =>
      have hquiet : r.options.quiet = isQuiet p := by
        rw [Request.options_ofLevels hr]
        rfl
      simp [Except.map, hquiet]

/-- With a word more that asks to be quiet the same is asked for, but quietly. -/
theorem Request.read_of_quietWord (hword : QuietWord word) (hbefore : "--" ∉ before)
    (h : Request.read environment (before ++ word :: after) = .ok r') :
    ∃ r, Request.read environment (before ++ after) = .ok r ∧
      r' = r.printing r.options.output true := by
  rw [Request.read_eq] at h
  obtain ⟨p', hp', hr'⟩ := bind_eq_ok_iff.mp h
  obtain ⟨p, hp, halike⟩ := readLevel_of_quietWord hword hbefore rfl hp'
  obtain ⟨output, houtput, hrequest⟩ := ofLevels_of_alike (.ofEnvironment environment) halike
  rw [hrequest] at hr'
  cases hr : ofLevels (.ofEnvironment environment) p with
  | error s =>
    rw [hr] at hr'
    cases hr'
  | ok r =>
    rw [hr] at hr'
    refine ⟨r, bind_eq_ok_iff.mpr ⟨p, hp, hr⟩, ?_⟩
    rw [options_ofLevels hr, ← houtput rfl]
    simpa [Except.map] using hr'.symm

/-- A request that is not quiet may be made quiet in front of all words, and after each word that
does not begin with a dash. -/
theorem Request.exists_read_of_quietWord (hword : QuietWord word) (hbefore : "--" ∉ before)
    (hlast : ∀ last ∈ before.getLast?, last.toList.head? ≠ some '-')
    (h : Request.read environment (before ++ after) = .ok r) (hquiet : r.options.quiet = false) :
    ∃ r', Request.read environment (before ++ word :: after) = .ok r' := by
  rw [Request.read_eq] at h
  obtain ⟨p, hp, hr⟩ := bind_eq_ok_iff.mp h
  have hp_quiet : isQuiet p = false := by
    rw [options_ofLevels hr] at hquiet
    exact hquiet
  obtain ⟨p', hp'⟩ := exists_readLevel_of_quietWord hword hbefore rfl
    (fun _ => Reading.isDue_start .program) (fun last hmem => Word.exists_plain (hlast last hmem))
    hp hp_quiet
  obtain ⟨p₀, hp₀, halike⟩ := readLevel_of_quietWord hword hbefore rfl hp'
  obtain rfl := Except.ok.inj (hp.symm.trans hp₀)
  obtain ⟨output, -, hrequest⟩ := ofLevels_of_alike (.ofEnvironment environment) halike
  rw [hr] at hrequest
  exact ⟨_, bind_eq_ok_iff.mpr ⟨p', hp', hrequest⟩⟩

end reading

section running

variable {site : Site} {r : Request}

/-- What a command does has nothing to do with what is printed. -/
theorem Verb.run_printing (v : Verb) (site : Site) (o : Options) (output : OutputFormat)
    (quiet : Bool) : v.run site (o.printing output quiet) = v.run site o := by
  cases v <;> rfl

theorem Request.run_of_ok {report : Report} (h : (r.verb.run site r.options).report = .ok report) :
    r.run site = ⟨0, r.options.print site report, none, (r.verb.run site r.options).files,
      (r.verb.run site r.options).warnings⟩ := by
  simp [Request.run, h]

theorem Request.run_of_error {fault : CommandFault}
    (h : (r.verb.run site r.options).report = .error fault) :
    r.run site = ⟨fault.exitCode, "", some fault, (r.verb.run site r.options).files,
      (r.verb.run site r.options).warnings⟩ := by
  simp [Request.run, h]

theorem Request.silent_run_printing (r : Request) (site : Site) (output : OutputFormat)
    (quiet : Bool) : ((r.printing output quiet).run site).silent = (r.run site).silent := by
  have hresult : (r.printing output quiet).verb.run site (r.printing output quiet).options =
      r.verb.run site r.options := r.verb.run_printing site r.options output quiet
  cases h : (r.verb.run site r.options).report with
  | ok report =>
    rw [run_of_ok h, run_of_ok (hresult ▸ h), hresult]
    rfl
  | error fault =>
    rw [run_of_error h, run_of_error (hresult ▸ h), hresult]

/-- A quiet program prints nothing. -/
theorem Request.silent_run_of_quiet (hquiet : r.options.quiet = true) :
    (r.run site).silent = r.run site := by
  cases h : (r.verb.run site r.options).report with
  | ok report =>
    rw [run_of_ok h]
    simp [Outcome.silent, Options.print, hquiet]
  | error fault =>
    rw [run_of_error h]
    rfl

end running

section listing

variable {site : Site} {o : Options} {ps : List Policy}

/-- The numbers of a catalog that was read fit in 64 bits, in whichever format it was. -/
theorem Catalog.fits_of_read? {format : CatalogFormat} {text : String} {c : Catalog}
    (h : Catalog.read? format text = some c) : c.Fits := by
  cases format with
  | json =>
    obtain ⟨j, -, hj⟩ := Option.bind_eq_some_iff.mp h
    exact fits_of_ofNode? hj
  | toml =>
    obtain ⟨v, -, hv⟩ := Option.bind_eq_some_iff.mp h
    exact fits_of_ofNode? hv
  | yaml =>
    obtain ⟨document, -, hdocument⟩ := Option.bind_eq_some_iff.mp h
    cases document with
    | none => exact fits_of_ofNode? hdocument
    | some document => exact fits_of_ofNode? hdocument

theorem Catalog.fits_of_load {files : Files.Tree} {path : String} {c : Catalog}
    (h : Catalog.load files path = .ok c) : c.Fits := by
  unfold Catalog.load at h
  split at h
  · cases h
  · split at h
    · cases h
    · unfold Catalog.parse at h
      split at h
      · rename_i hread
        cases h
        exact fits_of_read? hread
      · cases h

/-- The identities of policies that were loaded fit in 64 bits. -/
theorem fitsWord_of_load {files : Files.Tree} {path : String} {store : Store}
    {warnings : List Warning} (h : Store.load files path = (.ok store, warnings)) {p : Policy}
    (hp : p ∈ store.policies) : Json.FitsWord p.id.value := by
  unfold Store.load at h
  split at h
  · cases h
  · rename_i c hc
    obtain rfl : c.toStore.1 = store := Except.ok.inj (Prod.mk.inj h).1
    obtain ⟨row, hlast, -⟩ := Catalog.mem_policies_toStore.mp hp
    obtain ⟨hrow, hid⟩ := hlast.mem
    have hfits := (Catalog.fits_of_load hc).policies row (List.mem_of_mem_filter hrow)
    rw [← hid]
    exact Json.fitsWord_of_admits (allFit_cons.mp hfits).1

theorem faithful_capJson (cap : Option UInt32) : (capJson cap).Faithful := by
  apply Json.faithful_ofOption
  intro n _
  have hlt := n.toNat_lt
  rw [Json.nat, Json.faithful_integer_iff, Json.FitsWord]
  omega

theorem Policy.faithful_toJson {p : Policy} (h : Json.FitsWord p.id.value) :
    p.toJson.Faithful := by
  have hwindow (w : TimeWindow) : w.toJson.Faithful := by simp [TimeWindow.toJson]
  have hpriority : (Json.ofOption (fun t => .string t.name) p.priority).Faithful :=
    Json.faithful_ofOption fun t _ => .string t.name
  simp [Policy.toJson, Policy.members, EntityId.toJson, h, hwindow, hpriority, faithful_capJson,
    Json.faithful_text]

/-- A listing shows policies that were loaded. -/
theorem Verb.run_listPolicies_eq_ok {active : Bool} {moment : Option String} {report : Report}
    (h : ((Verb.listPolicies active moment).run site o).report = .ok report) :
    ∃ ps, report = .policies ps ∧ ∀ p ∈ ps, Json.FitsWord p.id.value := by
  unfold Verb.run at h
  dsimp only at h
  split at h
  · cases h
  · rename_i settings _
    unfold Verb.runWithCatalog withStore at h
    dsimp only at h
    split at h
    · cases h
    · rename_i store warnings hload
      obtain ⟨t, -, hlisting⟩ := bind_eq_ok_iff.mp h
      obtain ⟨policies, hpolicies, hreport⟩ := bind_eq_ok_iff.mp hlisting
      obtain rfl : store.policies = policies := Except.ok.inj (mapError_eq_ok_iff.mp hpolicies)
      cases hreport
      exact ⟨_, rfl, fun p hp => fitsWord_of_load hload (List.mem_of_mem_filter hp)⟩

/-- Lines that are joined, and the end of the last one. -/
theorem joinLines_append {lines : List String} (hne : lines ≠ []) :
    joinLines lines ++ "\n" = String.join (lines.map (· ++ "\n")) := by
  induction lines with
  | nil => exact absurd rfl hne
  | cons line lines ih =>
    cases lines with
    | nil => simp [joinLines]
    | cons next lines =>
      have hrest := ih (List.cons_ne_nil next lines)
      rw [List.map_cons, String.join_cons, ← hrest, joinLines, joinLines,
        String.intercalate_cons_cons, String.append_assoc]

theorem EntityId.text_ne_empty (id : EntityId) : id.text ≠ "" := by
  intro h
  obtain ⟨c, cs, hcs, -⟩ := Json.exists_toString_cons id.value
  rw [EntityId.text] at h
  rw [h] at hcs
  cases hcs

theorem Options.print_of_ne_empty {report : Report} (hquiet : o.quiet = false)
    (h : report.render (o.style site) ≠ "") :
    o.print site report = report.render (o.style site) ++ "\n" := by
  simp [Options.print, hquiet, h]

/-- A listing in the plain format has one identity on each line. -/
theorem Options.print_policies_plain (hquiet : o.quiet = false) (hformat : o.output = .plain) :
    o.print site (.policies ps) = String.join ((ps.map (·.id.text)).map (· ++ "\n")) := by
  have hrender : (Report.policies ps).render (o.style site) = joinLines (ps.map (·.id.text)) := by
    simp [Report.render, Options.style, hformat, Report.plain]
  cases ps with
  | nil => simp [Options.print, hrender, joinLines]
  | cons p ps =>
    have hlines : joinLines ((p :: ps).map (·.id.text)) ≠ "" := by
      cases ps with
      | nil => simpa [joinLines] using p.id.text_ne_empty
      | cons q ps => simp [joinLines, String.intercalate_cons_cons]
    rw [print_of_ne_empty hquiet (hrender ▸ hlines), hrender, joinLines_append (by simp)]

/-- A listing as JSON is read as the records of its policies. -/
theorem Options.read?_print_policies (hquiet : o.quiet = false)
    (hformat : o.output = .json ∨ o.output = .jsonCompact)
    (hfits : ∀ p ∈ ps, Json.FitsWord p.id.value) :
    Json.read? (o.print site (.policies ps)) = some (.array (ps.map Policy.toJson)) := by
  have hfaithful : Json.Faithful (.array (ps.map Policy.toJson)) :=
    .array (List.forall_mem_map.mpr fun p hp => Policy.faithful_toJson (hfits p hp))
  have hread (after : String) (ha : Json.IsGap after.toList) :
      Json.read? ((Report.policies ps).render (o.style site) ++ after) =
        some (.array (ps.map Policy.toJson)) := by
    rcases hformat with hformat | hformat
    · simp [Report.render, Options.style, hformat, Report.record, Report.toJson,
        Json.read?_indented_append hfaithful ha]
    · simp [Report.render, Options.style, hformat, Report.record, Report.toJson,
        Json.read?_compact_append hfaithful ha]
  have hne : (Report.policies ps).render (o.style site) ≠ "" := by
    intro hempty
    have hnone := hread "" Json.isGap_nil
    rw [hempty] at hnone
    cases hnone
  rw [print_of_ne_empty hquiet hne]
  exact hread "\n" (Json.isGap_break 0)

/-- The identities of a listing: each on a line of the plain text, and in the records of the JSON
text in the same order. -/
def ListsIdentities (plain json : String) : Prop :=
  ∃ (ids : List EntityId) (records : List Json),
    plain = String.join (ids.map fun id => id.text ++ "\n") ∧
      Json.read? json = some (.array records) ∧
      records.map (·.get? "id") = ids.map fun id => some (.integer id.value)

theorem Request.listsIdentities {r : Request} {active : Bool} {moment : Option String}
    {format : OutputFormat} (hverb : r.verb = .listPolicies active moment)
    (hquiet : r.options.quiet = false) (hplain : r.options.output = .plain)
    (hformat : format = .json ∨ format = .jsonCompact) (hfault : (r.run site).fault = none) :
    ListsIdentities (r.run site).output ((r.printing format false).run site).output := by
  cases h : (r.verb.run site r.options).report with
  | error fault =>
    rw [run_of_error h] at hfault
    cases hfault
  | ok report =>
    have h' : ((r.printing format false).verb.run site (r.printing format false).options).report =
        .ok report := by
      rw [← h]
      exact congrArg Result.report (r.verb.run_printing site r.options format false)
    rw [run_of_ok h, run_of_ok h']
    rw [hverb] at h
    obtain ⟨ps, rfl, hfits⟩ := Verb.run_listPolicies_eq_ok h
    refine ⟨ps.map (·.id), ps.map Policy.toJson, ?_, ?_, ?_⟩
    · simpa [Function.comp_def] using Options.print_policies_plain hquiet hplain
    · exact Options.read?_print_policies rfl hformat hfits
    · rw [List.map_map, List.map_map]
      rfl

end listing

/-- Other formats change nothing but what is printed, whether a command line is accepted or not. A
word more that asks to be quiet changes nothing but that nothing is printed; it is accepted in front
of all words and after each word that does not begin with a dash, if the program is not quiet
anyway. A listing has the same identities in the plain format and as JSON. -/
theorem output_options_change_output_only (site : Site) :
    (∀ words words', Reformatted words words' →
      (runProgram site words').map Outcome.silent = (runProgram site words).map Outcome.silent) ∧
    (∀ before word after, QuietWord word → "--" ∉ before →
      (∀ o', runProgram site (before ++ word :: after) = .ok o' →
        ∃ o, runProgram site (before ++ after) = .ok o ∧ o' = o.silent) ∧
      (∀ r, Request.read site.environment (before ++ after) = .ok r → r.options.quiet = false →
        (∀ last ∈ before.getLast?, last.toList.head? ≠ some '-') →
        ∃ o', runProgram site (before ++ word :: after) = .ok o')) ∧
    (∀ r : Request, r.options.quiet = true → (r.run site).output = "") ∧
    (∀ words words' r r' active moment, Reformatted words words' →
      Request.read site.environment words = .ok r →
      Request.read site.environment words' = .ok r' →
      r.verb = .listPolicies active moment → r.options.quiet = false →
      r.options.output = .plain →
      r'.options.output = .json ∨ r'.options.output = .jsonCompact →
      (r.run site).fault = none → ListsIdentities (r.run site).output (r'.run site).output) := by
  refine ⟨?_, ?_, ?_, ?_⟩
  · intro words words' h
    obtain ⟨output, hread⟩ := h.read site.environment
    rw [runProgram, runProgram, hread]
    cases Request.read site.environment words with
    | error s => rfl
    | ok r => exact congrArg Except.ok (r.silent_run_printing site output r.options.quiet)
  · intro before word after hword hbefore
    constructor
    · intro o' ho'
      obtain ⟨r', hr', rfl⟩ := map_eq_ok_iff.mp ho'
      obtain ⟨r, hr, rfl⟩ := Request.read_of_quietWord hword hbefore hr'
      refine ⟨r.run site, map_eq_ok_iff.mpr ⟨r, hr, rfl⟩, ?_⟩
      rw [← r.silent_run_printing site r.options.output true, Request.silent_run_of_quiet rfl]
    · intro r hr hquiet hlast
      obtain ⟨r', hr'⟩ := Request.exists_read_of_quietWord hword hbefore hlast hr hquiet
      exact ⟨_, map_eq_ok_iff.mpr ⟨r', hr', rfl⟩⟩
  · intro r hquiet
    rw [← Request.silent_run_of_quiet hquiet]
    rfl
  · intro words words' r r' active moment hwords hr hr' hverb hquiet hplain hformat hfault
    obtain ⟨output, hread⟩ := hwords.read site.environment
    rw [hr, hr'] at hread
    have hr'_eq : r' = r.printing output false := by
      rw [← hquiet]
      exact Except.ok.inj hread
    subst hr'_eq
    exact Request.listsIdentities hverb hquiet hplain hformat hfault

section listing

open Calendar

/-- A working directory with a catalog of two policies. -/
def listingSite : Site where
  files := (Files.Tree.empty .epoch).put ["catalog.json"] (.file ⟨
    "\x7b\"policies\":[\x7b\"id\":2,\"name\":\"late\"\x7d,\x7b\"id\":1,\"name\":\"early\"\x7d]\x7d",
    0, .epoch⟩)
  platform := "settings.toml"
  environment := [("NETCOP_CATALOG__PATH", "catalog.json")]
  now := .epoch
  colored := false

def listingRequest (format : OutputFormat) : Request :=
  ⟨⟨none, none, none, none, none, format, .auto, 0, false, false⟩, .listPolicies false none⟩

theorem output_options_change_output_only_of_listing :
    Reformatted ["policies", "list", "-o", "plain"] ["policies", "list", "-o", "json"] ∧
      (runProgram listingSite ["policies", "list", "-o", "json"]).map Outcome.silent =
        (runProgram listingSite ["policies", "list", "-o", "plain"]).map Outcome.silent ∧
      ((listingRequest .plain).run listingSite).output = "2\n1\n" ∧
      ListsIdentities ((listingRequest .plain).run listingSite).output
        ((listingRequest .json).run listingSite).output ∧
      runProgram listingSite ["policies", "-q", "list", "-o", "plain"] =
        .ok ((listingRequest .plain).run listingSite).silent := by
  have hwords : Reformatted ["policies", "list", "-o", "plain"]
      ["policies", "list", "-o", "json"] := by
    apply Reformatted.same (by decide)
    apply Reformatted.same (by decide)
    exact .next (.letters fun _ h => absurd h List.not_mem_nil) .plain .json (.refl [])
  have hread : Request.read listingSite.environment ["policies", "list", "-o", "plain"] =
      .ok (listingRequest .plain) := by decide
  have hread' : Request.read listingSite.environment ["policies", "list", "-o", "json"] =
      .ok (listingRequest .json) := by decide
  have hfault : ((listingRequest .plain).run listingSite).fault = none := by decide +kernel
  obtain ⟨hformats, hquiet, -, hlisting⟩ := output_options_change_output_only listingSite
  refine ⟨hwords, hformats _ _ hwords, by decide +kernel, ?_, ?_⟩
  · exact hlisting _ _ _ _ false none hwords hread hread' rfl rfl rfl (.inl rfl) hfault
  · obtain ⟨hsilent, haccepted⟩ := hquiet ["policies"] "-q" ["list", "-o", "plain"] (.inl rfl)
      (by decide)
    obtain ⟨o', ho'⟩ := haccepted (listingRequest .plain) hread rfl (by decide)
    obtain ⟨o, ho, rfl⟩ := hsilent o' ho'
    obtain rfl : (listingRequest .plain).run listingSite = o := by
      simpa [runProgram, hread, Except.map] using ho
    exact ho'

end listing

end TrafficWarden

import Mathlib.Data.List.Nodup
import TrafficWarden.Toml.Reader

/-!
# Names in tables that are read

In a table of a document that is read, no name occurs twice, however deep the table is in the
document and in whichever way it is written.
-/

namespace TrafficWarden.Toml

/-- Entries with names of their own and values of a kind. -/
structure Keyed {α : Type} (P : α → Prop) (entries : List (String × α)) : Prop where
  names : (entries.map Prod.fst).Nodup
  values : ∀ e ∈ entries, P e.2

/-- A value in whose tables no name occurs twice. -/
inductive Distinct : Toml → Prop
  | string (s : String) : Distinct (.string s)
  | integer (n : Int) : Distinct (.integer n)
  | float (text : String) : Distinct (.float text)
  | bool (b : Bool) : Distinct (.bool b)
  | datetime (text : String) : Distinct (.datetime text)
  | array {items : List Toml} (h : ∀ v ∈ items, Distinct v) : Distinct (.array items)
  | table {entries : List (String × Toml)} (hnames : (entries.map Prod.fst).Nodup)
    (hvalues : ∀ e ∈ entries, Distinct e.2) : Distinct (.table entries)

theorem distinct_table_iff {entries : List (String × Toml)} :
    Distinct (.table entries) ↔ Keyed Distinct entries := by
  constructor
  · rintro ⟨⟩
    constructor <;> assumption
  · exact fun h => .table h.names h.values

theorem keyed_nil {α : Type} (P : α → Prop) : Keyed P ([] : List (String × α)) :=
  ⟨List.nodup_nil, fun _ h => absurd h List.not_mem_nil⟩

namespace Draft

/-- A document that is being read, in whose tables no name occurs twice. -/
inductive Distinct : Draft → Prop
  | value {v : Toml} (h : v.Distinct) : Distinct (.value v)
  | table (origin : TableOrigin) {entries : List (String × Draft)}
    (hnames : (entries.map Prod.fst).Nodup) (hvalues : ∀ e ∈ entries, Distinct e.2) :
    Distinct (.table origin entries)
  | tables {newestFirst : List (List (String × Draft))}
    (hnames : ∀ entries ∈ newestFirst, (entries.map Prod.fst).Nodup)
    (hvalues : ∀ entries ∈ newestFirst, ∀ e ∈ entries, Distinct e.2) :
    Distinct (.tables newestFirst)

variable {name : String} {path : List String} {origin here : TableOrigin}
variable {entries next : List (String × Draft)}

theorem distinct_table_iff :
    (Draft.table origin entries).Distinct ↔ Keyed Distinct entries := by
  constructor
  · rintro ⟨⟩
    constructor <;> assumption
  · exact fun h => .table origin h.names h.values

theorem distinct_tables_iff {newestFirst : List (List (String × Draft))} :
    (Draft.tables newestFirst).Distinct ↔ ∀ entries ∈ newestFirst, Keyed Distinct entries := by
  constructor
  · rintro ⟨⟩ entries h
    rename_i hnames hvalues
    exact ⟨hnames entries h, hvalues entries h⟩
  · exact fun h => .tables (fun entries he => (h entries he).names)
      fun entries he => (h entries he).values

section changes

variable {change : Option Draft → Option Draft}

theorem mem_names_alterEntry (h : alterEntry name change entries = some next) (other : String) :
    other ∈ next.map Prod.fst ↔ other = name ∨ other ∈ entries.map Prod.fst := by
  induction entries generalizing next with
  | nil =>
    simp only [alterEntry, Option.map_eq_some_iff] at h
    obtain ⟨d, -, rfl⟩ := h
    simp
  | cons e entries ih =>
    simp only [alterEntry] at h
    split at h
    · rename_i heq
      obtain ⟨d, -, rfl⟩ := Option.map_eq_some_iff.1 h
      simp [heq]
    · obtain ⟨tail, htail, rfl⟩ := Option.map_eq_some_iff.1 h
      rw [List.map_cons, List.mem_cons, ih htail, List.map_cons, List.mem_cons]
      exact or_left_comm

/-- A change of one entry leaves the names different. -/
theorem keyed_alterEntry (hentries : Keyed Distinct entries)
    (hchange : ∀ old d, (∀ d, old = some d → d.Distinct) → change old = some d → d.Distinct)
    (h : alterEntry name change entries = some next) : Keyed Distinct next := by
  induction entries generalizing next with
  | nil =>
    simp only [alterEntry, Option.map_eq_some_iff] at h
    obtain ⟨d, hd, rfl⟩ := h
    have hdistinct := hchange none d (fun _ hold => nomatch hold) hd
    exact ⟨by simp, by simpa using hdistinct⟩
  | cons e entries ih =>
    obtain ⟨hnames, hvalues⟩ := hentries
    rw [List.map_cons, List.nodup_cons] at hnames
    rw [List.forall_mem_cons] at hvalues
    simp only [alterEntry] at h
    split at h
    · rename_i heq
      obtain ⟨d, hd, rfl⟩ := Option.map_eq_some_iff.1 h
      have hdistinct := hchange (some e.2) d
        (fun old hold => Option.some.inj hold ▸ hvalues.1) hd
      refine ⟨?_, List.forall_mem_cons.2 ⟨hdistinct, hvalues.2⟩⟩
      rw [List.map_cons, List.nodup_cons]
      exact heq ▸ hnames
    · rename_i hne
      obtain ⟨tail, htail, rfl⟩ := Option.map_eq_some_iff.1 h
      have hkeyed := ih ⟨hnames.2, hvalues.2⟩ htail
      refine ⟨?_, List.forall_mem_cons.2 ⟨hvalues.1, hkeyed.values⟩⟩
      rw [List.map_cons, List.nodup_cons, mem_names_alterEntry htail, not_or]
      exact ⟨⟨hne, hnames.1⟩, hkeyed.names⟩

end changes

/-- A change within tables that leaves names different leaves them different in the whole. -/
theorem keyed_alter
    {change : TableOrigin → List (String × Draft) → Option (List (String × Draft))}
    (hchange : ∀ here entries next, Keyed Distinct entries → change here entries = some next →
      Keyed Distinct next)
    (hentries : Keyed Distinct entries) (h : alter origin change path here entries = some next) :
    Keyed Distinct next := by
  induction path generalizing here entries next with
  | nil => exact hchange here entries next hentries h
  | cons name path ih =>
    refine keyed_alterEntry hentries (fun old d hold hd => ?_) h
    split at hd
    · obtain ⟨inner, hinner, rfl⟩ := Option.map_eq_some_iff.1 hd
      exact distinct_table_iff.2 (ih (keyed_nil _) hinner)
    · cases hd
    · rename_i child inner
      split at hd
      · cases hd
      · obtain ⟨changed, hchanged, rfl⟩ := Option.map_eq_some_iff.1 hd
        exact distinct_table_iff.2 (ih (distinct_table_iff.1 (hold _ rfl)) hchanged)
    · cases hd
    · rename_i newest earlier
      obtain ⟨changed, hchanged, rfl⟩ := Option.map_eq_some_iff.1 hd
      have htables := distinct_tables_iff.1 (hold _ rfl)
      rw [List.forall_mem_cons] at htables
      exact distinct_tables_iff.2 (List.forall_mem_cons.2 ⟨ih htables.1 hchanged, htables.2⟩)

theorem toEntries_eq_map (entries : List (String × Draft)) :
    toEntries entries = entries.map fun e => (e.1, e.2.toToml) := by
  induction entries with
  | nil => rfl
  | cons e entries ih => rw [toEntries, ih, List.map_cons]

theorem toItems_eq_map (tables : List (List (String × Draft))) :
    toItems tables = tables.map fun entries => Toml.table (toEntries entries) := by
  induction tables with
  | nil => rfl
  | cons entries tables ih => rw [toItems, ih, List.map_cons]

theorem keyed_toEntries {P : Draft → Prop} (hentries : Keyed P entries)
    (h : ∀ e ∈ entries, e.2.toToml.Distinct) : Keyed Toml.Distinct (toEntries entries) := by
  rw [toEntries_eq_map]
  refine ⟨?_, ?_⟩
  · rw [List.map_map]
    exact hentries.names
  · rw [List.forall_mem_map]
    exact h

theorem Distinct.toToml {d : Draft} (h : d.Distinct) : d.toToml.Distinct := by
  induction h with
  | value h => exact h
  | table origin hnames hvalues ih =>
    exact Toml.distinct_table_iff.2 (keyed_toEntries ⟨hnames, hvalues⟩ ih)
  | tables hnames hvalues ih =>
    refine .array fun v hv => ?_
    rw [List.mem_reverse, toItems_eq_map, List.mem_map] at hv
    obtain ⟨entries, hentries, rfl⟩ := hv
    exact Toml.distinct_table_iff.2
      (keyed_toEntries ⟨hnames entries hentries, hvalues entries hentries⟩ (ih entries hentries))

end Draft

/-- A statement that assigns no value with a name twice. -/
def Statement.Distinct : Statement → Prop
  | .assign _ _ v => v.Distinct
  | _ => True

namespace Draft

theorem Document.keyed_add {d next : Draft.Document} {statement : Statement}
    (hd : Keyed Distinct d.entries) (hstatement : statement.Distinct)
    (h : d.add statement = some next) : Keyed Distinct next.entries := by
  cases statement with
  | assign path name v =>
    obtain ⟨entries, hentries, rfl⟩ := Option.map_eq_some_iff.1 h
    refine keyed_alter (fun here entries next hkeyed hnext => ?_) hd hentries
    refine keyed_alter (fun here entries next hkeyed hnext => ?_) hkeyed hnext
    split at hnext
    · cases hnext
    · refine keyed_alterEntry hkeyed (fun old new _ hnew => ?_) hnext
      split at hnew
      · cases hnew
        exact .value hstatement
      · cases hnew
  | table path name =>
    obtain ⟨entries, hentries, rfl⟩ := Option.map_eq_some_iff.1 h
    refine keyed_alter (fun here entries next hkeyed hnext => ?_) hd hentries
    refine keyed_alterEntry hkeyed (fun old new hold hnew => ?_) hnext
    split at hnew
    · cases hnew
      exact distinct_table_iff.2 (keyed_nil _)
    · cases hnew
      exact distinct_table_iff.2 (distinct_table_iff.1 (hold _ rfl))
    · cases hnew
  | tables path name =>
    obtain ⟨entries, hentries, rfl⟩ := Option.map_eq_some_iff.1 h
    refine keyed_alter (fun here entries next hkeyed hnext => ?_) hd hentries
    refine keyed_alterEntry hkeyed (fun old new hold hnew => ?_) hnext
    split at hnew
    · cases hnew
      exact distinct_tables_iff.2 (by simpa using keyed_nil _)
    · cases hnew
      exact distinct_tables_iff.2
        (List.forall_mem_cons.2 ⟨keyed_nil _, distinct_tables_iff.1 (hold _ rfl)⟩)
    · cases hnew

end Draft

theorem keyed_foldlM_add {statements : List Statement} {d last : Draft.Document}
    (hstatements : ∀ s ∈ statements, s.Distinct) (hd : Keyed Draft.Distinct d.entries)
    (h : statements.foldlM Draft.Document.add d = some last) :
    Keyed Draft.Distinct last.entries := by
  induction statements generalizing d with
  | nil => exact Option.some.inj h ▸ hd
  | cons statement statements ih =>
    rw [List.forall_mem_cons] at hstatements
    obtain ⟨next, hnext, hrest⟩ := Option.bind_eq_some_iff.1 h
    exact ih hstatements.2 (Draft.Document.keyed_add hd hstatements.1 hnext) hrest

/-- Statements whose values have no name twice describe a table that has none twice. -/
theorem distinct_of_ofStatements? {statements : List Statement} {v : Toml}
    (hstatements : ∀ s ∈ statements, s.Distinct) (h : ofStatements? statements = some v) :
    v.Distinct := by
  obtain ⟨last, hlast, rfl⟩ := Option.map_eq_some_iff.1 h
  have hkeyed := keyed_foldlM_add hstatements (keyed_nil _) hlast
  exact distinct_table_iff.2
    (Draft.keyed_toEntries hkeyed fun e he => (hkeyed.values e he).toToml)

section reading

variable {value : Step Toml} {cs rest : List Char} {v : Toml}

/-- A reader whose values have no name twice. -/
def Step.Distinct (value : Step Toml) : Prop :=
  ∀ ⦃cs v rest⦄, value cs = some (v, rest) → v.Distinct

theorem distinct_of_readItems (hvalue : value.Distinct) {fuel : Nat} {items : List Toml}
    (h : readItems value fuel cs = some (items, rest)) : ∀ v ∈ items, v.Distinct := by
  induction fuel generalizing cs items with
  | zero => cases h
  | succ fuel ih =>
    rw [readItems] at h
    split at h
    · cases h
      simp
    · obtain ⟨⟨item, after⟩, hitem, h⟩ := Option.bind_eq_some_iff.1 h
      have hfirst := hvalue hitem
      dsimp only at h
      split at h
      · cases h
        simpa using hfirst
      · obtain ⟨⟨tail, _⟩, htail, h⟩ := Option.bind_eq_some_iff.1 h
        cases h
        exact List.forall_mem_cons.2 ⟨hfirst, ih htail⟩
      · cases h

theorem distinct_of_readAssignment (hvalue : value.Distinct) {statement : Statement}
    (h : readAssignment value cs = some (statement, rest)) : statement.Distinct := by
  obtain ⟨⟨_, after⟩, -, h⟩ := Option.bind_eq_some_iff.1 h
  dsimp only at h
  split at h
  · obtain ⟨⟨v, _⟩, hv, h⟩ := Option.bind_eq_some_iff.1 h
    cases h
    exact hvalue hv
  · cases h

theorem distinct_of_readMembers (hvalue : value.Distinct) {fuel : Nat} {members : List Statement}
    (h : readMembers value fuel cs = some (members, rest)) : ∀ s ∈ members, s.Distinct := by
  induction fuel generalizing cs members with
  | zero => cases h
  | succ fuel ih =>
    obtain ⟨⟨member, after⟩, hmember, h⟩ := Option.bind_eq_some_iff.1 h
    have hfirst := distinct_of_readAssignment hvalue hmember
    dsimp only at h
    split at h
    · cases h
      simpa using hfirst
    · obtain ⟨⟨tail, _⟩, htail, h⟩ := Option.bind_eq_some_iff.1 h
      cases h
      exact List.forall_mem_cons.2 ⟨hfirst, ih htail⟩
    · cases h

theorem distinct_of_readInlineTable (hvalue : value.Distinct)
    (h : readInlineTable value cs = some (v, rest)) : v.Distinct := by
  unfold readInlineTable at h
  split at h
  · cases h
    exact distinct_table_iff.2 (keyed_nil _)
  · obtain ⟨⟨members, after⟩, hmembers, h⟩ := Option.bind_eq_some_iff.1 h
    obtain ⟨table, htable, h⟩ := Option.bind_eq_some_iff.1 h
    cases h
    exact distinct_of_ofStatements? (distinct_of_readMembers hvalue hmembers) htable

theorem distinct_of_float? {sign whole fraction after : List Char}
    {exponent : List Char × List Char}
    (h : (do return (← float? sign whole fraction exponent, after)) = some (v, rest)) :
    v.Distinct := by
  obtain ⟨float, hfloat, h⟩ := Option.bind_eq_some_iff.1 h
  cases h
  simp only [float?] at hfloat
  split at hfloat
  · cases hfloat
  · cases hfloat
    exact .float _

theorem distinct_of_readFloat (h : readFloat cs = some (v, rest)) : v.Distinct := by
  simp only [readFloat] at h
  split at h
  · cases h
    exact .float _
  · cases h
    exact .float _
  · obtain ⟨⟨whole, after⟩, -, h⟩ := Option.bind_eq_some_iff.1 h
    dsimp only at h
    split at h
    · obtain ⟨⟨fraction, after⟩, -, h⟩ := Option.bind_eq_some_iff.1 h
      dsimp only at h
      split at h
      · obtain ⟨⟨exponent, after⟩, -, h⟩ := Option.bind_eq_some_iff.1 h
        exact distinct_of_float? h
      · obtain ⟨⟨exponent, after⟩, -, h⟩ := Option.bind_eq_some_iff.1 h
        exact distinct_of_float? h
      · exact distinct_of_float? h
    · obtain ⟨⟨exponent, after⟩, -, h⟩ := Option.bind_eq_some_iff.1 h
      exact distinct_of_float? h

theorem distinct_of_readRadix {radix : Nat} {ok : Char → Bool}
    (h : readRadix radix ok cs = some (v, rest)) : v.Distinct := by
  obtain ⟨⟨digits, after⟩, -, h⟩ := Option.bind_eq_some_iff.1 h
  obtain ⟨n, -, h⟩ := Option.bind_eq_some_iff.1 h
  cases h
  exact .integer _

theorem distinct_of_readInteger (h : readInteger cs = some (v, rest)) : v.Distinct := by
  unfold readInteger at h
  split at h
  · exact distinct_of_readRadix h
  · exact distinct_of_readRadix h
  · exact distinct_of_readRadix h
  · obtain ⟨⟨digits, after⟩, -, h⟩ := Option.bind_eq_some_iff.1 h
    obtain ⟨n, -, h⟩ := Option.bind_eq_some_iff.1 h
    cases h
    exact .integer _

theorem distinct_of_readNumber (h : readNumber cs = some (v, rest)) : v.Distinct := by
  unfold readNumber at h
  cases hdate : readDatetime cs with
  | some found =>
    rw [hdate] at h
    obtain rfl := Option.some.inj h
    obtain ⟨after, -, hfound⟩ := Option.bind_eq_some_iff.1 hdate
    cases hfound
    exact .datetime _
  | none =>
    rw [hdate] at h
    cases hfloat : readFloat cs with
    | some found =>
      rw [hfloat] at h
      obtain rfl := Option.some.inj h
      exact distinct_of_readFloat hfloat
    | none =>
      rw [hfloat] at h
      exact distinct_of_readInteger h

theorem distinct_readValue_of_below {depth : Nat}
    (hbelow : ∀ below, depth = below + 1 → Step.Distinct (readValue below)) :
    Step.Distinct (readValue depth) := by
  intro cs v rest h
  unfold readValue at h
  split at h
  · obtain ⟨_, -, h⟩ := Option.map_eq_some_iff.1 h
    cases h
    exact .string _
  · obtain ⟨_, -, h⟩ := Option.map_eq_some_iff.1 h
    cases h
    exact .string _
  · obtain ⟨⟨items, after⟩, hitems, h⟩ := Option.bind_eq_some_iff.1 h
    cases h
    exact .array (distinct_of_readItems (hbelow _ rfl) hitems)
  · exact distinct_of_readInlineTable (hbelow _ rfl) h
  · cases h
    exact .bool _
  · cases h
    exact .bool _
  · exact distinct_of_readNumber h

theorem distinct_readValue (depth : Nat) : Step.Distinct (readValue depth) := by
  induction depth with
  | zero => exact distinct_readValue_of_below fun below h => nomatch h
  | succ depth ih => exact distinct_readValue_of_below fun below h => Nat.succ.inj h ▸ ih

theorem distinct_of_readStatement {statement : Statement}
    (h : readStatement cs = some (statement, rest)) : statement.Distinct := by
  unfold readStatement at h
  split at h
  · obtain ⟨⟨_, after⟩, -, h⟩ := Option.bind_eq_some_iff.1 h
    dsimp only at h
    split at h
    · cases h
      trivial
    · cases h
  · obtain ⟨⟨_, after⟩, -, h⟩ := Option.bind_eq_some_iff.1 h
    dsimp only at h
    split at h
    · cases h
      trivial
    · cases h
  · exact distinct_of_readAssignment (distinct_readValue _) h

theorem distinct_of_readStatements {fuel : Nat} {statements : List Statement}
    (h : readStatements fuel cs = some statements) : ∀ s ∈ statements, s.Distinct := by
  induction fuel generalizing cs statements with
  | zero => cases h
  | succ fuel ih =>
    rw [readStatements] at h
    split at h
    · cases h
      simp
    · split at h
      · cases h
        simp
      · obtain ⟨after, -, h⟩ := Option.bind_eq_some_iff.1 h
        exact ih h
    · split at h
      · exact ih h
      · obtain ⟨⟨statement, after⟩, hstatement, h⟩ := Option.bind_eq_some_iff.1 h
        obtain ⟨after, -, h⟩ := Option.bind_eq_some_iff.1 h
        obtain ⟨tail, htail, h⟩ := Option.bind_eq_some_iff.1 h
        cases h
        exact List.forall_mem_cons.2 ⟨distinct_of_readStatement hstatement, ih htail⟩

/-- No name occurs twice in a table of a document that is read. -/
theorem distinct_of_read? {text : String} (h : read? text = some v) : v.Distinct := by
  obtain ⟨statements, hstatements, htable⟩ := Option.bind_eq_some_iff.1 h
  exact distinct_of_ofStatements? (distinct_of_readStatements hstatements) htable

end reading

end TrafficWarden.Toml

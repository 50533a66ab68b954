import TrafficWarden.Proofs.JsonForms
import TrafficWarden.Proofs.RecordEdits
import TrafficWarden.Proofs.RowNumbers

/-!
# Documents of catalogs

A catalog is read back from its document, and from every document that is got from it by leaving out
fields that have their defaults and tables that are empty, and by adding unknown fields.
-/

namespace TrafficWarden

open Node Fields
open Text (Bounds)

section rows

/-- The members of a row and what they are edited to: those in a list of defaults may be left out,
and members of unknown names may be added. -/
inductive RowEdits (defaults : List (String × Json)) : Json → Json → Prop
  | object {members edited}
      (h : Json.Edits (members.map (·.1)) (· ∈ defaults) (fun _ v w => w = v) members edited) :
      RowEdits defaults (.object members) (.object edited)

variable {defaults members : List (String × Json)} {d : Json} {fields : Fields}
variable {m : String × Json} {α : Type} {read : Node → Option α} {a : α}

/-- The field of a member is the member's value, or the member is a default and there is no such
field. -/
def Fields.GivesRow (defaults : List (String × Json)) (fields : Fields) (m : String × Json) :
    Prop :=
  Gives (· ∈ defaults) (fun _ v w => w = v) fields m

theorem RowEdits.exists_fields? (h : RowEdits defaults (.object members) d)
    (hnodup : (members.map (·.1)).Nodup) (form : ListRows) :
    ∃ fields, d.toNode.fields? form (members.map (·.1)) = some fields ∧
      ∀ m ∈ members, GivesRow defaults fields m := by
  cases h with
  | object h => exact h.exists_fields? hnodup form

theorem Fields.GivesRow.required (h : GivesRow defaults fields m) (hdefault : m ∉ defaults)
    (hread : read m.2.toNode = some a) : required read m.1 fields = some a :=
  required_of_gives h hdefault fun _ hw => hw ▸ hread

theorem Fields.GivesRow.withDefault (h : GivesRow defaults fields m) (default : α)
    (hdefault : m ∈ defaults → a = default) (hread : read m.2.toNode = some a) :
    withDefault default read m.1 fields = some a :=
  withDefault_of_gives h (fun hm => (hdefault hm).symm) fun _ hw => hw ▸ hread

end rows

section values

theorem integer?_toNode {n : Int} (h : Bounds.int64.admits n = true) :
    integer? (Json.integer n).toNode = some n := by
  simp [Json.toNode, integer?, h]

theorem text?_toNode (s : String) : text? (Json.string s).toNode = some s := rfl

theorem bool?_toNode (b : Bool) : bool? (Json.bool b).toNode = some b := rfl

@[simp] theorem ofOption_eq_null_iff {α : Type} {f : α → Json} (hf : ∀ a, f a ≠ .null)
    {o : Option α} : Json.ofOption f o = .null ↔ o = none := by
  cases o <;> simp [Json.ofOption, hf]

theorem nullable_text?_toNode (o : Option String) :
    nullable? text? (Json.ofOption .string o).toNode = some o := by
  cases o <;> rfl

theorem nullable_integer?_toNode {o : Option Int} (h : AllFit o.toList) :
    nullable? integer? (Json.ofOption .integer o).toNode = some o := by
  cases o with
  | none => rfl
  | some n =>
    have hn := h n List.mem_cons_self
    simp [Json.ofOption, Json.toNode, nullable?, integer?, Scalar.foreign, hn]

end values

namespace Catalog

/-- The fields that may be missing in the rows of a table, with their documented defaults. -/
def documentedDefaults : String → List (String × Json)
  | "traffic_classes" =>
    [("description", .string ""), ("kind", .integer 0), ("enabled", .bool true)]
  | "cidrs" => [("prefix", .integer 0)]
  | "ports" => [("protocol", .integer 0)]
  | "class_cidrs" => [("group", .string "o")]
  | "class_ports" => [("group", .string "o")]
  | "policies" => [("description", .null), ("enabled", .bool true), ("priority", .null),
    ("upload", .null), ("download", .null)]
  | "targets" => [("class_id", .null), ("role", .string "d"), ("mac", .null)]
  | _ => []

section rows

variable {d : Json}

theorem readClass_edited {r : ClassRow} (hr : AllFit r.integers)
    (h : RowEdits (documentedDefaults "traffic_classes") r.toJson d) :
    readClass .exact d.toNode = some r := by
  obtain ⟨f, hf, hgives⟩ := h.exists_fields? (by simp) .exact
  simp only [List.map_cons, List.map_nil] at hf
  simp only [List.forall_mem_cons, documentedDefaults] at hgives
  obtain ⟨hid, hname, hdescription, hkind, henabled, -⟩ := hgives
  have hid := hid.required (by simp) (integer?_toNode (hr r.id (by simp)))
  have hname := hname.required (by simp) (text?_toNode r.name)
  have hdescription := hdescription.withDefault "" (by simp) (text?_toNode r.description)
  have hkind := hkind.withDefault 0 (by simp) (integer?_toNode (hr r.kind (by simp)))
  have henabled := henabled.withDefault true (by simp) (bool?_toNode r.enabled)
  simp [readClass, hf, hid, hname, hdescription, hkind, henabled]

theorem readCidr_edited {r : CidrRow} (hr : AllFit r.integers)
    (h : RowEdits (documentedDefaults "cidrs") r.toJson d) :
    readCidr .exact d.toNode = some r := by
  obtain ⟨f, hf, hgives⟩ := h.exists_fields? (by simp) .exact
  simp only [List.map_cons, List.map_nil] at hf
  simp only [List.forall_mem_cons, documentedDefaults] at hgives
  obtain ⟨hid, haddress, hlength, -⟩ := hgives
  have hid := hid.required (by simp) (integer?_toNode (hr r.id (by simp)))
  have haddress := haddress.required (by simp) (text?_toNode r.address)
  have hlength := hlength.withDefault 0 (by simp) (integer?_toNode (hr r.length (by simp)))
  simp [readCidr, hf, hid, haddress, hlength]

theorem readPort_edited {r : PortRow} (hr : AllFit r.integers)
    (h : RowEdits (documentedDefaults "ports") r.toJson d) :
    readPort .exact d.toNode = some r := by
  obtain ⟨f, hf, hgives⟩ := h.exists_fields? (by simp) .exact
  simp only [List.map_cons, List.map_nil] at hf
  simp only [List.forall_mem_cons, documentedDefaults] at hgives
  obtain ⟨hid, hnumber, hprotocol, -⟩ := hgives
  have hid := hid.required (by simp) (integer?_toNode (hr r.id (by simp)))
  have hnumber := hnumber.required (by simp) (integer?_toNode (hr r.number (by simp)))
  have hprotocol := hprotocol.withDefault 0 (by simp) (integer?_toNode (hr r.protocol (by simp)))
  simp [readPort, hf, hid, hnumber, hprotocol]

theorem readClassCidr_edited {r : ClassCidrRow} (hr : AllFit r.integers)
    (h : RowEdits (documentedDefaults "class_cidrs") r.toJson d) :
    readClassCidr .exact d.toNode = some r := by
  obtain ⟨f, hf, hgives⟩ := h.exists_fields? (by simp) .exact
  simp only [List.map_cons, List.map_nil] at hf
  simp only [List.forall_mem_cons, documentedDefaults] at hgives
  obtain ⟨hclass, hcidr, hgroup, -⟩ := hgives
  have hclass := hclass.required (by simp) (integer?_toNode (hr r.trafficClass (by simp)))
  have hcidr := hcidr.required (by simp) (integer?_toNode (hr r.cidr (by simp)))
  have hgroup := hgroup.withDefault "o" (by simp) (text?_toNode r.group)
  simp [readClassCidr, hf, hclass, hcidr, hgroup]

theorem readClassPort_edited {r : ClassPortRow} (hr : AllFit r.integers)
    (h : RowEdits (documentedDefaults "class_ports") r.toJson d) :
    readClassPort .exact d.toNode = some r := by
  obtain ⟨f, hf, hgives⟩ := h.exists_fields? (by simp) .exact
  simp only [List.map_cons, List.map_nil] at hf
  simp only [List.forall_mem_cons, documentedDefaults] at hgives
  obtain ⟨hclass, hport, hgroup, -⟩ := hgives
  have hclass := hclass.required (by simp) (integer?_toNode (hr r.trafficClass (by simp)))
  have hport := hport.required (by simp) (integer?_toNode (hr r.port (by simp)))
  have hgroup := hgroup.withDefault "o" (by simp) (text?_toNode r.group)
  simp [readClassPort, hf, hclass, hport, hgroup]

theorem readPolicy_edited {r : PolicyRow} (hr : AllFit r.integers)
    (h : RowEdits (documentedDefaults "policies") r.toJson d) :
    readPolicy .exact d.toNode = some r := by
  simp only [PolicyRow.integers, allFit_cons, allFit_append] at hr
  obtain ⟨hfit, ⟨hfitPriority, hfitUpload⟩, hfitDownload⟩ := hr
  obtain ⟨f, hf, hgives⟩ := h.exists_fields? (by simp) .exact
  simp only [List.map_cons, List.map_nil] at hf
  simp only [List.forall_mem_cons, documentedDefaults] at hgives
  obtain ⟨hid, hname, hdescription, henabled, hpriority, hupload, hdownload, -⟩ := hgives
  have hid := hid.required (by simp) (integer?_toNode hfit)
  have hname := hname.required (by simp) (text?_toNode r.name)
  have hdescription := hdescription.withDefault none (by simp) (nullable_text?_toNode r.description)
  have henabled := henabled.withDefault true (by simp) (bool?_toNode r.enabled)
  have hpriority := hpriority.withDefault none (by simp) (nullable_integer?_toNode hfitPriority)
  have hupload := hupload.withDefault none (by simp) (nullable_integer?_toNode hfitUpload)
  have hdownload := hdownload.withDefault none (by simp) (nullable_integer?_toNode hfitDownload)
  simp [readPolicy, hf, hid, hname, hdescription, henabled, hpriority, hupload, hdownload]

theorem readTarget_edited {r : TargetRow} (hr : AllFit r.integers)
    (h : RowEdits (documentedDefaults "targets") r.toJson d) :
    readTarget .exact d.toNode = some r := by
  simp only [TargetRow.integers, allFit_cons] at hr
  obtain ⟨hfit, hfitPolicy, hfitClass⟩ := hr
  obtain ⟨f, hf, hgives⟩ := h.exists_fields? (by simp) .exact
  simp only [List.map_cons, List.map_nil] at hf
  simp only [List.forall_mem_cons, documentedDefaults] at hgives
  obtain ⟨hid, hpolicy, hclass, hrole, hmac, -⟩ := hgives
  have hid := hid.required (by simp) (integer?_toNode hfit)
  have hpolicy := hpolicy.required (by simp) (integer?_toNode hfitPolicy)
  have hclass := hclass.withDefault none (by simp) (nullable_integer?_toNode hfitClass)
  have hrole := hrole.withDefault "d" (by simp) (text?_toNode r.role)
  have hmac := hmac.withDefault none (by simp) (nullable_text?_toNode r.mac)
  simp [readTarget, hf, hid, hpolicy, hclass, hrole, hmac]

theorem readWindow_edited {r : WindowRow} (hr : AllFit r.integers)
    (h : RowEdits (documentedDefaults "time_windows") r.toJson d) :
    readWindow .exact d.toNode = some r := by
  obtain ⟨f, hf, hgives⟩ := h.exists_fields? (by simp) .exact
  simp only [List.map_cons, List.map_nil] at hf
  simp only [List.forall_mem_cons, documentedDefaults] at hgives
  obtain ⟨hid, hpolicy, hweekday, hstart, hstop, -⟩ := hgives
  have hid := hid.required (by simp) (integer?_toNode (hr r.id (by simp)))
  have hpolicy := hpolicy.required (by simp) (integer?_toNode (hr r.policy (by simp)))
  have hweekday := hweekday.required (by simp) (integer?_toNode (hr r.weekday (by simp)))
  have hstart := hstart.required (by simp) (text?_toNode r.start)
  have hstop := hstop.required (by simp) (text?_toNode r.stop)
  simp [readWindow, hf, hid, hpolicy, hweekday, hstart, hstop]

end rows

/-- A table and what it is edited to, row by row. -/
inductive TableEdits (name : String) : Json → Json → Prop
  | array {rows edited} (h : List.Forall₂ (RowEdits (documentedDefaults name)) rows edited) :
      TableEdits name (.array rows) (.array edited)

/-- A document and what it is edited to: tables that are empty may be left out, the others are
edited row by row, and members of unknown names may be added. -/
inductive DocumentEdits : Json → Json → Prop
  | object {members edited}
      (h : Json.Edits (members.map (·.1)) (·.2 = .array []) TableEdits members edited) :
      DocumentEdits (.object members) (.object edited)

section tables

variable {α : Type} {name : String} {toJson : α → Json} {read : Node → Option α} {rows : List α}

theorem mapM_edited {edited : List Json}
    (h : List.Forall₂ (RowEdits (documentedDefaults name)) (rows.map toJson) edited)
    (hread : ∀ r ∈ rows, ∀ d, RowEdits (documentedDefaults name) (toJson r) d →
      read d.toNode = some r) :
    (edited.map Json.toNode).mapM read = some rows := by
  induction rows generalizing edited with
  | nil =>
    cases h
    rfl
  | cons r rows ih =>
    obtain ⟨hr, hrows⟩ := List.forall_mem_cons.mp hread
    obtain ⟨d, edited, hd, htail, rfl⟩ := List.forall₂_cons_left_iff.mp h
    rw [List.map_cons, List.mapM_cons, hr d hd, ih htail hrows]
    rfl

/-- A table is read with its rows if every row is read back. -/
theorem withDefault_edited {fields : Fields}
    (h : Gives (·.2 = .array []) TableEdits fields (name, .array (rows.map toJson)))
    (hread : ∀ r ∈ rows, ∀ d, RowEdits (documentedDefaults name) (toJson r) d →
      read d.toNode = some r) :
    withDefault [] (readRows read) name fields = some rows := by
  apply withDefault_of_gives h
  · intro hempty
    have hnil : rows = [] := by simpa using hempty
    exact hnil.symm
  · intro d hd
    cases hd with
    | array hrows =>
      rw [Json.toNode, Json.toNodes_eq_map, readRows, list?, Option.bind_eq_bind, Option.bind_some]
      exact mapM_edited hrows hread

end tables

section documents

variable {c : Catalog} {d : Json}

theorem ofJson?_edited (hc : c.Fits) (h : DocumentEdits c.toJson d) : ofJson? d = some c := by
  cases h with
  | object h =>
    obtain ⟨f, hf, hgives⟩ := h.exists_fields? (by simp) .exact
    simp only [List.map_cons, List.map_nil] at hf
    simp only [List.forall_mem_cons] at hgives
    obtain ⟨hclasses, hcidrs, hports, hclassCidrs, hclassPorts, hpolicies, htargets, hwindows, -⟩ :=
      hgives
    have hclasses := withDefault_edited hclasses fun r hr _ => readClass_edited (hc.classes r hr)
    have hcidrs := withDefault_edited hcidrs fun r hr _ => readCidr_edited (hc.cidrs r hr)
    have hports := withDefault_edited hports fun r hr _ => readPort_edited (hc.ports r hr)
    have hclassCidrs := withDefault_edited hclassCidrs fun r hr _ =>
      readClassCidr_edited (hc.classCidrs r hr)
    have hclassPorts := withDefault_edited hclassPorts fun r hr _ =>
      readClassPort_edited (hc.classPorts r hr)
    have hpolicies := withDefault_edited hpolicies fun r hr _ =>
      readPolicy_edited (hc.policies r hr)
    have htargets := withDefault_edited htargets fun r hr _ => readTarget_edited (hc.targets r hr)
    have hwindows := withDefault_edited hwindows fun r hr _ => readWindow_edited (hc.windows r hr)
    simp [ofJson?, ofNode?, hf, hclasses, hcidrs, hports, hclassCidrs, hclassPorts, hpolicies,
      htargets, hwindows]

/-- The document itself is one of those it can be edited to. -/
theorem documentEdits_refl (c : Catalog) : DocumentEdits c.toJson c.toJson := by
  have hrows : ∀ {α : Type} (name : String) (members : α → List (String × Json)) (rows : List α),
      TableEdits name (.array (rows.map fun r => .object (members r)))
        (.array (rows.map fun r => .object (members r))) := by
    intro α name members rows
    apply TableEdits.array
    rw [List.forall₂_map_left_iff, List.forall₂_map_right_iff, List.forall₂_same]
    exact fun r _ => .object (.refl fun _ _ => rfl)
  apply DocumentEdits.object
  apply Json.Edits.refl
  simp only [List.forall_mem_cons]
  exact ⟨hrows _ _ _, hrows _ _ _, hrows _ _ _, hrows _ _ _, hrows _ _ _, hrows _ _ _, hrows _ _ _,
    hrows _ _ _, fun _ hm => absurd hm List.not_mem_nil⟩

theorem faithful_number {o : Option Int} (h : AllFit o.toList) :
    (Json.ofOption .integer o).Faithful :=
  Json.faithful_ofOption fun n hn => .integer (Json.fitsWord_of_admits (h n (by simpa using hn)))

/-- The texts of a document denote it, as no number in it is too large. -/
theorem faithful_toJson (hc : c.Fits) : c.toJson.Faithful := by
  have hrows : ∀ {α : Type} {toJson : α → Json} {integers : α → List Int} {rows : List α},
      (∀ r ∈ rows, AllFit (integers r)) → (∀ r, AllFit (integers r) → (toJson r).Faithful) →
      (Json.array (rows.map toJson)).Faithful := by
    intro α toJson integers rows hfit h
    exact .array (List.forall_mem_map.mpr fun r hr => h r (hfit r hr))
  apply Json.Faithful.object
  simp only [List.forall_mem_cons]
  refine ⟨hrows hc.classes ?_, hrows hc.cidrs ?_, hrows hc.ports ?_, hrows hc.classCidrs ?_,
    hrows hc.classPorts ?_, hrows hc.policies ?_, hrows hc.targets ?_, hrows hc.windows ?_,
    fun _ hm => absurd hm List.not_mem_nil⟩
  · intro r hr
    simp only [ClassRow.integers, allFit_cons] at hr
    simp [ClassRow.toJson, Json.fitsWord_of_admits, hr]
  · intro r hr
    simp only [CidrRow.integers, allFit_cons] at hr
    simp [CidrRow.toJson, Json.fitsWord_of_admits, hr]
  · intro r hr
    simp only [PortRow.integers, allFit_cons] at hr
    simp [PortRow.toJson, Json.fitsWord_of_admits, hr]
  · intro r hr
    simp only [ClassCidrRow.integers, allFit_cons] at hr
    simp [ClassCidrRow.toJson, Json.fitsWord_of_admits, hr]
  · intro r hr
    simp only [ClassPortRow.integers, allFit_cons] at hr
    simp [ClassPortRow.toJson, Json.fitsWord_of_admits, hr]
  · intro r hr
    simp only [PolicyRow.integers, allFit_cons, allFit_append] at hr
    simp [PolicyRow.toJson, Json.fitsWord_of_admits, Json.faithful_text, faithful_number, hr]
  · intro r hr
    simp only [TargetRow.integers, allFit_cons] at hr
    simp [TargetRow.toJson, Json.fitsWord_of_admits, Json.faithful_text, faithful_number, hr]
  · intro r hr
    simp only [WindowRow.integers, allFit_cons] at hr
    simp [WindowRow.toJson, Json.fitsWord_of_admits, hr]

/-- The catalogs whose numbers fit are those that documents are read as. -/
theorem fits_iff_exists_ofJson? : c.Fits ↔ ∃ d, ofJson? d = some c := by
  constructor
  · intro hc
    exact ⟨c.toJson, ofJson?_edited hc c.documentEdits_refl⟩
  · intro ⟨d, hd⟩
    exact fits_of_ofNode? hd

/-- A catalog is read back from its document and from the texts of it, and so it is from a document
that this one is edited to: fields that have their documented defaults are left out, tables that are
empty are left out, and unknown fields are added, in whichever rows and together or not. -/
theorem edited_documents_read_back (hc : c.Fits) :
    ofJson? c.toJson = some c ∧ readJson? c.toJson.compact = some c ∧
      readJson? c.toJson.indented = some c ∧
      ∀ d, DocumentEdits c.toJson d →
        ofJson? d = some c ∧ (∀ text, Json.read? text = some d → readJson? text = some c) ∧
          (d.Faithful → readJson? d.compact = some c ∧ readJson? d.indented = some c) := by
  have hedited : ∀ d, DocumentEdits c.toJson d → ∀ text, Json.read? text = some d →
      readJson? text = some c := by
    intro d hd text htext
    rw [readJson?, htext, Option.bind_some]
    exact ofJson?_edited hc hd
  have hself := hedited c.toJson c.documentEdits_refl
  have hfaithful := faithful_toJson hc
  refine ⟨ofJson?_edited hc c.documentEdits_refl, hself _ (Json.read?_compact hfaithful),
    hself _ (Json.read?_indented hfaithful), ?_⟩
  intro d hd
  refine ⟨ofJson?_edited hc hd, hedited d hd, ?_⟩
  intro hfaithful
  exact ⟨hedited d hd _ (Json.read?_compact hfaithful),
    hedited d hd _ (Json.read?_indented hfaithful)⟩

end documents

/-- A catalog with one policy, which has a download cap, and a target of it. -/
def homeCatalog : Catalog where
  classes := []
  cidrs := []
  ports := []
  classCidrs := []
  classPorts := []
  policies := [⟨1, "home", none, true, none, none, some 512⟩]
  targets := [⟨7, 1, none, "d", some "00:11:22:aa:bb:cc"⟩]
  windows := []

/-- The document of the catalog with little more than what must be there. -/
def homeDocument : Json := .object [
  ("policies", .array [.object [("id", .integer 1), ("name", .string "home"),
    ("download", .integer 512)]]),
  ("version", .integer 2),
  ("targets", .array [.object [("id", .integer 7), ("policy_id", .integer 1),
    ("note", .string "printer"), ("role", .string "d"), ("mac", .string "00:11:22:aa:bb:cc")]])]

theorem edited_documents_read_back_of_home :
    homeCatalog.Fits ∧ DocumentEdits homeCatalog.toJson homeDocument ∧ homeDocument.Faithful ∧
      readJson? homeCatalog.toJson.indented = some homeCatalog ∧
      readJson? homeDocument.compact = some homeCatalog := by
  have hfits : homeCatalog.Fits := by
    constructor <;> simp [homeCatalog, Bounds.admits, Bounds.int64]
  have hpolicy : RowEdits (documentedDefaults "policies")
      (PolicyRow.toJson ⟨1, "home", none, true, none, none, some 512⟩)
      (.object [("id", .integer 1), ("name", .string "home"), ("download", .integer 512)]) := by
    apply RowEdits.object
    apply Json.Edits.keep rfl
    apply Json.Edits.keep rfl
    apply Json.Edits.leaveOut (by simp [documentedDefaults, Json.ofOption])
    apply Json.Edits.leaveOut (by simp [documentedDefaults])
    apply Json.Edits.leaveOut (by simp [documentedDefaults, Json.ofOption])
    apply Json.Edits.leaveOut (by simp [documentedDefaults, Json.ofOption])
    exact .keep rfl .done
  have htarget : RowEdits (documentedDefaults "targets")
      (TargetRow.toJson ⟨7, 1, none, "d", some "00:11:22:aa:bb:cc"⟩)
      (.object [("id", .integer 7), ("policy_id", .integer 1), ("note", .string "printer"),
        ("role", .string "d"), ("mac", .string "00:11:22:aa:bb:cc")]) := by
    apply RowEdits.object
    apply Json.Edits.keep rfl
    apply Json.Edits.keep rfl
    apply Json.Edits.leaveOut (by simp [documentedDefaults, Json.ofOption])
    apply Json.Edits.add (by simp)
    exact .keep rfl (.keep rfl .done)
  have hedits : DocumentEdits homeCatalog.toJson homeDocument := by
    apply DocumentEdits.object
    apply Json.Edits.leaveOut (by rfl)
    apply Json.Edits.leaveOut (by rfl)
    apply Json.Edits.leaveOut (by rfl)
    apply Json.Edits.leaveOut (by rfl)
    apply Json.Edits.leaveOut (by rfl)
    apply Json.Edits.keep (.array (.cons hpolicy .nil))
    apply Json.Edits.add (by simp)
    apply Json.Edits.keep (.array (.cons htarget .nil))
    exact .leaveOut (by rfl) .done
  have hfaithful : homeDocument.Faithful := by
    simp [homeDocument, Json.FitsWord]
  have hback := edited_documents_read_back hfits
  exact ⟨hfits, hedits, hfaithful, hback.2.2.1, ((hback.2.2.2 _ hedits).2.2 hfaithful).1⟩

end Catalog

end TrafficWarden

import Mathlib.Data.List.Destutter
import TrafficWarden.Proofs.AcceptableRules
import TrafficWarden.Proofs.ActiveViews
import TrafficWarden.Proofs.ScriptComments

/-!
# Tables read from their text

The identities in the first column of a printed table are read from the lines of the text. A row
begins on the line that has something in its first cell, whatever texts stand in the other cells.
-/

namespace TrafficWarden

namespace Text

theorem not_mem_of_mem_splitAt {sep : Char} {cs piece : List Char} (h : piece ∈ splitAt sep cs) :
    sep ∉ piece := by
  induction cs generalizing piece with
  | nil =>
    obtain rfl := List.mem_singleton.mp h
    exact List.not_mem_nil
  | cons c cs ih =>
    obtain ⟨first, pieces, hcs⟩ := List.exists_cons_of_ne_nil (splitAt_ne_nil sep cs)
    rw [hcs] at ih
    rw [splitAt, hcs] at h
    split at h
    · rcases List.mem_cons.mp h with rfl | h
      · exact List.not_mem_nil
      · exact ih h
    · rename_i hc
      rcases List.mem_cons.mp h with rfl | h
      · rw [List.mem_cons, not_or]
        exact ⟨Ne.symm hc, ih List.mem_cons_self⟩
      · exact ih (List.mem_cons_of_mem _ h)

/-- The identity in the first cell of a line of a table. -/
def readCell : List Char → Option EntityId
  | '│' :: ' ' :: rest => EntityId.read? (rest.takeWhile (· ≠ ' '))
  | _ => none

/-- The identities in the first column of a printed table. -/
def firstColumn (text : String) : List EntityId :=
  (splitAt '\n' text.toList).filterMap readCell

/-- The identities of the blocks of a printed table. A block is made of rows that follow one another
and have the same identity. -/
def blocks (text : String) : List EntityId := (firstColumn text).destutter (· ≠ ·)

theorem exists_padLine (columns : Nat) (line : List Char) :
    ∃ tail, (padLine columns line).toList = ' ' :: (line ++ ' ' :: tail) := by
  have hspaces : ∀ n, ∃ tail, List.replicate n ' ' ++ [' '] = ' ' :: tail := fun n => by
    cases n with
    | zero => exact ⟨[], rfl⟩
    | succ n => exact ⟨_, rfl⟩
  obtain ⟨tail, htail⟩ := hspaces (columns - width line)
  refine ⟨tail, ?_⟩
  rw [← htail]
  simp [padLine]

theorem exists_intercalate (sep first : String) (rest : List String) :
    ∃ tail, (sep.intercalate (first :: rest)).toList = first.toList ++ tail := by
  cases rest with
  | nil => exact ⟨[], by simp⟩
  | cons next rest =>
    refine ⟨(sep ++ sep.intercalate (next :: rest)).toList, ?_⟩
    rw [String.intercalate_cons_cons, String.append_assoc, String.toList_append]

section row

variable (w : Nat) (ws : List Nat) (cell : String) (cells : List String)

theorem exists_rowLine (n : Nat) :
    ∃ tail, (rowLine (w :: ws) (cell :: cells) n).toList =
      '│' :: ' ' :: ((cellLines cell)[n]?.getD [] ++ ' ' :: tail) := by
  obtain ⟨tail, htail⟩ := exists_padLine w ((cellLines cell)[n]?.getD [])
  have hrow : ∃ others, rowLine (w :: ws) (cell :: cells) n =
      "│" ++ "│".intercalate (padLine w ((cellLines cell)[n]?.getD []) :: others) ++ "│" :=
    ⟨_, rfl⟩
  obtain ⟨others, hothers⟩ := hrow
  obtain ⟨more, hmore⟩ := exists_intercalate "│" (padLine w ((cellLines cell)[n]?.getD [])) others
  refine ⟨tail ++ more ++ ['│'], ?_⟩
  rw [hothers, String.toList_append, String.toList_append, hmore, htail]
  simp

variable {cell}

/-- A line of a row tells the identity in its first cell, and only the first line has one. -/
theorem readCell_rowLine (hcell : ' ' ∉ cell.toList ∧ '\n' ∉ cell.toList) (n : Nat) :
    readCell (rowLine (w :: ws) (cell :: cells) n).toList =
      if n = 0 then EntityId.read? cell.toList else none := by
  obtain ⟨tail, htail⟩ := exists_rowLine w ws cell cells n
  have hlines : cellLines cell = [cell.toList] := splitAt_of_not_mem hcell.2
  rw [htail, hlines, readCell]
  cases n with
  | zero =>
    rw [if_pos rfl]
    exact congrArg _ (Script.takeWhile_ne_append_cons hcell.1 _)
  | succ n => rfl

theorem filterMap_rowLines (hcell : ' ' ∉ cell.toList ∧ '\n' ∉ cell.toList) :
    ((rowLines (w :: ws) (cell :: cells)).map String.toList).filterMap readCell =
      (EntityId.read? cell.toList).toList := by
  have hlines : (cellLines cell).length = 1 := by
    rw [cellLines, splitAt_of_not_mem hcell.2, List.length_singleton]
  have hheight : 1 ≤ ((cell :: cells).map fun cell => (cellLines cell).length).foldl max 0 := by
    rw [List.map_cons, List.foldl_cons, hlines, List.foldl_max]
    exact le_max_left _ _
  obtain ⟨k, hk⟩ := Nat.exists_eq_add_of_le' hheight
  have hrest : (List.range k).filterMap
      (fun n => readCell (rowLine (w :: ws) (cell :: cells) (n + 1)).toList) = [] :=
    List.filterMap_eq_nil_iff.mpr fun n _ => readCell_rowLine w ws cells hcell (n + 1)
  have hfirst := readCell_rowLine w ws cells hcell 0
  rw [if_pos rfl] at hfirst
  rw [rowLines, hk, List.map_map, List.filterMap_map, List.range_succ_eq_map, List.filterMap_cons,
    List.filterMap_map]
  simp only [Function.comp_apply, hfirst]
  cases EntityId.read? cell.toList with
  | none => exact hrest
  | some id => exact congrArg (List.cons id) hrest

end row

theorem newline_not_mem_framed {left sep right : String} {parts : List String}
    (hends : '\n' ∉ left.toList ∧ '\n' ∉ sep.toList ∧ '\n' ∉ right.toList)
    (hparts : ∀ part ∈ parts, '\n' ∉ part.toList) :
    '\n' ∉ (left ++ sep.intercalate parts ++ right).toList := by
  obtain ⟨hleft, hsep, hright⟩ := hends
  rw [String.toList_append, String.toList_append, String.toList_intercalate, List.mem_append,
    List.mem_append, not_or, not_or]
  refine ⟨⟨hleft, fun hmem => ?_⟩, hright⟩
  rcases mem_of_mem_intercalate hmem with hmem | ⟨piece, hpiece, hmem⟩
  · exact hsep hmem
  · obtain ⟨part, hpart, rfl⟩ := List.mem_map.mp hpiece
    exact hparts part hpart hmem

theorem newline_not_mem_rule {left crossing right : String}
    (hends : '\n' ∉ left.toList ∧ '\n' ∉ crossing.toList ∧ '\n' ∉ right.toList) (ws : List Nat) :
    '\n' ∉ (rule left crossing right ws).toList := by
  refine newline_not_mem_framed hends fun part hpart hmem => ?_
  obtain ⟨w, -, rfl⟩ := List.mem_map.mp hpart
  rw [String.toList_ofList] at hmem
  exact absurd (List.eq_of_mem_replicate hmem) (by decide)

theorem newline_not_mem_padLine (columns : Nat) {line : List Char} (h : '\n' ∉ line) :
    '\n' ∉ (padLine columns line).toList := by
  simp [padLine, h]

theorem newline_not_mem_rowLine (ws : List Nat) (cells : List String) (n : Nat) :
    '\n' ∉ (rowLine ws cells n).toList := by
  have hline : ∀ cell : String, '\n' ∉ (cellLines cell)[n]?.getD [] := fun cell => by
    cases hn : (cellLines cell)[n]? with
    | none => exact List.not_mem_nil
    | some line => exact not_mem_of_mem_splitAt (List.mem_of_getElem? hn)
  refine newline_not_mem_framed (by decide) fun part hpart => ?_
  obtain ⟨⟨w, cell⟩, -, rfl⟩ := List.mem_map.mp hpart
  exact newline_not_mem_padLine w (hline cell)

theorem readCell_rule {left crossing right : String} (h : left.toList.head? ≠ some '│')
    (hne : left.toList ≠ []) (ws : List Nat) :
    readCell (rule left crossing right ws).toList = none := by
  obtain ⟨c, rest, hc⟩ := List.exists_cons_of_ne_nil hne
  rw [hc] at h
  rw [rule, String.append_assoc, String.toList_append, hc, List.cons_append]
  unfold readCell
  split
  · rename_i heq
    exact absurd (congrArg some (List.cons.inj heq).1) h
  · rfl

theorem filterMap_rows (w : Nat) (ws : List Nat) {rows : List (List String)} {ids : List EntityId}
    (hrows : List.Forall₂ (fun row id => ∃ cells, row = id.text :: cells) rows ids) :
    ((rows.flatMap (rowLines (w :: ws))).map String.toList).filterMap readCell = ids := by
  induction hrows with
  | nil => rfl
  | @cons row id rows ids hrow _ ih =>
    obtain ⟨cells, rfl⟩ := hrow
    have hcell : ' ' ∉ id.text.toList ∧ '\n' ∉ id.text.toList :=
      ⟨id.space_not_mem_text, id.not_mem_text (by decide) (by decide)⟩
    rw [List.flatMap_cons, List.map_append, List.filterMap_append, filterMap_rowLines w ws cells hcell,
      ih, EntityId.read?_text]
    rfl

theorem firstColumn_append_newline (text : String) :
    firstColumn (text ++ "\n") = firstColumn text := by
  have hchars : (text ++ "\n").toList = text.toList ++ '\n' :: [] := String.toList_append
  rw [firstColumn, hchars, splitAt_append_sep, List.filterMap_append]
  exact List.append_nil _

namespace Table

variable (t : Table)

theorem exists_lines :
    ∃ body, t.lines = rule "╭" "┬" "╮" t.widths ::
        (rowLines t.widths t.head ++ rule "├" "┼" "┤" t.widths :: body) ∧
      (t.rows = [] ∧ body = [] ∨
        body = t.rows.flatMap (rowLines t.widths) ++ [rule "╰" "┴" "╯" t.widths]) := by
  refine ⟨_, rfl, ?_⟩
  split
  · rename_i hnone
    exact .inl ⟨hnone, rfl⟩
  · exact .inr rfl

theorem newline_not_mem_lines : ∀ line ∈ t.lines, '\n' ∉ line.toList := by
  have hrow : ∀ cells, ∀ line ∈ rowLines t.widths cells, '\n' ∉ line.toList := by
    intro cells line hline
    obtain ⟨n, -, rfl⟩ := List.mem_map.mp hline
    exact newline_not_mem_rowLine _ _ n
  obtain ⟨body, hlines, hbody⟩ := t.exists_lines
  rw [hlines, List.forall_mem_cons, List.forall_mem_append, List.forall_mem_cons]
  refine ⟨newline_not_mem_rule (by decide) _, hrow _, newline_not_mem_rule (by decide) _, ?_⟩
  rcases hbody with ⟨-, rfl⟩ | rfl
  · exact fun _ hline => absurd hline List.not_mem_nil
  · rw [List.forall_mem_append, List.forall_mem_singleton]
    refine ⟨fun line hline => ?_, newline_not_mem_rule (by decide) _⟩
    obtain ⟨cells, -, hcells⟩ := List.mem_flatMap.mp hline
    exact hrow cells line hcells

/-- The columns of a table are at least those of its head. -/
theorem exists_widths {cell : String} {cells : List String} (h : t.head = cell :: cells) :
    ∃ w ws, t.widths = w :: ws := by
  have hmax : ∀ (rows : List (List String)) w ws, ∃ v vs,
      rows.foldl (fun ws cells => maxWidths ws (cells.map cellWidth)) (w :: ws) = v :: vs := by
    intro rows
    induction rows with
    | nil => exact fun w ws => ⟨w, ws, rfl⟩
    | cons row rows ih =>
      intro w ws
      rw [List.foldl_cons]
      cases row with
      | nil => exact ih w ws
      | cons cell row => exact ih _ _
  rw [Table.widths, h]
  exact hmax t.rows _ _

/-- The first column of a table is read back from its text, if its cells are identities and the word
at its head is none. -/
theorem firstColumn_text {title : String} {titles : List String} (hhead : t.head = title :: titles)
    (htitle : ' ' ∉ title.toList ∧ '\n' ∉ title.toList) (hread : EntityId.read? title.toList = none)
    {ids : List EntityId}
    (hrows : List.Forall₂ (fun row id => ∃ cells, row = id.text :: cells) t.rows ids) :
    firstColumn t.text = ids := by
  obtain ⟨w, ws, hws⟩ := t.exists_widths hhead
  obtain ⟨body, hlines, hbody⟩ := t.exists_lines
  have hsplit : splitAt '\n' t.text.toList = t.lines.map String.toList := by
    rw [Table.text, String.toList_intercalate]
    exact splitAt_intercalate '\n' (by simp [hlines])
      (List.forall_mem_map.mpr t.newline_not_mem_lines)
  have hcells : ((rowLines (w :: ws) t.head).map String.toList).filterMap readCell = [] := by
    rw [hhead, filterMap_rowLines w ws titles htitle, hread]
    rfl
  have hids : (body.map String.toList).filterMap readCell = ids := by
    rcases hbody with ⟨hnone, rfl⟩ | rfl
    · rw [hnone] at hrows
      rw [List.forall₂_nil_left_iff.mp hrows]
      rfl
    · rw [hws, List.map_append, List.filterMap_append, filterMap_rows w ws hrows, List.map_singleton,
        List.filterMap_cons_none (readCell_rule (by decide) (by decide) _)]
      exact List.append_nil ids
  rw [firstColumn, hsplit, hlines, hws, List.map_cons,
    List.filterMap_cons_none (readCell_rule (by decide) (by decide) _), List.map_append,
    List.filterMap_append, hcells, List.map_cons,
    List.filterMap_cons_none (readCell_rule (by decide) (by decide) _), hids]
  rfl

end Table

end Text

end TrafficWarden

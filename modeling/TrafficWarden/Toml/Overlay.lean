import TrafficWarden.Toml.Basic

/-!
# Layers of TOML tables

A table that is laid over another one replaces its values name by name. Only where both have a
table under a name, the two are joined in the same way.
-/

namespace TrafficWarden.Toml

/-- The value of a name. -/
def lookup (name : String) : List (String × Toml) → Option Toml
  | [] => none
  | (other, v) :: entries => if other = name then some v else lookup name entries

/-- Replaces the value of a name, or appends it. -/
def assign (name : String) (v : Toml) : List (String × Toml) → List (String × Toml)
  | [] => [(name, v)]
  | (other, w) :: entries =>
    if other = name then (name, v) :: entries else (other, w) :: assign name v entries

mutual

/-- The lower value with the upper one over it. -/
def overlay (lower : Toml) : Toml → Toml
  | .table upper =>
    match lower with
    | .table entries => .table (overlayEntries entries upper)
    | _ => .table upper
  | upper => upper

def overlayEntries (lower : List (String × Toml)) :
    List (String × Toml) → List (String × Toml)
  | [] => lower
  | (name, v) :: upper =>
    let value :=
      match lookup name lower with
      | none => v
      | some w => overlay w v
    overlayEntries (assign name value lower) upper

end

theorem lookup_assign_same (name : String) (v : Toml) (entries : List (String × Toml)) :
    lookup name (assign name v entries) = some v := by
  induction entries with
  | nil => simp [assign, lookup]
  | cons e rest ih =>
    obtain ⟨other, w⟩ := e
    by_cases h : other = name <;> simp [assign, lookup, h, ih]

theorem lookup_assign_of_ne (v : Toml) (entries : List (String × Toml)) {name other : String}
    (h : other ≠ name) : lookup other (assign name v entries) = lookup other entries := by
  induction entries with
  | nil => simp [assign, lookup, h.symm]
  | cons e rest ih =>
    obtain ⟨first, w⟩ := e
    by_cases hn : first = name
    · subst hn
      simp [assign, lookup, h.symm]
    · simp only [assign, lookup, hn, if_false, ih]

end TrafficWarden.Toml

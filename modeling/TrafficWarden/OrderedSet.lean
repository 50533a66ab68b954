/-!
# Ordered sets

Finite sets of ranked values, kept as lists in strictly increasing rank.
-/

namespace TrafficWarden

/-- An order given by an injective integer rank. -/
class Ranked (α : Type) where
  rank : α → Int
  rank_injective : ∀ a b, rank a = rank b → a = b

instance : Ranked Nat := ⟨fun n => n, fun a b h => by omega⟩

instance : Ranked UInt16 := ⟨fun n => n.toNat, fun a b h => UInt16.toNat_inj.mp (by omega)⟩

section

variable {α : Type} [Ranked α]

/-- Inserts a value into an increasing list, unless it is there. -/
def insertRanked (a : α) : List α → List α
  | [] => [a]
  | b :: rest =>
    if Ranked.rank a < Ranked.rank b then a :: b :: rest
    else if Ranked.rank b < Ranked.rank a then b :: insertRanked a rest
    else b :: rest

theorem mem_insertRanked (a x : α) (items : List α) :
    x ∈ insertRanked a items ↔ x = a ∨ x ∈ items := by
  induction items with
  | nil => simp [insertRanked]
  | cons b rest ih =>
    unfold insertRanked
    split
    · simp
    · split
      · simp only [List.mem_cons, ih]
        exact ⟨fun h => h.elim (fun h => .inr (.inl h)) (fun h => h.elim .inl (.inr ∘ .inr)),
          fun h => h.elim (.inr ∘ .inl) (fun h => h.elim .inl (.inr ∘ .inr))⟩
      · have hab : a = b := Ranked.rank_injective a b (by omega)
        subst hab
        simp

theorem pairwise_insertRanked (a : α) (items : List α)
    (h : items.Pairwise (Ranked.rank · < Ranked.rank ·)) :
    (insertRanked a items).Pairwise (Ranked.rank · < Ranked.rank ·) := by
  induction items with
  | nil => simp [insertRanked]
  | cons b rest ih =>
    rw [List.pairwise_cons] at h
    unfold insertRanked
    split
    · rename_i hab
      refine List.pairwise_cons.mpr ⟨fun x hx => ?_, List.pairwise_cons.mpr h⟩
      rcases List.mem_cons.mp hx with rfl | hx
      · exact hab
      · exact Int.lt_trans hab (h.1 x hx)
    · split
      · rename_i hba
        refine List.pairwise_cons.mpr ⟨fun x hx => ?_, ih h.2⟩
        rcases (mem_insertRanked a x rest).mp hx with rfl | hx
        · exact hba
        · exact h.1 x hx
      · exact List.pairwise_cons.mpr h

end

structure OrderedSet (α : Type) [Ranked α] where
  toList : List α
  increasing : toList.Pairwise (Ranked.rank · < Ranked.rank ·) := by simp
deriving DecidableEq

namespace OrderedSet

variable {α : Type} [Ranked α]

instance [Repr α] : Repr (OrderedSet α) := ⟨fun s n => reprPrec s.toList n⟩

instance : Membership α (OrderedSet α) := ⟨fun s a => a ∈ s.toList⟩

def empty : OrderedSet α := ⟨[], by simp⟩

instance : EmptyCollection (OrderedSet α) := ⟨empty⟩
instance : Inhabited (OrderedSet α) := ⟨empty⟩

def isEmpty (s : OrderedSet α) : Bool := s.toList.isEmpty

def insert (a : α) (s : OrderedSet α) : OrderedSet α :=
  ⟨insertRanked a s.toList, pairwise_insertRanked a s.toList s.increasing⟩

def insertAll (s : OrderedSet α) (items : List α) : OrderedSet α :=
  items.foldl (fun s a => s.insert a) s

def ofList (items : List α) : OrderedSet α := insertAll ∅ items

def union (s t : OrderedSet α) : OrderedSet α := s.insertAll t.toList

@[simp] theorem mem_toList {a : α} {s : OrderedSet α} : a ∈ s.toList ↔ a ∈ s := Iff.rfl

@[simp] theorem toList_empty : (∅ : OrderedSet α).toList = [] := rfl

@[simp] theorem not_mem_empty (a : α) : a ∉ (∅ : OrderedSet α) := by
  rw [← mem_toList]; simp

@[simp] theorem mem_insert {a x : α} {s : OrderedSet α} : x ∈ s.insert a ↔ x = a ∨ x ∈ s :=
  mem_insertRanked a x s.toList

@[simp] theorem mem_insertAll {x : α} {s : OrderedSet α} {items : List α} :
    x ∈ s.insertAll items ↔ x ∈ s ∨ x ∈ items := by
  unfold insertAll
  induction items generalizing s with
  | nil => simp
  | cons a rest ih =>
    simp only [List.foldl_cons, ih, mem_insert, List.mem_cons]
    exact ⟨fun h => h.elim (fun h => h.elim (.inr ∘ .inl) .inl) (.inr ∘ .inr),
      fun h => h.elim (.inl ∘ .inr) (fun h => h.elim (.inl ∘ .inl) .inr)⟩

@[simp] theorem mem_ofList {x : α} {items : List α} : x ∈ ofList items ↔ x ∈ items := by
  simp [ofList]

@[simp] theorem mem_union {x : α} {s t : OrderedSet α} : x ∈ s.union t ↔ x ∈ s ∨ x ∈ t := by
  simp [union]

end OrderedSet

end TrafficWarden

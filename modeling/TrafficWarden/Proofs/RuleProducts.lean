import TrafficWarden.Proofs.ReversedBags

/-!
# Products of stages

Stages of rules are multiplied in any grouping with the same result, rule for rule. A stage without
rules changes no other, where a product of sets would be empty, so each law has the cases of empty
stages beside the case of rows and columns.
-/

namespace TrafficWarden

namespace Rule

section laws

variable {left right : List Rule}

/-- The rule in a row and a column of a product. -/
theorem getElem?_product {i j : Nat} (hi : i < left.length) (hj : j < right.length) :
    (product left right)[i * right.length + j]? = some (left[i].merge right[j]) := by
  rw [product_eq_flatMap (List.ne_nil_of_length_pos (by omega))
    (List.ne_nil_of_length_pos (by omega))]
  induction left generalizing i with
  | nil => exact absurd hi (Nat.not_lt_zero i)
  | cons r left ih =>
    rw [List.flatMap_cons]
    cases i with
    | zero => simp [List.getElem?_append, hj]
    | succ i =>
      have hindex : (i + 1) * right.length + j =
          (right.map r.merge).length + (i * right.length + j) := by
        rw [List.length_map, Nat.succ_mul]
        omega
      rw [hindex, List.getElem?_append_right (Nat.le_add_right _ _), Nat.add_sub_cancel_left]
      exact ih (by simpa using hi)

theorem singleton_empty_product (h : right ≠ []) : product [∅] right = right := by
  have hmerge : merge ∅ = id := funext empty_merge
  rw [product_eq_flatMap (List.cons_ne_nil _ _) h, List.flatMap_singleton, hmerge, List.map_id]

theorem product_singleton_empty (h : left ≠ []) : product left [∅] = left := by
  rw [product_eq_flatMap h (List.cons_ne_nil _ _)]
  simp

theorem product_assoc (a b c : List Rule) :
    product (product a b) c = product a (product b c) := by
  by_cases ha : a = []
  · rw [ha, nil_product, nil_product]
  by_cases hb : b = []
  · rw [hb, product_nil, nil_product]
  by_cases hc : c = []
  · rw [hc, product_nil, product_nil]
  -- With rules in all three stages the inner products have rules too.
  rw [product_eq_flatMap (product_ne_nil ha b) hc, product_eq_flatMap ha hb,
    product_eq_flatMap ha (product_ne_nil hb c), product_eq_flatMap hb hc, List.flatMap_assoc]
  refine List.flatMap_congr fun r _ => ?_
  rw [List.flatMap_map, List.map_flatMap]
  refine List.flatMap_congr fun s _ => ?_
  rw [List.map_map]
  exact List.map_congr_left fun t _ => merge_assoc r s t

instance : Std.Associative product := ⟨product_assoc⟩

end laws

/-- Stages of rules, grouped two and two in any way. -/
inductive Grouping where
  | stage (rules : List Rule)
  | join (first second : Grouping)

namespace Grouping

/-- The stages from the first to the last. -/
def stages : Grouping → List (List Rule)
  | stage rules => [rules]
  | join first second => first.stages ++ second.stages

/-- The product of the stages in the order of the groups. -/
def rules : Grouping → List Rule
  | stage rules => rules
  | join first second => Rule.product first.rules second.rules

/-- The grouping makes no difference: any has the product from the right. -/
theorem rules_eq_foldr (g : Grouping) : g.rules = g.stages.foldr Rule.product [] := by
  induction g with
  | stage rules => exact (product_nil rules).symm
  | join first second ihFirst ihSecond =>
    -- The empty stage at the end of the first stages is where the second ones go on.
    calc Rule.product first.rules second.rules
        = Rule.product (first.stages.foldr Rule.product [])
            (second.stages.foldr Rule.product []) := by rw [ihFirst, ihSecond]
      _ = first.stages.foldr Rule.product
            (Rule.product [] (second.stages.foldr Rule.product [])) := List.foldr_assoc.symm
      _ = (first.stages ++ second.stages).foldr Rule.product [] := List.foldr_append.symm

/-- A bag compiles its stages from the left, which gives what any grouping gives. -/
theorem rules_eq_forwardRules {b : ParameterBag} {g : Grouping}
    (h : g.stages = [[∅], b.networkRules, b.portRules, b.macRules]) :
    g.rules = b.forwardRules := by
  rw [rules_eq_foldr, h]
  simp only [List.foldr_cons, List.foldr_nil, product_nil, ParameterBag.forwardRules, product_assoc]

end Grouping

/-- The product of stages is associative, and the stage without rules is neutral. The stage of the
one rule without flags is neutral for stages with rules. The product of two such stages has a rule
for each row and each column, row by row. A product is reversed by reversing both stages. So the
rules of a bag come out the same, in the same order, however its stages are grouped. -/
theorem product_laws (a b c : List Rule) :
    product (product a b) c = product a (product b c) ∧
      product [] a = a ∧ product a [] = a ∧
      (a ≠ [] → product [∅] a = a ∧ product a [∅] = a) ∧
      (a ≠ [] → b ≠ [] → (product a b).length = a.length * b.length) ∧
      (∀ i j, ∀ (hi : i < a.length) (hj : j < b.length),
        (product a b)[i * b.length + j]? = some (a[i].merge b[j])) ∧
      (product a b).map reversed = product (a.map reversed) (b.map reversed) ∧
      ∀ (bag : ParameterBag) (g : Grouping),
        g.stages = [[∅], bag.networkRules, bag.portRules, bag.macRules] →
          g.rules = bag.forwardRules := by
  refine ⟨product_assoc a b c, nil_product a, product_nil a,
    fun ha => ⟨singleton_empty_product ha, product_singleton_empty ha⟩, fun ha hb => ?_,
    fun _ _ hi hj => getElem?_product hi hj, map_reversed_product a b,
    fun _ _ h => Grouping.rules_eq_forwardRules h⟩
  have hone : max 1 b.length = b.length := Nat.max_eq_right (List.length_pos_iff.mpr hb)
  rw [length_product ha, hone]

/-- The rules for mail: one stage of one rule, one of four, and one without rules. They come out the
same if they are multiplied from the right. -/
theorem product_laws_of_mail :
    let bag := RuleSet.mailBag
    let fromRight : Grouping :=
      .join (.stage [∅])
        (.join (.stage bag.networkRules) (.join (.stage bag.portRules) (.stage bag.macRules)))
    fromRight.rules = bag.forwardRules ∧
      bag.networkRules ≠ [] ∧ product [∅] bag.networkRules = bag.networkRules ∧
      bag.portRules ≠ [] ∧ (product bag.networkRules bag.portRules).length = 4 ∧
      (product bag.networkRules bag.portRules)[0 * bag.portRules.length + 2]? =
        some ((ParameterBag.portRule .tcp (some 587, some 25)).set .destinationIp
          (.text "172.16.0.0/12")) := by
  intro bag fromRight
  have hnetworks : bag.networkRules ≠ [] := by decide +kernel
  have hports : bag.portRules ≠ [] := by decide +kernel
  obtain ⟨-, -, -, hone, hlength, hrow, -, hgrouped⟩ :=
    product_laws bag.networkRules bag.portRules bag.macRules
  exact ⟨hgrouped bag fromRight rfl, hnetworks, (hone hnetworks).1, hports,
    (hlength hnetworks hports).trans (by decide +kernel),
    (hrow 0 2 (by decide +kernel) (by decide +kernel)).trans (by decide +kernel)⟩

end Rule

end TrafficWarden

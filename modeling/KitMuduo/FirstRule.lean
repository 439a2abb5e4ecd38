import Mathlib.Data.List.Basic

/-!
# The first rule that applies

A subject is of the kind of the first rule that applies to it.  When every rule
leads to a kind of its own, the kind does not change by further rules becoming
applicable, unless one of them stands in front of the rule that decides.
-/

namespace FirstRule

variable {Rule Kind : Type*}

/-- The kind of the first rule that applies, `default` if none does. -/
def classify (default : Kind) (rules : List (Rule × Kind))
    (applies : Rule → Bool) : Kind :=
  match rules with
  | [] => default
  | (rule, kind) :: rest =>
      if applies rule = true then kind else classify default rest applies

/-- The rules in front of the one that decides. -/
def passed (rules : List (Rule × Kind)) (applies : Rule → Bool) : List Rule :=
  (rules.map Prod.fst).takeWhile fun rule => !applies rule

variable {default : Kind} {rules : List (Rule × Kind)}

theorem classify_mem (applies : Rule → Bool) :
    classify default rules applies = default ∨
      classify default rules applies ∈ rules.map Prod.snd := by
  induction rules with
  | nil => exact Or.inl rfl
  | cons first rest ih =>
      rw [classify]
      split
      · exact Or.inr List.mem_cons_self
      · exact ih.imp_right fun member => List.mem_cons_of_mem _ member

/-- Only the rules of the list are asked. -/
theorem classify_congr {applies others : Rule → Bool}
    (same : ∀ rule ∈ rules.map Prod.fst, applies rule = others rule) :
    classify default rules applies = classify default rules others := by
  induction rules with
  | nil => rfl
  | cons first rest ih =>
      rw [classify, classify, same first.1 List.mem_cons_self,
        ih fun rule member => same rule (List.mem_cons_of_mem _ member)]

/-- More rules become applicable; by induction on the rules. -/
theorem classify_or_eq_iff (distinct : (rules.map Prod.snd).Nodup)
    (proper : default ∉ rules.map Prod.snd) (applies also : Rule → Bool) :
    classify default rules (fun rule => applies rule || also rule) =
        classify default rules applies ↔
      ∀ rule ∈ passed rules applies, also rule = false := by
  induction rules with
  | nil => simp [classify, passed]
  | cons first rest ih =>
      obtain ⟨rule, kind⟩ := first
      rw [List.map_cons, List.nodup_cons] at distinct
      rw [List.map_cons, List.mem_cons, not_or] at proper
      have later := ih distinct.2 proper.2
      cases here : applies rule with
      | true => simp [classify, passed, here]
      | false =>
          cases alsoHere : also rule with
          | true =>
              have different : kind ≠ classify default rest applies := by
                have result : classify default rest applies = default ∨
                    classify default rest applies ∈ rest.map Prod.snd :=
                  classify_mem applies
                rcases result with isDefault | member
                · rw [isDefault]
                  exact Ne.symm proper.1
                · intro same
                  exact distinct.1 (same ▸ member)
              simp [classify, passed, here, alsoHere, different]
          | false =>
              simpa [classify, passed, here, alsoHere] using later

end FirstRule

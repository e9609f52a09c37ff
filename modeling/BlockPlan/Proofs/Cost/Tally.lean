import BlockPlan.Cost.Tally
import BlockPlan.Proofs.Edit
import BlockPlan.Proofs.Scalar.Exact

/-!
# Measuring and weighing in exact arithmetic

On an outline that has an area every term can be measured, and with norms above zero every cost can
be worked out.  A term without a weight counts for nothing, so that the cost depends on the raw
values of the terms with a weight alone.

* `Objective.value` — the raw value of a term.
* **`run_evaluate`** — measuring writes these values, and nothing else.
* `total_eq_ok`, `total_congr` — the cost, and what it depends on.
* `PositiveNorms.setNorms` — the norms that are found on a walk are above zero.
-/

namespace BlockPlan

namespace PerTerm

/-- The values of a family replace all values of another one. -/
@[simp] lemma overwrite_toList {β : Type} (p q : PerTerm β) : p.overwrite q.toList = q := by
  obtain ⟨_, _, _, _, _, _, _, _⟩ := p
  obtain ⟨_, _, _, _, _, _, _, _⟩ := q
  simp only [overwrite, toList, Term.all, List.map_cons, List.map_nil, List.zip_cons_cons,
    List.zip_nil_left, List.foldl_cons, List.foldl_nil, set, get]

end PerTerm

/-! ## Measuring -/

namespace Objective

variable {o : Objective Rat}

/-- The raw value of a term of a layout; zero if the term cannot be measured. -/
def value (o : Objective Rat) (l : Layout Rat) (t : Term) : Rat :=
  match o.measure l t with
  | .ok v => v
  | .error _ => 0

lemma measure_eq_ok (h : o.outlineArea ≠ 0) (l : Layout Rat) (t : Term) :
    o.measure l t = .ok (o.value l t) := by
  have hmeasured : ∃ v, o.measure l t = .ok v := by
    cases t with
    | area => exact ⟨_, divide_eq_ok h⟩
    | notch =>
        simp only [measure, notchShare]
        split_ifs
        · exact ⟨_, divide_eq_ok h⟩
        · exact ⟨_, rfl⟩
    | outline | wirelength | guidance | fence | boundary | blockage => exact ⟨_, rfl⟩
  obtain ⟨v, hv⟩ := hmeasured
  rw [value, hv]

/-- The value of a term that is measured as not below zero does not lie below zero. -/
lemma value_nonneg (h : o.outlineArea ≠ 0) {l : Layout Rat} {t : Term}
    (hmeasured : ∃ v, o.measure l t = .ok v ∧ 0 ≤ v) : 0 ≤ o.value l t := by
  obtain ⟨v, hv, hnonneg⟩ := hmeasured
  rw [measure_eq_ok h, Except.ok.injEq] at hv
  rwa [hv]

end Objective

namespace Tally

variable {o : Objective Rat}

/-- A tally with the values of a layout, of all terms or only of those with a weight. -/
def measured (o : Objective Rat) (everything : Bool) (l : Layout Rat) (tally : Tally Rat) :
    Tally Rat :=
  { tally with
    raw := .ofFn fun t => if everything || o.enabled t then o.value l t else tally.raw.get t }

/-- Measuring a layout a second time changes no value. -/
@[simp] lemma measured_measured (everything : Bool) (l : Layout Rat) (tally : Tally Rat) :
    (tally.measured o everything l).measured o everything l = tally.measured o everything l := by
  simp only [measured, PerTerm.get_ofFn]
  congr 2
  funext t
  split_ifs <;> rfl

lemma run_measureTerms (h : o.outlineArea ≠ 0) (l : Layout Rat) (terms : List Term)
    (tally : Tally Rat) :
    ∃ raw : PerTerm Rat, (terms.forM (measureTerm o l)).run tally
        = .ok () { tally with raw := raw } ∧
      ∀ t, raw.get t = if t ∈ terms then o.value l t else tally.raw.get t := by
  induction terms generalizing tally with
  | nil => exact ⟨tally.raw, rfl, by simp⟩
  | cons u terms ih =>
      obtain ⟨raw, hrun, hraw⟩ := ih { tally with raw := tally.raw.set u (o.value l u) }
      refine ⟨raw, ?_, fun t => ?_⟩
      · rw [List.forM_eq_forM] at hrun ⊢
        simp only [List.forM_cons, EStateM.run_bind, measureTerm, o.measure_eq_ok h,
          Edit.run_ofExcept_ok, EStateM.run_modify, hrun]
      · rw [hraw, PerTerm.get_set]
        by_cases ht : t = u
        · simp [ht]
        · simp [ht]

/-- **Measuring never fails and writes the values of the terms that are measured.** -/
theorem run_evaluate (h : o.outlineArea ≠ 0) (everything : Bool) (l : Layout Rat)
    (tally : Tally Rat) :
    (evaluate o everything l).run tally = .ok () (tally.measured o everything l) := by
  obtain ⟨raw, hrun, hraw⟩ := run_measureTerms h l
    (Term.all.filter fun t => everything || o.enabled t) tally
  have hvalues : raw = .ofFn fun t =>
      if everything || o.enabled t then o.value l t else tally.raw.get t := by
    refine PerTerm.ext_get fun t => ?_
    rw [hraw, PerTerm.get_ofFn]
    simp only [List.mem_filter, Term.mem_all, true_and]
  rw [evaluate, hrun, hvalues]
  rfl

/-! ## Weighing -/

/-- Norms that can be divided by. -/
def PositiveNorms (tally : Tally Rat) : Prop := ∀ t, 0 < tally.norm.get t

lemma positiveNorms_initial : (initial : Tally Rat).PositiveNorms := by
  intro t
  cases t <;> exact one_pos

/-- The norms that are found from samples are above zero again. -/
lemma PositiveNorms.setNorms {tally : Tally Rat} (h : tally.PositiveNorms)
    (samples : List (PerTerm Rat)) : (tally.setNorms samples).PositiveNorms := by
  intro t
  rw [Tally.setNorms]
  split_ifs with hnone
  · exact h t
  · simp only [PerTerm.get_ofFn]
    split_ifs with hmean
    · exact hmean
    · exact one_pos

variable {tally tally' : Tally Rat} {weights : Weights Rat}

/-- All values over their norms, each with the name of its term. -/
lemma mapM_normalized (h : tally.PositiveNorms) :
    (Term.all.mapM fun t => do pure (t.name, ← tally.normalized t))
      = (.ok (Term.all.map fun t => (t.name, tally.raw.get t / tally.norm.get t))
        : Except (Fault Rat) (List (String × Rat))) := by
  refine mapM_eq_ok fun t _ => ?_
  rw [normalized, divide_eq_ok (h t).ne']
  rfl

lemma costOfTerm_eq_ok (h : tally.PositiveNorms) (weights : Weights Rat) (t : Term) :
    tally.costOfTerm weights t
      = .ok (weights.get t * (tally.raw.get t / tally.norm.get t)) := by
  rw [costOfTerm, normalized, divide_eq_ok (h t).ne']
  rfl

lemma total_eq_ok (h : tally.PositiveNorms) (weights : Weights Rat) :
    tally.total weights
      = .ok (Scalar.sum
          (Term.all.map fun t => weights.get t * (tally.raw.get t / tally.norm.get t))) := by
  rw [total, mapM_eq_ok fun t _ => costOfTerm_eq_ok h weights t]
  rfl

lemma costOf_eq_ok (h : tally.PositiveNorms) (weights : Weights Rat) (values : List Rat) :
    ∃ cost, tally.costOf weights values = .ok cost := by
  have hterms : ∃ terms, (Term.all.zip values).mapM
      (fun e => divide (weights.get e.1 * e.2) (tally.norm.get e.1)) = .ok terms :=
    mapM_exists_ok fun e _ => ⟨_, divide_eq_ok (h e.1).ne'⟩
  obtain ⟨terms, hterms⟩ := hterms
  exact ⟨_, by rw [costOf]; exact bind_eq_ok.mpr ⟨terms, hterms, rfl⟩⟩

/-- **The cost depends on the terms with a weight alone.** -/
theorem total_congr (h : tally.PositiveNorms) (hnorm : tally'.norm = tally.norm)
    (hweights : ∀ t, 0 ≤ weights.get t)
    (hraw : ∀ t, 0 < weights.get t → tally'.raw.get t = tally.raw.get t) :
    tally'.total weights = tally.total weights := by
  have h' : tally'.PositiveNorms := by
    rw [PositiveNorms, hnorm]
    exact h
  rw [total_eq_ok h, total_eq_ok h', hnorm]
  refine congrArg (fun xs => Except.ok (Scalar.sum xs)) (List.map_congr_left fun t _ => ?_)
  rcases (hweights t).eq_or_lt with hzero | hpos
  · rw [← hzero, zero_mul, zero_mul]
  · rw [hraw t hpos]

end Tally

end BlockPlan

import BlockPlan.Proofs.Cost.Tally

/-!
# Tallies that agree on some terms

Two tallies that agree on some terms have the same cost, up to the unit, when all terms beyond those
have no weight.  It does not matter what else the tallies hold.

* `PerTerm.AgreesOn`, `Tally.Alike` — families and tallies that agree on some terms.
* `Weights.Scaled` — weights in units that differ by a factor, where no term beyond some has a
  weight.
* **`Tally.Alike.total`**, `Tally.Alike.costOfTerm`, `Tally.Alike.costOf` — the costs.
* `Tally.Alike.setNorms`, `Tally.Alike.load` — tallies that stay alike.
-/

namespace BlockPlan

variable {T : Term → Prop}

/-- Two families with the same values for the terms of `T`. -/
def PerTerm.AgreesOn (T : Term → Prop) (v v' : PerTerm Rat) : Prop := ∀ t, T t → v'.get t = v.get t

/-- Weights in units that differ by a factor; only terms of `T` have a weight. -/
structure Weights.Scaled (f : Rat) (T : Term → Prop) (w w' : Weights Rat) : Prop where
  get : ∀ t, w'.get t = w.get t * f
  idle : ∀ t, ¬ T t → w.get t = 0

namespace Tally

/-- Two tallies that can be weighed and agree on the terms of `T`. -/
structure Alike (T : Term → Prop) (tally tally' : Tally Rat) : Prop where
  raw : tally.raw.AgreesOn T tally'.raw
  norm : tally.norm.AgreesOn T tally'.norm
  norms : tally.PositiveNorms
  norms' : tally'.PositiveNorms

namespace Alike

variable {f : Rat} {tally tally' : Tally Rat} {w w' : Weights Rat}

lemma initial : Alike T Tally.initial Tally.initial :=
  ⟨fun _ _ => rfl, fun _ _ => rfl, positiveNorms_initial, positiveNorms_initial⟩

/-- A value that is weighed and divided by its norm, in either tally. -/
lemma weigh (h : Alike T tally tally') (hw : w.Scaled f T w') {v v' : PerTerm Rat}
    (hv : v.AgreesOn T v') (t : Term) :
    w'.get t * (v'.get t / tally'.norm.get t) = w.get t * (v.get t / tally.norm.get t) * f := by
  by_cases ht : T t
  · rw [hw.get, h.norm t ht, hv t ht, mul_right_comm]
  · simp [hw.get, hw.idle t ht]

lemma costOfTerm (h : Alike T tally tally') (hw : w.Scaled f T w') (t : Term) :
    tally'.costOfTerm w' t = (tally.costOfTerm w t).map (· * f) := by
  rw [costOfTerm_eq_ok h.norms', costOfTerm_eq_ok h.norms, h.weigh hw h.raw]
  rfl

/-- Sums over all terms differ by the unit if the summands do. -/
lemma sum_mul {g g' : Term → Rat} (h : ∀ t, g' t = g t * f) :
    Scalar.sum (Term.all.map g') = Scalar.sum (Term.all.map g) * f := by
  rw [Scalar.sum_eq, Scalar.sum_eq, List.map_congr_left fun t _ => h t, List.sum_map_mul_right]

/-- **Tallies that agree on the terms with a weight have the same cost, up to the unit.** -/
theorem total (h : Alike T tally tally') (hw : w.Scaled f T w') :
    tally'.total w' = (tally.total w).map (· * f) := by
  rw [total_eq_ok h.norms', total_eq_ok h.norms, sum_mul (h.weigh hw h.raw)]
  rfl

/-- The cost that a family of raw values would have. -/
lemma costOf_toList (h : tally.PositiveNorms) (w : Weights Rat) (v : PerTerm Rat) :
    tally.costOf w v.toList
      = .ok (Scalar.sum (Term.all.map fun t => w.get t * (v.get t / tally.norm.get t))) := by
  have hzip : Term.all.zip v.toList = Term.all.map fun t => (t, v.get t) := rfl
  have hterms : (Term.all.zip v.toList).mapM
      (fun e => divide (w.get e.1 * e.2) (tally.norm.get e.1))
      = .ok ((Term.all.zip v.toList).map fun e => w.get e.1 * (e.2 / tally.norm.get e.1)) :=
    mapM_eq_ok fun e _ =>
      (divide_eq_ok (h e.1).ne').trans (congrArg Except.ok (mul_div_assoc _ _ _))
  rw [Tally.costOf, hterms, hzip, List.map_map]
  rfl

lemma costOf (h : Alike T tally tally') (hw : w.Scaled f T w') {v v' : PerTerm Rat}
    (hv : v.AgreesOn T v') :
    tally'.costOf w' v'.toList = (tally.costOf w v.toList).map (· * f) := by
  rw [costOf_toList h.norms', costOf_toList h.norms, sum_mul (h.weigh hw hv)]
  rfl

/-- The costs of all samples. -/
lemma costsOf (h : Alike T tally tally') (hw : w.Scaled f T w')
    {samples samples' : List (PerTerm Rat)}
    (hsamples : List.Forall₂ (PerTerm.AgreesOn T) samples samples') :
    samples'.mapM (fun s => tally'.costOf w' s.toList)
      = (samples.mapM fun s => tally.costOf w s.toList).map (List.map (· * f)) := by
  induction hsamples with
  | nil => rfl
  | @cons v v' vs vs' hv _ ih =>
      rw [List.mapM_cons, List.mapM_cons, h.costOf hw hv, ih, costOf_toList h.norms]
      cases vs.mapM fun s => tally.costOf w s.toList <;> rfl

/-! ## Tallies that stay alike -/

lemma load (h : Alike T tally tally') {v v' : PerTerm Rat} (hv : v.AgreesOn T v') :
    Alike T (tally.load v.toList) (tally'.load v'.toList) := by
  refine ⟨?_, h.norm, h.norms, h.norms'⟩
  simpa only [Tally.load, PerTerm.overwrite_toList] using hv

lemma mean_eq {samples samples' : List (PerTerm Rat)}
    (h : List.Forall₂ (PerTerm.AgreesOn T) samples samples') {t : Term} (ht : T t) :
    mean samples' t = mean samples t := by
  have hvalues : samples'.map (·.get t) = samples.map (·.get t) := by
    induction h with
    | nil => rfl
    | cons hv _ ih => rw [List.map_cons, List.map_cons, ih, hv t ht]
  rw [mean, mean, hvalues, h.length_eq]

/-- The norms that are found from samples that agree on some terms do so too. -/
lemma setNorms (h : Alike T tally tally') {samples samples' : List (PerTerm Rat)}
    (hsamples : List.Forall₂ (PerTerm.AgreesOn T) samples samples') :
    Alike T (tally.setNorms samples) (tally'.setNorms samples') := by
  refine ⟨?_, fun t ht => ?_, h.norms.setNorms samples, h.norms'.setNorms samples'⟩
  · rw [Tally.setNorms, Tally.setNorms]
    split_ifs
    all_goals exact h.raw
  · have hempty : samples'.isEmpty = samples.isEmpty := by cases hsamples <;> rfl
    rw [Tally.setNorms, Tally.setNorms, hempty]
    split_ifs
    · exact h.norm t ht
    · simp only [PerTerm.get_ofFn, mean_eq hsamples ht]

end Alike

end Tally

end BlockPlan

import BlockPlan.Proofs.Search.Course

/-!
# How a search fails

A search has no faults of its own: the temperatures of a schedule that makes sense can be worked
out, and so can the probabilities of acceptance.  It fails as the operations of its space do.

* `SearchSpace.FailsOnly` — an invariant under which the operations of a space fail with faults of
  one kind alone.
* `trial_failsOnly` — a trial fails with these faults alone.
* **`run_failsOnly`** — so does a search.
-/

namespace BlockPlan

variable {σ ρ κ : Type} [DrawSource ρ Rat]

/-- An invariant that all operations keep, under which they fail with faults of `F` alone. -/
structure SearchSpace.FailsOnly (space : SearchSpace Rat σ ρ κ) (I : σ → Prop) (K : κ → Prop)
    (F : Fault Rat → Prop) : Prop extends space.Keeps I K where
  cost : ∀ s, I s → ∃ c, space.cost s = .ok c
  perturb_failsOnly : Edit.FailsOnly (fun t => I t.state) space.perturb F
  restore_failsOnly : Edit.FailsOnly I space.restore F
  load_failsOnly : ∀ k, K k → Edit.FailsOnly I (space.load k) F

namespace Annealing

variable [Transcendental Rat] {space : SearchSpace Rat σ ρ κ} {I : σ → Prop} {K : κ → Prop}
  {F : Fault Rat → Prop} {schedule : Schedule Rat}

/-- Below a temperature that is not zero, deciding whether to accept a change never fails. -/
lemma accept_total {temperature : Rat} (h : temperature ≠ 0) (delta : Rat) :
    Edit.Leads (fun t : Drawn σ ρ => I t.state) (accept delta temperature) (fun _ t => I t.state)
      (fun _ => False) := by
  refine Edit.Leads.of_ok fun t ht => ?_
  obtain ⟨b, t', hrun, hstate⟩ := accept_eq_ok h delta t
  exact ⟨b, t', hrun, hstate ▸ ht⟩

lemma trial_failsOnly (h : space.FailsOnly I K F) {temperature : Rat}
    (htemperature : temperature ≠ 0) (s : Standing Rat κ) :
    Edit.FailsOnly (fun t => I t.state) (trial space temperature s) F := by
  refine Edit.FailsOnly.bind h.perturb_failsOnly h.perturb fun _ => ?_
  refine Edit.FailsOnly.bind_ok Edit.Leads.get fun t => Edit.FailsOnly.fact fun ht => ?_
  refine Edit.FailsOnly.bind_ok (Edit.Leads.ofExcept_ok (h.cost _ ht) fun _ _ hu => hu)
    fun cost => ?_
  refine Edit.FailsOnly.bind_ok (accept_total htemperature _) fun taken => ?_
  refine Edit.FailsOnly.ite (fun _ => Edit.FailsOnly.ite (fun _ => ?_) fun _ => ?_) fun _ => ?_
  · exact Edit.FailsOnly.bind_ok Edit.Leads.get fun _ => Edit.FailsOnly.pure _
  · exact Edit.FailsOnly.pure _
  · exact Edit.FailsOnly.bind h.restore_failsOnly.within h.restore.onState fun _ =>
      Edit.FailsOnly.pure _

lemma trials_failsOnly (h : space.FailsOnly I K F) {temperature : Rat}
    (htemperature : temperature ≠ 0) (count : Nat) :
    ∀ (accepted : Nat) {s : Standing Rat κ}, K s.best →
      Edit.FailsOnly (fun t => I t.state) (trials space temperature count accepted s) F := by
  induction count with
  | zero => exact fun _ _ _ => Edit.FailsOnly.pure _
  | succ count ih =>
      intro accepted s hs
      exact Edit.FailsOnly.bind (trial_failsOnly h htemperature s)
        (trial_leads h.toKeeps temperature hs)
        fun v => Edit.FailsOnly.fact fun hv => ih _ hv

lemma level_failsOnly (h : space.FailsOnly I K F) (hschedule : schedule.Sensible) (initial : Rat)
    (index : Nat) {s : Standing Rat κ} (hs : K s.best) :
    Edit.FailsOnly (fun r => I r.current.state) (level space schedule initial index s) F := by
  obtain ⟨temperature, htemperature, hfloor⟩ := Schedule.temperatureAt_eq_ok hschedule index initial
  simp only [level, htemperature, Edit.ofExcept, pure_bind]
  have htrials :=
    trials_failsOnly h (hschedule.floor.trans_le hfloor).ne' schedule.trials.toNat 0 hs
  refine Edit.FailsOnly.bind htrials.within
    (onCurrent_leads (trials_leads h.toKeeps temperature _ 0 hs)) fun v => ?_
  exact Edit.FailsOnly.fact fun _ => Edit.FailsOnly.bind_ok
    (Edit.Leads.modify (Q := fun _ _ => True) fun _ _ => trivial) fun _ => Edit.FailsOnly.pure _

lemma levels_failsOnly (h : space.FailsOnly I K F) (hschedule : schedule.Sensible) (initial : Rat)
    (count : Nat) :
    ∀ (index : Nat) {s : Standing Rat κ}, K s.best →
      Edit.FailsOnly (fun r => I r.current.state)
        (levels space schedule initial count index s) F := by
  induction count with
  | zero => exact fun _ _ _ => Edit.FailsOnly.pure _
  | succ count ih =>
      intro index s hs
      refine Edit.FailsOnly.bind (level_failsOnly h hschedule initial index hs)
        (level_leads h.toKeeps schedule initial index hs) fun v => Edit.FailsOnly.fact fun hv => ?_
      exact Edit.FailsOnly.bind (ih (index + 1) hv)
        (levels_leads h.toKeeps schedule initial count (index + 1) hv) fun _ =>
        Edit.FailsOnly.pure _

/-- **A search fails with the faults of its space alone.** -/
theorem run_failsOnly (h : space.FailsOnly I K F) (hschedule : schedule.Sensible) (initial : Rat) :
    Edit.FailsOnly (fun r => I r.current.state) (run space schedule initial) F := by
  have hnote : ∀ e : Event Rat, Edit.Leads (fun r : Run Rat σ ρ => I r.current.state) (note e)
      (fun _ r => I r.current.state) fun _ => False := fun e => Edit.Leads.modify fun _ hr => hr
  refine Edit.FailsOnly.bind_ok Edit.Leads.get fun start => Edit.FailsOnly.fact fun hstart => ?_
  refine Edit.FailsOnly.bind_ok (Edit.Leads.ofExcept_ok (h.cost _ hstart) fun _ _ hr => hr)
    fun cost => ?_
  refine Edit.FailsOnly.bind_ok (hnote _) fun _ => ?_
  refine Edit.FailsOnly.bind (levels_failsOnly h hschedule initial _ 0 (h.keep _ hstart))
    (levels_leads h.toKeeps schedule initial _ 0 (h.keep _ hstart)) fun v => ?_
  -- the best state is loaded
  refine Edit.FailsOnly.fact fun hv => Edit.FailsOnly.bind (h.load_failsOnly _ hv).within.within
    (onCurrent_leads (h.load _ hv).onState) fun _ => ?_
  refine Edit.FailsOnly.bind_ok Edit.Leads.get fun last => Edit.FailsOnly.fact fun hlast => ?_
  refine Edit.FailsOnly.bind_ok (Edit.Leads.ofExcept_ok (h.cost _ hlast) fun _ _ hr => hr)
    fun final => ?_
  exact Edit.FailsOnly.bind_ok (hnote _) fun _ => Edit.FailsOnly.pure _

end Annealing

end BlockPlan

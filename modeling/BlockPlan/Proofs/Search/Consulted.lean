import BlockPlan.Annealer.Run
import BlockPlan.Proofs.Cooling.Schedule
import BlockPlan.Proofs.Cooling.Start

/-!
# What is asked of the exponential and the logarithm

A search asks for the exponential of the exponents by which changes uphill are accepted.
Temperatures lie above zero, and so all of these lie below. Calibration asks for one logarithm,
that of a probability between zero and one.  Two exponentials that agree below zero and two
logarithms that agree between zero and one hence make no difference to anything that is done to an
annealer.

* `Transcendental.Agree` — to agree where an annealer asks.
* `exponent_neg` — the exponents lie below zero.
* **`run_congr`** — a search with functions that agree.
* **`calibrate_congr`**, **`anneal_congr`** — calibrations and runs with functions that agree.
-/

namespace BlockPlan

/-- Functions that agree where an annealer asks for them: the exponential below zero and the
logarithm between zero and one. -/
structure Transcendental.Agree (F G : Transcendental Rat) : Prop where
  exp : ∀ q < 0, F.exp q = G.exp q
  log : ∀ q, 0 < q → q < 1 → F.log q = G.log q

variable {F G : Transcendental Rat} (h : F.Agree G)

namespace Annealing

/-- A change uphill has an exponent below zero. -/
lemma exponent_neg {delta temperature : Rat} (hdelta : 0 < delta) (htemperature : 0 < temperature) :
    -delta / temperature < 0 :=
  div_neg_of_neg_of_pos (neg_neg_of_pos hdelta) htemperature

variable {σ ρ κ : Type} [DrawSource ρ Rat]

include h

lemma accept_congr {temperature : Rat} (htemperature : 0 < temperature) (delta : Rat) :
    (@accept Rat σ ρ _ F _ delta temperature) = @accept Rat σ ρ _ G _ delta temperature := by
  simp only [accept]
  split_ifs with hdelta
  · rfl
  · have hexponent := exponent_neg (not_le.mp hdelta) htemperature
    simp only [divide_eq_ok htemperature.ne', Edit.ofExcept, pure_bind, exponential,
      h.exp _ hexponent]

lemma trial_congr (space : SearchSpace Rat σ ρ κ) {temperature : Rat}
    (htemperature : 0 < temperature) (s : Standing Rat κ) :
    @trial Rat σ ρ κ _ F _ space temperature s = @trial Rat σ ρ κ _ G _ space temperature s := by
  simp only [trial, accept_congr h htemperature]

lemma trials_congr (space : SearchSpace Rat σ ρ κ) {temperature : Rat}
    (htemperature : 0 < temperature) (count : Nat) : ∀ (accepted : Nat) (s : Standing Rat κ),
      @trials Rat σ ρ κ _ F _ space temperature count accepted s
        = @trials Rat σ ρ κ _ G _ space temperature count accepted s := by
  induction count with
  | zero => exact fun _ _ => rfl
  | succ count ih =>
      intro accepted s
      simp only [trials, trial_congr h space htemperature, ih]

variable {schedule : Schedule Rat} (hschedule : schedule.Sensible)

include hschedule

lemma level_congr (space : SearchSpace Rat σ ρ κ) (initial : Rat) (index : Nat)
    (s : Standing Rat κ) :
    @level Rat σ ρ κ _ F _ space schedule initial index s
      = @level Rat σ ρ κ _ G _ space schedule initial index s := by
  obtain ⟨temperature, htemperature, hfloor⟩ := Schedule.temperatureAt_eq_ok hschedule index initial
  simp only [level, htemperature, Edit.ofExcept, pure_bind,
    trials_congr h space (hschedule.floor.trans_le hfloor)]

lemma levels_congr (space : SearchSpace Rat σ ρ κ) (initial : Rat) (count : Nat) :
    ∀ (index : Nat) (s : Standing Rat κ),
      @levels Rat σ ρ κ _ F _ space schedule initial count index s
        = @levels Rat σ ρ κ _ G _ space schedule initial count index s := by
  induction count with
  | zero => exact fun _ _ => rfl
  | succ count ih =>
      intro index s
      simp only [levels, level_congr h hschedule space, ih]

/-- **A search asks for the exponential below zero alone.** -/
theorem run_congr (space : SearchSpace Rat σ ρ κ) (initial : Rat) :
    @run Rat σ ρ κ _ F _ space schedule initial = @run Rat σ ρ κ _ G _ space schedule initial := by
  simp only [run, levels_congr h hschedule space]

end Annealing

include h

lemma startTemperature_congr {acceptance : Rat} (hacceptance : 0 < acceptance) (costs : List Rat)
    (floor : Rat) :
    @startTemperature Rat _ F costs acceptance floor
        = @startTemperature Rat _ G costs acceptance floor := by
  obtain ⟨hpos, hlt⟩ := startProbability_mem hacceptance
  simp only [startTemperature, logarithm, h.log _ hpos hlt]

namespace Annealer

variable {ρ : Type} [DrawSource ρ Rat] {setup : Setup Rat} (hschedule : setup.schedule.Sensible)

include hschedule

/-- **Calibration asks for the logarithm between zero and one alone.** -/
theorem calibrate_congr : @calibrate Rat ρ _ F _ setup = @calibrate Rat ρ _ G _ setup := by
  simp only [calibrate, startTemperature_congr h hschedule.acceptance_pos]

/-- **So do runs, and for the exponential below zero.** -/
theorem anneal_congr : @anneal Rat ρ _ F _ setup = @anneal Rat ρ _ G _ setup := by
  simp only [anneal, calibrate_congr h hschedule, Annealing.run_congr h hschedule]

end Annealer

end BlockPlan

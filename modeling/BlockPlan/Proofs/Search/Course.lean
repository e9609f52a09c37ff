import BlockPlan.Proofs.Cooling.Schedule
import BlockPlan.Proofs.Search.Invariant

/-!
# The course of a search

A search is a row of trials, each made from where the one before it has led.  What the search says
of itself at the end, it has to keep up to date with every trial: the running cost, the best cost
with what was kept of its state, and the number of the trial that led there.

* `Visit`, `states`, `Course` — what a trial leads to, the states that a search passes through, and
  the row of trials.
* `SearchSpace.LawfulOn` — the laws of a search space on the states of an invariant.
* `Standing.Tracks` — what a search knows of its course.
* `trial_cases` — the three ways in which a trial ends.
* **`Standing.Tracks.trial`**, **`Course.tracks`** — what a search knows of its course stays true
  with every trial, and so along the whole course.
* **`trial_keeps`**, **`Course.keeps`** — what the trials keep is kept along the whole course, and
  so is a bound of the costs.
-/

namespace BlockPlan

variable {σ ρ κ : Type}

/-- The laws of a search space on the states of an invariant, up to a notion `same` of equal states:
there taking back a change restores the state, and loading brings back what was kept. -/
structure SearchSpace.LawfulOn (space : SearchSpace Rat σ ρ κ) (I : σ → Prop)
    (same : σ → σ → Prop) : Prop where
  cost_congr : ∀ s t, same s t → space.cost s = space.cost t
  restore_perturb : ∀ s r t, I s → space.perturb.run ⟨s, r⟩ = .ok () t →
    I t.state ∧ ∃ u, space.restore.run t.state = .ok () u ∧ I u ∧ same u s
  load_keep : ∀ s t, I s → I t →
    ∃ u, (space.load (space.keep s)).run t = .ok () u ∧ I u ∧ same u s

lemma SearchSpace.Lawful.lawfulOn {space : SearchSpace Rat σ ρ κ} {same : σ → σ → Prop}
    (h : space.Lawful same) : space.LawfulOn (fun _ => True) same where
  cost_congr := h.cost_congr
  restore_perturb := by
    intro s r t _ hperturb
    obtain ⟨u, hrestore, hsame⟩ := h.restore_perturb s r t hperturb
    exact ⟨trivial, u, hrestore, trivial, hsame⟩
  load_keep := by
    intro s t _ _
    obtain ⟨u, hload, hsame⟩ := h.load_keep s t
    exact ⟨u, hload, trivial, hsame⟩

namespace Annealing

variable {space : SearchSpace Rat σ ρ κ} {I : σ → Prop} {same : σ → σ → Prop}

/-- What a trial leads to. -/
structure Visit (σ ρ κ : Type) where
  standing : Standing Rat κ
  accepted : Bool
  current : Drawn σ ρ

/-- The states that a search passes through: the one to begin with, and one after every trial. -/
def states (first : σ) (visits : List (Visit σ ρ κ)) : List σ :=
  first :: visits.map fun v => v.current.state

lemma states_append (first : σ) (visits : List (Visit σ ρ κ)) (v : Visit σ ρ κ) :
    states first (visits ++ [v]) = states first visits ++ [v.current.state] := by
  simp [states]

lemma length_states (first : σ) (visits : List (Visit σ ρ κ)) :
    (states first visits).length = visits.length + 1 := by
  simp [states]

/-! ## What a search knows of its course -/

/-- Where a search stands, as its visits have it: the running cost is that of the state, and the
best state is the earliest one that no other one undercuts. -/
structure Standing.Tracks (space : SearchSpace Rat σ ρ κ) (I : σ → Prop) (first : σ)
    (visits : List (Visit σ ρ κ)) (s : Standing Rat κ) (current : σ) : Prop where
  inv : I current
  visited : current ∈ states first visits
  cost : space.cost current = .ok s.cost
  running : ∀ v ∈ visits, space.cost v.current.state = .ok v.standing.cost
  iterations : s.iterations = visits.length
  best : ∃ b, (states first visits)[s.bestIteration]? = some b ∧ I b ∧ s.best = space.keep b ∧
    space.cost b = .ok s.bestCost
  taken : s.bestIteration = 0 ∨
    ∃ k v, s.bestIteration = k + 1 ∧ visits[k]? = some v ∧ v.accepted = true
  least : ∀ u ∈ states first visits, ∃ c, space.cost u = .ok c ∧ s.bestCost ≤ c
  earliest : ∀ j < s.bestIteration, ∀ u, (states first visits)[j]? = some u →
    ∃ c, space.cost u = .ok c ∧ s.bestCost < c

namespace Standing.Tracks

variable {first current : σ} {visits : List (Visit σ ρ κ)} {s : Standing Rat κ}

lemma nil {c : Rat} (hI : I first) (hcost : space.cost first = .ok c) :
    Tracks space I first ([] : List (Visit σ ρ κ)) ⟨c, c, space.keep first, 0, 0⟩ first where
  inv := hI
  visited := by simp [states]
  cost := hcost
  running := by simp
  iterations := rfl
  best := ⟨first, rfl, hI, rfl, hcost⟩
  taken := Or.inl rfl
  least := by
    intro u hu
    rw [states, List.map_nil, List.mem_singleton] at hu
    exact ⟨c, hu ▸ hcost, le_rfl⟩
  earliest := by simp

lemma bestCost_le_of_mem (h : Tracks space I first visits s current) {u : σ}
    (hu : u ∈ states first visits) {c : Rat} (hc : space.cost u = .ok c) : s.bestCost ≤ c := by
  obtain ⟨d, hd, hle⟩ := h.least u hu
  rw [hc, Except.ok.injEq] at hd
  exact hd ▸ hle

lemma bestCost_le (h : Tracks space I first visits s current) : s.bestCost ≤ s.cost :=
  h.bestCost_le_of_mem h.visited h.cost

/-- A state that does not undercut the best one is one more state. -/
lemma push (h : Tracks space I first visits s current) {v : Visit σ ρ κ} {c : Rat}
    (hI : I v.current.state) (hcost : space.cost v.current.state = .ok c) (hle : s.bestCost ≤ c)
    (hv : v.standing = { s with cost := c, iterations := s.iterations + 1 }) :
    Tracks space I first (visits ++ [v]) v.standing v.current.state := by
  obtain ⟨b, hb, hIb, hkeep, hbest⟩ := h.best
  have hlt : s.bestIteration < (states first visits).length := (List.getElem?_eq_some_iff.mp hb).1
  rw [hv]
  refine ⟨hI, by simp [states_append], hcost, ?_, by simp [h.iterations], ?_, ?_, ?_, ?_⟩
  · intro w hw
    rcases List.mem_append.mp hw with hw | hw
    · exact h.running w hw
    · rw [List.mem_singleton.mp hw, hcost, hv]
  · refine ⟨b, ?_, hIb, hkeep, hbest⟩
    rw [states_append, List.getElem?_append_left hlt]
    exact hb
  · rcases h.taken with hzero | ⟨k, w, hk, hw, haccepted⟩
    · exact Or.inl hzero
    · refine Or.inr ⟨k, w, hk, ?_, haccepted⟩
      rw [List.getElem?_append_left (List.getElem?_eq_some_iff.mp hw).1]
      exact hw
  · intro u hu
    rw [states_append] at hu
    rcases List.mem_append.mp hu with hu | hu
    · exact h.least u hu
    · exact ⟨c, List.mem_singleton.mp hu ▸ hcost, hle⟩
  · intro j hj u hu
    rw [states_append, List.getElem?_append_left (hj.trans hlt)] at hu
    exact h.earliest j hj u hu

/-- A state that undercuts the best one is the new best state. -/
lemma improve (h : Tracks space I first visits s current) {v : Visit σ ρ κ} {c : Rat}
    (hI : I v.current.state) (hcost : space.cost v.current.state = .ok c) (hlt : c < s.bestCost)
    (haccepted : v.accepted = true)
    (hv : v.standing = ⟨c, c, space.keep v.current.state, s.iterations + 1, s.iterations + 1⟩) :
    Tracks space I first (visits ++ [v]) v.standing v.current.state := by
  have hlength : (states first visits).length = s.iterations + 1 := by
    rw [length_states, h.iterations]
  rw [hv]
  refine ⟨hI, by simp [states_append], hcost, ?_, by simp [h.iterations], ?_, ?_, ?_, ?_⟩
  · intro w hw
    rcases List.mem_append.mp hw with hw | hw
    · exact h.running w hw
    · rw [List.mem_singleton.mp hw, hcost, hv]
  · refine ⟨v.current.state, ?_, hI, rfl, hcost⟩
    rw [states_append, ← hlength, List.getElem?_concat_length]
  · refine Or.inr ⟨visits.length, v, by rw [h.iterations], List.getElem?_concat_length, haccepted⟩
  · intro u hu
    rw [states_append] at hu
    rcases List.mem_append.mp hu with hu | hu
    · obtain ⟨d, hd, hle⟩ := h.least u hu
      exact ⟨d, hd, hlt.le.trans hle⟩
    · exact ⟨c, List.mem_singleton.mp hu ▸ hcost, le_rfl⟩
  · intro j hj u hu
    rw [states_append, List.getElem?_append_left (hlength ▸ hj)] at hu
    obtain ⟨d, hd, hle⟩ := h.least u (List.mem_of_getElem? hu)
    exact ⟨d, hd, hlt.trans_le hle⟩

end Standing.Tracks

/-! ## The trials of a search -/

variable [DrawSource ρ Rat] [Transcendental Rat]

/-- At a temperature that is not zero it can always be decided whether to accept a change, and
nothing but the draws is touched. -/
lemma accept_eq_ok {temperature : Rat} (h : temperature ≠ 0) (delta : Rat) (t : Drawn σ ρ) :
    ∃ b t', (accept delta temperature).run t = .ok b t' ∧ t'.state = t.state := by
  rw [accept]
  split_ifs
  · exact ⟨_, t, rfl, rfl⟩
  · simp only [EStateM.run_bind, Edit.run_drawUnit, divide_eq_ok h, Edit.run_ofExcept_ok]
    exact ⟨_, _, rfl, rfl⟩

/-- **The three ways in which a trial ends**: with a new best state, with another state that is
accepted, or with the change taken back. -/
theorem trial_cases {temperature : Rat} (htemperature : temperature ≠ 0) {s s' : Standing Rat κ}
    {taken : Bool} {t t' : Drawn σ ρ}
    (h : (trial space temperature s).run t = .ok (s', taken) t') :
    ∃ u cost, space.perturb.run t = .ok () u ∧ space.cost u.state = .ok cost ∧
      ((taken = true ∧ t'.state = u.state ∧ cost < s.bestCost ∧
          s' = ⟨cost, cost, space.keep u.state, s.iterations + 1, s.iterations + 1⟩) ∨
        (taken = true ∧ t'.state = u.state ∧ s.bestCost ≤ cost ∧
          s' = { s with cost := cost, iterations := s.iterations + 1 }) ∨
        taken = false ∧ space.restore.run u.state = .ok () t'.state ∧
          s' = { s with iterations := s.iterations + 1 }) := by
  simp only [trial, EStateM.run_bind, EStateM.run_get] at h
  cases hperturb : space.perturb.run t with
  | error e u =>
      rw [hperturb] at h
      cases h
  | ok _ u =>
      simp only [hperturb] at h
      cases hcost : space.cost u.state with
      | error e =>
          rw [hcost, Edit.run_ofExcept_error] at h
          cases h
      | ok cost =>
          obtain ⟨accepted, w, haccept, hw⟩ := accept_eq_ok htemperature (cost - s.cost) u
          simp only [hcost, Edit.run_ofExcept_ok, haccept] at h
          refine ⟨u, cost, rfl, hcost, ?_⟩
          cases accepted with
          | true =>
              simp only [if_true] at h
              split_ifs at h with hbest
              · simp only [EStateM.run_bind, EStateM.run_get, EStateM.run_pure] at h
                cases h
                exact Or.inl ⟨rfl, hw, hbest, by rw [hw]⟩
              · cases h
                exact Or.inr (Or.inl ⟨rfl, hw, not_lt.mp hbest, rfl⟩)
          | false =>
              simp only [Bool.false_eq_true, if_false, EStateM.run_bind, Edit.run_onState, hw] at h
              cases hrestore : space.restore.run u.state with
              | error e z =>
                  rw [hrestore] at h
                  cases h
              | ok _ z =>
                  rw [hrestore] at h
                  cases h
                  exact Or.inr (Or.inr ⟨rfl, rfl, rfl⟩)

/-- A trial succeeds if the change does and leads to a state that has a cost. -/
lemma trial_eq_ok (hspace : space.LawfulOn I same) {temperature : Rat}
    (htemperature : temperature ≠ 0)
    (s : Standing Rat κ) {t u : Drawn σ ρ} (ht : I t.state)
    (hperturb : space.perturb.run t = .ok () u) {cost : Rat}
    (hcost : space.cost u.state = .ok cost) :
    ∃ v t', (trial space temperature s).run t = .ok v t' := by
  obtain ⟨-, z, hrestore, -⟩ := hspace.restore_perturb t.state t.draws u ht hperturb
  obtain ⟨accepted, w, haccept, hw⟩ := accept_eq_ok htemperature (cost - s.cost) u
  simp only [trial, EStateM.run_bind, EStateM.run_get, hperturb, hcost,
    Edit.run_ofExcept_ok, haccept]
  cases accepted with
  | true =>
      simp only [if_true]
      split_ifs
      · exact ⟨_, _, rfl⟩
      · exact ⟨_, _, rfl⟩
  | false =>
      simp only [Bool.false_eq_true, if_false, EStateM.run_bind, Edit.run_onState, hw, hrestore]
      exact ⟨_, _, rfl⟩

/-- **A trial keeps what a search knows of its course true.** -/
theorem Standing.Tracks.trial (hspace : space.LawfulOn I same) {first : σ}
    {visits : List (Visit σ ρ κ)} {s : Standing Rat κ} {t : Drawn σ ρ}
    (h : Tracks space I first visits s t.state) {temperature : Rat} (htemperature : temperature ≠ 0)
    {v : Visit σ ρ κ}
    (hrun : (Annealing.trial space temperature s).run t = .ok (v.standing, v.accepted) v.current) :
    Tracks space I first (visits ++ [v]) v.standing v.current.state := by
  obtain ⟨u, cost, hperturb, hcost, hcases⟩ := trial_cases htemperature hrun
  obtain ⟨hu, w, hrestore, hw, hsame⟩ := hspace.restore_perturb t.state t.draws u h.inv hperturb
  rcases hcases with ⟨htaken, hstate, hlt, hv⟩ | ⟨-, hstate, hle, hv⟩ | ⟨-, hback, hv⟩
  · exact h.improve (hstate ▸ hu) (hstate ▸ hcost) hlt htaken (hstate ▸ hv)
  · exact h.push (hstate ▸ hu) (hstate ▸ hcost) hle hv
  · -- the state before the change comes back, and with it the running cost
    rw [hrestore, EStateM.Result.ok.injEq] at hback
    obtain ⟨-, rfl⟩ := hback
    exact h.push hw ((hspace.cost_congr _ _ hsame).trans h.cost) h.bestCost_le hv

/-- **A trial keeps what its parts keep**, and no cost falls below a bound of the costs that changes
lead to. -/
theorem trial_keeps {K : κ → Prop} (hspace : space.Keeps I K) {bound : Rat}
    (hcost : ∀ u c, I u → space.cost u = .ok c → bound ≤ c) {temperature : Rat}
    (htemperature : temperature ≠ 0) {s : Standing Rat κ} {t : Drawn σ ρ} (ht : I t.state)
    (hs : K s.best ∧ bound ≤ s.cost ∧ bound ≤ s.bestCost) {s' : Standing Rat κ} {taken : Bool}
    {t' : Drawn σ ρ} (hrun : (trial space temperature s).run t = .ok (s', taken) t') :
    I t'.state ∧ K s'.best ∧ bound ≤ s'.cost ∧ bound ≤ s'.bestCost := by
  have hleads := trial_leads hspace temperature hs.1 t ht
  rw [hrun] at hleads
  obtain ⟨u, cost, hperturb, hu, hcases⟩ := trial_cases htemperature hrun
  have hmoved := hspace.perturb t ht
  rw [hperturb] at hmoved
  have hbound := hcost u.state cost hmoved hu
  refine ⟨hleads.1, hleads.2, ?_⟩
  rcases hcases with ⟨-, -, -, rfl⟩ | ⟨-, -, -, rfl⟩ | ⟨-, -, rfl⟩
  · exact ⟨hbound, hbound⟩
  · exact ⟨hbound, hs.2.2⟩
  · exact hs.2

/-! ## The row of trials -/

/-- The trials from a standing and a state on, each made from where the one before it has led, at
the temperature of its level. -/
inductive Course (space : SearchSpace Rat σ ρ κ) (schedule : Schedule Rat) (initial : Rat)
    (s₀ : Standing Rat κ) (t₀ : Drawn σ ρ) :
    List (Visit σ ρ κ) → Standing Rat κ → Drawn σ ρ → Prop
  | start : Course space schedule initial s₀ t₀ [] s₀ t₀
  | trial {visits : List (Visit σ ρ κ)} {s : Standing Rat κ} {t : Drawn σ ρ} {temperature : Rat}
      {v : Visit σ ρ κ} : Course space schedule initial s₀ t₀ visits s t →
      schedule.temperatureAt (visits.length / schedule.trials.toNat : Nat) initial
        = .ok temperature →
      (Annealing.trial space temperature s).run t = .ok (v.standing, v.accepted) v.current →
      Course space schedule initial s₀ t₀ (visits ++ [v]) v.standing v.current

namespace Course

variable {schedule : Schedule Rat} {initial : Rat} {s₀ s : Standing Rat κ} {t₀ t : Drawn σ ρ}
  {visits : List (Visit σ ρ κ)}

/-- **What a search knows of its course is true along the whole course.** -/
theorem tracks (hspace : space.LawfulOn I same) (hschedule : schedule.Sensible)
    (hstart : Standing.Tracks space I t₀.state ([] : List (Visit σ ρ κ)) s₀ t₀.state)
    (h : Course space schedule initial s₀ t₀ visits s t) :
    Standing.Tracks space I t₀.state visits s t.state := by
  induction h with
  | start => exact hstart
  | trial _ htemperature hrun ih =>
      obtain ⟨temperature, hok, hfloor⟩ := Schedule.temperatureAt_eq_ok hschedule _ initial
      rw [hok] at htemperature
      cases htemperature
      exact ih.trial hspace (hschedule.floor.trans_le hfloor).ne' hrun

/-- **What the trials of a search keep is kept along its whole course**, and no cost falls below a
bound of the costs that changes lead to. -/
theorem keeps {K : κ → Prop} (hspace : space.Keeps I K) (hschedule : schedule.Sensible)
    {bound : Rat} (hcost : ∀ u c, I u → space.cost u = .ok c → bound ≤ c) (ht₀ : I t₀.state)
    (hs₀ : K s₀.best ∧ bound ≤ s₀.cost ∧ bound ≤ s₀.bestCost)
    (h : Course space schedule initial s₀ t₀ visits s t) :
    I t.state ∧ K s.best ∧ bound ≤ s.cost ∧ bound ≤ s.bestCost := by
  induction h with
  | start => exact ⟨ht₀, hs₀⟩
  | trial _ htemperature hrun ih =>
      obtain ⟨temperature, hok, hfloor⟩ := Schedule.temperatureAt_eq_ok hschedule _ initial
      rw [hok] at htemperature
      cases htemperature
      exact trial_keeps hspace hcost (hschedule.floor.trans_le hfloor).ne' ih.1 ih.2 hrun

/-- The last visit of a course is where the search stands. -/
lemma getLast?_eq (h : Course space schedule initial s₀ t₀ visits s t) {v : Visit σ ρ κ}
    (hv : visits.getLast? = some v) : v.standing = s := by
  cases h with
  | start => simp at hv
  | trial =>
      rw [List.getLast?_concat, Option.some.injEq] at hv
      exact hv ▸ rfl

end Course

end Annealing

end BlockPlan

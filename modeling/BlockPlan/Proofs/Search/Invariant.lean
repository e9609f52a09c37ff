import BlockPlan.Proofs.Edit
import BlockPlan.Search.Annealing

/-!
# What a search keeps

Whatever the operations of a search space keep, whether they succeed or fail, a whole search keeps:
every trial, every level and the loading of the best state at the end.

* `SearchSpace.Keeps` — an invariant of the states, and what it means for that which is kept of
  them.
* `trial_leads` — a single trial keeps the invariant.
* **`run_loads`**, **`run_leads`** — so does a search, and it ends with what loading leads to.
-/

namespace BlockPlan

variable {α σ ρ κ : Type} [DrawSource ρ α]

/-- An invariant `I` of the states of a search space, and `K` of what is kept of them, that all
operations keep. -/
structure SearchSpace.Keeps (space : SearchSpace α σ ρ κ) (I : σ → Prop) (K : κ → Prop) : Prop where
  perturb : Edit.Leads (fun t => I t.state) space.perturb (fun _ t => I t.state)
    (fun t => I t.state)
  restore : Edit.Leads I space.restore (fun _ => I) I
  keep : ∀ s, I s → K (space.keep s)
  load : ∀ k, K k → Edit.Leads I (space.load k) (fun _ => I) I

namespace Annealing

omit [DrawSource ρ α] in
/-- A state with its draws leads the whole run as it leads by itself. -/
lemma onCurrent_leads {β : Type} {edit : Edit α (Drawn σ ρ) β} {P : Drawn σ ρ → Prop}
    {Q : β → Drawn σ ρ → Prop} {E : Drawn σ ρ → Prop} (h : Edit.Leads P edit Q E) :
    Edit.Leads (fun r : Run α σ ρ => P r.current) (onCurrent edit) (fun v r => Q v r.current)
      (fun r => E r.current) :=
  h.within fun _ _ => rfl

omit [DrawSource ρ α] in
lemma note_leads {I : σ → Prop} (e : Event α) :
    Edit.Leads (fun r : Run α σ ρ => I r.current.state) (note e) (fun _ r => I r.current.state)
      (fun r => I r.current.state) :=
  Edit.Leads.modify fun _ hr => hr

variable [Scalar α] [Transcendental α] {space : SearchSpace α σ ρ κ} {I : σ → Prop} {K : κ → Prop}

lemma accept_leads (delta temperature : α) :
    Edit.Leads (fun t : Drawn σ ρ => I t.state) (accept delta temperature)
      (fun _ t => I t.state) (fun t => I t.state) := by
  refine Edit.Leads.ite (fun _ => Edit.Leads.pure fun _ ht => ht) fun _ => ?_
  refine Edit.Leads.bind Edit.Leads.drawUnit fun _ => ?_
  refine Edit.Leads.bind (Edit.Leads.ofExcept (fun _ _ _ ht => ht) fun _ _ _ ht => ht) fun _ => ?_
  refine Edit.Leads.bind (Edit.Leads.ofExcept (fun _ _ _ ht => ht) fun _ _ _ ht => ht) fun _ => ?_
  exact Edit.Leads.pure fun _ ht => ht

lemma trial_leads (h : space.Keeps I K) (temperature : α) {s : Standing α κ} (hs : K s.best) :
    Edit.Leads (fun t => I t.state) (trial space temperature s)
      (fun v t => I t.state ∧ K v.1.best) (fun t => I t.state) := by
  refine Edit.Leads.bind h.perturb fun _ => Edit.Leads.bind Edit.Leads.get fun t => ?_
  refine Edit.Leads.bind (Edit.Leads.ofExcept (fun _ _ _ ht => ht.1) fun _ _ _ ht => ht.1)
    fun cost => ?_
  refine Edit.Leads.bind (accept_leads _ _) fun taken => ?_
  refine Edit.Leads.ite (fun _ => Edit.Leads.ite (fun _ => ?_) fun _ => ?_) fun _ => ?_
  · -- a new best state
    refine Edit.Leads.bind Edit.Leads.get fun t => Edit.Leads.pure fun _ ht => ?_
    exact ⟨ht.1, h.keep _ ht.2⟩
  · exact Edit.Leads.pure fun _ ht => ⟨ht, hs⟩
  · -- the trial is taken back
    exact Edit.Leads.bind h.restore.onState fun _ => Edit.Leads.pure fun _ ht => ⟨ht, hs⟩

lemma trials_leads (h : space.Keeps I K) (temperature : α) (count : Nat) :
    ∀ (accepted : Nat) {s : Standing α κ}, K s.best →
      Edit.Leads (fun t => I t.state) (trials space temperature count accepted s)
        (fun v t => I t.state ∧ K v.1.best) (fun t => I t.state) := by
  induction count with
  | zero => exact fun _ _ hs => Edit.Leads.pure fun _ ht => ⟨ht, hs⟩
  | succ count ih =>
      intro accepted s hs
      exact Edit.Leads.bind (trial_leads h temperature hs) fun v =>
        Edit.Leads.fact fun hv => ih _ hv

lemma level_leads (h : space.Keeps I K) (schedule : Schedule α) (initial : α) (index : Nat)
    {s : Standing α κ} (hs : K s.best) :
    Edit.Leads (fun r => I r.current.state) (level space schedule initial index s)
      (fun v r => I r.current.state ∧ K v.1.best) (fun r => I r.current.state) := by
  refine Edit.Leads.bind (Edit.Leads.ofExcept (fun _ _ _ hr => hr) fun _ _ _ hr => hr) fun t => ?_
  refine Edit.Leads.bind (onCurrent_leads (trials_leads h t _ 0 hs)) fun v => ?_
  refine Edit.Leads.fact fun hv => Edit.Leads.bind (note_leads _) fun _ => ?_
  exact Edit.Leads.pure fun _ hr => ⟨hr, hv⟩

lemma levels_leads (h : space.Keeps I K) (schedule : Schedule α) (initial : α) (count : Nat) :
    ∀ (index : Nat) {s : Standing α κ}, K s.best →
      Edit.Leads (fun r => I r.current.state) (levels space schedule initial count index s)
        (fun v r => I r.current.state ∧ K v.1.best) (fun r => I r.current.state) := by
  induction count with
  | zero => exact fun _ _ hs => Edit.Leads.pure fun _ hr => ⟨hr, hs⟩
  | succ count ih =>
      intro index s hs
      refine Edit.Leads.bind (level_leads h schedule initial index hs) fun v => ?_
      refine Edit.Leads.fact fun hv => Edit.Leads.bind (ih (index + 1) hv) fun w => ?_
      exact Edit.Leads.pure fun _ hr => hr

/-- **A search that succeeds ends with whatever loading leads to.** -/
theorem run_loads (h : space.Keeps I K) {L : σ → Prop} (hLI : ∀ s, L s → I s)
    (hload : ∀ k, K k → Edit.Leads I (space.load k) (fun _ => L) I) (schedule : Schedule α)
    (initial : α) :
    Edit.Leads (fun r => I r.current.state) (run space schedule initial)
      (fun _ r => L r.current.state) (fun r => I r.current.state) := by
  refine Edit.Leads.bind Edit.Leads.get fun start => Edit.Leads.fact fun hstart => ?_
  refine Edit.Leads.bind (Edit.Leads.ofExcept (fun _ _ _ hr => hr) fun _ _ _ hr => hr)
    fun cost => ?_
  refine Edit.Leads.bind (note_leads _) fun _ => ?_
  refine Edit.Leads.bind (levels_leads h schedule initial _ 0 (h.keep _ hstart)) fun v => ?_
  refine Edit.Leads.fact fun hv => ?_
  -- the best state is loaded
  refine Edit.Leads.bind (onCurrent_leads (hload _ hv).onState) fun _ => ?_
  refine Edit.Leads.bind Edit.Leads.get fun last => ?_
  refine Edit.Leads.bind (Edit.Leads.ofExcept (fun _ _ _ hr => hr.1) fun _ _ _ hr => hLI _ hr.1)
    fun final => ?_
  exact Edit.Leads.bind (Edit.Leads.modify (Q := fun _ r => L r.current.state) fun _ hr => hr)
    fun _ => Edit.Leads.pure fun _ hr => hr

/-- **A search keeps whatever the operations of its space keep.** -/
theorem run_leads (h : space.Keeps I K) (schedule : Schedule α) (initial : α) :
    Edit.Leads (fun r => I r.current.state) (run space schedule initial)
      (fun _ r => I r.current.state) (fun r => I r.current.state) :=
  run_loads h (fun _ hs => hs) h.load schedule initial

end Annealing

end BlockPlan

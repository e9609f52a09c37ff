import Mathlib
import BlockPlan.Draws.Basic

/-!
# Running edits

Equations that run an `Edit` step by step, and what it means that an edit keeps an invariant even
when it fails.

* `Edit.run_within`, `Edit.run_ofExcept_ok`, `Edit.run_onState`, `Edit.run_drawUnit`,
  `Edit.run_drawBelow` — one equation for each way to build an edit, beside those of the standard
  library for binding, getting and setting.
* `Edit.Leads` — from some states, an edit that succeeds leads to states of one kind, and one that
  fails to states of another kind.
* `Edit.Maintains` — whatever becomes of an edit, it keeps what holds of the state.
* `Edit.after` — the state that an edit leaves behind, whether it succeeds or not.
* `Edit.FailsOnly` — from some states, an edit fails with faults of one kind alone.
-/

namespace BlockPlan

/-- Of two steps that end well, both end well. -/
lemma bind_eq_ok {ε β γ : Type} {x : Except ε β} {f : β → Except ε γ} {c : γ} :
    x >>= f = .ok c ↔ ∃ b, x = .ok b ∧ f b = .ok c := by
  cases x with
  | error e => simp [bind, Except.bind]
  | ok b => simp [bind, Except.bind]

/-- A step whose outcome is changed ends well if it does so by itself. -/
lemma map_eq_ok {ε β γ : Type} {x : Except ε β} {f : β → γ} {c : γ} :
    x.map f = .ok c ↔ ∃ b, x = .ok b ∧ f b = c := by
  cases x with
  | error e => simp [Except.map]
  | ok b => simp [Except.map]

lemma mapM_eq_ok {ε β γ : Type} {f : β → Except ε γ} {g : β → γ} {xs : List β}
    (h : ∀ x ∈ xs, f x = .ok (g x)) : xs.mapM f = .ok (xs.map g) := by
  induction xs with
  | nil => rfl
  | cons x xs ih =>
      rw [List.mapM_cons, h x (by simp), ih fun y hy => h y (by simp [hy])]
      rfl

lemma mapM_exists_ok {ε β γ : Type} {f : β → Except ε γ} {xs : List β}
    (h : ∀ x ∈ xs, ∃ y, f x = .ok y) : ∃ ys, xs.mapM f = .ok ys := by
  induction xs with
  | nil => exact ⟨[], rfl⟩
  | cons x xs ih =>
      obtain ⟨y, hy⟩ := h x (by simp)
      obtain ⟨ys, hys⟩ := ih fun z hz => h z (by simp [hz])
      exact ⟨y :: ys, by rw [List.mapM_cons, hy, hys]; rfl⟩

namespace Edit

variable {α σ τ β γ ρ : Type}

/-! ## Equations -/

@[simp] lemma run_within (part : τ → σ) (put : σ → τ → τ) (edit : Edit α σ β) (t : τ) :
    (within part put edit).run t =
      match edit.run (part t) with
      | .ok b s => .ok b (put s t)
      | .error e s => .error e (put s t) := rfl

@[simp] lemma run_ofExcept_ok (b : β) (s : σ) :
    (ofExcept (.ok b) : Edit α σ β).run s = .ok b s := rfl

@[simp] lemma run_ofExcept_error (e : Fault α) (s : σ) :
    (ofExcept (.error e) : Edit α σ β).run s = .error e s := rfl

/-- Of two edits in a row that succeed, both succeed. -/
lemma run_bind_eq_ok {x : Edit α σ β} {f : β → Edit α σ γ} {s u : σ} {c : γ} :
    (x >>= f).run s = .ok c u ↔ ∃ b t, x.run s = .ok b t ∧ (f b).run t = .ok c u := by
  rw [EStateM.run_bind]
  cases x.run s <;> simp

@[simp] lemma run_onState (edit : Edit α σ β) (t : Drawn σ ρ) :
    (onState edit).run t =
      match edit.run t.state with
      | .ok b s => .ok b { t with state := s }
      | .error e s => .error e { t with state := s } := rfl

@[simp] lemma run_drawUnit [DrawSource ρ α] (t : Drawn σ ρ) :
    (drawUnit : Edit α (Drawn σ ρ) α).run t =
      .ok (DrawSource.unit t.draws).1 { t with draws := (DrawSource.unit t.draws).2 } := rfl

lemma run_drawBelow [DrawSource ρ α] {n : Nat} (hn : 0 < n) (t : Drawn σ ρ) :
    (drawBelow n : Edit α (Drawn σ ρ) Nat).run t =
      .ok (DrawSource.below n t.draws).1 { t with draws := (DrawSource.below n t.draws).2 } :=
  if_neg (by omega)

@[simp] lemma run_drawBelow_zero [DrawSource ρ α] (t : Drawn σ ρ) :
    (drawBelow 0 : Edit α (Drawn σ ρ) Nat).run t = .error .emptyDrawRange t := rfl

/-! ## What an edit leads to -/

/-- From states with `P`, success leads to `Q` and failure to `E`. -/
def Leads (P : σ → Prop) (edit : Edit α σ β) (Q : β → σ → Prop) (E : σ → Prop) : Prop :=
  ∀ s, P s →
    match edit.run s with
    | .ok b t => Q b t
    | .error _ t => E t

/-- The state that an edit leaves behind. -/
def after (edit : Edit α σ β) (s : σ) : σ := (edit.outcome s).2

section Leads

variable {P : σ → Prop} {Q : β → σ → Prop} {E : σ → Prop}

lemma Leads.of_ok {edit : Edit α σ β} (h : ∀ s, P s → ∃ b t, edit.run s = .ok b t ∧ Q b t) :
    Leads P edit Q E := by
  intro s hs
  obtain ⟨b, t, hrun, hq⟩ := h s hs
  rw [hrun]
  exact hq

/-- Nothing is asked of the states in front of the edit and after it. -/
lemma Leads.anywhere (edit : Edit α σ β) :
    Leads (fun _ => True) edit (fun _ _ => True) fun _ => True := by
  intro s _
  cases edit.run s <;> trivial

lemma Leads.pure {b : β} (h : ∀ s, P s → Q b s) : Leads P (pure b : Edit α σ β) Q E :=
  fun s hs => h s hs

lemma Leads.get : Leads P (get : Edit α σ σ) (fun b s => P s ∧ P b) E :=
  fun _ hs => ⟨hs, hs⟩

lemma Leads.modify {f : σ → σ} {Q : Unit → σ → Prop} (h : ∀ s, P s → Q () (f s)) :
    Leads P (modify f : Edit α σ Unit) Q E :=
  fun s hs => h s hs

lemma Leads.bind {R : γ → σ → Prop} {x : Edit α σ β} {f : β → Edit α σ γ}
    (hx : Leads P x Q E) (hf : ∀ b, Leads (Q b) (f b) R E) : Leads P (x >>= f) R E := by
  intro s hs
  have hfirst := hx s hs
  rw [EStateM.run_bind]
  cases hrun : x.run s with
  | ok b t =>
      rw [hrun] at hfirst
      exact hf b t hfirst
  | error e t =>
      rw [hrun] at hfirst
      exact hfirst

/-- What holds whatever the state may be taken out of the condition on the states. -/
lemma Leads.fact {edit : Edit α σ β} {c : Prop} (h : c → Leads P edit Q E) :
    Leads (fun s => P s ∧ c) edit Q E :=
  fun s hs => h hs.2 s hs.1

/-- So may be taken what exists in the states. -/
lemma Leads.exists {ι : Type} {P : ι → σ → Prop} {edit : Edit α σ β}
    (h : ∀ i, Leads (P i) edit Q E) : Leads (fun s => ∃ i, P i s) edit Q E :=
  fun s ⟨i, hs⟩ => h i s hs

lemma Leads.ofExcept {r : Except (Fault α) β} (hok : ∀ b, r = .ok b → ∀ s, P s → Q b s)
    (herror : ∀ e, r = .error e → ∀ s, P s → E s) : Leads P (Edit.ofExcept r : Edit α σ β) Q E := by
  intro s hs
  cases r with
  | ok b => exact hok b rfl s hs
  | error e => exact herror e rfl s hs

lemma Leads.ofExcept_ok {r : Except (Fault α) β} (hr : ∃ b, r = .ok b)
    (hok : ∀ b s, P s → Q b s) : Leads P (Edit.ofExcept r : Edit α σ β) Q E := by
  obtain ⟨b, rfl⟩ := hr
  exact fun s hs => hok b s hs

lemma Leads.mono {P' : σ → Prop} {Q' : β → σ → Prop} {E' : σ → Prop} {edit : Edit α σ β}
    (h : Leads P edit Q E) (hp : ∀ s, P' s → P s) (hq : ∀ b s, Q b s → Q' b s)
    (he : ∀ s, E s → E' s) : Leads P' edit Q' E' := by
  intro s hs
  have hrun := h s (hp s hs)
  cases hr : edit.run s with
  | ok b t =>
      rw [hr] at hrun
      exact hq b t hrun
  | error e t =>
      rw [hr] at hrun
      exact he t hrun

lemma Leads.and {Q' : β → σ → Prop} {E' : σ → Prop} {edit : Edit α σ β} (h : Leads P edit Q E)
    (h' : Leads P edit Q' E') :
    Leads P edit (fun b s => Q b s ∧ Q' b s) (fun s => E s ∧ E' s) := by
  intro s hs
  have hfirst := h s hs
  have hsecond := h' s hs
  cases hr : edit.run s with
  | ok b t =>
      rw [hr] at hfirst hsecond
      exact ⟨hfirst, hsecond⟩
  | error e t =>
      rw [hr] at hfirst hsecond
      exact ⟨hfirst, hsecond⟩

/-- Whatever every edit of a list keeps, all of them in turn keep. -/
lemma Leads.forM {f : γ → Edit α σ Unit} {xs : List γ}
    (h : ∀ x ∈ xs, Leads P (f x) (fun _ => P) E) : Leads P (xs.forM f) (fun _ => P) E := by
  induction xs with
  | nil => exact Leads.pure fun _ hs => hs
  | cons x xs ih => exact Leads.bind (h x (by simp)) fun _ => ih fun y hy => h y (by simp [hy])

/-- An edit that leads nowhere when it fails does not fail. -/
lemma Leads.ok {edit : Edit α σ β} (h : Leads P edit Q fun _ => False) {s : σ} (hs : P s) :
    ∃ b t, edit.run s = .ok b t ∧ Q b t := by
  have hrun := h s hs
  cases hr : edit.run s with
  | ok b t =>
      rw [hr] at hrun
      exact ⟨b, t, rfl, hrun⟩
  | error e t =>
      rw [hr] at hrun
      exact hrun.elim

lemma Leads.weaken {P' : σ → Prop} {edit : Edit α σ β} (h : Leads P edit Q E)
    (hp : ∀ s, P' s → P s) : Leads P' edit Q E :=
  fun s hs => h s (hp s hs)

/-- An edit that does not fail leads nowhere else when it does. -/
lemma Leads.of_total {edit : Edit α σ β} (h : Leads P edit Q fun _ => False) : Leads P edit Q E :=
  h.mono (fun _ hs => hs) (fun _ _ hs => hs) fun _ hs => hs.elim

/-- An edit of a part leads the whole as it leads the part. -/
lemma Leads.within {part : τ → σ} {put : σ → τ → τ} {edit : Edit α σ β} (h : Leads P edit Q E)
    (hput : ∀ s t, part (put s t) = s) :
    Leads (fun t => P (part t)) (within part put edit) (fun b t => Q b (part t))
      (fun t => E (part t)) := by
  intro t ht
  have hrun := h (part t) ht
  rw [run_within]
  cases hr : edit.run (part t) with
  | ok b s =>
      rw [hr] at hrun
      simpa only [hput] using hrun
  | error e s =>
      rw [hr] at hrun
      simpa only [hput] using hrun

lemma Leads.onState {edit : Edit α σ β} (h : Leads P edit Q E) :
    Leads (fun t : Drawn σ ρ => P t.state) (onState edit) (fun b t => Q b t.state)
      (fun t => E t.state) :=
  h.within fun _ _ => rfl

lemma Leads.drawUnit [DrawSource ρ α] :
    Leads (fun t : Drawn σ ρ => P t.state) drawUnit (fun _ t => P t.state) (fun t => E t.state) :=
  fun _ ht => ht

lemma Leads.ite {c : Prop} [Decidable c] {x y : Edit α σ β} (hx : c → Leads P x Q E)
    (hy : ¬ c → Leads P y Q E) : Leads P (if c then x else y) Q E := by
  split_ifs with h
  · exact hx h
  · exact hy h

/-- Where an edit that succeeds has led to. -/
lemma Leads.of_run {edit : Edit α σ β} (h : Leads P edit Q E) {s t : σ} {b : β} (hs : P s)
    (hrun : edit.run s = .ok b t) : Q b t := by
  have hleads := h s hs
  rwa [hrun] at hleads

/-- What holds after success and after failure holds after the edit. -/
lemma Leads.after {edit : Edit α σ β} {I : σ → Prop} (h : Leads P edit (fun _ => I) I) {s : σ}
    (hs : P s) : I (edit.after s) := by
  have hrun := h s hs
  rw [Edit.after, outcome]
  cases hr : edit.run s with
  | ok b t =>
      rw [hr] at hrun
      exact hrun
  | error e t =>
      rw [hr] at hrun
      exact hrun

end Leads

/-! ## What an edit maintains -/

/-- Whether it succeeds or fails, an edit keeps what holds of the state. -/
abbrev Maintains (I : σ → Prop) (edit : Edit α σ β) : Prop := Leads I edit (fun _ => I) I

section Maintains

variable {I : σ → Prop}

lemma Maintains.throw (e : Fault α) : Maintains I (throw e : Edit α σ β) := fun _ hs => hs

lemma Maintains.set {s : σ} (h : I s) : Maintains I (set s : Edit α σ PUnit) := fun _ _ => h

lemma Maintains.ofExcept (r : Except (Fault α) β) : Maintains I (Edit.ofExcept r) :=
  Leads.ofExcept (fun _ _ _ hs => hs) fun _ _ _ hs => hs

/-- What an edit does with the state that it reads, it may do knowing that it is one of those. -/
lemma Maintains.read {f : σ → Edit α σ β} (h : ∀ s, I s → Maintains I (f s)) :
    Maintains I (get >>= f) :=
  fun s hs => h s hs s hs

lemma Maintains.drawBelow [DrawSource ρ α] (n : Nat) :
    Maintains (fun t : Drawn σ ρ => I t.state) (Edit.drawBelow n) := by
  intro t ht
  rcases Nat.eq_zero_or_pos n with rfl | hn
  · exact ht
  · rw [run_drawBelow hn]
    exact ht

/-- An edit of a part keeps what holds of the whole if the part is put back in a
way that keeps it. -/
lemma Maintains.within {J : τ → Prop} {part : τ → σ} {put : σ → τ → τ} {edit : Edit α σ β}
    (h : Maintains I edit) (hpart : ∀ t, J t → I (part t)) (hput : ∀ s t, J t → I s → J (put s t)) :
    Maintains J (within part put edit) := by
  intro t ht
  have hrun := h (part t) (hpart t ht)
  rw [run_within]
  cases hr : edit.run (part t) with
  | ok b s =>
      rw [hr] at hrun
      exact hput s t ht hrun
  | error e s =>
      rw [hr] at hrun
      exact hput s t ht hrun

/-- So does any edit of a part on which it does not depend. -/
lemma Maintains.beside {J : τ → Prop} {part : τ → σ} {put : σ → τ → τ} (edit : Edit α σ β)
    (hput : ∀ s t, J t → J (put s t)) : Maintains J (Edit.within part put edit) := by
  have hany : Maintains (fun _ => True) edit := by
    intro s _
    cases edit.run s <;> trivial
  exact hany.within (fun _ _ => trivial) fun s t ht _ => hput s t ht

end Maintains

/-! ## How an edit fails -/

/-- From states with `P`, an edit fails with no other faults than those of `F`. -/
def FailsOnly (P : σ → Prop) (edit : Edit α σ β) (F : Fault α → Prop) : Prop :=
  ∀ s, P s → ∀ e t, edit.run s = .error e t → F e

section FailsOnly

variable {P : σ → Prop} {Q : β → σ → Prop} {E : σ → Prop} {F : Fault α → Prop}

/-- An edit that does not fail fails as one likes. -/
lemma Leads.failsOnly {edit : Edit α σ β} (h : Leads P edit Q fun _ => False) :
    FailsOnly P edit F := by
  intro s hs e t hrun
  obtain ⟨b, u, hok, -⟩ := h.ok hs
  rw [hrun] at hok
  cases hok

/-- Of two steps, the second one starts from what the first one leads to. -/
lemma FailsOnly.bind {x : Edit α σ β} {f : β → Edit α σ γ} (hx : FailsOnly P x F)
    (hleads : Leads P x Q E) (hf : ∀ b, FailsOnly (Q b) (f b) F) : FailsOnly P (x >>= f) F := by
  intro s hs e t hrun
  have hfirst := hleads s hs
  rw [EStateM.run_bind] at hrun
  cases hr : x.run s with
  | ok b u =>
      rw [hr] at hfirst hrun
      exact hf b u hfirst e t hrun
  | error e' u =>
      rw [hr] at hrun
      cases hrun
      exact hx s hs _ _ hr

/-- Only the second step can fail if the first one does not. -/
lemma FailsOnly.bind_ok {x : Edit α σ β} {f : β → Edit α σ γ}
    (hleads : Leads P x Q fun _ => False) (hf : ∀ b, FailsOnly (Q b) (f b) F) :
    FailsOnly P (x >>= f) F :=
  FailsOnly.bind hleads.failsOnly hleads hf

lemma FailsOnly.pure (b : β) : FailsOnly P (pure b : Edit α σ β) F :=
  (Leads.pure (Q := fun _ _ => True) fun _ _ => trivial).failsOnly

lemma FailsOnly.ofExcept {r : Except (Fault α) β} (h : ∀ e, r = .error e → F e) :
    FailsOnly P (Edit.ofExcept r : Edit α σ β) F := by
  intro s _ e t hrun
  cases r with
  | ok b => cases hrun
  | error e' =>
      cases hrun
      exact h e rfl

lemma FailsOnly.fact {edit : Edit α σ β} {c : Prop} (h : c → FailsOnly P edit F) :
    FailsOnly (fun s => P s ∧ c) edit F :=
  fun s hs => h hs.2 s hs.1

lemma FailsOnly.weaken {P' : σ → Prop} {edit : Edit α σ β} (h : FailsOnly P edit F)
    (hp : ∀ s, P' s → P s) : FailsOnly P' edit F :=
  fun s hs => h s (hp s hs)

lemma FailsOnly.ite {c : Prop} [Decidable c] {x y : Edit α σ β} (hx : c → FailsOnly P x F)
    (hy : ¬ c → FailsOnly P y F) : FailsOnly P (if c then x else y) F := by
  split_ifs with h
  · exact hx h
  · exact hy h

/-- An edit of a part fails on the whole as it fails on the part. -/
lemma FailsOnly.within {part : τ → σ} {put : σ → τ → τ} {edit : Edit α σ β}
    (h : FailsOnly P edit F) : FailsOnly (fun t => P (part t)) (within part put edit) F := by
  intro t ht e t' hrun
  rw [run_within] at hrun
  cases hr : edit.run (part t) with
  | ok b s =>
      rw [hr] at hrun
      cases hrun
  | error e' s =>
      rw [hr] at hrun
      cases hrun
      exact h _ ht _ _ hr

end FailsOnly

end Edit

end BlockPlan

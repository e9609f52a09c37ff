import BlockPlan.Proofs.Edit

/-!
# Edits that mirror each other

Two edits mirror each other when they do the same from related states: both succeed, with related
results, or both fail with the same fault, and either way the states stay related.  So two runs of a
program are compared step by step, whatever it is that their states differ in.

* `Edit.Mirrored`, `Edit.Mirrors` — what this means of two outcomes, and of two edits.
* `Mirrors.bind`, `Mirrors.within`, `Mirrors.forM` and others — one rule for each way to build an
  edit.
* **`Mirrors.of_image`** — an edit that works on the image of a state as on the state mirrors itself
  on states with the same image.
* `Mirrors.run_ok`, `Mirrors.after` — what the edits leave behind is related.
-/

namespace BlockPlan

/-- States that are related, beside the same draws. -/
def Drawn.Like {σ σ' ρ : Type} (R : σ → σ' → Prop) (t : Drawn σ ρ) (t' : Drawn σ' ρ) : Prop :=
  R t.state t'.state ∧ t.draws = t'.draws

lemma Drawn.like_eq_iff {σ ρ : Type} {t t' : Drawn σ ρ} : Like Eq t t' ↔ t = t' := by
  cases t
  cases t'
  simp only [Like, Drawn.mk.injEq]

namespace Edit

variable {α σ σ' τ τ' β β' γ γ' ρ : Type}

/-- Two outcomes of the same kind: both successful, with related results, or both with the same
fault. -/
inductive Mirrored (R : σ → σ' → Prop) (S : β → β' → Prop) :
    EStateM.Result (Fault α) σ β → EStateM.Result (Fault α) σ' β' → Prop
  | ok {b : β} {b' : β'} {t : σ} {t' : σ'} : S b b' → R t t' → Mirrored R S (.ok b t) (.ok b' t')
  | error {e : Fault α} {t : σ} {t' : σ'} : R t t' → Mirrored R S (.error e t) (.error e t')

/-- From related states two edits have outcomes of the same kind, and leave related states. -/
def Mirrors (R : σ → σ' → Prop) (S : β → β' → Prop) (x : Edit α σ β) (x' : Edit α σ' β') : Prop :=
  ∀ s s', R s s' → Mirrored R S (x.run s) (x'.run s')

section Rules

variable {R : σ → σ' → Prop} {S : β → β' → Prop} {U : γ → γ' → Prop}

lemma Mirrors.refl (x : Edit α σ β) : Mirrors Eq Eq x x := by
  rintro s _ rfl
  cases x.run s with
  | ok b t => exact .ok rfl rfl
  | error e t => exact .error rfl

lemma Mirrors.pure {b : β} {b' : β'} (h : S b b') :
    Mirrors R S (pure b : Edit α σ β) (pure b' : Edit α σ' β') :=
  fun _ _ hs => .ok h hs

lemma Mirrors.throw (e : Fault α) : Mirrors R S (throw e : Edit α σ β) (throw e : Edit α σ' β') :=
  fun _ _ hs => .error hs

lemma Mirrors.get : Mirrors R R (get : Edit α σ σ) (get : Edit α σ' σ') :=
  fun _ _ hs => .ok hs hs

lemma Mirrors.set {s : σ} {s' : σ'} (h : R s s') :
    Mirrors R Eq (set s : Edit α σ PUnit) (set s' : Edit α σ' PUnit) :=
  fun _ _ _ => .ok rfl h

lemma Mirrors.modify {f : σ → σ} {f' : σ' → σ'} (h : ∀ s s', R s s' → R (f s) (f' s')) :
    Mirrors R Eq (modify f : Edit α σ PUnit) (modify f' : Edit α σ' PUnit) :=
  fun s s' hs => .ok rfl (h s s' hs)

lemma Mirrors.bind {x : Edit α σ β} {x' : Edit α σ' β'} {f : β → Edit α σ γ}
    {f' : β' → Edit α σ' γ'} (hx : Mirrors R S x x')
    (hf : ∀ b b', S b b' → Mirrors R U (f b) (f' b')) : Mirrors R U (x >>= f) (x' >>= f') := by
  intro s s' hs
  have hfirst := hx s s' hs
  rw [EStateM.run_bind, EStateM.run_bind]
  generalize x.run s = r at hfirst
  generalize x'.run s' = r' at hfirst
  cases hfirst with
  | ok hb ht => exact hf _ _ hb _ _ ht
  | error ht => exact .error ht

/-- Two steps of which the first one has the same result on both sides. -/
lemma Mirrors.bind_eq {x : Edit α σ β} {x' : Edit α σ' β} {f : β → Edit α σ γ}
    {f' : β → Edit α σ' γ'} (hx : Mirrors R Eq x x') (hf : ∀ b, Mirrors R U (f b) (f' b)) :
    Mirrors R U (x >>= f) (x' >>= f') := by
  refine hx.bind ?_
  rintro b _ rfl
  exact hf b

/-- Results that are worked out from each other. -/
lemma Mirrors.ofExcept_map (f : β → β') (r : Except (Fault α) β) :
    Mirrors R (fun b b' => b' = f b) (ofExcept r : Edit α σ β)
      (ofExcept (r.map f) : Edit α σ' β') := by
  intro s s' hs
  cases r with
  | ok b => exact .ok rfl hs
  | error e => exact .error hs

lemma Mirrors.ofExcept (r : Except (Fault α) β) :
    Mirrors R Eq (Edit.ofExcept r : Edit α σ β) (Edit.ofExcept r : Edit α σ' β) := by
  intro s s' hs
  cases r with
  | ok b => exact .ok rfl hs
  | error e => exact .error hs

lemma Mirrors.ite {c c' : Prop} [Decidable c] [Decidable c'] {x y : Edit α σ β}
    {x' y' : Edit α σ' β'} (hc : c ↔ c') (hx : c → Mirrors R S x x') (hy : ¬ c → Mirrors R S y y') :
    Mirrors R S (if c then x else y) (if c' then x' else y') := by
  by_cases h : c
  · rw [if_pos h, if_pos (hc.mp h)]
    exact hx h
  · rw [if_neg h, if_neg fun h' => h (hc.mpr h')]
    exact hy h

lemma Mirrored.imp {R' : σ → σ' → Prop} {S' : β → β' → Prop} {r : EStateM.Result (Fault α) σ β}
    {r' : EStateM.Result (Fault α) σ' β'} (h : Mirrored R S r r') (hR : ∀ s s', R s s' → R' s s')
    (hS : ∀ b b', S b b' → S' b b') : Mirrored R' S' r r' := by
  cases h with
  | ok hb ht => exact .ok (hS _ _ hb) (hR _ _ ht)
  | error ht => exact .error (hR _ _ ht)

lemma Mirrors.congr {R' : σ → σ' → Prop} {x : Edit α σ β} {x' : Edit α σ' β'} (h : Mirrors R S x x')
    (hR : ∀ s s', R s s' ↔ R' s s') : Mirrors R' S x x' :=
  fun s s' hs => (h s s' ((hR s s').mpr hs)).imp (fun s s' => (hR s s').mp) fun _ _ h => h

/-- Edits of parts mirror each other on the wholes if putting parts back keeps wholes related. -/
lemma Mirrors.within {V : τ → τ' → Prop} {part : τ → σ} {part' : τ' → σ'} {put : σ → τ → τ}
    {put' : σ' → τ' → τ'} {x : Edit α σ β} {x' : Edit α σ' β'} (h : Mirrors R S x x')
    (hpart : ∀ t t', V t t' → R (part t) (part' t'))
    (hput : ∀ s s' t t', R s s' → V t t' → V (put s t) (put' s' t')) :
    Mirrors V S (Edit.within part put x) (Edit.within part' put' x') := by
  intro t t' ht
  have hrun := h _ _ (hpart t t' ht)
  rw [run_within, run_within]
  generalize x.run (part t) = r at hrun
  generalize x'.run (part' t') = r' at hrun
  cases hrun with
  | ok hb hs => exact .ok hb (hput _ _ _ _ hs ht)
  | error hs => exact .error (hput _ _ _ _ hs ht)

/-- Edits for all entries of two lists, entry by entry. -/
lemma Mirrors.forM {W : γ → γ' → Prop} {f : γ → Edit α σ PUnit} {f' : γ' → Edit α σ' PUnit}
    {xs : List γ} {xs' : List γ'} (hxs : List.Forall₂ W xs xs')
    (h : ∀ x x', W x x' → Mirrors R Eq (f x) (f' x')) : Mirrors R Eq (xs.forM f) (xs'.forM f') := by
  induction hxs with
  | nil => exact Mirrors.pure rfl
  | cons hx _ ih => exact (h _ _ hx).bind_eq fun _ => ih

lemma Mirrors.forM_same {f : γ → Edit α σ PUnit} {f' : γ → Edit α σ' PUnit} {xs : List γ}
    (h : ∀ x, Mirrors R Eq (f x) (f' x)) : Mirrors R Eq (xs.forM f) (xs.forM f') :=
  Mirrors.forM (List.forall₂_same.mpr fun _ _ => rfl) (by rintro x _ rfl; exact h x)

/-! ## Draws -/

lemma Mirrors.onState {x : Edit α σ β} {x' : Edit α σ' β'} (h : Mirrors R S x x') :
    Mirrors (Drawn.Like R : Drawn σ ρ → Drawn σ' ρ → Prop) S (Edit.onState x) (Edit.onState x') :=
  h.within (fun _ _ ht => ht.1) fun _ _ _ _ hs ht => ⟨hs, ht.2⟩

lemma Mirrors.drawUnit [DrawSource ρ α] :
    Mirrors (Drawn.Like R : Drawn σ ρ → Drawn σ' ρ → Prop) Eq (Edit.drawUnit : Edit α (Drawn σ ρ) α)
      (Edit.drawUnit : Edit α (Drawn σ' ρ) α) := by
  rintro ⟨s, r⟩ ⟨s', _⟩ ⟨hs, rfl⟩
  exact .ok rfl ⟨hs, rfl⟩

lemma Mirrors.drawBelow [DrawSource ρ α] (n : Nat) :
    Mirrors (Drawn.Like R : Drawn σ ρ → Drawn σ' ρ → Prop) Eq
      (Edit.drawBelow n : Edit α (Drawn σ ρ) Nat) (Edit.drawBelow n : Edit α (Drawn σ' ρ) Nat) := by
  rintro ⟨s, r⟩ ⟨s', _⟩ ⟨hs, rfl⟩
  cases n with
  | zero => exact .error ⟨hs, rfl⟩
  | succ n => exact .ok rfl ⟨hs, rfl⟩

/-! ## What is left behind -/

lemma Mirrored.of_ok {b : β} {t : σ} {r' : EStateM.Result (Fault α) σ' β'}
    (h : Mirrored R S (.ok b t : EStateM.Result (Fault α) σ β) r') :
    ∃ b' t', r' = .ok b' t' ∧ S b b' ∧ R t t' := by
  cases h with
  | ok hb ht => exact ⟨_, _, rfl, hb, ht⟩

lemma Mirrors.run_ok {x : Edit α σ β} {x' : Edit α σ' β'} (h : Mirrors R S x x') {s t : σ} {s' : σ'}
    {b : β} (hs : R s s') (hrun : x.run s = .ok b t) :
    ∃ b' t', x'.run s' = .ok b' t' ∧ S b b' ∧ R t t' :=
  Mirrored.of_ok (hrun ▸ h s s' hs)

lemma Mirrors.after {x : Edit α σ β} {x' : Edit α σ' β'} (h : Mirrors R S x x') {s : σ} {s' : σ'}
    (hs : R s s') : R (x.after s) (x'.after s') := by
  have hrun := h s s' hs
  rw [Edit.after, Edit.after, outcome, outcome]
  generalize x.run s = r at hrun
  generalize x'.run s' = r' at hrun
  cases hrun with
  | ok _ ht => exact ht
  | error ht => exact ht

end Rules

/-! ## Images of states -/

/-- **An edit that works on the image of a state as on the state mirrors itself on states with the
same image**, also if these are known to be the same under a condition. -/
theorem Mirrors.of_image {g : σ → σ} {x : Edit α σ β} (h : Mirrors (fun s s' => s' = g s) Eq x x)
    (c : Prop) : Mirrors (fun s s' => g s = g s' ∧ (c → s = s')) Eq x x := by
  rintro s s' ⟨himage, hsame⟩
  by_cases hc : c
  · obtain rfl := hsame hc
    cases x.run s with
    | ok b t => exact .ok rfl ⟨rfl, fun _ => rfl⟩
    | error e t => exact .error ⟨rfl, fun _ => rfl⟩
  · have hfirst := h s _ rfl
    have hsecond := h s' _ rfl
    rw [← himage] at hsecond
    generalize x.run s = r at hfirst
    generalize x.run s' = r' at hsecond
    generalize x.run (g s) = z at hfirst hsecond
    cases hfirst with
    | ok hb ht =>
        cases hsecond with
        | ok hb' ht' => exact .ok (hb.trans hb'.symm) ⟨ht.symm.trans ht', fun h => absurd h hc⟩
    | error ht =>
        cases hsecond with
        | error ht' => exact .error ⟨ht.symm.trans ht', fun h => absurd h hc⟩

/-- The same for states beside draws. -/
theorem Mirrors.of_image_drawn {g : σ → σ} {x : Edit α (Drawn σ ρ) β}
    (h : Mirrors (Drawn.Like fun s s' => s' = g s) Eq x x) (c : Prop) :
    Mirrors (Drawn.Like fun s s' => g s = g s' ∧ (c → s = s')) Eq x x := by
  let G : Drawn σ ρ → Drawn σ ρ := fun t => ⟨g t.state, t.draws⟩
  have himage : Mirrors (fun t t' => t' = G t) Eq x x := by
    refine h.congr ?_
    rintro ⟨s, r⟩ ⟨s', r'⟩
    simp only [Drawn.Like, G, Drawn.mk.injEq]
    tauto
  refine (himage.of_image c).congr ?_
  rintro ⟨s, r⟩ ⟨s', r'⟩
  simp only [Drawn.Like, G, Drawn.mk.injEq]
  tauto

end Edit

end BlockPlan

import BlockPlan.Annealer.Perturb
import BlockPlan.Proofs.Block.Shape
import BlockPlan.Proofs.Sequence.Slot

/-!
# Changing a shape and changing it back

Every change of shape that a move makes answers the key that was in force before, and setting that
key again gives the former shape back.

* `Takes`, `setShape_takes`, `setShape_listed` — a candidate, or a key that the block lists, is put
  in force.
* **`setShape_keeps_rest`** — no key changes the makeup of a block or where it stands.
* **`setShape_shapeKey`** — the key of a block gives its shape back to every block of the same
  makeup.
* `run_resize_other` — resizing takes another candidate.
* `run_resize`, **`run_shrinkBlock`** — resizing and shrinking answer the former key, whatever the
  sides.
* `run_alternate`, `alternate_stuck` — so does turning, except that a block whose list repeats a
  single orientation cannot be turned.
-/

namespace BlockPlan

variable {α ρ : Type}

namespace Block

/-! ## Setting a shape -/

/-- Another shape of the same block in the same place. -/
structure Reshaped (b c : Block α) : Prop where
  makeup : c.makeup = b.makeup
  x : c.x = b.x
  y : c.y = b.y
  showsShape : c.ShowsShape

lemma Reshaped.refl {b : Block α} (h : b.ShowsShape) : Reshaped b b := ⟨rfl, rfl, rfl, h⟩

/-- A block that shows its shape still does when it stays as it is. -/
lemma Reshaped.of_same_or {b c : Block α} (h : b.ShowsShape) (hc : c = b ∨ Reshaped b c) :
    Reshaped b c := by
  rcases hc with rfl | hc
  · exact Reshaped.refl h
  · exact hc

/-- A block with one of its candidates in force, in the same place. -/
structure Takes (b c : Block α) (p : Nat) (s : α × α) : Prop where
  reshaped : Reshaped b c
  shapeKey : c.shapeKey = .candidate p
  sides : (c.width, c.height) = s

section Setting

variable {b c : Block α} {key : ShapeKey}

/-- A candidate of a block is put in force by its number. -/
lemma setShape_takes {candidates : List (α × α)} {index : Int}
    (hform : b.form = .soft candidates index) {p : Nat} {s : α × α} (hs : candidates[p]? = some s) :
    ∃ c, (setShape (.candidate p)).run b = .ok () c ∧ b.Takes c p s := by
  obtain ⟨name, form, x, y, width, height, edge⟩ := b
  obtain rfl : form = .soft candidates index := hform
  refine ⟨⟨name, .soft candidates p, x, y, s.1, s.2, edge⟩, ?_,
    ⟨rfl, rfl, rfl, ⟨Int.natCast_nonneg p, hs⟩⟩, rfl, rfl⟩
  simp only [setShape, EStateM.run_bind, EStateM.run_get, EStateM.run_set, Slot.entry_natCast hs,
    Edit.run_ofExcept_ok]

/-- A key that a block lists is put in force. -/
lemma setShape_listed (h : b.Lists key) :
    ∃ c, (setShape key).run b = .ok () c ∧ Reshaped b c ∧ c.shapeKey = key := by
  obtain ⟨name, form, x, y, width, height, edge⟩ := b
  cases form with
  | hard w hh allowed former =>
      cases key with
      | candidate i => cases h
      | orientation o =>
          have hlisted : allowed.contains o = true := List.contains_iff_mem.mpr h
          refine ⟨⟨name, .hard w hh allowed o, x, y, (orientedSides w hh o).1,
            (orientedSides w hh o).2, edge⟩, ?_, ⟨rfl, rfl, rfl, ⟨h, rfl⟩⟩, rfl⟩
          simp only [setShape, EStateM.run_bind, EStateM.run_get, hlisted, if_true]
          rfl
  | soft candidates former =>
      cases key with
      | orientation o => cases h
      | candidate i =>
          obtain ⟨hi, hlt⟩ := h
          obtain ⟨c, hrun, hc⟩ := setShape_takes
            (b := ⟨name, .soft candidates former, x, y, width, height, edge⟩) rfl
            (List.getElem?_eq_getElem hlt)
          have hkey := hc.shapeKey
          rw [Int.toNat_of_nonneg hi] at hrun hkey
          exact ⟨c, hrun, hc.reshaped, hkey⟩

/-- **A shape changes neither the makeup of a block nor where it stands**, whether it is put in
force or refused. -/
theorem setShape_keeps_rest
    {P : String × Bool × ((α × α × List Orientation) ⊕ List (α × α)) → α × α → Prop}
    (key : ShapeKey) : Edit.Maintains (fun b : Block α => P b.makeup (b.x, b.y))
    (setShape key) := by
  refine Edit.Maintains.read fun b hb => ?_
  obtain ⟨name, form, x, y, width, height, edge⟩ := b
  cases form with
  | hard w h allowed o =>
      cases key with
      | candidate i => exact Edit.Maintains.throw _
      | orientation o' =>
          exact Edit.Leads.ite (fun _ => Edit.Maintains.set hb) fun _ => Edit.Maintains.throw _
  | soft candidates index =>
      cases key with
      | orientation o => exact Edit.Maintains.throw _
      | candidate i =>
          exact Edit.Leads.bind (Edit.Maintains.set hb) fun _ =>
            Edit.Leads.bind (Edit.Maintains.ofExcept _) fun _ => Edit.Maintains.set hb

/-- **The key of a block gives its shape back to every block of the same makeup.** -/
theorem setShape_shapeKey (hc : c.ShowsShape) (hmakeup : b.makeup = c.makeup) :
    (setShape c.shapeKey).run b = .ok () (c.place b.x b.y) := by
  obtain ⟨d, hrun, hd, hkey⟩ := setShape_listed (hc.lists.congr hmakeup)
  have hsame : d = c.place b.x b.y :=
    eq_of_shapeKey hd.showsShape (showsShape_place.mpr hc) (hd.makeup.trans hmakeup) hkey hd.x hd.y
  rw [hrun, hsame]

/-- The key of the block gives its shape back to every block of the same makeup. -/
def Recalled (b : Block α) : Prop :=
  ∀ c, c.makeup = b.makeup → (setShape b.shapeKey).run c = .ok () (b.place c.x c.y)

lemma ShowsShape.recalled (h : b.ShowsShape) : b.Recalled :=
    fun _ hmakeup => setShape_shapeKey h hmakeup

end Setting

/-! ## Changing a shape at random -/

/-- Whether a block lists several orientations, all of which are the one in force. -/
def Stuck (b : Block α) : Prop :=
  match b.form with
  | .hard _ _ allowed o => 2 ≤ allowed.length ∧ ∀ o' ∈ allowed, o' = o
  | .soft .. => False

/-- Whether a block lists every orientation once. -/
def Varied (b : Block α) : Prop :=
  match b.form with
  | .hard _ _ allowed _ => allowed.Nodup
  | .soft .. => True

/-- A block that lists every orientation once can be turned, however it stands. -/
lemma Varied.not_stuck {b c : Block α} (h : b.Varied) (hmakeup : c.makeup = b.makeup) :
    ¬ c.Stuck := by
  obtain ⟨_, cform, _, _, _, _, _⟩ := c
  obtain ⟨_, bform, _, _, _, _, _⟩ := b
  simp only [makeup, Prod.mk.injEq] at hmakeup
  obtain ⟨-, -, hmenu⟩ := hmakeup
  cases cform with
  | soft candidates index => exact fun hstuck => hstuck
  | hard w hh allowed o =>
      rintro ⟨hlength, hsame⟩
      cases bform <;> cases hmenu
      -- the first two orientations of the list are the same
      have hfirst : allowed[0] = allowed[1] :=
        (hsame _ (List.getElem_mem _)).trans (hsame _ (List.getElem_mem _)).symm
      exact absurd ((List.Nodup.getElem_inj_iff h).mp hfirst) (by omega)

section Random

variable {b : Block α}

/-- A shape that the block lists, beside a source. -/
lemma onState_setShape {key : ShapeKey} (h : b.Lists key) (r : ρ) :
    ∃ c, (Edit.onState (setShape key)).run (⟨b, r⟩ : Drawn (Block α) ρ) = .ok () ⟨c, r⟩ ∧
      Reshaped b c := by
  obtain ⟨c, hrun, hc, -⟩ := setShape_listed h
  exact ⟨c, by rw [Edit.run_onState, hrun], hc⟩

variable [DrawSource ρ α]

lemma alternate_stuck (h : b.Stuck) (r : ρ) :
    (alternate : Edit α (Drawn (Block α) ρ) ShapeKey).run ⟨b, r⟩
      = .error .emptyDrawRange ⟨b, r⟩ := by
  obtain ⟨name, form, x, y, width, height, edge⟩ := b
  cases form with
  | soft candidates index => exact h.elim
  | hard w hh allowed o =>
      obtain ⟨hlength, hsame⟩ := h
      have hnone : allowed.filter (· != o) = [] := by
        rw [List.filter_eq_nil_iff]
        intro o' ho'
        simp [hsame o' ho']
      simp only [alternate, EStateM.run_bind, EStateM.run_get, if_neg (not_lt.mpr hlength), hnone,
        List.length_nil, Edit.run_drawBelow_zero]

variable [Scalar α] [LawfulDraws ρ α]

/-- Turning a block that can be turned answers its former key. -/
lemma run_alternate (hstuck : ¬ b.Stuck) (r : ρ) :
    ∃ c r', (alternate : Edit α (Drawn (Block α) ρ) ShapeKey).run ⟨b, r⟩
        = .ok b.shapeKey ⟨c, r'⟩ ∧ (c = b ∨ Reshaped b c) := by
  cases hform : b.form with
  | soft candidates index =>
      refine ⟨b, r, ?_, Or.inl rfl⟩
      simp only [alternate, EStateM.run_bind, EStateM.run_get, hform, EStateM.run_pure]
  | hard w hh allowed o =>
      by_cases hlength : allowed.length < 2
      · refine ⟨b, r, ?_, Or.inl rfl⟩
        simp only [alternate, EStateM.run_bind, EStateM.run_get, hform, if_pos hlength,
          EStateM.run_pure]
      · have hsome : 0 < (allowed.filter (· != o)).length := by
          rw [List.length_pos_iff_exists_mem]
          by_contra hnone
          push Not at hnone
          refine hstuck ?_
          rw [Stuck, hform]
          refine ⟨not_lt.mp hlength, fun o' ho' => ?_⟩
          by_contra hne
          exact hnone o' (List.mem_filter.mpr ⟨ho', by simpa using hne⟩)
        have hlt := LawfulDraws.below_lt (α := α) _ r hsome
        rcases hdraw : DrawSource.below (α := α) (allowed.filter (· != o)).length r with ⟨d, r'⟩
        rw [hdraw] at hlt
        obtain ⟨c, hrun, hc⟩ := onState_setShape ((lists_orientation hform).mpr
          (List.mem_filter.mp (List.getElem_mem hlt)).1) r'
        refine ⟨c, r', ?_, Or.inr hc⟩
        simp only [alternate, EStateM.run_bind, EStateM.run_get, hform, if_neg hlength,
          Edit.run_drawBelow hsome, hdraw, List.getElem?_eq_getElem hlt, hrun, EStateM.run_pure]

/-- Resizing a block that has a choice puts another candidate in force. -/
lemma run_resize_other {candidates : List (α × α)} {index : Int}
    (hform : b.form = .soft candidates index) (hlength : 2 ≤ candidates.length) (r : ρ) :
    ∃ (p : Nat) (s : α × α) (c : Block α) (r' : ρ), candidates[p]? = some s ∧ (p : Int) ≠ index ∧
      b.Takes c p s ∧
      (resize : Edit α (Drawn (Block α) ρ) ShapeKey).run ⟨b, r⟩ = .ok b.shapeKey ⟨c, r'⟩ := by
  have hsome : 0 < candidates.length - 1 := by omega
  have hlt := LawfulDraws.below_lt (α := α) _ r hsome
  rcases hdraw : DrawSource.below (α := α) (candidates.length - 1) r with ⟨d, r'⟩
  rw [hdraw] at hlt
  -- the drawn number is moved past the one in force
  obtain ⟨p, hp, hne, hplace⟩ : ∃ p : Nat, p < candidates.length ∧ (p : Int) ≠ index ∧
      (if index ≤ (d : Int) then (d : Int) + 1 else (d : Int)) = p := by
    split_ifs with hle
    · exact ⟨d + 1, by omega, by omega, by omega⟩
    · exact ⟨d, by omega, by omega, rfl⟩
  obtain ⟨c, hrun, hc⟩ := setShape_takes hform (List.getElem?_eq_getElem hp)
  refine ⟨p, _, c, r', List.getElem?_eq_getElem hp, hne, hc, ?_⟩
  simp only [resize, EStateM.run_bind, EStateM.run_get, hform, if_neg (not_lt.mpr hlength),
    Edit.run_drawBelow hsome, hdraw, hplace, Edit.run_onState, hrun, EStateM.run_pure]

/-- Resizing a block, whatever its sides, answers its former key. -/
lemma run_resize (b : Block α) (r : ρ) :
    ∃ c r', (resize : Edit α (Drawn (Block α) ρ) ShapeKey).run ⟨b, r⟩ = .ok b.shapeKey ⟨c, r'⟩ ∧
      (c = b ∨ Reshaped b c) := by
  cases hform : b.form with
  | hard w hh allowed o =>
      refine ⟨b, r, ?_, Or.inl rfl⟩
      simp only [resize, EStateM.run_bind, EStateM.run_get, hform, EStateM.run_pure]
  | soft candidates index =>
      by_cases hlength : candidates.length < 2
      · refine ⟨b, r, ?_, Or.inl rfl⟩
        simp only [resize, EStateM.run_bind, EStateM.run_get, hform, if_pos hlength,
          EStateM.run_pure]
      · obtain ⟨_, _, c, r', -, -, hc, hrun⟩ := run_resize_other hform (not_lt.mp hlength) r
        exact ⟨c, r', hrun, Or.inr hc.reshaped⟩

end Random

/-! ## Shrinking -/

section Shrinking

variable [Scalar α]

/-- The candidate that is found is one of the list, or the best one before. -/
lemma nextSmaller_lt {horizontal : Bool} {limit : α} {candidates : List (α × α)} :
    ∀ {best : Option (Nat × α)} {p n : Nat}, (∀ e ∈ best, e.1 < n) → p + candidates.length ≤ n →
      ∀ e ∈ nextSmaller horizontal limit best p candidates, e.1 < n := by
  induction candidates with
  | nil => exact fun hbest _ => hbest
  | cons c rest ih =>
      intro best p n hbest hn
      rw [List.length_cons] at hn
      unfold nextSmaller
      refine ih ?_ (by omega)
      intro e he
      split_ifs at he with hbetter
      · rw [Option.mem_some_iff] at he
        rw [← he]
        show p < n
        omega
      · exact hbest e he

/-- Shrinking a block leaves it alone, or answers its former key. -/
lemma shrink_reshaped {b : Block α} (h : b.Lists b.shapeKey) (horizontal : Bool) :
    (shrink horizontal).run b = .ok none b ∨
      ∃ c, (shrink horizontal).run b = .ok (some b.shapeKey) c ∧ Reshaped b c := by
  cases hform : b.form with
  | hard w hh allowed o =>
      refine Or.inl ?_
      simp only [shrink, EStateM.run_bind, EStateM.run_get, hform, EStateM.run_pure]
  | soft candidates index =>
      obtain ⟨hindex, hlt⟩ := (lists_candidate hform).mp (show b.Lists (.candidate index) by
        rwa [shapeKey, hform] at h)
      have hentry : (Slot.entry candidates index : Except (Fault α) (α × α))
          = .ok candidates[index.toNat] := by
        have := Slot.entry_natCast (α := α) (List.getElem?_eq_getElem hlt)
        rwa [Int.toNat_of_nonneg hindex] at this
      have hkey : b.shapeKey = .candidate index := by rw [shapeKey, hform]
      cases hnext : nextSmaller horizontal (sideAlong horizontal candidates[index.toNat]) none 0
          candidates with
      | none =>
          refine Or.inl ?_
          simp only [shrink, EStateM.run_bind, EStateM.run_get, hform, hentry, Edit.run_ofExcept_ok,
            hnext, EStateM.run_pure]
      | some found =>
          have hfound := nextSmaller_lt (by simp) (by rw [Nat.zero_add]) found hnext
          obtain ⟨c, hrun, hc, -⟩ := setShape_listed
            ((lists_candidate hform).mpr ⟨Int.natCast_nonneg found.1, hfound⟩)
          refine Or.inr ⟨c, ?_, hc⟩
          simp only [shrink, EStateM.run_bind, EStateM.run_get, hform, hentry, Edit.run_ofExcept_ok,
            hnext, hrun, EStateM.run_pure, hkey]

end Shrinking

end Block

/-- **Shrinking a block along one axis or the other, or else resizing it,
answers its former key.** -/
theorem Layout.run_shrinkBlock [Scalar α] [DrawSource ρ α] [LawfulDraws ρ α] {b : Block α}
    (h : b.Lists b.shapeKey) (horizontal : Bool) (r : ρ) :
    ∃ kind c r', (shrinkBlock horizontal : Edit α (Drawn (Block α) ρ) (MoveKind × ShapeKey)).run
        ⟨b, r⟩ = .ok (kind, b.shapeKey) ⟨c, r'⟩ ∧ (c = b ∨ Block.Reshaped b c) := by
  rcases Block.shrink_reshaped h horizontal with hfirst | ⟨c, hfirst, hc⟩
  · rcases Block.shrink_reshaped h !horizontal with hsecond | ⟨c, hsecond, hc⟩
    · obtain ⟨c, r', hresize, hc⟩ := Block.run_resize (α := α) b r
      refine ⟨.resize, c, r', ?_, hc⟩
      simp only [shrinkBlock, EStateM.run_bind, Edit.run_onState, hfirst, hsecond, hresize,
        EStateM.run_pure]
    · refine ⟨.shrink, c, r, ?_, Or.inr hc⟩
      simp only [shrinkBlock, EStateM.run_bind, Edit.run_onState, hfirst, hsecond, EStateM.run_pure]
  · refine ⟨.shrink, c, r, ?_, Or.inr hc⟩
    simp only [shrinkBlock, EStateM.run_bind, Edit.run_onState, hfirst, EStateM.run_pure]

end BlockPlan

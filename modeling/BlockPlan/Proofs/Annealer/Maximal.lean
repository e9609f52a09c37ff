import BlockPlan.Proofs.Annealer.Sides

/-!
# Dead space is filled once and for all

After dead space has been filled, no soft block inside the outline can be widened on any side: the
side lies on the edge of the outline, or another block or a blockage lies against it.  What has
stopped a block still lies there after the later ones have grown, since they have only become
larger.  A second filling works on a grid that is cut anew, but what lies against a side leaves no
free strip there on any grid; so it changes nothing.

* `Beside` — what stands around one of some blocks.
* **`growBlocks_stopped`** — all sides are stopped once all blocks have grown.
* `growBlock_stay`, `growBlocks_stay` — blocks whose sides are stopped do not grow.
* **`fillDeadSpace_idem`** — filling twice does what filling once does.
* **`Plan.fill_maximal`** — no block can be widened after filling, and filling again changes
  nothing.
-/

namespace BlockPlan

namespace Grid

variable {g g' : Grid Rat} {width height : Rat} {boxes : List (Box Rat)}
    {left right bottom top : Nat}

/-! ## All sides are stopped -/

/-- The boxes around the block of some number: some that are always there, and those of the other
blocks. -/
def Beside (Around : Box Rat → Prop) (blocks : List (Block Rat)) (i : Nat) (r : Box Rat) : Prop :=
  Around r ∨ ∃ k c, k ≠ i ∧ blocks[k]? = some c ∧ c.box = r

/-- The block that has grown first is one of the boxes that are there for all later ones. -/
lemma Beside.cons {Around : Box Rat → Prop} {b : Block Rat} {blocks : List (Block Rat)} {i : Nat}
    {r : Box Rat} (h : Beside (fun r => Around r ∨ r = b.box) blocks i r) :
    Beside Around (b :: blocks) (i + 1) r := by
  rcases h with (hr | rfl) | ⟨k, c, hne, hc, hbox⟩
  · exact Or.inl hr
  · exact Or.inr ⟨0, b, i.succ_ne_zero.symm, rfl, rfl⟩
  · exact Or.inr ⟨k + 1, c, by omega, hc, hbox⟩

/-- **Once all blocks have grown, all sides of the soft ones inside the outline are stopped**, by
what they have become and by the boxes that held cells beside them. -/
theorem growBlocks_stopped (hwidth : 0 < width) (hheight : 0 < height) {blocks : List (Block Rat)}
    (hcut : Taken (ofBoxes width height boxes) g) (hboxes : ∀ b ∈ blocks, b.box ∈ boxes)
    (hclear : ∀ b ∈ blocks, g.Clear b.box) (Around : Box Rat → Prop)
    (hheld : g.HeldBy fun r => Around r ∨ ∃ b ∈ blocks, b.box = r) (n : Nat) {i : Nat}
    {b : Block Rat} (hb : (growBlocks width height n blocks g)[i]? = some b)
    (hsoft : b.isSoft = true) (hinside : b.isInside width height = true) (hw : 0 < b.width)
    (hh : 0 < b.height) (side : Side) :
    b.box.Stopped g.outline (Beside Around (growBlocks width height n blocks g) i) side := by
  induction blocks generalizing g n i Around with
  | nil => cases hb
  | cons first rest ih =>
      obtain ⟨b', g', hrun, -, hgrows, hstopped⟩ :=
        growBlocks_cons hwidth hheight hcut (hboxes first List.mem_cons_self) n rest
      have hcut' := hcut.trans hgrows.taken
      have hrest : ∀ c ∈ rest, c.box ∈ boxes := fun c hc => hboxes c (List.mem_cons_of_mem first hc)
      have hclear' : ∀ c ∈ rest, g'.Clear c.box :=
        fun c hc => hgrows.taken.clear _ (hclear c (List.mem_cons_of_mem first hc))
      have hothers : g.HeldBy fun r => r = first.box ∨ Around r ∨ ∃ c ∈ rest, c.box = r := by
        refine hheld.mono fun r hr => ?_
        rcases hr with hr | ⟨c, hc, rfl⟩
        · exact Or.inr (Or.inl hr)
        · rcases List.mem_cons.mp hc with rfl | hc
          exacts [Or.inl rfl, Or.inr (Or.inr ⟨c, hc, rfl⟩)]
      rw [hrun] at hb ⊢
      cases i with
      | zero =>
          obtain rfl : b' = b := Option.some.inj hb
          refine (hstopped hsoft hinside hw hh _ hothers side).mono fun r hr => ?_
          rcases hr with hr | ⟨c, hc, rfl⟩
          · exact ⟨r, Or.inl hr, Box.Covers.refl r⟩
          · -- a later block covers what it was when this one grew
            obtain ⟨k, hk, rfl⟩ := List.mem_iff_getElem.mp hc
            have hgrown := (growBlocks_filled hwidth hheight hcut' hrest hclear' (n + 1)).grown
            have hk' : k < (growBlocks width height (n + 1) rest g').length := hgrown.length_eq ▸ hk
            exact ⟨_, Or.inr ⟨k + 1, _, k.succ_ne_zero, List.getElem?_eq_getElem hk', rfl⟩,
              (hgrown.get hk hk').covers⟩
      | succ i =>
          have hheld' : g'.HeldBy fun r => (Around r ∨ r = b'.box) ∨ ∃ c ∈ rest, c.box = r :=
            (hgrows.held _ hothers).mono fun r hr => by
              rcases hr with rfl | hr | hr
              exacts [Or.inl (Or.inr rfl), Or.inl (Or.inl hr), Or.inr hr]
          rw [← hgrows.taken.outline]
          exact (ih hcut' hrest hclear' _ hheld' (n + 1) hb).mono fun r hr =>
            ⟨r, hr.cons, Box.Covers.refl r⟩

/-! ## Blocks that do not grow -/

section Stay

variable (region : Int → Int → Region) (owner : Cell)

lemma growDown_stay {first : Nat}
    (h : ∀ m : Nat, first = m + 1 → g.isFree (region m (m + 1)) = false) :
    growDown region owner first g = (first, g) := by
  cases first with
  | zero => rfl
  | succ m => exact if_neg (Bool.not_eq_true _ ▸ h m rfl)

lemma growUp_stay {last : Nat} (room : Nat)
    (h : 0 < room → g.isFree (region last (last + 1)) = false) :
    growUp region owner room last g = (last, g) := by
  cases room with
  | zero => rfl
  | succ room => exact if_neg (Bool.not_eq_true _ ▸ h room.succ_pos)

end Stay

lemma blocked_ne_free : Cell.blocked ≠ .free := Cell.noConfusion

section Strips

variable {Near : Box Rat → Prop} {side : Side} (h : g.Shaped) (hcolumns : left < right)
  (hright : right < g.xLines.length) (hrows : bottom < top) (htop : top < g.yLines.length)
  (hclear : ∀ r, Near r → g.Clear r)

include h hcolumns hright hrows htop hclear

/-- A side that is stopped by boxes which the free cells are clear of does not move by growing. -/
lemma Grows.not_stopped {l r u v : Nat} {δ : Rat}
    (hgrows : Grows g (g.regionBox left right bottom top) g'
      (g.regionBox l r u v))
    (hlast : l < g.xLines.length ∧ r < g.xLines.length)
    (hlast' : u < g.yLines.length ∧ v < g.yLines.length)
    (hwiden : g.regionBox l r u v = (g.regionBox left right bottom top).widen side δ) (hδ : 0 < δ) :
    ¬ (g.regionBox left right bottom top).Stopped g.outline Near side := by
  intro hstopped
  rcases hstopped.spoils (line_mono h.xSorted hcolumns.le hright)
    (line_mono h.ySorted hrows.le htop) hδ with hout | ⟨b, hb, hlt⟩
  · rw [← hwiden] at hout
    exact hout (h.regionBox_covers l.zero_le hlast.1 (by omega) (by omega) u.zero_le
        hlast'.1 (by omega)
      (by omega))
  · rw [← hwiden, hgrows.overlap b (hclear b hb)] at hlt
    exact lt_irrefl _ hlt

lemma isFree_left_of_stopped
    (hstopped : (g.regionBox left right bottom top).Stopped g.outline Near .left) (m : Nat)
    (hm : left = m + 1) : g.isFree (strip m (m + 1) bottom top) = false := by
  subst hm
  by_contra hfree
  rw [Bool.not_eq_false] at hfree
  have hgrows := grows_left h blocked_ne_free hright htop (by omega) hrows.le hfree
  refine hgrows.not_stopped h hcolumns hright hrows htop hclear (by omega) (by omega) ?_
    (sub_pos.mpr (line_strictMono h.xSorted m.lt_succ_self (by omega))) hstopped
  simp only [Box.widen, regionBox, sub_sub_cancel]

lemma isFree_right_of_stopped
    (hstopped : (g.regionBox left right bottom top).Stopped g.outline Near .right)
    (hlast : right + 1 < g.xLines.length) :
    g.isFree (strip right (right + 1) bottom top) = false := by
  by_contra hfree
  rw [Bool.not_eq_false] at hfree
  have hgrows :=
    grows_right h blocked_ne_free hlast htop right.lt_succ_self hcolumns.le hrows.le hfree
  refine hgrows.not_stopped h hcolumns hright hrows htop hclear (by omega) (by omega) ?_
    (sub_pos.mpr (line_strictMono h.xSorted right.lt_succ_self hlast)) hstopped
  simp only [Box.widen, regionBox, add_sub_cancel]

lemma isFree_bottom_of_stopped
    (hstopped : (g.regionBox left right bottom top).Stopped g.outline Near .bottom) (m : Nat)
    (hm : bottom = m + 1) : g.isFree (strip left right m (m + 1)) = false := by
  subst hm
  by_contra hfree
  rw [Bool.not_eq_false] at hfree
  have hgrows := grows_down h blocked_ne_free hright htop (by omega) hcolumns.le hfree
  refine hgrows.not_stopped h hcolumns hright hrows htop hclear (by omega) (by omega) ?_
    (sub_pos.mpr (line_strictMono h.ySorted m.lt_succ_self (by omega))) hstopped
  simp only [Box.widen, regionBox, sub_sub_cancel]

lemma isFree_top_of_stopped
    (hstopped : (g.regionBox left right bottom top).Stopped g.outline Near .top)
    (hlast : top + 1 < g.yLines.length) : g.isFree (strip left right top (top + 1)) = false := by
  by_contra hfree
  rw [Bool.not_eq_false] at hfree
  have hgrows := grows_up h blocked_ne_free hright hlast top.lt_succ_self hrows.le hcolumns.le hfree
  refine hgrows.not_stopped h hcolumns hright hrows htop hclear (by omega) (by omega) ?_
    (sub_pos.mpr (line_strictMono h.ySorted top.lt_succ_self hlast)) hstopped
  simp only [Box.widen, regionBox, add_sub_cancel]

/-- **A block on the lines whose sides are all stopped does not grow.** -/
theorem growBlock_stay {b : Block Rat}
    (hspan : g.span b.box = (((left : Int), (right : Int)), ((bottom : Int), (top : Int))))
    (hbox : g.regionBox left right bottom top = b.box)
    (hstopped : ∀ side, b.box.Stopped g.outline Near side) (i : Nat) :
    growBlock i b g = (b, g) := by
  rw [← hbox] at hstopped
  have hleft := growDown_stay (fun c d => ⟨((bottom : Int), (top : Int)), (c, d)⟩) (.owned i)
    (isFree_left_of_stopped h hcolumns hright hrows htop hclear (hstopped .left))
  have hbehind := growUp_stay (fun c d => ⟨((bottom : Int), (top : Int)), (c, d)⟩) (.owned i)
    (g.columnCount - right).toNat fun hroom => by
      rw [columnCount] at hroom
      exact isFree_right_of_stopped h hcolumns hright hrows htop hclear (hstopped .right) (by omega)
  have hbelow := growDown_stay (fun c d => ⟨(c, d), ((left : Int), (right : Int))⟩) (.owned i)
    (isFree_bottom_of_stopped h hcolumns hright hrows htop hclear (hstopped .bottom))
  have habove := growUp_stay (fun c d => ⟨(c, d), ((left : Int), (right : Int))⟩) (.owned i)
    (g.rowCount - top).toNat fun hroom => by
      rw [rowCount] at hroom
      exact isFree_top_of_stopped h hcolumns hright hrows htop hclear (hstopped .top) (by omega)
  have hsame : b.stretch (g.xLines.getD left 0) (g.yLines.getD bottom 0)
      (g.xLines.getD right 0 - g.xLines.getD left 0)
      (g.yLines.getD top 0 - g.yLines.getD bottom 0) = b := by
    obtain ⟨hx, hy, hxMax, hyMax⟩ := Box.mk.inj hbox
    rw [hx, hy, hxMax, hyMax, Block.xMax, Block.yMax, add_sub_cancel_left, add_sub_cancel_left]
    rfl
  rw [growBlock, hspan]
  dsimp only
  rw [if_neg (by omega), Int.toNat_natCast, hleft]
  dsimp only
  rw [Int.toNat_natCast, hbehind]
  dsimp only
  rw [Int.toNat_natCast, hbelow]
  dsimp only
  rw [Int.toNat_natCast, habove, hsame]

end Strips

/-- A block inside the outline that is stopped at all sides, if these are above
zero, does not grow. -/
lemma growBlock_stay_of_inside (hwidth : 0 < width) (hheight : 0 < height)
    (hcut : Taken (ofBoxes width height boxes) g) {b : Block Rat} (hb : b.box ∈ boxes)
    (hinside : b.isInside width height = true) {Near : Box Rat → Prop}
    (hclear : ∀ r, Near r → g.Clear r)
    (hstopped : 0 < b.width → 0 < b.height → ∀ side, b.box.Stopped ⟨0, 0, width, height⟩ Near side)
    (i : Nat) : growBlock i b g = (b, g) := by
  by_cases hempty : (g.span b.box).1.2 ≤ (g.span b.box).1.1 ∨
      (g.span b.box).2.2 ≤ (g.span b.box).2.1
  · exact if_pos hempty
  · push Not at hempty
    obtain ⟨hxMin, hyMin, hxMax, hyMax⟩ := Block.isInside_iff.mp hinside
    obtain ⟨left, right, bottom, top, hspan, hcolumns, hright, hrows, htop, hbox⟩ :=
      span_of_inside hwidth hheight hcut hb hxMin hyMin hxMax hyMax hempty.1 hempty.2
    have hx := line_strictMono hcut.shaped.xSorted hcolumns hright
    have hy := line_strictMono hcut.shaped.ySorted hrows htop
    obtain ⟨hleft, hbottom, hright', htop'⟩ := Box.mk.inj hbox
    rw [hleft, hright', Block.xMax, lt_add_iff_pos_right] at hx
    rw [hbottom, htop', Block.yMax, lt_add_iff_pos_right] at hy
    rw [← cut_outline hwidth hheight hcut] at hstopped
    exact growBlock_stay hcut.shaped hcolumns hright hrows htop hclear hspan hbox (hstopped hx hy) i

/-- Blocks that each do not grow stay as they are together. -/
lemma growBlocks_stay {blocks : List (Block Rat)}
    (h : ∀ b ∈ blocks, b.isSoft = true → b.isInside width height = true →
      ∀ i, growBlock i b g = (b, g))
    (n : Nat) : growBlocks width height n blocks g = blocks := by
  induction blocks generalizing n with
  | nil => rfl
  | cons b rest ih =>
      have hrest := ih (fun c hc => h c (List.mem_cons_of_mem b hc)) (n + 1)
      rw [growBlocks]
      split_ifs with hgrows
      · obtain ⟨hsoft, hinside⟩ := Bool.and_eq_true_iff.mp hgrows
        rw [h b List.mem_cons_self hsoft hinside n]
        exact congrArg (b :: ·) hrest
      · exact congrArg (b :: ·) hrest

end Grid

namespace Objective

open Grid (Beside)

variable {o : Objective Rat} (hwidth : 0 < o.outlineWidth) (hheight : 0 < o.outlineHeight)
  (blocks : List (Block Rat))

include hwidth hheight

/-- **After filling, all sides of the soft blocks inside the outline are stopped** by the edges of
the outline, the other blocks and the blockages. -/
theorem fillDeadSpace_stopped {i : Nat} {b : Block Rat} (hb : (o.fillDeadSpace blocks)[i]? = some b)
    (hsoft : b.isSoft = true) (hinside : b.isInside o.outlineWidth o.outlineHeight = true)
    (hw : 0 < b.width) (hh : 0 < b.height) (side : Side) :
    b.box.Stopped ⟨0, 0, o.outlineWidth, o.outlineHeight⟩
      (Beside (· ∈ o.blockages) (o.fillDeadSpace blocks) i) side := by
  obtain ⟨hcut, hclear⟩ :=
    Grid.ofLayout_clear o.outlineWidth o.outlineHeight (blocks.map Block.box) o.blockages
  have hmem : ∀ b ∈ blocks, b.box ∈ blocks.map Block.box ++ o.blockages :=
    fun b hb => List.mem_append_left _ (List.mem_map_of_mem hb)
  have hheld := (Grid.ofLayout_charts hwidth hheight (blocks.map Block.box) o.blockages).heldBy
  have hstopped :=
    Grid.growBlocks_stopped hwidth hheight hcut hmem (fun b hb => hclear _ (hmem b hb))
    (· ∈ o.blockages) (hheld.mono fun r hr => by
      rcases List.mem_append.mp hr with hr | hr
      exacts [Or.inr (List.mem_map.mp hr), Or.inl hr]) 0 hb hsoft hinside hw hh side
  rwa [Grid.cut_outline hwidth hheight hcut] at hstopped

/-- **Filling dead space twice does what filling it once does.** -/
theorem fillDeadSpace_idem : o.fillDeadSpace (o.fillDeadSpace blocks) = o.fillDeadSpace blocks := by
  obtain ⟨hcut, hclear⟩ := Grid.ofLayout_clear o.outlineWidth o.outlineHeight
    ((o.fillDeadSpace blocks).map Block.box) o.blockages
  have hmem : ∀ b ∈ o.fillDeadSpace blocks,
      b.box ∈ (o.fillDeadSpace blocks).map Block.box ++ o.blockages :=
    fun b hb => List.mem_append_left _ (List.mem_map_of_mem hb)
  refine Grid.growBlocks_stay (fun b hb hsoft hinside n => ?_) 0
  obtain ⟨i, hi⟩ := List.mem_iff_getElem?.mp hb
  refine Grid.growBlock_stay_of_inside hwidth hheight hcut (hmem b hb) hinside (fun r hr => ?_)
    (fun hw hh => fillDeadSpace_stopped hwidth hheight blocks hi hsoft hinside hw hh) n
  rcases hr with hr | ⟨k, c, -, hc, rfl⟩
  · exact hclear r (List.mem_append_right _ hr)
  · exact hclear _ (hmem c (List.mem_of_getElem? hc))

end Objective

/-- Blocks that leave nothing to fill: no soft one inside the outline of the design can be widened
on any side without leaving the outline or sharing more area than before, and so some area, with
another block or with a blockage. -/
def Design.FilledUp (d : Design Rat) (blocks : List (Block Rat)) : Prop :=
  ∀ (i : Nat) (b : Block Rat), blocks[i]? = some b → b.isSoft = true →
    b.isInside d.outlineWidth d.outlineHeight = true → ∀ (side : Side) (δ : Rat), 0 < δ →
      ¬ Box.Covers ⟨0, 0, d.outlineWidth, d.outlineHeight⟩ (b.box.widen side δ) ∨
      (∃ (j : Nat) (c : Block Rat), j ≠ i ∧ blocks[j]? = some c ∧
        b.box.overlap c.box < (b.box.widen side δ).overlap c.box) ∨
      ∃ r ∈ d.blockages, b.box.overlap r.box < (b.box.widen side δ).overlap r.box

namespace Plan

variable {d : Design Rat} {settings : Settings Rat} {setup : Setup Rat} {plan : Plan Rat}

/-- Filling the dead space of solid blocks leaves nothing to fill. -/
lemma fillDeadSpace_filledUp (hmade : Setup.ofDesign d settings = .ok (setup, plan))
    {blocks : List (Block Rat)} (hsolid : ∀ b ∈ setup.objective.fillDeadSpace blocks, b.Solid) :
    d.FilledUp (setup.objective.fillDeadSpace blocks) := by
  obtain ⟨-, -, -, -, hobjective, -⟩ := Setup.ofDesign_eq_ok hmade
  obtain ⟨hw, hh, -, hblockages⟩ := Objective.ofDesign_eq_ok hobjective
  obtain ⟨hwidth, hheight⟩ := Setup.ofDesign_outline hmade
  intro i b hb hsoft hinside side δ hδ
  rw [← hw, ← hh] at hinside ⊢
  obtain ⟨hbw, hbh, -⟩ := hsolid b (List.mem_of_getElem? hb)
  have hstopped :=
    Objective.fillDeadSpace_stopped hwidth hheight blocks hb hsoft hinside hbw hbh side
  rcases hstopped.spoils (le_add_of_nonneg_right hbw.le) (le_add_of_nonneg_right hbh.le) hδ
    with hout | ⟨r, hr | ⟨j, c, hne, hc, rfl⟩, hlt⟩
  · exact Or.inl hout
  · rw [hblockages] at hr
    obtain ⟨blockage, hmem, rfl⟩ := List.mem_map.mp hr
    exact Or.inr (Or.inr ⟨blockage, hmem, hlt⟩)
  · exact Or.inr (Or.inl ⟨j, c, hne, hc, hlt⟩)

/-- **Filling dead space leaves nothing to fill, and filling a second time changes nothing at all.**
It never fails, and needs no more of a plan than that its blocks are solid; and those of an
annealer are, whatever has been asked of it. -/
theorem fill_maximal {ρ : Type} [DrawSource ρ Rat] [Transcendental Rat]
    (hmade : Setup.ofDesign d settings = .ok (setup, plan)) :
    (∀ p : Plan Rat, ∃ q, (fill setup).run p = .ok () q ∧ (fill setup).run q = .ok () q ∧
      (p.Solid → d.FilledUp q.layout.blocks)) ∧
    ((∀ b ∈ d.blocks, b.WellFormed) → ∀ (draws : ρ) (tasks : List Task),
      ((Annealer.start plan draws).afterTasks setup tasks).plan.Solid) := by
  have hsetup := Setup.ofDesign_fair hmade
  obtain ⟨hwidth, hheight⟩ := Setup.ofDesign_outline hmade
  constructor
  · intro p
    have hrun := run_fill hsetup p
    refine ⟨_, hrun, ?_, ?_⟩
    · rw [run_fill hsetup, Objective.fillDeadSpace_idem hwidth hheight, Tally.measured_measured]
    · intro hp
      obtain ⟨_, q, hq, hsolid⟩ := (fill_solid hsetup hwidth hheight).ok hp
      rw [hrun] at hq
      obtain ⟨-, rfl⟩ := EStateM.Result.ok.inj hq
      exact fillDeadSpace_filledUp hmade hsolid
  · intro hblocks draws tasks
    obtain ⟨-, -, -, -, -, -, -, hsame, -⟩ := Setup.ofDesign_eq_ok hmade
    rw [← hsame] at hblocks
    have hstart : (Annealer.start plan draws).Solid := fun b hb => (hblocks b hb).solid
    exact Annealer.afterTasks_solid hsetup hwidth hheight tasks hstart

/-- The soft block has grown to the left edge, and cannot be widened to the right: there it would
share more with the hard block. -/
theorem fill_maximal_crowded :
    ∃ setup plan, Setup.ofDesign crowded {} = .ok (setup, plan) ∧ plan.Solid ∧
      (∃ q, (fill setup).run plan = .ok () q ∧ (fill setup).run q = .ok () q ∧
        q.layout.blocks = [⟨"s", .soft [(2, 2)] 0, 0, 0, 4, 2, false⟩,
          ⟨"h", .hard 4 2 [.r0] .r0, 3, 1, 4, 2, false⟩] ∧ crowded.FilledUp q.layout.blocks) ∧
      (∀ b ∈ crowded.blocks, b.WellFormed) ∧
      let _ := Transcendental.tangent
      ((Annealer.start plan (Stream.steady (1 / 2) (by norm_num) 0)).afterTasks setup
        [.fill, .perturb]).plan.Solid := by
  obtain ⟨setup, plan, hmade, hblocks, hwidth, hheight, hblockages⟩ := crowded_made
  let _ := Transcendental.tangent
  have hsolid : plan.Solid := fun b hb => (crowded_wellFormed b (hblocks ▸ hb)).solid
  obtain ⟨hfill, htasks⟩ := fill_maximal (ρ := Stream) hmade
  obtain ⟨q, hrun, hagain, hfilled⟩ := hfill plan
  refine ⟨setup, plan, hmade, hsolid, ⟨q, hrun, hagain, ?_, hfilled hsolid⟩, crowded_wellFormed,
    htasks crowded_wellFormed _ _⟩
  obtain ⟨-, hq⟩ :=
    EStateM.Result.ok.inj ((run_fill (Setup.ofDesign_fair hmade) plan).symm.trans hrun)
  rw [← hq, hblocks]
  exact fillDeadSpace_crowded hwidth hheight hblockages

end Plan

end BlockPlan

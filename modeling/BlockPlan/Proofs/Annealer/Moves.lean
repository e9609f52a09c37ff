import BlockPlan.Proofs.Packing.Keyed

/-!
# What a move does and what undoes it

A move of any kind comes down to two edits of a keyed layout: an exchange of two slots of a
sequence, and another shape of a block.  `Layout.Effect` says what these have in common: whatever
changes of pair and shapes keep stays true, only the blocks that the move names are concerned, and
no block has moved yet.  If the blocks show their shapes, reverting the recorded changes gives the
layout back, wherever its blocks have been moved in the meantime.

* `Changes.Fits`, `revert_leads` — changes that fit some blocks can be reverted in any keyed layout
  of them.
* `Effect.swap`, `Effect.reshape`, `Effect.trans` — the two edits, and one after the other;
  `TakesEffect` — a move that succeeds with an effect.
* `makeMove_stuck` — turning a block that repeats a single orientation fails and changes nothing.
* **`makeMove_effect`** — every other move has an effect in this sense.
* **`Effect.repackFrom`** — after a move of a sound layout it is packed anew, and can be taken back.
-/

namespace BlockPlan

variable {α ρ : Type}

/-! ## Reverting changes -/

/-- Changes that name slots and shapes which blocks of the given makeups have. -/
structure Changes.Fits (known : Layout.Makeups α) (c : Changes) : Prop where
  positive : ∀ s ∈ c.positiveSwaps,
    ∃ i j : Nat, s = ((i : Int), (j : Int)) ∧ i < known.length ∧ j < known.length
  negative : ∀ s ∈ c.negativeSwaps,
    ∃ i j : Nat, s = ((i : Int), (j : Int)) ∧ i < known.length ∧ j < known.length
  shapes : ∀ s ∈ c.shapes, ∃ b : Block α, known[s.1]? = some b.makeup ∧ b.Lists s.2

lemma Changes.fits_nothing (known : Layout.Makeups α) : ({} : Changes).Fits known :=
  ⟨by simp, by simp, by simp⟩

@[simp] lemma Changes.ofSwaps_nil (sign : Sign) : Changes.ofSwaps sign [] = {} := by
  cases sign <;> rfl

/-- An exchange of two slots in either sequence fits blocks for which there are these slots. -/
lemma Changes.fits_ofSwaps {known : Layout.Makeups α} (sign : Sign) {i j : Nat}
    (hi : i < known.length) (hj : j < known.length) :
    (Changes.ofSwaps sign [((i : Int), (j : Int))]).Fits known := by
  have hslots : ∀ s ∈ [((i : Int), (j : Int))],
      ∃ i j : Nat, s = ((i : Int), (j : Int)) ∧ i < known.length ∧ j < known.length := by
    intro s hs
    exact ⟨i, j, List.mem_singleton.mp hs, hi, hj⟩
  cases sign with
  | positive => exact ⟨hslots, by simp [ofSwaps], by simp [ofSwaps]⟩
  | negative => exact ⟨by simp [ofSwaps], hslots, by simp [ofSwaps]⟩

namespace Layout

variable {known : Makeups α} {l l' : Layout α}

/-- Changes that fit are reverted in every keyed layout.  What changes of pair and shapes keep stays
true. -/
theorem revert_leads {I : Layout α → Prop} (hI : Closed known I) {c : Changes}
    (hfits : c.Fits known) : Edit.Leads I (revert c) (fun _ => I) (fun _ => False) := by
  have hswap : ∀ (sign : Sign) (s : Int × Int),
      (∃ i j : Nat, s = ((i : Int), (j : Int)) ∧ i < known.length ∧ j < known.length) →
      Edit.Leads I (editPair (SequencePair.swap sign s.1 s.2)) (fun _ => I) (fun _ => False) := by
    rintro sign _ ⟨i, j, rfl, hi, hj⟩
    refine Edit.Leads.of_ok fun l hl => ?_
    have h := hI.keyed l hl
    obtain ⟨q, hrun, hq, -⟩ := h.coherent.swap (α := α) sign (h.size ▸ hi) (h.size ▸ hj)
    exact ⟨(), _, run_editPair_ok hrun, hI.setPair l q hl hq⟩
  refine Edit.Leads.bind (Edit.Leads.forM fun s hs => ?_) fun _ =>
    Edit.Leads.bind (Edit.Leads.forM fun s hs => ?_) fun _ => Edit.Leads.forM fun s hs => ?_
  · exact hswap .negative s (hfits.negative s (List.mem_reverse.mp hs))
  · exact hswap .positive s (hfits.positive s (List.mem_reverse.mp hs))
  · obtain ⟨b, hb, hlists⟩ := hfits.shapes s (List.mem_reverse.mp hs)
    refine Edit.Leads.of_ok fun l hl => ?_
    rw [← (hI.keyed l hl).makeups, List.getElem?_map] at hb
    obtain ⟨c, hc, hmakeup⟩ := Option.map_eq_some_iff.mp hb
    obtain ⟨d, hrun, hd, -⟩ := Block.setShape_listed (hlists.congr hmakeup)
    exact ⟨(), _, run_setShape hc hrun, hI.setBlock l _ c d hl hc hd⟩

lemma revert_ofSwaps (sign : Sign) (a b : Int) :
    (revert (.ofSwaps sign [(a, b)]) : Edit α (Layout α) Unit)
      = editPair (SequencePair.swap sign a b) := by
  cases sign <;>
    simp only [revert, Changes.ofSwaps, List.reverse_nil, List.reverse_singleton,
      List.forM_eq_forM, List.forM_cons, List.forM_nil, pure_bind, bind_pure_unit]

lemma revert_shape (i : Nat) (key : ShapeKey) :
    (revert { shapes := [(i, key)] } : Edit α (Layout α) Unit) = setShape i key := by
  simp only [revert, List.reverse_nil, List.reverse_singleton, List.forM_eq_forM, List.forM_cons,
    List.forM_nil, pure_bind, bind_pure_unit]

/-- The exchanges of either sequence are reverted one after the other. -/
lemma run_revert_swaps {positive negative : List (Int × Int)} {l₁ l₂ : Layout α}
    (hnegative : (revert (.ofSwaps .negative negative)).run l = .ok () l₁)
    (hpositive : (revert (.ofSwaps .positive positive)).run l₁ = .ok () l₂) :
    (revert { positiveSwaps := positive, negativeSwaps := negative }).run l = .ok () l₂ := by
  simp only [revert, Changes.ofSwaps, List.reverse_nil, List.forM_eq_forM, List.forM_nil,
    bind_pure_unit, EStateM.run_bind, EStateM.run_pure] at *
  simp only [hnegative, hpositive]

lemma set_self {i : Nat} {b : Block α} (hb : l.blocks[i]? = some b) :
    ({ l with blocks := l.blocks.set i b } : Layout α) = l := by
  obtain ⟨hi, rfl⟩ := List.getElem?_eq_some_iff.mp hb
  rw [List.set_getElem_self]

/-- The key of the former shape of a block gives it back, wherever the blocks stand. -/
lemma run_revert_shape {i : Nat} {b c : Block α} (hb : l.blocks[i]? = some b)
    (hshows : b.ShowsShape) (hc : c.makeup = b.makeup) (f : Nat → α × α) :
    (revert { shapes := [(i, b.shapeKey)] }).run
        (({ l with blocks := l.blocks.set i c } : Layout α).arrange f) = .ok () (l.arrange f) := by
  have hlt : i < l.size := (List.getElem?_eq_some_iff.mp hb).1
  have hget : (({ l with blocks := l.blocks.set i c } : Layout α).arrange f).blocks[i]?
      = some (c.place (f i).1 (f i).2) := by
    rw [getElem?_arrange, List.getElem?_set_self hlt, Option.map_some]
  have hset := run_setShape hget (Block.setShape_shapeKey hshows
    (show (c.place (f i).1 (f i).2).makeup = b.makeup from hc))
  have hblocks : (({ l with blocks := l.blocks.set i c } : Layout α).arrange f).blocks.set i
      (b.place (c.place (f i).1 (f i).2).x (c.place (f i).1 (f i).2).y)
        = (l.arrange f).blocks := by
    refine List.ext_getElem? fun k => ?_
    by_cases hk : i = k
    · subst hk
      obtain ⟨hlt', -⟩ := List.getElem?_eq_some_iff.mp hget
      rw [List.getElem?_set_self hlt', getElem?_arrange, hb]
      rfl
    · rw [List.getElem?_set_ne hk, getElem?_arrange, getElem?_arrange, List.getElem?_set_ne hk]
  rw [hblocks] at hset
  rw [revert_shape]
  exact hset

/-! ## Effects -/

variable [Scalar α]

/-- What a move that concerns some blocks has done to a layout, apart from packing. -/
structure Effect (known : Makeups α) (touched : List Nat) (changes : Changes) (l l' : Layout α) :
    Prop where
  keeps : ∀ {I : Layout α → Prop}, Closed known I → I l → I l'
  fits : changes.Fits known
  touched_lt : ∀ i ∈ touched, i < l.size
  confined : ConfinedTo touched l l'
  inPlace : l'.points = l.points
  undo : l.Sound known → ∀ f, (revert changes).run (l'.arrange f) = .ok () (l.arrange f)

lemma Effect.keyed {touched : List Nat} {changes : Changes}
    (heffect : Effect known touched changes l l') (h : l.Keyed known) : l'.Keyed known :=
  heffect.keeps closed_keyed h

lemma Effect.sound {touched : List Nat} {changes : Changes}
    (heffect : Effect known touched changes l l') (h : l.Sound known) : l'.Sound known :=
  heffect.keeps closed_sound h

lemma Effect.nothing (known : Makeups α) (l : Layout α) : Effect known [] {} l l where
  keeps := fun _ h => h
  fits := Changes.fits_nothing known
  touched_lt := by simp
  confined := ConfinedTo.refl [] l
  inPlace := rfl
  undo := fun _ _ => rfl

/-- Exchanging two slots of either sequence takes effect on the blocks in them. -/
lemma Effect.swap (h : l.Keyed known) (sign : Sign) {i j : Nat} (hi : i < l.size)
    (hj : j < l.size) :
    ∃ q : SequencePair, (editPair (SequencePair.swap sign (i : Int) (j : Int))).run l
        = .ok () { l with pair := q } ∧ q.Coherent l.size ∧
      q.sequence = Function.update l.pair.sequence sign (exchanged (l.pair.sequence sign) i j) ∧
      Effect known [(q.sequence sign).getD i 0, (q.sequence sign).getD j 0]
        (.ofSwaps sign [((i : Int), (j : Int))]) l { l with pair := q } := by
  obtain ⟨q, hswap, hq, hsequence, hback⟩ := h.coherent.swap (α := α) sign hi hj
  have hlength : (l.pair.sequence sign).length = l.size := (h.coherent.indexed sign).length
  refine ⟨q, run_editPair_ok hswap, hq, hsequence, ?_⟩
  constructor
  case keeps => exact fun hI hl => hI.setPair l q hl hq
  case fits => exact Changes.fits_ofSwaps sign (h.size ▸ hi) (h.size ▸ hj)
  case touched_lt => exact (hq.indexed sign).getD_pair_lt hi hj
  case confined => exact confinedTo_swap sign (hlength.symm ▸ hi) (hlength.symm ▸ hj) hsequence
  case inPlace => rfl
  case undo =>
    intro _ f
    rw [revert_ofSwaps]
    exact run_editPair_ok hback

/-- Another shape of a block takes effect on this block; so does none. -/
lemma Effect.reshape (h : l.Keyed known) {i : Nat} {b c : Block α} (hb : l.blocks[i]? = some b)
    (hc : c = b ∨ Block.Reshaped b c) :
    Effect known [i] { shapes := [(i, b.shapeKey)] } l { l with blocks := l.blocks.set i c } := by
  have hlt : i < l.size := (List.getElem?_eq_some_iff.mp hb).1
  constructor
  case keeps =>
    intro I hI hl
    rcases hc with rfl | hc
    · rwa [set_self hb]
    · exact hI.setBlock l i b c hl hb hc
  case fits =>
    refine ⟨by simp, by simp, fun s hs => ⟨b, ?_, ?_⟩⟩
    · rw [List.mem_singleton.mp hs, ← h.makeups, List.getElem?_map, hb, Option.map_some]
    · rw [List.mem_singleton.mp hs]
      exact h.getElem?_lists hb
  case touched_lt => simpa using hlt
  case confined => exact confinedTo_set i c
  case inPlace =>
    have hpoint : (c.x, c.y) = (b.x, b.y) := by
      rcases hc with rfl | hc
      · rfl
      · rw [hc.x, hc.y]
    funext k
    by_cases hk : i = k
    · subst hk
      rw [points_eq hb, points_eq (b := c) (List.getElem?_set_self hlt), hpoint]
    · simp only [points, List.getElem?_set_ne hk]
  case undo =>
    intro hsound
    have hshows := hsound.getElem?_showsShape hb
    exact run_revert_shape hb hshows (Block.Reshaped.of_same_or hshows hc).makeup

/-- Exchanges in the positive sequence, and then in the negative one. -/
lemma Effect.trans {positive negative : List (Int × Int)} {touched touched' : List Nat}
    {l'' : Layout α} (h : Effect known touched (.ofSwaps .positive positive) l l')
    (h' : Effect known touched' (.ofSwaps .negative negative) l' l'') :
    Effect known (touched ++ touched')
      { positiveSwaps := positive, negativeSwaps := negative } l l'' where
  keeps := fun hI hl => h'.keeps hI (h.keeps hI hl)
  fits := ⟨h.fits.positive, h'.fits.negative, by simp⟩
  touched_lt := by
    intro i hi
    rcases List.mem_append.mp hi with hi | hi
    · exact h.touched_lt i hi
    · exact h.confined.size ▸ h'.touched_lt i hi
  confined := h.confined.trans h'.confined
  inPlace := h'.inPlace.trans h.inPlace
  undo := fun hl f => run_revert_swaps (h'.undo (h.sound hl) f) (h.undo hl f)

lemma Effect.mono {touched touched' : List Nat} {changes : Changes}
    (h : Effect known touched changes l l') (hsub : ∀ i ∈ touched, i ∈ touched')
    (hlt : ∀ i ∈ touched', i < l.size) : Effect known touched' changes l l' :=
  { h with touched_lt := hlt, confined := h.confined.mono hsub }

/-! ## Moves -/

/-- The slots that two numbers stand for: the second number is moved past the first one. -/
def distinctSlots (d : Nat × Nat) : Nat × Nat := (d.1, if d.1 ≤ d.2 then d.2 + 1 else d.2)

lemma distinctSlots_mem {n : Nat} {d : Nat × Nat} (hfirst : d.1 < n) (hsecond : d.2 < n - 1) :
    (distinctSlots d).1 < n ∧ (distinctSlots d).2 < n ∧
      (distinctSlots d).1 ≠ (distinctSlots d).2 := by
  simp only [distinctSlots]
  split_ifs <;> omega

/-- Whether the block that the next draw would pick for turning cannot be turned. -/
def StuckTurn [DrawSource ρ α] (l : Layout α) (r : ρ) : Prop :=
  ∃ i b, (l.choosable true)[(DrawSource.below (α := α) (l.choosable true).length r).1]? = some i ∧
    l.blocks[i]? = some b ∧ b.Stuck

/-- A move that succeeds on a layout and has the effect that it reports. -/
def TakesEffect (known : Makeups α) (move : Edit α (Drawn (Layout α) ρ) Step)
    (l : Layout α) (r : ρ) :
    Prop :=
  ∃ step l' r', move.run ⟨l, r⟩ = .ok step ⟨l', r'⟩ ∧ Effect known step.touched step.changes l l'

section Moves

omit [Scalar α] in
lemma exists_of_mem_choosable {hard : Bool} {i : Nat} (hi : i ∈ l.choosable hard) :
    ∃ b, l.blocks[i]? = some b := by
  obtain ⟨⟨b, k⟩, hmem, rfl⟩ := List.mem_map.mp hi
  exact ⟨b, List.mem_zipIdx_iff_getElem?.mp (List.mem_filter.mp hmem).1⟩

omit [Scalar α] in
lemma run_editDrawn {β : Type} {i : Nat} {b : Block α} {edit : Edit α (Drawn (Block α) ρ) β}
    (hb : l.blocks[i]? = some b) (r : ρ) :
    (editDrawn i edit).run ⟨l, r⟩ =
      match edit.run ⟨b, r⟩ with
      | .ok v c => .ok v ⟨{ l with blocks := l.blocks.set i c.state }, c.draws⟩
      | .error e c => .error e ⟨{ l with blocks := l.blocks.set i c.state }, c.draws⟩ := by
  simp only [editDrawn, EStateM.run_bind, EStateM.run_get, hb, Edit.run_within]
  cases edit.run ⟨b, r⟩ <;> rfl

variable [DrawSource ρ α]

/-- Turning a block that repeats a single orientation fails and leaves the layout as it is. -/
theorem makeMove_stuck {r : ρ} (h : l.StuckTurn r) (width height : α) :
    ∃ r', (makeMove width height .rotate).run ⟨l, r⟩ = .error .emptyDrawRange ⟨l, r'⟩ := by
  obtain ⟨i, b, hi, hb, hstuck⟩ := h
  have hpool : (l.choosable true).isEmpty = false := by
    rw [List.isEmpty_eq_false_iff_exists_mem]
    exact ⟨i, List.mem_of_getElem? hi⟩
  have hsome : 0 < (l.choosable true).length := List.length_pos_of_mem (List.mem_of_getElem? hi)
  rcases hdraw : DrawSource.below (α := α) (l.choosable true).length r with ⟨d, r'⟩
  rw [hdraw] at hi
  refine ⟨r', ?_⟩
  simp only [makeMove, rotate, reshape, EStateM.run_bind, EStateM.run_get, hpool,
    Bool.false_eq_true, if_false, drawBlock, Edit.run_drawBelow hsome, hdraw, hi, EStateM.run_pure,
    run_editDrawn hb, Block.alternate_stuck hstuck, set_self hb]

omit [Scalar α] in
/-- Drawing two slots draws two numbers, the second one below one less. -/
lemma run_twoDistinct_eq {n : Nat} (hn : 2 ≤ n) (l : Layout α) (r : ρ) :
    (twoDistinct n : Edit α (Drawn (Layout α) ρ) (Nat × Nat)).run ⟨l, r⟩ =
      let (a, r₁) := DrawSource.below (α := α) n r
      let (b, r₂) := DrawSource.below (α := α) (n - 1) r₁
      .ok (distinctSlots (a, b)) ⟨l, r₂⟩ := by
  have hfirst : 0 < n := by omega
  have hsecond : 0 < n - 1 := by omega
  simp only [twoDistinct, EStateM.run_bind, Edit.run_drawBelow hfirst, Edit.run_drawBelow hsecond,
    EStateM.run_pure, distinctSlots]

omit [Scalar α] in
/-- What an exchange in either sequence makes of a layout when the slots are drawn. -/
lemma run_sequenceSwap (sign : Sign) {r r' : ρ} {i j : Nat} {q : SequencePair} (hsize : 2 ≤ l.size)
    (hdraw : (twoDistinct l.size : Edit α (Drawn (Layout α) ρ) (Nat × Nat)).run ⟨l, r⟩
      = .ok (i, j) ⟨l, r'⟩)
    (hswap : (editPair (SequencePair.swap sign (i : Int) (j : Int))).run l
      = .ok () { l with pair := q })
    (kind : MoveKind) :
    (sequenceSwap sign kind : Edit α (Drawn (Layout α) ρ) Step).run ⟨l, r⟩
      = .ok ⟨kind, .ofSwaps sign [((i : Int), (j : Int))],
          [(q.sequence sign).getD i 0, (q.sequence sign).getD j 0]⟩ ⟨{ l with pair := q }, r'⟩ := by
  simp only [sequenceSwap, EStateM.run_bind, EStateM.run_get, if_neg (not_lt.mpr hsize), hdraw,
    Edit.run_onState, hswap, EStateM.run_pure]

variable [LawfulDraws ρ α]

lemma run_twoDistinct {n : Nat} (hn : 2 ≤ n) (l : Layout α) (r : ρ) :
    ∃ a b r', (twoDistinct n : Edit α (Drawn (Layout α) ρ) (Nat × Nat)).run ⟨l, r⟩
        = .ok (a, b) ⟨l, r'⟩ ∧ a < n ∧ b < n := by
  have ha := LawfulDraws.below_lt (α := α) n r (by omega)
  have hb := LawfulDraws.below_lt (α := α) (n - 1) (DrawSource.below (α := α) n r).2 (by omega)
  obtain ⟨hfirst, hsecond, -⟩ := distinctSlots_mem
    (d := ((DrawSource.below (α := α) n r).1, (DrawSource.below (α := α) (n - 1) _).1)) ha hb
  exact ⟨_, _, _, run_twoDistinct_eq hn l r, hfirst, hsecond⟩

lemma run_drawBlock {pool : List Nat} (hpool : pool.isEmpty = false) (l : Layout α) (r : ρ) :
    ∃ i, pool[(DrawSource.below (α := α) pool.length r).1]? = some i ∧
      (drawBlock pool : Edit α (Drawn (Layout α) ρ) Nat).run ⟨l, r⟩
        = .ok i ⟨l, (DrawSource.below (α := α) pool.length r).2⟩ := by
  have hsome : 0 < pool.length := List.length_pos_iff.mpr (List.isEmpty_eq_false_iff.mp hpool)
  have hlt := LawfulDraws.below_lt (α := α) pool.length r hsome
  refine ⟨_, List.getElem?_eq_getElem hlt, ?_⟩
  simp only [drawBlock, EStateM.run_bind, Edit.run_drawBelow hsome, List.getElem?_eq_getElem hlt,
    EStateM.run_pure]

/-- An exchange in either sequence has an effect; of fewer than two blocks it is none. -/
lemma sequenceSwap_effect (h : l.Keyed known) (sign : Sign) (kind : MoveKind) (r : ρ) :
    ∃ swaps touched l' r',
      (sequenceSwap sign kind : Edit α (Drawn (Layout α) ρ) Step).run ⟨l, r⟩
        = .ok ⟨kind, .ofSwaps sign swaps, touched⟩ ⟨l', r'⟩ ∧
      Effect known touched (.ofSwaps sign swaps) l l' := by
  by_cases hsize : l.size < 2
  · refine ⟨[], [], l, r, ?_, ?_⟩
    · simp only [sequenceSwap, EStateM.run_bind, EStateM.run_get, if_pos hsize, EStateM.run_pure,
        Changes.ofSwaps_nil]
    · rw [Changes.ofSwaps_nil]
      exact Effect.nothing known l
  · obtain ⟨a, b, r', hdraw, ha, hb⟩ := run_twoDistinct (not_lt.mp hsize) l r
    obtain ⟨q, hswap, -, -, heffect⟩ := Effect.swap h sign ha hb
    exact ⟨_, _, _, r', run_sequenceSwap sign (not_lt.mp hsize) hdraw hswap kind, heffect⟩

lemma doubleSwap_effect (h : l.Keyed known) (r : ρ) : TakesEffect known doubleSwap l r := by
  obtain ⟨swaps, touched, l₁, r₁, hfirst, heffect⟩ :=
    sequenceSwap_effect h .positive .doubleSwap r
  obtain ⟨swaps', touched', l₂, r₂, hsecond, heffect'⟩ :=
    sequenceSwap_effect (heffect.keyed h) .negative .doubleSwap r₁
  refine ⟨⟨.doubleSwap, { positiveSwaps := swaps, negativeSwaps := swaps' },
    touched ++ touched'⟩, l₂, r₂, ?_, heffect.trans heffect'⟩
  simp only [doubleSwap, EStateM.run_bind, hfirst, hsecond, EStateM.run_pure, Changes.ofSwaps]

/-- Two blocks are exchanged in both sequences, in the slots where they stand. -/
lemma exchange_effect (h : l.Keyed known) (r : ρ) : TakesEffect known exchange l r := by
  by_cases hsize : l.size < 2
  · refine ⟨⟨.exchange, {}, []⟩, l, r, ?_, Effect.nothing known l⟩
    simp only [exchange, EStateM.run_bind, EStateM.run_get, if_pos hsize, EStateM.run_pure]
  · obtain ⟨a, b, r', hdraw, ha, hb⟩ := run_twoDistinct (not_lt.mp hsize) l r
    obtain ⟨i, hi, hai⟩ := h.coherent.positive.exists_slot ha
    obtain ⟨j, hj, hbj⟩ := h.coherent.positive.exists_slot hb
    obtain ⟨i', hi', hai'⟩ := h.coherent.negative.exists_slot ha
    obtain ⟨j', hj', hbj'⟩ := h.coherent.negative.exists_slot hb
    obtain ⟨q, hswap, -, hsequence, heffect⟩ := Effect.swap h .positive hi hj
    obtain ⟨q', hswap', -, hsequence', heffect'⟩ := Effect.swap (heffect.keyed h) .negative
      (show i' < ({ l with pair := q } : Layout α).size from hi') hj'
    -- both exchanges move the two blocks and no others
    have hpositive : q.sequence .positive = exchanged l.pair.positive i j := by
      rw [hsequence, Function.update_self]
      rfl
    have hkept : q.sequence .negative = l.pair.negative := by
      rw [hsequence, Function.update_of_ne (by decide)]
      rfl
    have hnegative : q'.sequence .negative = exchanged l.pair.negative i' j' := by
      rw [hsequence', Function.update_self, hkept]
    obtain ⟨hfirst, hsecond⟩ := getD_exchanged_of_getElem? hai hbj
    obtain ⟨hfirst', hsecond'⟩ := getD_exchanged_of_getElem? hai' hbj'
    have hboth := heffect.trans heffect'
    rw [hpositive, hnegative, hfirst, hsecond, hfirst', hsecond'] at hboth
    let step : Step :=
      { kind := .exchange
        changes :=
          { positiveSwaps := [((i : Int), (j : Int))], negativeSwaps := [((i' : Int), (j' : Int))] }
        touched := [a, b] }
    refine ⟨step, _, r', ?_, hboth.mono (by simp [step]) (by simp [step, ha, hb])⟩
    have hslots : l.pair.slotIn .positive a = i ∧ l.pair.slotIn .positive b = j ∧
        l.pair.slotIn .negative a = i' ∧ l.pair.slotIn .negative b = j' :=
      ⟨h.coherent.positive.getD_slot hai, h.coherent.positive.getD_slot hbj,
        h.coherent.negative.getD_slot hai', h.coherent.negative.getD_slot hbj'⟩
    simp only [exchange, EStateM.run_bind, EStateM.run_get, if_neg hsize, hdraw, hslots,
      Edit.run_onState, hswap, hswap', EStateM.run_pure, step]

lemma sequenceSwap_takesEffect (h : l.Keyed known) (sign : Sign) (kind : MoveKind) (r : ρ) :
    TakesEffect known (sequenceSwap sign kind) l r := by
  obtain ⟨swaps, touched, l', r', hrun, heffect⟩ := sequenceSwap_effect h sign kind r
  exact ⟨_, l', r', hrun, heffect⟩

/-- Giving a block another shape has an effect if the edit answers the former key of the block that
is drawn. -/
lemma reshape_effect (h : l.Keyed known) {hard : Bool} (kind : MoveKind)
    {edit : Edit α (Drawn (Block α) ρ) ShapeKey} (r : ρ)
    (hedit : ∀ i b r',
      (l.choosable hard)[(DrawSource.below (α := α) (l.choosable hard).length r).1]? = some i →
      l.blocks[i]? = some b → ∃ c r'', edit.run ⟨b, r'⟩ = .ok b.shapeKey ⟨c, r''⟩ ∧
        (c = b ∨ Block.Reshaped b c)) :
    TakesEffect known (reshape hard kind edit) l r := by
  cases hpool : (l.choosable hard).isEmpty with
  | true =>
      obtain ⟨step, l', r', hrun, heffect⟩ :=
        sequenceSwap_takesEffect h .positive .positiveSwap r
      refine ⟨step, l', r', ?_, heffect⟩
      simp only [reshape, EStateM.run_bind, EStateM.run_get, hpool, if_true, hrun]
  | false =>
      obtain ⟨i, hi, hdraw⟩ := run_drawBlock hpool l r
      obtain ⟨b, hb⟩ := exists_of_mem_choosable (List.mem_of_getElem? hi)
      obtain ⟨c, r', hrun, hc⟩ := hedit i b
        (DrawSource.below (α := α) (l.choosable hard).length r).2 hi hb
      refine ⟨⟨kind, { shapes := [(i, b.shapeKey)] }, [i]⟩, _, r', ?_, Effect.reshape h hb hc⟩
      simp only [reshape, EStateM.run_bind, EStateM.run_get, hpool, Bool.false_eq_true, if_false,
        hdraw, run_editDrawn hb, hrun, EStateM.run_pure]

/-- The soft blocks among which shrinking draws one: those that stick out of the outline, or all
that have a choice if none does. -/
def shrinkPool (width height : α) (l : Layout α) : List Nat :=
  let outside := (l.choosable false).filter fun i =>
    let (x, y) := l.overflowOf width height i
    x != 0 || y != 0
  if outside.isEmpty then l.choosable false else outside

omit [DrawSource ρ α] [LawfulDraws ρ α] in
lemma shrinkPool_sub (width height : α) (l : Layout α) :
    ∀ i ∈ l.shrinkPool width height, i ∈ l.choosable false := by
  intro i hi
  rw [shrinkPool] at hi
  split_ifs at hi
  · exact hi
  · exact (List.mem_filter.mp hi).1

omit [DrawSource ρ α] [LawfulDraws ρ α] in
lemma shrinkPool_isEmpty (hpool : (l.choosable false).isEmpty = false) (width height : α) :
    (l.shrinkPool width height).isEmpty = false := by
  rw [shrinkPool]
  split_ifs with hnone
  · exact hpool
  · rwa [Bool.not_eq_true] at hnone

/-- Whether a block sticks out to the right at least as far as to the top. -/
def sticksOutRight (width height : α) (l : Layout α) (i : Nat) : Bool :=
  decide ((l.overflowOf width height i).2 ≤ (l.overflowOf width height i).1)

/-- Shrinking draws a soft block that has a choice, and shrinks it along the axis on which it sticks
out more. -/
lemma run_shrink (hpool : (l.choosable false).isEmpty = false) (width height : α) (r : ρ) :
    ∃ i b r', i ∈ l.shrinkPool width height ∧ l.blocks[i]? = some b ∧
      ∀ {kind old c r''},
        (shrinkBlock (l.sticksOutRight width height i)).run ⟨b, r'⟩ = .ok (kind, old) ⟨c, r''⟩ →
        (shrink width height).run ⟨l, r⟩ = .ok ⟨kind, { shapes := [(i, old)] }, [i]⟩
          ⟨{ l with blocks := l.blocks.set i c }, r''⟩ := by
  obtain ⟨i, hi, hdraw⟩ := run_drawBlock (shrinkPool_isEmpty hpool width height) l r
  have hmem := List.mem_of_getElem? hi
  obtain ⟨b, hb⟩ := exists_of_mem_choosable (shrinkPool_sub width height l i hmem)
  refine ⟨i, b, (DrawSource.below (α := α) (l.shrinkPool width height).length r).2, hmem, hb, ?_⟩
  intro kind old c r'' hshrink
  simp only [shrink, EStateM.run_bind, EStateM.run_get, hpool, Bool.false_eq_true, if_false]
  simp only [shrinkPool, sticksOutRight] at hdraw hshrink
  simp only [hdraw, run_editDrawn hb, hshrink, EStateM.run_pure]

lemma shrink_effect (h : l.Keyed known) (width height : α) (r : ρ) :
    TakesEffect known (shrink width height) l r := by
  cases hpool : (l.choosable false).isEmpty with
  | true =>
      obtain ⟨step, l', r', hrun, heffect⟩ :=
        sequenceSwap_takesEffect h .positive .positiveSwap r
      refine ⟨step, l', r', ?_, heffect⟩
      simp only [shrink, EStateM.run_bind, EStateM.run_get, hpool, if_true, hrun]
  | false =>
      obtain ⟨i, b, r', -, hb, hrun⟩ := run_shrink hpool width height r
      obtain ⟨kind, c, r'', hshrink, hc⟩ := run_shrinkBlock (α := α) (h.getElem?_lists hb) _ r'
      exact ⟨_, _, r'', hrun hshrink, Effect.reshape h hb hc⟩

/-- **Every move of a keyed layout that does not turn a block that repeats a single orientation has
an effect.** -/
theorem makeMove_effect (h : l.Keyed known) (width height : α) (kind : MoveKind) (r : ρ)
    (hstuck : ¬ (kind = .rotate ∧ l.StuckTurn r)) :
    TakesEffect known (makeMove width height kind) l r := by
  cases kind with
  | positiveSwap => exact sequenceSwap_takesEffect h .positive .positiveSwap r
  | negativeSwap => exact sequenceSwap_takesEffect h .negative .negativeSwap r
  | doubleSwap => exact doubleSwap_effect h r
  | exchange => exact exchange_effect h r
  | resize => exact reshape_effect h .resize r fun _ b r' _ _ => Block.run_resize b r'
  | shrink => exact shrink_effect h width height r
  | rotate =>
      refine reshape_effect h .rotate r fun i b r' hi hb => Block.run_alternate (fun hs => ?_) r'
      exact hstuck ⟨rfl, i, b, hi, hb, hs⟩

end Moves

/-! ## Packing after a move -/

section Repack

lemma ConfinedTo.eq_of_nil {l l' : Layout Rat} (hedit : ConfinedTo [] l l') (h : l.Coherent)
    (h' : l'.Coherent) : l' = l := by
  have hsame : ∀ {xs ys : List Nat}, xs.length = ys.length →
      (∀ p i : Nat, xs[p]? = some i → ys[p]? = some i) → ys = xs := by
    intro xs ys hlength hkept
    refine List.ext_getElem? fun p => ?_
    cases hp : xs[p]? with
    | none =>
        rw [List.getElem?_eq_none_iff] at hp ⊢
        omega
    | some i => exact hkept p i hp
  have hsize := hedit.size
  have hpositive := hsame (by rw [h.positive.length, h'.positive.length, hsize])
    fun p i hp => hedit.positive p i hp (by simp)
  have hnegative := hsame (by rw [h.negative.length, h'.negative.length, hsize])
    fun p i hp => hedit.negative p i hp (by simp)
  have hblocks : l'.blocks = l.blocks := List.ext_getElem? fun i => hedit.others i (by simp)
  have hpair : l'.pair = l.pair := by
    rw [← h.ofSequences_eq, ← h'.ofSequences_eq, hpositive, hnegative, hsize]
  obtain ⟨blocks, pair⟩ := l'
  simp only at hblocks hpair
  rw [hblocks, hpair]

/-- When blocks were touched, packing starts from the first slots that they occupy. -/
lemma run_repackFrom {l : Layout Rat} {touched : List Nat} {a b : Int}
    (hsome : touched.isEmpty = false)
    (hfirst : (l.pair.firstSlots (touched.map fun (i : Nat) => (i : Int))
      : Except (Fault Rat) (Int × Int)) = .ok (a, b)) :
    (Layout.repackFrom touched).run l = .ok (l.repack a b).1 (l.repack a b).2 := by
  rw [Layout.repackFrom, hsome]
  simp only [Bool.false_eq_true, if_false, EStateM.run_bind, EStateM.run_get]
  rw [hfirst, Edit.run_ofExcept_ok]
  simp only [EStateM.run_set, EStateM.run_pure]

/-- **After a move the blocks that it can have displaced are packed anew.**  The layout is sound, it
is packed if it was before, and it can be taken back. -/
theorem Effect.repackFrom {known : Makeups Rat} {l l' : Layout Rat} {touched : List Nat}
    {changes : Changes} (h : l.Sound known) (heffect : Effect known touched changes l l') :
    ∃ moved l'', (Layout.repackFrom touched).run l' = .ok moved l'' ∧ l''.Sound known ∧
      (l.pack = l → l''.pack = l'') ∧
      ∃ m, (Layout.revert changes).run l'' = .ok () m ∧ restore moved m = l := by
  have hsize := heffect.confined.size
  have hsound := heffect.sound h
  cases htouched : touched.isEmpty with
  | true =>
      have hnil : touched = [] := List.isEmpty_iff.mp htouched
      refine ⟨[], l', ?_, hsound, ?_, l.arrange l'.points, ?_, ?_⟩
      · simp only [Layout.repackFrom, htouched, if_true, EStateM.run_pure]
      · intro hpack
        have hconfined := heffect.confined
        rw [hnil] at hconfined
        rw [hconfined.eq_of_nil h.coherent hsound.coherent, hpack]
      · have := heffect.undo h l'.points
        rwa [arrange_points] at this
      · rw [heffect.inPlace, arrange_points]
        rfl
  | false =>
      have hlt := heffect.touched_lt
      rw [← hsize] at hlt
      obtain ⟨a, b, hfirst, ha, hb, hpositive, hnegative⟩ :=
        SequencePair.firstSlots_natCast (α := Rat) hsound.coherent hlt
      refine ⟨(l'.repack a b).1, (l'.repack a b).2, ?_, ?_, ?_,
        l.arrange (l'.repack a b).2.points, ?_, ?_⟩
      · exact run_repackFrom htouched hfirst
      · rw [repack_eq_arrange hsound.coherent.permuted]
        exact hsound.arrange _
      · intro hpack
        rw [heffect.confined.repack_eq_pack h.coherent hsound.coherent hpack hpositive
          hnegative, pack_pack hsound.coherent]
      · have := heffect.undo h (l'.repack a b).2.points
        rwa [← repack_eq_arrange hsound.coherent.permuted] at this
      · rw [restore_repack hsound.coherent.permuted ha hb hsize.symm, heffect.inPlace,
          arrange_points]

end Repack

end Layout

end BlockPlan

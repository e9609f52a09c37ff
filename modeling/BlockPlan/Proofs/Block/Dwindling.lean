import BlockPlan.Proofs.Block.Shrink
import BlockPlan.Proofs.Packing.Refused

/-!
# Shrinking a block as far as it goes

A soft block that is shrunk along an axis time after time takes candidates with ever smaller sides,
until no candidate is smaller.  The list of candidates may be in any order and may hold the same
side several times: every side below the first one comes up, and comes up once, so that the calls
end.  The keys that they answer lead back.

* `Dwindles` — a block is shrunk until it stays as it is.
* `Exhausts` — sides that descend through all those of the candidates below a limit.
* `Exhausts.cons` — the next smaller candidate, and then all sides below its own.
* `exists_dwindles` — from every candidate the calls lead through all smaller sides, and back.
* **`soft_dwindles`** — so they do for every block that is made, in at most one call less than it
  has candidates.
-/

namespace BlockPlan

open Block (sideAlong)

/-! ## Descending through the sides -/

/-- Sides that descend strictly through all those of some candidates that are below a limit. -/
structure Exhausts (horizontal : Bool) (candidates : List (Rat × Rat)) (limit : Rat)
    (sides : List Rat) : Prop where
  descending : sides.Pairwise (· > ·)
  mem_iff : ∀ side, side ∈ sides ↔ side < limit ∧ ∃ e ∈ candidates, sideAlong horizontal e = side

section Exhausts

variable {horizontal : Bool} {candidates : List (Rat × Rat)} {limit : Rat} {sides : List Rat}

/-- Where no candidate is smaller there is no side to go through. -/
lemma NoneSmaller.exhausts (h : NoneSmaller horizontal limit candidates) :
    Exhausts horizontal candidates limit [] := by
  refine ⟨List.Pairwise.nil, ?_⟩
  intro side
  constructor
  · intro hside
    exact absurd hside List.not_mem_nil
  · rintro ⟨hlt, e, he, rfl⟩
    exact absurd hlt (h e he).not_gt

/-- Below a limit there are the side of the next smaller candidate and the sides below it. -/
lemma Exhausts.cons {p : Nat} {s : Rat × Rat} (hs : IsNextSmaller horizontal limit candidates p s)
    (h : Exhausts horizontal candidates (sideAlong horizontal s) sides) :
    Exhausts horizontal candidates limit (sideAlong horizontal s :: sides) := by
  have hbelow : ∀ side ∈ sides, sideAlong horizontal s > side := by
    intro side hside
    exact ((h.mem_iff side).mp hside).1
  refine ⟨List.pairwise_cons.mpr ⟨hbelow, h.descending⟩, ?_⟩
  intro side
  rw [List.mem_cons, h.mem_iff]
  constructor
  · rintro (rfl | ⟨hlt, hcandidate⟩)
    · exact ⟨hs.lt, s, List.mem_of_getElem? hs.getElem?, rfl⟩
    · exact ⟨hlt.trans hs.lt, hcandidate⟩
  · rintro ⟨hlt, e, he, rfl⟩
    rcases (hs.greatest e he hlt).eq_or_lt with hsame | hless
    · exact Or.inl hsame
    · exact Or.inr ⟨hless, e, he, rfl⟩

/-- The candidates below a limit. -/
def smallerOnes (horizontal : Bool) (limit : Rat) (candidates : List (Rat × Rat)) :
    List (Rat × Rat) :=
  candidates.filter fun e => sideAlong horizontal e < limit

/-- The next smaller candidate is not below its own side, so that fewer are below it. -/
lemma IsNextSmaller.fewer {p : Nat} {s : Rat × Rat}
    (hs : IsNextSmaller horizontal limit candidates p s) :
    (smallerOnes horizontal (sideAlong horizontal s) candidates).length
      < (smallerOnes horizontal limit candidates).length := by
  have hbelow : smallerOnes horizontal (sideAlong horizontal s) candidates
      = (smallerOnes horizontal limit candidates).filter
        fun e => sideAlong horizontal e < sideAlong horizontal s := by
    rw [smallerOnes, smallerOnes, List.filter_filter]
    refine List.filter_congr fun e _ => ?_
    rw [← Bool.decide_and, decide_eq_decide]
    exact ⟨fun hlt => ⟨hlt, hlt.trans hs.lt⟩, And.left⟩
  rw [hbelow, List.length_filter_lt_length_iff_exists]
  refine ⟨s, List.mem_filter.mpr ⟨List.mem_of_getElem? hs.getElem?, decide_eq_true hs.lt⟩, ?_⟩
  rw [decide_eq_true_iff]
  exact lt_irrefl _

/-- From the side of a candidate there are fewer sides to go through than candidates. -/
lemma Exhausts.length_lt (h : Exhausts horizontal candidates limit sides) {e : Rat × Rat}
    (he : e ∈ candidates) (hside : sideAlong horizontal e = limit) :
    sides.length < candidates.length := by
  have hnodup : (limit :: sides).Nodup := by
    rw [List.nodup_cons]
    constructor
    · intro hmem
      exact lt_irrefl limit ((h.mem_iff limit).mp hmem).1
    · exact h.descending.imp fun hgt => ne_of_gt hgt
  have hsubset : limit :: sides ⊆ candidates.map (sideAlong horizontal) := by
    rw [List.cons_subset, ← hside]
    refine ⟨List.mem_map_of_mem he, ?_⟩
    intro side hmem
    obtain ⟨d, hd, rfl⟩ := ((h.mem_iff side).mp hmem).2
    exact List.mem_map_of_mem hd
  have hlength := (List.subperm_of_subset hnodup hsubset).length_le
  rw [List.length_cons, List.length_map] at hlength
  exact hlength

end Exhausts

namespace Block

/-! ## Shrinking time after time -/

/-- A block is shrunk along an axis time after time, until a call answers nothing and leaves it as
it is.  What the other calls answer, and what they make of the block, is listed in their order. -/
inductive Dwindles (horizontal : Bool) : Block Rat → List (ShapeKey × Block Rat) → Block Rat → Prop
  | stays {b : Block Rat} (h : (shrink horizontal).run b = .ok none b) : Dwindles horizontal b [] b
  | shrinks {b c last : Block Rat} {key : ShapeKey} {visits : List (ShapeKey × Block Rat)}
      (h : (shrink horizontal).run b = .ok (some key) c)
      (rest : Dwindles horizontal c visits last) :
      Dwindles horizontal b ((key, c) :: visits) last

/-- The sides along an axis that a block shows on its way. -/
def shownSides (horizontal : Bool) (visits : List (ShapeKey × Block Rat)) : List Rat :=
  visits.map fun v => sideAlong horizontal (v.2.width, v.2.height)

/-- Puts the shapes with some keys in force again, the last one first. -/
def takeBack (visits : List (ShapeKey × Block Rat)) : Edit Rat (Block Rat) Unit :=
  forM (visits.map Prod.fst).reverse setShape

section Candidates

variable {b c : Block Rat} {candidates : List (Rat × Rat)} {index : Int} {horizontal : Bool}

/-- A soft block that takes a candidate keeps its list of them. -/
lemma Takes.form {p : Nat} {s : Rat × Rat} (h : b.Takes c p s)
    (hform : b.form = .soft candidates index) : c.form = .soft candidates p := by
  have hmenu : c.form.menu = .inr candidates := by
    rw [show c.form.menu = b.form.menu from congrArg (fun m => m.2.2) h.reshaped.makeup, hform]
    rfl
  have hkey := h.shapeKey
  rw [Block.shapeKey] at hkey
  cases hc : c.form with
  | hard w hh allowed o => simp only [hc, Form.menu, reduceCtorEq] at hmenu
  | soft listed i =>
      simp only [hc, Form.menu, Sum.inr.injEq, ShapeKey.candidate.injEq] at hmenu hkey
      rw [hmenu, hkey]

/-- The key that was in force gives the block back after it has taken another candidate. -/
lemma Takes.run_setShape_back {p : Nat} {s : Rat × Rat} (h : b.Takes c p s)
    (hform : b.form = .soft candidates index)
    (hslot : Slot.get? candidates index = some (b.width, b.height)) :
    (setShape b.shapeKey).run c = .ok () b := by
  have hsides : b.HasKeySides := by
    rw [HasKeySides, hform]
    exact hslot
  rw [hsides.recalled c h.reshaped.makeup, h.reshaped.x, h.reshaped.y]
  rfl

/-- What has been taken back up to a block is taken back up to the one in front of it by its key. -/
lemma run_takeBack_cons {key : ShapeKey} {visits : List (ShapeKey × Block Rat)} {last : Block Rat}
    (h : (takeBack visits).run last = .ok () c) (hkey : (setShape key).run c = .ok () b) :
    (takeBack ((key, c) :: visits)).run last = .ok () b := by
  rw [takeBack] at h
  rw [takeBack, List.map_cons, List.reverse_cons, List.forM_append, EStateM.run_bind, h]
  simp only [List.forM_cons, List.forM_nil, EStateM.run_bind, hkey, EStateM.run_pure]

/-- **From every candidate shrinking leads through all smaller sides**, until it changes nothing,
and the keys that it answers lead back.  Every call leaves fewer candidates that are smaller. -/
theorem exists_dwindles (hform : b.form = .soft candidates index)
    (hslot : Slot.get? candidates index = some (b.width, b.height)) (horizontal : Bool) :
    ∃ visits last, Dwindles horizontal b visits last ∧
      Exhausts horizontal candidates (sideAlong horizontal (b.width, b.height))
        (shownSides horizontal visits) ∧
      (takeBack visits).run last = .ok () b := by
  induction hcount :
    (smallerOnes horizontal (sideAlong horizontal (b.width, b.height)) candidates).length
      using Nat.strong_induction_on generalizing b index with
  | _ count ih =>
      rcases run_shrink hform hslot horizontal with ⟨hnone, hrun⟩ | ⟨p, s, c, hs, hc, hrun⟩
      · exact ⟨[], b, .stays hrun, hnone.exhausts, rfl⟩
      · have hsides := hc.sides
        have hcslot : Slot.get? candidates (p : Int) = some (c.width, c.height) := by
          rw [hsides]
          exact Slot.get?_natCast hs.getElem?
        have hfewer := hs.fewer
        rw [← hsides, hcount] at hfewer
        obtain ⟨visits, last, hdwindles, hexhausts, hback⟩ := ih _ hfewer (hc.form hform) hcslot rfl
        rw [hsides] at hexhausts
        refine ⟨(b.shapeKey, c) :: visits, last, .shrinks hrun hdwindles, ?_,
          run_takeBack_cons hback (hc.run_setShape_back hform hslot)⟩
        rw [shownSides, List.map_cons, hsides]
        exact hexhausts.cons hs

end Candidates

/-- **Every soft block that is made may be shrunk, from any of its candidates, through all smaller
sides**: each of them comes up once, the largest one first, in at most one call less than there are
candidates.  Then shrinking leaves the block as it is, and the keys that were answered lead back to
where it began. -/
theorem soft_dwindles {name : String} {candidates : List (Rat × Rat)} {index start : Int}
    {spot : Placement Rat} {made : Block Rat} (hmade : soft name candidates index spot = .ok made)
    (hstart : -candidates.length ≤ start ∧ start < candidates.length) (horizontal : Bool) :
    ∃ b visits last, (setShape (.candidate start)).run made = .ok () b ∧
      Dwindles horizontal b visits last ∧
      Exhausts horizontal candidates (sideAlong horizontal (b.width, b.height))
        (shownSides horizontal visits) ∧
      visits.length ≤ candidates.length - 1 ∧ (takeBack visits).run last = .ok () b := by
  obtain ⟨-, hform, -, -⟩ := soft_eq_ok hmade
  have hwithin : ¬ Slot.Beyond candidates.length start := by
    rintro (h | h) <;> omega
  obtain ⟨sides, hsides⟩ := Slot.exists_get? hwithin
  have hrun := run_setShape_candidate hform start
  rw [hsides] at hrun
  obtain ⟨visits, last, hdwindles, hexhausts, hback⟩ := exists_dwindles
    (b := { made with form := .soft candidates start, width := sides.1, height := sides.2 }) rfl
    hsides horizontal
  have hmem : sides ∈ candidates :=
    Slot.mem_of_entry (α := Rat) (i := start) (by rw [Slot.entry, hsides])
  have hlength := hexhausts.length_lt hmem rfl
  rw [shownSides, List.length_map] at hlength
  exact ⟨_, visits, last, hrun, hdwindles, hexhausts, Nat.le_sub_one_of_lt hlength, hback⟩

/-- Candidates in no order, some of them twice, from the widest one on. -/
theorem soft_dwindles_repeated :
    let candidates : List (Rat × Rat) := [(4, 6), (3, 8), (12, 2), (4, 6), (2, 12), (3, 8)]
    ∃ made, soft "s" candidates 1 {} = .ok made ∧
      (-(candidates.length : Int) ≤ 2 ∧ (2 : Int) < candidates.length) ∧
      ∃ b visits last, (setShape (.candidate 2)).run made = .ok () b ∧ Dwindles true b visits last ∧
        Exhausts true candidates (sideAlong true (b.width, b.height)) (shownSides true visits) ∧
        visits.length ≤ candidates.length - 1 ∧ (takeBack visits).run last = .ok () b := by
  intro candidates
  have hmade : soft "s" candidates 1 {} = .ok ⟨"s", .soft candidates 1, 0, 0, 3, 8, false⟩ := by
    decide +kernel
  have hstart : -(candidates.length : Int) ≤ 2 ∧ (2 : Int) < candidates.length := by decide
  exact ⟨_, hmade, hstart, soft_dwindles hmade hstart true⟩

end Block

end BlockPlan

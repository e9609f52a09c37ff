import BlockPlan.Proofs.Packing.Recall

/-!
# What refused edits leave behind

Sequences that are no rearrangements of the blocks, slots beyond either end of a sequence and
orientations that a block does not list are refused before anything is changed.  The number of a
candidate is different: a soft block takes it for its shape key first and looks the candidate up
afterwards.  So it keeps a number beyond both ends although it refuses it, and a number that counts
from the end of its candidates is not refused at all.

* `Call.Bad` — edits with an argument that stands for nothing in the layout.
* `run_editBlock` — an edit of one block, in the layout.
* **`bad_refused`** — which of these edits leave the layout as it is, and what the others do.
-/

namespace BlockPlan

variable {α : Type}

/-- A slot beyond either end is refused. -/
lemma exchangeSlots_error {sequence : List Nat} (slots : List Int) {a b : Int}
    (h : Slot.Beyond sequence.length a ∨ Slot.Beyond sequence.length b) :
    ∃ e, (exchangeSlots sequence slots a b : Except (Fault α) (List Nat × List Int))
        = .error e := by
  rw [← Slot.place?_eq_none_iff, ← Slot.place?_eq_none_iff] at h
  cases hj : Slot.place? sequence.length b with
  | none => exact ⟨Slot.fault b, by simp only [exchangeSlots, Slot.place, hj]; rfl⟩
  | some j =>
      have hi : Slot.place? sequence.length a = none := h.resolve_right (by simp [hj])
      exact ⟨Slot.fault a, by simp only [exchangeSlots, Slot.place, hj, hi]; rfl⟩

namespace Block

lemma run_setShape_notAllowed {b : Block α} {w h : α} {allowed : List Orientation}
    {former : Orientation} (hform : b.form = .hard w h allowed former) {o : Orientation}
    (ho : o ∉ allowed) :
    (setShape (.orientation o)).run b = .error (.shapeNotAllowed b.name (.orientation o)) b := by
  simp [setShape, hform, ho]

/-- A soft block takes the number of a candidate for its key before it looks the candidate up. -/
lemma run_setShape_candidate {b : Block α} {candidates : List (α × α)} {former : Int}
    (hform : b.form = .soft candidates former) (k : Int) :
    (setShape (.candidate k)).run b =
      match Slot.get? candidates k with
      | some c => .ok () { b with form := .soft candidates k, width := c.1, height := c.2 }
      | none => .error (Slot.fault k) { b with form := .soft candidates k } := by
  simp only [setShape, EStateM.run_bind, EStateM.run_get, hform, EStateM.run_set, Slot.entry]
  cases Slot.get? candidates k <;> rfl

end Block

namespace Layout

/-- An edit of the block in a slot, in the layout. -/
lemma run_editBlock {β : Type} {l : Layout α} {slot : Int} {p : Nat} {b : Block α}
    (hp : Slot.place? l.size slot = some p) (hb : l.blocks[p]? = some b)
    (edit : Edit α (Block α) β) :
    (editBlock slot edit).run l =
      match edit.run b with
      | .ok v c => .ok v { l with blocks := l.blocks.set p c }
      | .error e c => .error e { l with blocks := l.blocks.set p c } := by
  have hplace : (Slot.place l.blocks.length slot : Except (Fault α) Nat) = .ok p := by
    rw [Slot.place, show Slot.place? l.blocks.length slot = some p from hp]
  simp only [editBlock, Block.editAt, Edit.run_within, EStateM.run_bind, EStateM.run_get, hplace,
    Edit.run_ofExcept_ok, hb]
  cases edit.run b <;> rfl

/-- An edit with an argument that stands for nothing in the layout. -/
inductive Call.Bad (l : Layout α) : Call α → Prop where
  | sequences {positive negative : List Int}
      (h : ¬ (positive.Perm ((List.range l.size).map fun (i : Nat) => (i : Int)) ∧
        negative.Perm ((List.range l.size).map fun (i : Nat) => (i : Int)))) :
      Bad l (.setSequences positive negative)
  | positiveSlot {i j : Int}
      (h : Slot.Beyond l.pair.positive.length i ∨ Slot.Beyond l.pair.positive.length j) :
      Bad l (.swapPositive i j)
  | negativeSlot {i j : Int}
      (h : Slot.Beyond l.pair.negative.length i ∨ Slot.Beyond l.pair.negative.length j) :
      Bad l (.swapNegative i j)
  | orientation {slot : Int} {p : Nat} {b : Block α} {w h : α} {allowed : List Orientation}
      {former o : Orientation} (hp : Slot.place? l.size slot = some p) (hb : l.blocks[p]? = some b)
      (hform : b.form = .hard w h allowed former) (ho : o ∉ allowed) :
      Bad l (.setShape slot (.orientation o))
  | candidate {slot : Int} {p : Nat} {b : Block α} {candidates : List (α × α)} {former k : Int}
      (hp : Slot.place? l.size slot = some p) (hb : l.blocks[p]? = some b)
      (hform : b.form = .soft candidates former) (hk : k < 0 ∨ (candidates.length : Int) ≤ k) :
      Bad l (.setShape slot (.candidate k))

variable [Scalar α]

/-- The edit is refused, and the layout stays as it is. -/
def Call.Refused (l : Layout α) (call : Call α) : Prop := ∃ e, call.edit.run l = .error e l

/-- What becomes of a layout whose block `p`, a soft one, is asked for candidate `k`: a number
beyond both ends is refused and becomes the key of the block all the same, and one that counts from
the end becomes its key and puts the candidate in force.  Nothing else changes. -/
def Call.Misnumbers (l : Layout α) (p : Nat) (b : Block α) (candidates : List (α × α)) (k : Int)
    (call : Call α) : Prop :=
  (Slot.Beyond candidates.length k ∧
    ∃ e, call.edit.run l
      = .error e { l with blocks := l.blocks.set p { b with form := .soft candidates k } }) ∨
  (-candidates.length ≤ k ∧ k < 0 ∧
    ∃ c, candidates[(k + candidates.length).toNat]? = some c ∧
      call.edit.run l = .ok () { l with
        blocks := l.blocks.set p
          { b with form := .soft candidates k, width := c.1, height := c.2 } })

section Refused

variable {l : Layout α}

lemma setSequences_refused {positive negative : List Int}
    (h : ¬ (positive.Perm ((List.range l.size).map fun (i : Nat) => (i : Int)) ∧
      negative.Perm ((List.range l.size).map fun (i : Nat) => (i : Int)))) :
    (Call.setSequences positive negative).Refused l := by
  have hbad : ¬ (SequencePair.isPermutation l.size positive &&
      SequencePair.isPermutation l.size negative) := by
    rw [Bool.and_eq_true]
    exact fun hgood =>
      h ⟨SequencePair.perm_of_isPermutation hgood.1, SequencePair.perm_of_isPermutation hgood.2⟩
  refine ⟨.notPermutations l.size, ?_⟩
  rw [Call.edit, setSequences, EStateM.run_bind, EStateM.run_get]
  exact run_editPair_error (if_neg hbad)

omit [Scalar α] in
/-- An exchange in either sequence of a slot that is not there changes nothing. -/
lemma swap_refused (sign : Sign) {a b : Int}
    (h : Slot.Beyond (l.pair.sequence sign).length a ∨
      Slot.Beyond (l.pair.sequence sign).length b) :
    ∃ e, (editPair (SequencePair.swap sign a b)).run l = .error e l := by
  obtain ⟨e, he⟩ := exchangeSlots_error (α := α) (l.pair.slots sign) h
  refine ⟨e, run_editPair_error ?_⟩
  rw [SequencePair.swap, he]
  rfl

lemma orientation_refused {slot : Int} {p : Nat} {b : Block α} {w h : α}
    {allowed : List Orientation} {former o : Orientation} (hp : Slot.place? l.size slot = some p)
    (hb : l.blocks[p]? = some b) (hform : b.form = .hard w h allowed former) (ho : o ∉ allowed) :
    (Call.setShape slot (.orientation o)).Refused l := by
  refine ⟨.shapeNotAllowed b.name (.orientation o), ?_⟩
  obtain ⟨hlt, hget⟩ := List.getElem?_eq_some_iff.mp hb
  rw [Call.edit, setShape, run_editBlock hp hb, Block.run_setShape_notAllowed hform ho]
  simp only [← hget, List.set_getElem_self]

lemma candidate_misnumbers {slot : Int} {p : Nat} {b : Block α} {candidates : List (α × α)}
    {former k : Int} (hp : Slot.place? l.size slot = some p) (hb : l.blocks[p]? = some b)
    (hform : b.form = .soft candidates former) (hk : k < 0 ∨ (candidates.length : Int) ≤ k) :
    (Call.setShape slot (.candidate k)).Misnumbers l p b candidates k := by
  have hrun := run_editBlock hp hb (Block.setShape (.candidate k))
  rw [Block.run_setShape_candidate hform] at hrun
  by_cases hbeyond : Slot.Beyond candidates.length k
  · rw [Slot.get?, Slot.place?_eq_none_iff.mpr hbeyond] at hrun
    exact Or.inl ⟨hbeyond, _, hrun⟩
  · have hlow : -candidates.length ≤ k := not_lt.mp fun hlt => hbeyond (Or.inl hlt)
    have hneg : k < 0 := hk.resolve_right fun hle => hbeyond (Or.inr hle)
    have hlt : (k + candidates.length).toNat < candidates.length := by omega
    have hget := List.getElem?_eq_getElem hlt
    simp only [Slot.get?, Slot.place?_of_neg hlow hneg, hget] at hrun
    exact Or.inr ⟨hlow, hneg, _, hget, hrun⟩

/-- **An edit with an argument that stands for nothing is refused and leaves the layout as it is**,
unless it asks a soft block for a candidate by number. -/
theorem bad_refused {call : Call α} (h : call.Bad l) :
    ((∀ slot k, call ≠ .setShape slot (.candidate k)) ∧ call.Refused l) ∨
      ∃ slot k p b candidates former, call = .setShape slot (.candidate k) ∧
        Slot.place? l.size slot = some p ∧ l.blocks[p]? = some b ∧
        b.form = .soft candidates former ∧
        call.Misnumbers l p b candidates k := by
  -- only an edit that asks for a candidate by number leaves something behind
  cases h with
  | sequences h => exact Or.inl ⟨by simp, setSequences_refused h⟩
  | positiveSlot h => exact Or.inl ⟨by simp, swap_refused .positive h⟩
  | negativeSlot h => exact Or.inl ⟨by simp, swap_refused .negative h⟩
  | orientation hp hb hform ho => exact Or.inl ⟨by simp, orientation_refused hp hb hform ho⟩
  | candidate hp hb hform hk =>
      exact Or.inr ⟨_, _, _, _, _, _, rfl, hp, hb, hform, candidate_misnumbers hp hb hform hk⟩

/-- Exchanging a slot that is not there leaves the layout as it is, and asking for a candidate that
is not there leaves its number behind. -/
theorem bad_refused_turnedUnderSoft :
    ((Call.swapPositive (-3) 1).Bad turnedUnderSoft ∧
      (Call.swapPositive (-3) 1).Refused turnedUnderSoft) ∧
      (Call.setShape 1 (.candidate 7)).Bad turnedUnderSoft ∧
      ∃ p b candidates, (Call.setShape 1 (.candidate 7)).Misnumbers turnedUnderSoft p b
        candidates 7 := by
  have hswap : (Call.swapPositive (-3) 1).Bad turnedUnderSoft :=
    .positiveSlot (Or.inl (Or.inl (by decide)))
  have hnumber : (Call.setShape 1 (.candidate 7)).Bad turnedUnderSoft :=
    .candidate rfl rfl rfl (Or.inr (by decide))
  refine ⟨⟨hswap, ((bad_refused hswap).resolve_right (by simp)).2⟩, hnumber, ?_⟩
  obtain ⟨_, _, p, b, candidates, _, hcall, -, -, -, hmisnumbers⟩ :=
    (bad_refused hnumber).resolve_left fun h => h.1 1 7 rfl
  cases hcall
  exact ⟨p, b, candidates, hmisnumbers⟩

/-- A soft block by itself, in the first of its two shapes. -/
def lone : Layout Rat := ofBlocks [⟨"lone", .soft [(4, 1), (2, 2)] 0, 0, 0, 4, 1, false⟩]

/-- Of a block with two candidates, candidate 7 is refused, but its number stays behind as the key
of the block; and candidate -1 is not refused at all. -/
theorem bad_keeps_number_lone :
    ((Call.setShape 0 (.candidate 7)).Bad lone ∧
      (Call.setShape 0 (.candidate 7)).edit.run lone = .error .slotOutOfRange
        (ofBlocks [⟨"lone", .soft [(4, 1), (2, 2)] 7, 0, 0, 4, 1, false⟩]) ∧
      ¬ (Call.setShape 0 (.candidate 7)).Refused lone) ∧
    ((Call.setShape 0 (.candidate (-1))).Bad lone ∧
      (Call.setShape 0 (.candidate (-1))).edit.run lone
        = .ok () (ofBlocks [⟨"lone", .soft [(4, 1), (2, 2)] (-1), 0, 0, 2, 2, false⟩])) := by
  have hrun : (Call.setShape 0 (.candidate 7)).edit.run lone = .error .slotOutOfRange
      (ofBlocks [⟨"lone", .soft [(4, 1), (2, 2)] 7, 0, 0, 4, 1, false⟩]) := rfl
  constructor
  · refine ⟨.candidate rfl rfl rfl (Or.inr (by decide)), hrun, ?_⟩
    rintro ⟨e, hkept⟩
    rw [hrun, EStateM.Result.error.injEq] at hkept
    exact absurd hkept.2 (by decide)
  · exact ⟨.candidate rfl rfl rfl (Or.inl (by decide)), rfl⟩

end Refused

end Layout

end BlockPlan

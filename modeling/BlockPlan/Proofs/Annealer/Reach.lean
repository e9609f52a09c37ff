import BlockPlan.Proofs.Annealer.Calibrated
import BlockPlan.Proofs.Moves.Table

/-!
# Where exchanges lead

Moves that exchange two slots of a sequence lead from any pair of sequences to any other one, as
long as both kinds of them are drawn at all, and they leave the blocks as they are, apart from where
these stand.  Which slots are exchanged is up to two numbers, and every two different slots are
those of exactly two numbers.

* `Exchanges`, **`exchanges_iff_perm`** — rows of exchanges lead to the rearrangements of a list.
* **`distinctSlots_bijOn`** — which two numbers stand for which two slots.
* `SwapDraws`, `Answers` — the draws that decide an exchange, and sources that answer with them.
* `Plan.Hops`, `exists_script` — one move from a plan to another one, whatever source of draws
  decides it, and a row of them.
* `hops_swap`, `hops_of_perm` — either sequence has any two of its slots exchanged by some draws,
  and is rearranged by a row of moves.
* **`hops_to_target`**, **`perturbs_reach`** — some draws lead to any two sequences.
-/

namespace BlockPlan

/-! ## Rows of exchanges -/

/-- An exchange of two different slots leads from a list to another one. -/
def Exchanges (s t : List Nat) : Prop :=
  ∃ i j, i < s.length ∧ j < s.length ∧ i ≠ j ∧ t = exchanged s i j

lemma exchanged_cons (x : Nat) (s : List Nat) (i j : Nat) :
    exchanged (x :: s) (i + 1) (j + 1) = x :: exchanged s i j := by
  simp [exchanged]

/-- Behind another entry the slots are one further on. -/
lemma Exchanges.cons (x : Nat) {s t : List Nat} (h : Exchanges s t) :
    Exchanges (x :: s) (x :: t) := by
  obtain ⟨i, j, hi, hj, hne, rfl⟩ := h
  exact ⟨i + 1, j + 1, Nat.succ_lt_succ hi, Nat.succ_lt_succ hj, fun h =>
      hne (Nat.succ_injective h),
    (exchanged_cons x s i j).symm⟩

/-- An exchange rearranges a list. -/
lemma Exchanges.perm {s t : List Nat} (h : Exchanges s t) : s.Perm t := by
  obtain ⟨i, j, hi, hj, -, rfl⟩ := h
  exact (exchanged_perm hi hj).symm

/-- **Rows of exchanges lead to the rearrangements of a list**, and to no other lists. -/
theorem exchanges_iff_perm {s t : List Nat} : Relation.ReflTransGen Exchanges s t ↔ s.Perm t := by
  constructor
  · intro h
    induction h with
    | refl => exact .refl _
    | tail _ hlast ih => exact ih.trans hlast.perm
  · intro h
    induction h with
    | nil => exact .refl
    | cons x _ ih => exact ih.lift (List.cons x) fun _ _ => Exchanges.cons x
    | swap x y s => exact .single ⟨0, 1, by simp, by simp, zero_ne_one, rfl⟩
    | trans _ _ ih ih' => exact ih.trans ih'

/-! ## The draws of an exchange -/

namespace Layout

/-- **Two numbers stand for two different slots, and any two different slots are those of exactly
two numbers.** -/
theorem distinctSlots_bijOn (n : Nat) :
    Set.BijOn distinctSlots {d | d.1 < n ∧ d.2 < n - 1} {s | s.1 < n ∧ s.2 < n ∧ s.1 ≠ s.2} := by
  refine ⟨fun d hd => distinctSlots_mem hd.1 hd.2, ?_, ?_⟩
  · rintro ⟨a, b⟩ - ⟨c, d⟩ - hsame
    simp only [distinctSlots, Prod.mk.injEq] at hsame ⊢
    obtain ⟨rfl, hsecond⟩ := hsame
    refine ⟨rfl, ?_⟩
    split_ifs at hsecond <;> omega
  · -- the second number is the second slot, or one less behind the first
    rintro ⟨a, b⟩ ⟨ha, hb, hne⟩
    dsimp only at ha hb hne
    refine ⟨(a, if a < b then b - 1 else b), ⟨ha, ?_⟩, ?_⟩
    · dsimp only
      split_ifs <;> omega
    · simp only [distinctSlots, Prod.mk.injEq, true_and]
      split_ifs <;> omega

end Layout

/-- The draws that decide an exchange of slots in a sequence of `n` blocks: one for the kind of the
move, and two for the slots. -/
structure SwapDraws (n : Nat) where
  unit : { q : Rat // 0 ≤ q ∧ q < 1 }
  first : Fin n
  second : Fin (n - 1)

namespace SwapDraws

variable {n : Nat}

/-- The slots that are exchanged. -/
def slots (d : SwapDraws n) : Nat × Nat := Layout.distinctSlots (d.first, d.second)

/-- A source answers with some draws, and another one is left. -/
structure IsNext {ρ : Type} [DrawSource ρ Rat] (d : SwapDraws n) (r r' : ρ) : Prop where
  unit : (DrawSource.unit r).1 = d.unit
  first : (DrawSource.below n (DrawSource.unit r).2).1 = d.first
  second : (DrawSource.below (n - 1) (DrawSource.below n (DrawSource.unit r).2).2).1 = d.second
  rest : (DrawSource.below (n - 1) (DrawSource.below n (DrawSource.unit r).2).2).2 = r'

/-- Some draws, and then those of a stream. -/
def before (d : SwapDraws n) (s : Stream) : Stream where
  units
    | 0 => d.unit
    | k + 1 => s.units k
  indices
    | 0 => d.first
    | 1 => d.second
    | k + 2 => s.indices k

lemma isNext_before (d : SwapDraws n) (s : Stream) : d.IsNext (d.before s) s where
  unit := rfl
  first := Nat.mod_eq_of_lt d.first.isLt
  second := Nat.mod_eq_of_lt d.second.isLt
  rest := rfl

/-- Two different slots are exchanged by some draws, with any number for the kind of the move. -/
lemma exists_slots (unit : { q : Rat // 0 ≤ q ∧ q < 1 }) {i j : Nat} (hi : i < n) (hj : j < n)
    (hne : i ≠ j) : ∃ d : SwapDraws n, d.unit = unit ∧ d.slots = (i, j) := by
  obtain ⟨⟨a, b⟩, ⟨ha, hb⟩, hslots⟩ := (Layout.distinctSlots_bijOn n).surjOn
    (show (i, j) ∈ {s : Nat × Nat | s.1 < n ∧ s.2 < n ∧ s.1 ≠ s.2} from ⟨hi, hj, hne⟩)
  exact ⟨⟨unit, ⟨a, ha⟩, ⟨b, hb⟩⟩, rfl, hslots⟩

variable {ρ : Type} [DrawSource ρ Rat]

lemma IsNext.run_twoDistinct {d : SwapDraws n} {r r' : ρ} (h : d.IsNext r r') (hn : 2 ≤ n)
    (l : Layout Rat) :
    (Layout.twoDistinct n : Edit Rat (Drawn (Layout Rat) ρ) (Nat × Nat)).run
      ⟨l, (DrawSource.unit r).2⟩
      = .ok d.slots ⟨l, r'⟩ := by
  rw [Layout.run_twoDistinct_eq hn, ← h.rest]
  simp only [h.first, h.second, slots]

end SwapDraws

/-- A source answers with the draws of some moves, one after the other, and another one is left. -/
inductive Answers {n : Nat} {ρ : Type} [DrawSource ρ Rat] : List (SwapDraws n) → ρ → ρ → Prop where
  | nothing (r : ρ) : Answers [] r r
  | next {d : SwapDraws n} {rest : List (SwapDraws n)} {r r' r'' : ρ} (first : d.IsNext r r')
      (later : Answers rest r' r'') : Answers (d :: rest) r r''

/-- There are streams that answer with any draws. -/
lemma exists_answers {n : Nat} (script : List (SwapDraws n)) (s : Stream) :
    ∃ s₀, Answers script s₀ s := by
  induction script with
  | nil => exact ⟨s, .nothing s⟩
  | cons d rest ih =>
      obtain ⟨s₁, hrest⟩ := ih
      exact ⟨d.before s₁, .next (d.isNext_before s₁) hrest⟩

/-! ## Moves from plan to plan -/

/-- The kind of the moves that exchange two slots of a sequence. -/
def Sign.swapKind : Sign → MoveKind
  | .positive => .positiveSwap
  | .negative => .negativeSwap

namespace Plan

variable {setup : Setup Rat} {everything : Bool} {n : Nat}

/-- Some draws make a random move lead from a plan to another one, whatever source answers with
them. -/
def Hops (setup : Setup Rat) (everything : Bool) (n : Nat) (p q : Plan Rat) : Prop :=
  ∃ d : SwapDraws n, ∀ (ρ : Type) [DrawSource ρ Rat] (r r' : ρ), d.IsNext r r' →
    (perturb setup everything).run ⟨p, r⟩ = .ok () ⟨q, r'⟩

/-- A number of random moves, one after the other, none of which is taken back. -/
def perturbs {ρ : Type} [DrawSource ρ Rat] (setup : Setup Rat) (everything : Bool) :
    (count : Nat) → Edit Rat (Drawn (Plan Rat) ρ) Unit
  | 0 => pure ()
  | count + 1 => do
    perturb setup everything
    perturbs setup everything count

/-- Moves from plan to plan make a row of moves, decided by the draws of all of them. -/
lemma exists_script {p q : Plan Rat} (h : Relation.ReflTransGen (Hops setup everything n) p q) :
    ∃ script : List (SwapDraws n), ∀ (ρ : Type) [DrawSource ρ Rat] (r r' : ρ), Answers script r r' →
      (perturbs setup everything script.length).run ⟨p, r⟩ = .ok () ⟨q, r'⟩ := by
  induction h using Relation.ReflTransGen.head_induction_on with
  | refl =>
      refine ⟨[], fun ρ _ r r' h => ?_⟩
      cases h
      rfl
  | head hop _ ih =>
      obtain ⟨d, hd⟩ := hop
      obtain ⟨script, hscript⟩ := ih
      refine ⟨d :: script, fun ρ _ r r' h => ?_⟩
      cases h with
      | next first rest =>
          rw [List.length_cons, perturbs, EStateM.run_bind, hd ρ _ _ first]
          exact hscript ρ _ _ rest

/-- A plan of given blocks, wherever they stand, in given sequences. -/
structure Holds (given : List (Block Rat)) (s : Sign → List Nat) (p : Plan Rat) : Prop where
  blocks : p.layout.blocks.map Block.atOrigin = given
  perm : ∀ sign, (s sign).Perm (List.range given.length)
  pair : p.layout.pair = .ofSequences given.length (s .positive) (s .negative)

variable {given : List (Block Rat)} {s : Sign → List Nat} {p : Plan Rat}

lemma Holds.size (h : p.Holds given s) : p.layout.size = given.length := by
  rw [← h.blocks, List.length_map]
  rfl

lemma Holds.coherent (h : p.Holds given s) : p.layout.Coherent := by
  rw [Layout.Coherent, h.pair, h.size]
  exact SequencePair.coherent_ofSequences (h.perm .positive) (h.perm .negative)

lemma Holds.sequence (h : p.Holds given s) : p.layout.pair.sequence = s := by
  rw [h.pair]
  funext sign
  cases sign <;> rfl

section Hops

variable (hsetup : setup.Fair) (everything)

include hsetup

/-- Draws that pick a kind of move, and make it exchange slots, lead to a plan
of the same blocks. -/
lemma exists_hop {kind : MoveKind} {step : Step} {q : SequencePair} {d : SwapDraws n}
    (hpick : setup.table.pick d.unit = kind) (hkind : kind ≠ .resize)
    (hq : q.Coherent p.layout.size) (htouched : ∀ i ∈ step.touched, i < p.layout.size)
    (hmove : ∀ (ρ : Type) [DrawSource ρ Rat] (r r' : ρ), d.IsNext r r' →
      (Layout.makeMove setup.objective.outlineWidth setup.objective.outlineHeight kind).run
        ⟨p.layout, (DrawSource.unit r).2⟩ = .ok step ⟨{ p.layout with pair := q }, r'⟩) :
    ∃ p', p.Hops setup everything n p' ∧ p'.layout.pair = q ∧
      p'.layout.blocks.map Block.atOrigin = p.layout.blocks.map Block.atOrigin := by
  obtain ⟨moved, points, hrepack, -⟩ :=
    Layout.Coherent.repackFrom (l := { p.layout with pair := q }) hq htouched
  let l : Layout Rat := { p.layout with pair := q }
  let p' : Plan Rat :=
    { layout := l.arrange points
      tally := p.tally.measured setup.objective everything (l.arrange points)
      lastMove := some ⟨step.kind, step.changes, moved, p.tally.raw.toList⟩ }
  have hruns : p.Hops setup everything n p' := by
    refine ⟨d, ?_⟩
    intro ρ _ r r' hd
    have hpicked : setup.table.pick (DrawSource.unit r).1 = kind := by
      rw [hd.unit]
      exact hpick
    rw [run_perturb_picked hpicked hkind p everything]
    exact run_move_repacked hsetup everything (hmove ρ r r' hd) hrepack
  exact ⟨p', hruns, rfl, Layout.map_blocks_arrange (fun _ _ _ => rfl) points l⟩

variable {unit : { q : Rat // 0 ≤ q ∧ q < 1 }} (hn : 2 ≤ given.length)

include hn

/-- Any exchange in either sequence is what some draws make of a plan. -/
lemma hops_swap (sign : Sign) (hpick : setup.table.pick unit = sign.swapKind) (h : p.Holds given s)
    {t : List Nat} (ht : Exchanges (s sign) t) :
    ∃ p', p.Hops setup everything given.length p' ∧ p'.Holds given (Function.update s sign t) := by
  have hrearranged := ht.perm.symm.trans (h.perm sign)
  obtain ⟨i, j, hi, hj, hne, rfl⟩ := ht
  rw [(h.perm sign).length_eq, List.length_range] at hi hj
  obtain ⟨d, rfl, hslots⟩ := SwapDraws.exists_slots unit hi hj hne
  obtain ⟨q, hswap, hq, hsequence, -⟩ :=
    h.coherent.swap (α := Rat) sign (h.size.symm ▸ hi) (h.size.symm ▸ hj)
  have hmove : ∀ (ρ : Type) [DrawSource ρ Rat] (r r' : ρ), d.IsNext r r' →
      (Layout.makeMove setup.objective.outlineWidth setup.objective.outlineHeight sign.swapKind).run
        ⟨p.layout, (DrawSource.unit r).2⟩
          = .ok
            ⟨sign.swapKind, .ofSwaps sign [((i : Int), (j : Int))],
              [(q.sequence sign).getD i 0, (q.sequence sign).getD j 0]⟩
            ⟨{ p.layout with pair := q }, r'⟩ := by
    intro ρ _ r r' hd
    have hdraw := hd.run_twoDistinct hn p.layout
    rw [hslots, ← h.size] at hdraw
    have hrun := Layout.run_sequenceSwap sign (h.size.symm ▸ hn) hdraw
      (Layout.run_editPair_ok hswap) sign.swapKind
    cases sign <;> exact hrun
  obtain ⟨p', hhop, hpair, hblocks⟩ :=
    exists_hop everything hsetup hpick (by cases sign <;> decide) hq
    ((hq.indexed sign).getD_pair_lt (h.size.symm ▸ hi) (h.size.symm ▸ hj)) hmove
  rw [h.sequence] at hsequence
  refine ⟨p', hhop, hblocks.trans h.blocks, fun other => ?_, ?_⟩
  · rcases eq_or_ne other sign with rfl | hother
    · rwa [Function.update_self]
    · rw [Function.update_of_ne hother]
      exact h.perm other
  · rw [hpair, ← hsequence, ← h.size]
    exact hq.ofSequences_eq.symm

/-- What single exchanges do, rows of them do: they lead to every rearrangement
of either sequence. -/
lemma hops_of_perm (sign : Sign) (hpick : setup.table.pick unit = sign.swapKind)
    (h : p.Holds given s) {t : List Nat} (hperm : (s sign).Perm t) :
    ∃ q, Relation.ReflTransGen (Hops setup everything given.length) p q ∧
      q.Holds given (Function.update s sign t) := by
  have hrow := exchanges_iff_perm.mpr hperm
  clear hperm
  induction hrow with
  | refl =>
      refine ⟨p, .refl, ?_⟩
      rwa [Function.update_eq_self]
  | @tail t t' _ hlast ih =>
      obtain ⟨q, hhops, hq⟩ := ih
      have hlast' : Exchanges (Function.update s sign t sign) t' := by rwa [Function.update_self]
      obtain ⟨q', hnext, hq'⟩ := hops_swap everything hsetup hn sign hpick hq hlast'
      rw [Function.update_idem] at hq'
      exact ⟨q', hhops.tail hnext, hq'⟩

end Hops

/-- **Exchanges lead from any sequences to any other ones**, if some draws pick
either kind of them. -/
theorem hops_to_target (hsetup : setup.Fair) (everything : Bool)
    (hpicks : ∀ sign : Sign, ∃ draw : { q : Rat // 0 ≤ q ∧ q < 1 },
      setup.table.pick draw = sign.swapKind)
    (hn : 2 ≤ given.length) (h : p.Holds given s) {t : Sign → List Nat}
    (ht : ∀ sign, (t sign).Perm (List.range given.length)) :
    ∃ q, Relation.ReflTransGen (Hops setup everything given.length) p q ∧ q.Holds given t := by
  -- the positive sequence is rearranged first, and then the negative one
  obtain ⟨draw, hpick⟩ := hpicks .positive
  obtain ⟨draw', hpick'⟩ := hpicks .negative
  obtain ⟨q, hhops, hq⟩ := hops_of_perm everything hsetup hn .positive hpick h
    ((h.perm .positive).trans (ht .positive).symm)
  obtain ⟨q', hhops', hq'⟩ := hops_of_perm everything hsetup hn .negative hpick' hq
    ((hq.perm .negative).trans (ht .negative).symm)
  have htarget : Function.update (Function.update s .positive (t .positive)) .negative
      (t .negative) = t := by
    funext sign
    cases sign with
    | positive => rw [Function.update_of_ne (by decide), Function.update_self]
    | negative => rw [Function.update_self]
  rw [htarget] at hq'
  exact ⟨q', hhops.trans hhops', hq'⟩

/-- **Random moves lead to any two sequences**, if exchanges in both sequences have a share: from
any plan of the blocks, whatever is asked of an annealer before, there are draws that decide a row
of moves, none of which fails or is taken back, and the plan at its end has these sequences and the
blocks that there were.  Two slots are drawn by two numbers, and any two different slots by exactly
two. -/
theorem perturbs_reach {d : Design Rat} {settings : Settings Rat} {plan : Plan Rat}
    (hmade : Setup.ofDesign d settings = .ok (setup, plan))
    (hblocks : ∀ b ∈ d.blocks, b.Lists b.shapeKey) (hn : 2 ≤ d.blocks.length)
    (hpositive : 0 < settings.shares.positiveSwap) (hnegative : 0 < settings.shares.negativeSwap) :
    (∀ (p : Plan Rat) (everything : Bool), p.layout.Coherent → p.layout.size = d.blocks.length →
      ∀ positive negative : List Nat, positive.Perm (List.range d.blocks.length) →
        negative.Perm (List.range d.blocks.length) →
        ∃ (script : List (SwapDraws d.blocks.length)) (q : Plan Rat),
          (∃ s s' : Stream, Answers script s s') ∧
          (∀ (ρ : Type) [DrawSource ρ Rat] (r r' : ρ), Answers script r r' →
            (perturbs setup everything script.length).run ⟨p, r⟩ = .ok () ⟨q, r'⟩) ∧
          q.layout.pair = .ofSequences d.blocks.length positive negative ∧
          q.layout.blocks.map Block.atOrigin = p.layout.blocks.map Block.atOrigin) ∧
    (∀ (ρ : Type) [DrawSource ρ Rat] [LawfulDraws ρ Rat] [Transcendental Rat] (draws : ρ)
      (tasks : List Task),
      let p := ((Annealer.start plan draws).afterTasks setup tasks).plan
      p.layout.Coherent ∧ p.layout.size = d.blocks.length) ∧
    ∀ n, 2 ≤ n →
      (∀ (ρ : Type) [DrawSource ρ Rat] (l : Layout Rat) (r : ρ),
        (Layout.twoDistinct n : Edit Rat (Drawn (Layout Rat) ρ) (Nat × Nat)).run ⟨l, r⟩ =
          let (a, r₁) := DrawSource.below n r
          let (b, r₂) := DrawSource.below (n - 1) r₁
          .ok (Layout.distinctSlots (a, b)) ⟨l, r₂⟩) ∧
      ∀ i j, i < n → j < n → i ≠ j →
        ∃! d : Nat × Nat, (d.1 < n ∧ d.2 < n - 1) ∧ Layout.distinctSlots d = (i, j) := by
  have htable := (Setup.ofDesign_iff.mp hmade).table
  refine ⟨?_, ?_, ?_⟩
  · intro p everything hcoherent hsize positive negative hp hq
    have hpicks : ∀ sign : Sign, ∃ draw : { q : Rat // 0 ≤ q ∧ q < 1 },
        setup.table.pick draw = sign.swapKind := by
      intro sign
      cases sign with
      | positive => exact MoveTable.exists_pick htable hpositive
      | negative => exact MoveTable.exists_pick htable hnegative
    have hlength : (p.layout.blocks.map Block.atOrigin).length = d.blocks.length := by
      rw [List.length_map]
      exact hsize
    have hholds : p.Holds (p.layout.blocks.map Block.atOrigin) p.layout.pair.sequence := by
      rw [Layout.Coherent, hsize, ← hlength] at hcoherent
      exact ⟨rfl, SequencePair.permuted_iff.mp hcoherent.permuted, hcoherent.ofSequences_eq.symm⟩
    rw [← hlength] at hn hp hq ⊢
    have htarget := (SequencePair.coherent_ofSequences hp hq).permuted
    obtain ⟨q, hhops, hreached⟩ := hops_to_target (Setup.ofDesign_fair hmade) everything hpicks hn
      hholds (SequencePair.permuted_iff.mp htarget)
    obtain ⟨script, hscript⟩ := exists_script hhops
    obtain ⟨s, hanswers⟩ := exists_answers script (Stream.steady 0 ⟨le_rfl, one_pos⟩ 0)
    exact ⟨script, q, ⟨s, _, hanswers⟩, hscript, hreached.pair, hreached.blocks⟩
  · intro ρ _ _ _ draws tasks
    have hkeyed := (Annealer.afterTasks_keyed hmade hblocks draws tasks).layout
    refine ⟨hkeyed.coherent, ?_⟩
    rw [hkeyed.size, List.length_map]
  · intro n hn
    refine ⟨fun ρ _ => Layout.run_twoDistinct_eq hn, ?_⟩
    intro i j hi hj hne
    have hslots := Layout.distinctSlots_bijOn n
    obtain ⟨d, hd, hdslots⟩ := hslots.surjOn
      (show (i, j) ∈ {s : Nat × Nat | s.1 < n ∧ s.2 < n ∧ s.1 ≠ s.2} from ⟨hi, hj, hne⟩)
    refine ⟨d, ⟨hd, hdslots⟩, ?_⟩
    intro d' hd'
    exact hslots.injOn hd'.1 hd (hd'.2.trans hdslots.symm)

/-- Half of the moves exchange slots of the positive sequence, and a quarter of them slots of the
negative one. -/
def exchanging : Settings Rat := { shares := ⟨1 / 2, 1 / 4, 0, 0, 0⟩ }

/-- Both sequences of two blocks are turned round, after a run and with the dead space filled. -/
theorem perturbs_reach_turning :
    ∃ setup plan, Setup.ofDesign Session.turning exchanging = .ok (setup, plan) ∧
      let _ := Transcendental.tangent
      let p := ((Annealer.start plan (Stream.steady (1 / 2) (by norm_num) 0)).afterTasks setup
        [.run, .fill]).plan
      ∃ (script : List (SwapDraws 2)) (s s' : Stream) (q : Plan Rat), Answers script s s' ∧
        (perturbs setup false script.length).run ⟨p, s⟩ = .ok () ⟨q, s'⟩ ∧
        q.layout.pair = .ofSequences 2 [1, 0] [1, 0] ∧
        q.layout.blocks.map Block.atOrigin = p.layout.blocks.map Block.atOrigin := by
  obtain ⟨setup, plan, hmade⟩ :
      ∃ setup plan, Setup.ofDesign Session.turning exchanging = .ok (setup, plan) :=
    ⟨_, _, by with_unfolding_all rfl⟩
  refine ⟨setup, plan, hmade, ?_⟩
  let _ := Transcendental.tangent
  obtain ⟨hreach, hkept, -⟩ := perturbs_reach hmade
    (fun b hb => (Session.turning_wellFormed b hb).showsShape.lists) (by decide)
    (by norm_num [exchanging]) (by norm_num [exchanging])
  obtain ⟨hcoherent, hsize⟩ := hkept Stream (Stream.steady (1 / 2) (by norm_num) 0) [.run, .fill]
  obtain ⟨script, q, ⟨s, s', hanswers⟩, hrun, hpair, hblocks⟩ :=
    hreach _ false hcoherent hsize [1, 0] [1, 0] (by decide) (by decide)
  exact ⟨script, s, s', q, hanswers, hrun Stream s s' hanswers, hpair, hblocks⟩

end Plan

end BlockPlan

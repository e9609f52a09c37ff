import Mathlib
import BlockPlan.Packing.Staircase

/-!
# What a staircase answers

A staircase keeps only some of the values that were entered, and still answers as if it kept them
all: whatever it drops is reached by a step that it keeps, under a key that is no larger.  This
needs no more of the numbers than that any two of them can be compared.

* `LargestOrZero` — the largest of some numbers, or zero when there are none.
* `Staircase.Climbs` — keys do not fall and values rise along the steps.
* `Staircase.StandsFor` — the steps are among the entries, and every entry is reached by a step.
* **`StandsFor.insert`** — entering a value stands for one entry more.
* **`StandsFor.query`** — the answer for a key is the largest value entered under a smaller key.
-/

namespace BlockPlan

/-- `v` is the largest of some numbers, or zero when there are none. -/
def LargestOrZero {α : Type} [LE α] [Zero α] (values : Set α) (v : α) : Prop :=
  IsGreatest values v ∨ values = ∅ ∧ v = 0

/-- There is only one largest number, and zero takes its place only if there is none. -/
lemma LargestOrZero.unique {α : Type} [PartialOrder α] [Zero α] {values : Set α} {v w : α}
    (h : LargestOrZero values v) (h' : LargestOrZero values w) : v = w := by
  rcases h with h | ⟨hnone, rfl⟩ <;> rcases h' with h' | ⟨hnone', rfl⟩
  · exact h.unique h'
  · exact absurd h.1 (hnone' ▸ Set.notMem_empty v)
  · exact absurd h'.1 (hnone ▸ Set.notMem_empty w)
  · rfl

namespace Staircase

variable {α : Type} [Scalar α]

/-- Keys do not fall and values rise along the steps. -/
structure Climbs (s : Staircase α) : Prop where
  keys : s.steps.Pairwise fun a b => a.1 ≤ b.1
  values : s.steps.Pairwise fun a b => a.2 < b.2

/-- What is left of the steps behind a key after a value has been entered there. -/
def kept (s : Staircase α) (key : Int) (value : α) : List (Int × α) :=
  (s.after key).dropWhile fun step => decide (step.2 ≤ value)

omit [Scalar α] in
lemma before_append_after (s : Staircase α) (key : Int) :
    s.before key ++ s.after key = s.steps :=
  List.takeWhile_append_dropWhile

lemma Climbs.before {s : Staircase α} (hs : s.Climbs) (key : Int) :
    (s.before key).Pairwise fun a b => a.2 < b.2 :=
  hs.values.sublist (List.takeWhile_sublist _)

lemma climbs_empty : Climbs ({} : Staircase α) := ⟨List.Pairwise.nil, List.Pairwise.nil⟩

/-- The steps in front of a key are those with smaller keys. -/
lemma mem_before_iff {s : Staircase α} (hs : s.Climbs) {key : Int} {e : Int × α} :
    e ∈ s.before key ↔ e ∈ s.steps ∧ e.1 < key := by
  have hkeys := hs.keys
  simp only [before]
  generalize s.steps = steps at hkeys
  induction steps with
  | nil => simp
  | cons d steps ih =>
      rw [List.pairwise_cons] at hkeys
      rw [List.takeWhile_cons]
      by_cases hd : d.1 < key
      · simp only [hd, decide_true, if_true, List.mem_cons, ih hkeys.2]
        constructor
        · rintro (rfl | h)
          · exact ⟨Or.inl rfl, hd⟩
          · exact ⟨Or.inr h.1, h.2⟩
        · rintro ⟨rfl | h, hk⟩
          · exact Or.inl rfl
          · exact Or.inr ⟨h, hk⟩
      · simp only [hd, decide_false, Bool.false_eq_true, if_false, List.not_mem_nil, false_iff]
        -- the keys do not fall, so that no later one is smaller either
        rintro ⟨he, hk⟩
        rcases List.mem_cons.mp he with rfl | he
        · exact hd hk
        · exact hd (lt_of_le_of_lt (hkeys.1 e he) hk)

lemma key_le_of_mem_after {s : Staircase α} (hs : s.Climbs) {key : Int} {e : Int × α}
    (he : e ∈ s.after key) : key ≤ e.1 := by
  have hkeys := hs.keys
  rw [← before_append_after s key, List.pairwise_append] at hkeys
  simp only [after] at he
  generalize hrest : s.steps.dropWhile (fun step => decide (step.1 < key)) = rest at *
  cases rest with
  | nil => simp at he
  | cons d rest =>
      have hd : key ≤ d.1 := by
        have := List.head?_dropWhile_not (fun step : Int × α => decide (step.1 < key)) s.steps
        rw [hrest] at this
        simpa using this
      have hafter : s.after key = d :: rest := hrest
      rw [hafter, List.pairwise_cons] at hkeys
      rcases List.mem_cons.mp he with rfl | he
      · exact hd
      · exact hd.trans (hkeys.2.1.1 e he)

/-- A step behind a key is kept, or a new value under the key reaches it. -/
lemma mem_kept_or_le {s : Staircase α} {key : Int} (value : α) {e : Int × α}
    (he : e ∈ s.after key) : e ∈ s.kept key value ∨ e.2 ≤ value := by
  rw [← List.takeWhile_append_dropWhile (p := fun step : Int × α => decide (step.2 ≤ value))
    (l := s.after key)] at he
  rcases List.mem_append.mp he with he | he
  · exact Or.inr (by simpa using List.mem_takeWhile_imp he)
  · exact Or.inl he

/-- What stays of the steps when a value is entered between them. -/
lemma before_append_kept_sublist (s : Staircase α) (key : Int) (value : α) :
    (s.before key ++ s.kept key value).Sublist s.steps := by
  conv_rhs => rw [← before_append_after s key]
  exact List.Sublist.append_left (List.dropWhile_sublist _) _

lemma kept_subset (s : Staircase α) (key : Int) (value : α) : s.kept key value ⊆ s.steps := by
  rw [← before_append_after s key]
  exact fun e he => List.mem_append_right _ ((List.dropWhile_sublist _).subset he)

/-- The steps are among some entries and climb, and every entry is reached by a step whose key is no
larger. -/
structure StandsFor (s : Staircase α) (entries : Set (Int × α)) : Prop where
  climbs : s.Climbs
  mem : ∀ e ∈ s.steps, e ∈ entries
  reached : ∀ e ∈ entries, ∃ d ∈ s.steps, d.1 ≤ e.1 ∧ e.2 ≤ d.2

lemma standsFor_empty : StandsFor ({} : Staircase α) ∅ := ⟨climbs_empty, by simp, by simp⟩

/-! ## Values that can be compared -/

variable [Std.IsLinearPreorder α] [Std.LawfulOrderLT α]

/-- The last entry of a rising list is at most a bound exactly when all entries are. -/
lemma last_le_iff {steps : List (Int × α)} (h : steps.Pairwise fun a b => a.2 < b.2)
    {e : Int × α} (he : steps.getLast? = some e) {u : α} :
    e.2 ≤ u ↔ ∀ d ∈ steps, d.2 ≤ u := by
  obtain ⟨front, rfl⟩ := List.getLast?_eq_some_iff.mp he
  constructor
  · intro hu d hd
    rcases List.mem_append.mp hd with hd | hd
    · exact Std.le_trans (Std.le_of_lt ((List.pairwise_append.mp h).2.2 d hd e (by simp))) hu
    · rw [List.mem_singleton.mp hd]
      exact hu
  · intro hu
    exact hu e (by simp)

/-- A value is entered in front of the steps that it does not reach, unless it is reached itself. -/
lemma insert_cases (s : Staircase α) (key : Int) (value : α) :
    (∃ e, (s.before key).getLast? = some e ∧ value ≤ e.2 ∧ s.insert key value = s) ∨
    ((∀ e, (s.before key).getLast? = some e → e.2 < value) ∧
      s.insert key value = ⟨s.before key ++ (key, value) :: s.kept key value⟩) := by
  simp only [insert, kept]
  split
  · rename_i k reached hlast
    by_cases h : value ≤ reached
    · exact Or.inl ⟨(k, reached), hlast, h, if_pos h⟩
    · refine Or.inr ⟨fun e he => ?_, if_neg h⟩
      rw [hlast, Option.some.injEq] at he
      rw [← he]
      exact Std.not_le.mp h
  · rename_i hlast
    exact Or.inr ⟨fun e he => (by simp [hlast] at he), rfl⟩

/-- The steps that stay behind a new value rise above it. -/
lemma lt_of_mem_kept {s : Staircase α} (hs : s.Climbs) {key : Int} {value : α} {e : Int × α}
    (he : e ∈ s.kept key value) : value < e.2 := by
  have hvalues : (s.kept key value).Pairwise fun a b => a.2 < b.2 :=
    hs.values.sublist ((List.dropWhile_sublist _).trans (List.dropWhile_sublist _))
  simp only [kept] at he hvalues
  generalize hrest : (s.after key).dropWhile (fun step => decide (step.2 ≤ value)) = rest at *
  cases rest with
  | nil => simp at he
  | cons d rest =>
      have hd : value < d.2 := by
        have := List.head?_dropWhile_not (fun step : Int × α => decide (step.2 ≤ value))
          (s.after key)
        rw [hrest] at this
        simpa [Std.not_le] using this
      rcases List.mem_cons.mp he with rfl | he
      · exact hd
      · exact Std.lt_of_lt_of_le hd (Std.le_of_lt ((List.pairwise_cons.mp hvalues).1 e he))

/-- Entering a value keeps the steps climbing. -/
theorem Climbs.insert {s : Staircase α} (hs : s.Climbs) (key : Int) (value : α) :
    (s.insert key value).Climbs := by
  rcases insert_cases s key value with ⟨_, _, _, h⟩ | ⟨hbelow, h⟩
  · rw [h]
    exact hs
  · rw [h]
    have hsub := s.before_append_kept_sublist key value
    have hkeys := List.pairwise_append.mp (hs.keys.sublist hsub)
    have hvalues := List.pairwise_append.mp (hs.values.sublist hsub)
    have hfront : ∀ e ∈ s.before key, e.2 < value := by
      intro e he
      obtain ⟨last, hlast⟩ := Option.isSome_iff_exists.mp
        (List.getLast?_isSome.mpr (List.ne_nil_of_mem he))
      exact Std.lt_of_le_of_lt ((last_le_iff (hs.before key) hlast).mp (Std.le_refl _) e he)
        (hbelow last hlast)
    constructor
    · refine List.pairwise_append.mpr ⟨hkeys.1, List.pairwise_cons.mpr ⟨?_, hkeys.2.1⟩, ?_⟩
      · intro e he
        exact key_le_of_mem_after hs ((List.dropWhile_sublist _).subset he)
      · intro a ha b hb
        rcases List.mem_cons.mp hb with rfl | hb
        · exact ((mem_before_iff hs).mp ha).2.le
        · exact hkeys.2.2 a ha b hb
    · refine List.pairwise_append.mpr ⟨hvalues.1, List.pairwise_cons.mpr ⟨?_, hvalues.2.1⟩, ?_⟩
      · intro e he
        exact lt_of_mem_kept hs he
      · intro a ha b hb
        rcases List.mem_cons.mp hb with rfl | hb
        · exact hfront a ha
        · exact hvalues.2.2 a ha b hb

/-- **Entering a value stands for one entry more.** -/
theorem StandsFor.insert {s : Staircase α} {entries : Set (Int × α)} (h : s.StandsFor entries)
    (key : Int) (value : α) :
    (s.insert key value).StandsFor (Insert.insert (key, value) entries) := by
  refine ⟨h.climbs.insert key value, ?_, ?_⟩
  · rcases insert_cases s key value with ⟨_, _, _, hinsert⟩ | ⟨_, hinsert⟩
    · rw [hinsert]
      exact fun e he => Or.inr (h.mem e he)
    · rw [hinsert]
      intro e he
      rcases List.mem_append.mp he with hbefore | he
      · exact Or.inr (h.mem e ((mem_before_iff h.climbs).mp hbefore).1)
      · rcases List.mem_cons.mp he with rfl | hkept
        · exact Or.inl rfl
        · exact Or.inr (h.mem e (kept_subset s key value hkept))
  · rcases insert_cases s key value with ⟨last, hlast, hle, hinsert⟩ | ⟨_, hinsert⟩
    · -- the value is reached by the last step in front of its key
      rw [hinsert]
      rintro e (rfl | he)
      · obtain ⟨hmem, hlt⟩ := (mem_before_iff h.climbs).mp (List.mem_of_getLast? hlast)
        exact ⟨last, hmem, hlt.le, hle⟩
      · exact h.reached e he
    · rw [hinsert]
      have hnew : (key, value) ∈ s.before key ++ (key, value) :: s.kept key value := by simp
      rintro e (rfl | he)
      · exact ⟨_, hnew, le_rfl, Std.le_refl _⟩
      · obtain ⟨d, hd, hkey, hvalue⟩ := h.reached e he
        rw [← before_append_after s key] at hd
        rcases List.mem_append.mp hd with hbefore | hafter
        · exact ⟨d, List.mem_append_left _ hbefore, hkey, hvalue⟩
        · -- a step that is removed is reached by the new one
          rcases mem_kept_or_le value hafter with hkept | hle
          · exact ⟨d, by simp [hkept], hkey, hvalue⟩
          · exact ⟨_, hnew, (key_le_of_mem_after h.climbs hafter).trans hkey,
              Std.le_trans hvalue hle⟩

/-- **The answer for a key is the largest value entered under a smaller key**, or zero. -/
theorem StandsFor.query {s : Staircase α} {entries : Set (Int × α)} (h : s.StandsFor entries)
    (key : Int) : LargestOrZero {v | ∃ e ∈ entries, e.1 < key ∧ e.2 = v} (s.query key) := by
  have hbefore : ∀ e ∈ entries, e.1 < key → ∃ d ∈ s.before key, e.2 ≤ d.2 := by
    intro e he hlt
    obtain ⟨d, hd, hkey, hvalue⟩ := h.reached e he
    exact ⟨d, (mem_before_iff h.climbs).mpr ⟨hd, hkey.trans_lt hlt⟩, hvalue⟩
  rw [Staircase.query]
  split
  · rename_i k value hlast
    obtain ⟨hmem, hlt⟩ := (mem_before_iff h.climbs).mp (List.mem_of_getLast? hlast)
    refine Or.inl ⟨⟨_, h.mem _ hmem, hlt, rfl⟩, ?_⟩
    rintro _ ⟨e, he, hkey, rfl⟩
    obtain ⟨d, hd, hle⟩ := hbefore e he hkey
    exact Std.le_trans hle
      ((last_le_iff (h.climbs.before key) hlast).mp (Std.le_refl value) d hd)
  · rename_i hnone
    rw [List.getLast?_eq_none_iff] at hnone
    refine Or.inr ⟨Set.eq_empty_of_forall_notMem ?_, rfl⟩
    rintro _ ⟨e, he, hkey, rfl⟩
    obtain ⟨d, hd, -⟩ := hbefore e he hkey
    rw [hnone] at hd
    exact List.not_mem_nil hd

end Staircase

end BlockPlan

import Mathlib
import BlockPlan.Sequence.Slot

/-!
# Slots that count from the front

A slot that is not negative is an ordinary place: it names itself, its entry is the entry at that
place, and a cut before it falls there.
-/

namespace BlockPlan.Slot

variable {α β : Type} {n p : Nat}

lemma place_natCast (h : p < n) : (place n (p : Int) : Except (Fault α) Nat) = .ok p := by
  rw [place, place?_natCast h]

lemma lt_of_place {i : Int} (h : (place n i : Except (Fault α) Nat) = .ok p) : p < n := by
  rw [place] at h
  cases hp : place? n i with
  | none => simp only [hp, reduceCtorEq] at h
  | some q =>
      simp only [hp, Except.ok.injEq] at h
      exact h ▸ place?_lt hp

lemma get?_natCast {xs : List β} {x : β} (h : xs[p]? = some x) : get? xs (p : Int) = some x := by
  rw [get?, place?_natCast (List.getElem?_eq_some_iff.mp h).1]
  exact h

lemma entry_natCast {xs : List β} {x : β} (h : xs[p]? = some x) :
    (entry xs (p : Int) : Except (Fault α) β) = .ok x := by
  rw [entry, get?_natCast h]

/-- The slot lies beyond either end of a sequence of `n` entries. -/
def Beyond (n : Nat) (i : Int) : Prop := i < -n ∨ (n : Int) ≤ i

lemma place?_eq_none_iff {i : Int} : place? n i = none ↔ Beyond n i := by
  rw [place?, Beyond]
  split_ifs <;> simp <;> omega

/-- A slot that does not lie beyond the ends holds an entry. -/
lemma exists_get? {xs : List β} {i : Int} (h : ¬ Beyond xs.length i) : ∃ x, get? xs i = some x := by
  obtain ⟨p, hp⟩ := Option.ne_none_iff_exists'.mp (mt place?_eq_none_iff.mp h)
  rw [get?, hp]
  exact ⟨_, List.getElem?_eq_getElem (place?_lt hp)⟩

/-- A slot that counts from the end. -/
lemma place?_of_neg {i : Int} (hlow : -n ≤ i) (hi : i < 0) : place? n i = some (i + n).toNat := by
  rw [place?, if_neg (by omega), if_pos (by omega)]

/-- What a slot holds is an entry of the sequence. -/
lemma mem_of_entry {xs : List β} {i : Int} {x : β} (h : (entry xs i : Except (Fault α) β) = .ok x) :
    x ∈ xs := by
  rw [entry, get?] at h
  cases hp : place? xs.length i with
  | none => simp only [hp, reduceCtorEq] at h
  | some p =>
      cases hx : xs[p]? with
      | none => simp only [hp, hx, reduceCtorEq] at h
      | some y =>
          simp only [hp, hx, Except.ok.injEq] at h
          exact h ▸ List.mem_of_getElem? hx

/-- A place between two cuts that count from the front. -/
lemma between_iff {first last : Int} (hfirst : 0 ≤ first) (hlast : 0 ≤ last) (hp : p < n) :
    between n first last p = true ↔ first ≤ p ∧ (p : Int) < last := by
  rw [between, cut, cut, if_pos hfirst, if_pos hlast, Bool.and_eq_true, decide_eq_true_iff,
    decide_eq_true_iff]
  omega

end BlockPlan.Slot

import BlockPlan.Fault
import BlockPlan.Scalar.Word

/-!
# Slots of a sequence

A slot is a signed position: from `0` on it counts from the front of a sequence, below `0` from
its end, so that `-1` is the last entry.  `Slot.place?` gives the place a slot names, if the
sequence reaches that far, and `Slot.cut` the point at which a cut before the slot falls, which is
clipped to the ends of the sequence.  `Slot.place` and `Slot.entry` say in addition what is wrong
with a slot that names no place.
-/

namespace BlockPlan.Slot

/-- The place that slot `i` names in a sequence of `n` entries. -/
def place? (n : Nat) (i : Int) : Option Nat :=
  if 0 ≤ i then
    if i < n then some i.toNat else none
  else if 0 ≤ i + n then some (i + n).toNat
  else none

/-- Where a cut before slot `i` divides a sequence of `n` entries. -/
def cut (n : Nat) (i : Int) : Nat :=
  if 0 ≤ i then min i.toNat n else (i + n).toNat

/-- The entries from slot `i` on. -/
def suffix {β : Type} (xs : List β) (i : Int) : List β :=
  xs.drop (cut xs.length i)

/-- Whether place `p` of a sequence of `n` entries lies between the cuts before `first` and
before `last`. -/
def between (n : Nat) (first last : Int) (p : Nat) : Bool :=
  cut n first ≤ p && p < cut n last

/-- What is wrong with a slot that names no place. -/
def fault {α : Type} (i : Int) : Fault α := if FitsWord i then .slotOutOfRange else .slotTooLarge

/-- The place that slot `i` names in a sequence of `n` entries, or what is wrong with it. -/
def place {α : Type} (n : Nat) (i : Int) : Except (Fault α) Nat :=
  match place? n i with
  | some p => .ok p
  | none => .error (fault i)

/-- The entry in slot `i`. -/
def get? {β : Type} (xs : List β) (i : Int) : Option β :=
  match place? xs.length i with
  | some p => xs[p]?
  | none => none

/-- The entry in slot `i`, or what is wrong with the slot. -/
def entry {α β : Type} (xs : List β) (i : Int) : Except (Fault α) β :=
  match get? xs i with
  | some x => .ok x
  | none => .error (fault i)

/-- A slot that names a place names one inside the sequence. -/
theorem place?_lt {n p : Nat} {i : Int} (h : place? n i = some p) : p < n := by
  unfold place? at h
  split at h
  · split at h
    · cases h
      omega
    · cases h
  · split at h
    · cases h
      omega
    · cases h

/-- A slot that counts from the front names its own place. -/
theorem place?_natCast {n p : Nat} (h : p < n) : place? n p = some p := by
  unfold place?
  rw [if_pos (by omega), if_pos (by omega)]
  simp

end BlockPlan.Slot

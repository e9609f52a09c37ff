import BlockPlan.Draws.Basic

/-!
# Draws from a seed

A permuted congruential generator with 128 bits of state.  Its state is expanded from a seed of any
size through a pool of four hashed words, so that near seeds give unrelated streams.

Unit draws use the upper 53 bits of a 64-bit output.  Draws below a bound multiply a 32-bit half
output by the bound and keep the upper half, redrawing the few products that would favour some
numbers; the unused half of an output is kept for the next such draw.
-/

namespace BlockPlan

/-! ## From a seed to a pool of words -/

namespace Seeding

/-- The words of a natural number in base `2 ^ 32`, the lowest first; zero has one word. -/
def words (n : Nat) : List UInt32 :=
  if n < 0x100000000 then [UInt32.ofNat n]
  else UInt32.ofNat n :: words (n / 0x100000000)

/-- Xors a word with itself moved down by half its width. -/
def fold (v : UInt32) : UInt32 := v ^^^ (v >>> 16)

/-- Hashes a word with the running constant `h`, which moves on by the factor `step`. -/
def hash (step : UInt32) (v h : UInt32) : UInt32 × UInt32 :=
  let h' := h * step
  (fold ((v ^^^ h) * h'), h')

/-- Merges a hashed word into a word of the pool. -/
def mix (x y : UInt32) : UInt32 := fold (0xca01f9dd * x - 0x4973f715 * y)

/-- The factor by which the constant moves on while the pool is filled. -/
def poolStep : UInt32 := 0x931e8875

/-- The factor by which it moves on while the pool is read out. -/
def outputStep : UInt32 := 0x58f38ded

/-- Merges the hash of `v` into place `d` of the pool. -/
def absorb (v : UInt32) (state : List UInt32 × UInt32) (d : Nat) : List UInt32 × UInt32 :=
  let (pool, h) := state
  let (w, h) := hash poolStep v h
  (pool.modify d (mix · w), h)

/-- The four words of the pool: the first words of the seed, hashed, each then merged into every
other one, and all further words of the seed merged into each. -/
def pool (seed : Nat) : List UInt32 :=
  let entropy := words seed
  let filled := (List.range 4).foldl
    (fun (state : List UInt32 × UInt32) i =>
      let (w, h) := hash poolStep (entropy.getD i 0) state.2
      (state.1 ++ [w], h))
    ([], 0x43b0d7e5)
  let mixed := (List.range 4).foldl
    (fun state s =>
      ((List.range 4).filter (· != s)).foldl
        (fun state d => absorb (state.1.getD s 0) state d) state)
    filled
  ((entropy.drop 4).foldl
    (fun state v => (List.range 4).foldl (fun state d => absorb v state d) state) mixed).1

/-- The first `count` words read out of the pool in turn. -/
def output (pool : List UInt32) (count : Nat) : List UInt32 :=
  ((List.range count).foldl
    (fun (state : List UInt32 × UInt32) i =>
      let (w, h) := hash outputStep (pool.getD (i % 4) 0) state.2
      (state.1 ++ [w], h))
    ([], 0x8b51f9dd)).1

/-- The number with the given words in base `2 ^ 32`, the lowest first. -/
def ofWords (ws : List UInt32) : Nat := ws.foldr (fun w n => w.toNat + 0x100000000 * n) 0

end Seeding

/-! ## The generator -/

/-- The generator: its state, its increment, and the half output that is left over. -/
structure Pcg where
  state : BitVec 128
  increment : BitVec 128
  kept : Option UInt32
  deriving DecidableEq, Repr

namespace Pcg

/-- One step of the congruence. -/
def step (g : Pcg) : Pcg :=
  { g with state := g.state * 0x2360ed051fc65da44385df649fccf645 + g.increment }

/-- The generator of a seed. -/
def ofSeed (seed : Nat) : Pcg :=
  let out := Seeding.output (Seeding.pool seed) 8
  let pair (i : Nat) : Nat := Seeding.ofWords ((out.drop (2 * i)).take 2)
  let start : BitVec 128 := BitVec.ofNat 128 (pair 0 * 0x10000000000000000 + pair 1)
  let increment : BitVec 128 := BitVec.ofNat 128 ((pair 2 * 0x10000000000000000 + pair 3) * 2 + 1)
  let g := step ⟨0, increment, none⟩
  step { g with state := g.state + start }

/-- The next 64-bit output: both halves of the state xored, rotated by its upper six bits. -/
def next64 (g : Pcg) : UInt64 × Pcg :=
  let g := g.step
  let folded : BitVec 64 := (g.state >>> 64).setWidth 64 ^^^ g.state.setWidth 64
  (UInt64.ofNat (folded.rotateRight (g.state >>> 122).toNat).toNat, g)

/-- The next 32-bit output: the half that was left over, or the lower half of a new output. -/
def next32 (g : Pcg) : UInt32 × Pcg :=
  match g.kept with
  | some w => (w, { g with kept := none })
  | none =>
    let (v, g) := g.next64
    (v.toUInt32, { g with kept := some (v >>> 32).toUInt32 })

/-- The upper half of a product with `bound`.  Products whose lower half is below
`(2 ^ 32 - bound) % bound` are drawn anew; fewer than half of all outputs are, so `fuel` is never
used up in practice. -/
def scaledDraw (bound : Nat) : (fuel : Nat) → Pcg → Nat × Pcg
  | 0, g =>
    let (w, g) := g.next32
    (w.toNat * bound / 0x100000000, g)
  | fuel + 1, g =>
    let (w, g) := g.next32
    let m := w.toNat * bound
    if m % 0x100000000 < bound ∧ m % 0x100000000 < (0x100000000 - bound) % bound then
      scaledDraw bound fuel g
    else (m / 0x100000000, g)

/-- A number below a positive bound; below one there is nothing to draw. -/
def below (bound : Nat) (g : Pcg) : Nat × Pcg :=
  if bound ≤ 1 then (0, g) else scaledDraw bound 1000 g

/-- The upper 53 bits of an output, as a fraction. -/
def unit (g : Pcg) : Float × Pcg :=
  let (v, g) := g.next64
  (Float.ofNat (v >>> 11).toNat / Float.ofNat 0x20000000000000, g)

end Pcg

instance : DrawSource Pcg Float where
  unit := Pcg.unit
  below := Pcg.below

end BlockPlan

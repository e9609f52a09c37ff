import BlockPlan.Scalar.Binary64

/-!
# Colours

Colours of eight bits per channel, their text, and the palette of the drawings.
-/

namespace BlockPlan.Drawing

/-- An opaque colour. -/
structure Color where
  red : Nat
  green : Nat
  blue : Nat
  deriving DecidableEq, Repr

/-- A channel as two hexadecimal digits. -/
def channelText (n : Nat) : String :=
  String.ofList [Nat.digitChar (n / 16 % 16), Nat.digitChar (n % 16)]

namespace Color

/-- The text of a colour, such as `#0d1117`. -/
def text (c : Color) : String :=
  "#" ++ channelText c.red ++ channelText c.green ++ channelText c.blue

/-- The text of a colour with a fourth channel for its opacity, a number from zero to one. -/
def textWith (c : Color) (opacity : Float) : String :=
  let channel :=
    match Binary64.value (opacity * 255) with
    | .finite false m e => Binary64.roundHalfEven (m * Nat.pow 2 e.toNat) (Nat.pow 2 (-e).toNat)
    | _ => 0
  c.text ++ channelText channel

end Color

/-- The text of the colour that paints nothing. -/
def transparent : String := "#00000000"

def white : Color := ⟨0xff, 0xff, 0xff⟩

/-- Hard blocks. -/
def hardColor : Color := ⟨0x4a, 0x90, 0xd9⟩

/-- Soft blocks. -/
def softColor : Color := ⟨0x7b, 0x68, 0xee⟩

/-- Blockages, and the best cost so far. -/
def blockageColor : Color := ⟨0xff, 0x6b, 0x6b⟩

def guideColor : Color := ⟨0x50, 0xc8, 0x78⟩

/-- Fences, and the temperature. -/
def fenceColor : Color := ⟨0xff, 0xd9, 0x3d⟩

def terminalColor : Color := ⟨0xe9, 0x45, 0x60⟩

def background : Color := ⟨0x0d, 0x11, 0x17⟩

def gridColor : Color := ⟨0x21, 0x26, 0x2d⟩

def textColor : Color := ⟨0xc9, 0xd1, 0xd9⟩

def accent : Color := ⟨0x58, 0xa6, 0xff⟩

end BlockPlan.Drawing

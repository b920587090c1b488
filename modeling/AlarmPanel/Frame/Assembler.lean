import AlarmPanel.Text.Utf8

namespace AlarmPanel

namespace Frame

/-- The octets before the first line end, and those after it. -/
def split? : List UInt8 → Option (List UInt8 × List UInt8)
  | [] => none
  | 0x0D :: 0x0A :: l => some ([], l)
  | b :: l => (split? l).map fun r ↦ (b :: r.1, r.2)

/-- The lines of a stream and the octets after the last line end. -/
def splitAll : List UInt8 → List (List UInt8) × List UInt8
  | [] => ([], [])
  | 0x0D :: 0x0A :: l => ([] :: (splitAll l).1, (splitAll l).2)
  | b :: l =>
    match splitAll l with
    | ([], rest) => ([], b :: rest)
    | (line :: lines, rest) => ((b :: line) :: lines, rest)

def lineEnd : List UInt8 := [0x0D, 0x0A]

def text (line : List UInt8) : String :=
  String.ofList (Text.Utf8.decode line)

end Frame

structure Assembler where
  buffer : List UInt8 := []
  capacity : Nat := 8192
  deriving DecidableEq, Repr

namespace Assembler

variable (a : Assembler)

/-- The buffer with its overflow settled. -/
def settle : Assembler :=
  if a.capacity < a.buffer.length ∧ Frame.split? a.buffer = none then { a with buffer := [] } else a

def push (octets : List UInt8) : Assembler :=
  settle { a with buffer := a.buffer ++ octets }

def take? : Option (String × Assembler) :=
  (Frame.split? a.buffer).map fun r ↦ (Frame.text r.1, { a with buffer := r.2 })

def takeAll : List String × Assembler :=
  let r := Frame.splitAll a.buffer
  (r.1.map Frame.text, { a with buffer := r.2 })

end Assembler

end AlarmPanel

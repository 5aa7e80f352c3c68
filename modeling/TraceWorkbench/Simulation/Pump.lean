import TraceWorkbench.Simulation.Machine

set_option autoImplicit false

/-!
# Reading what processes print

A pump reads one output stream of a process in pieces of bounded size and turns them into text. A
character that is cut between two pieces waits until the rest of it is there.
-/
namespace TraceWorkbench.Simulation

def readSize : Nat := 8192

structure Pump where
  stream : Stream
  pipe : Nat
  /-- The start of a character whose end has not come yet. -/
  pending : Bytes
  isOpen : Bool
  deriving Repr, Inhabited

namespace Pump

def feed (p : Pump) (piece : Bytes) : Pump × List Chunk :=
  let (now, later) := Utf8.decodable (p.pending ++ piece)
  let text := String.ofBytesLossy now
  ({ p with pending := later }, if text.isEmpty then [] else [⟨p.stream, text⟩])

/-- Takes pieces of at most so many bytes. -/
def feedAll : Nat → Pump → Bytes → Pump × List Chunk
  | 0, p, _ => (p, [])
  | fuel + 1, p, data =>
    if data.isEmpty then (p, [])
    else
      let (p, now) := p.feed (data.take readSize)
      let (p, later) := feedAll fuel p (data.drop readSize)
      (p, now ++ later)

/-- The stream has ended; what still waits is passed on as it is. -/
def close (p : Pump) : Pump × List Chunk :=
  ({ p with pending := [], isOpen := false },
    if p.pending.isEmpty then [] else [⟨p.stream, String.ofBytesLossy p.pending⟩])

def read (m : Machine) (p : Pump) : Machine × Pump × List Chunk :=
  if !p.isOpen then (m, p, [])
  else
    let data := m.data p.pipe
    let (p, chunks) := feedAll (data.length + 1) p data
    let m := m.setData p.pipe []
    if m.isWritten p.pipe then (m, p, chunks)
    else
      let (p, last) := p.close
      (m, p, chunks ++ last)

end Pump

def Machine.hangUp (m : Machine) (pipe : Nat) : Machine :=
  match m.pipe? pipe with
  | some p => m.putPipe { p with outside := false }
  | none => m

end TraceWorkbench.Simulation

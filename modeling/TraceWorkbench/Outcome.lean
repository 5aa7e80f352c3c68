import TraceWorkbench.Files.OsError

set_option autoImplicit false

/-!
# Outcomes of processes

What a finished process left behind, and the toolchain's rule of success: nothing on the error
stream and no signal. The exit code does not count.
-/
namespace TraceWorkbench

inductive Ending where
  | exited (code : Nat)
  | signalled (signal : Nat)
  deriving DecidableEq, Repr, Inhabited

/-- What a wait for the end of a process gives. When a wait fails, the process is gone and nothing
is known of how it ended. -/
inductive Waited where
  | ended (ending : Ending)
  | failed (reason : OsError)
  deriving DecidableEq, Repr, Inhabited

inductive Stream where
  | stdout
  | stderr
  deriving DecidableEq, Repr, Inhabited

structure Chunk where
  stream : Stream
  text : String
  deriving DecidableEq, Repr, Inhabited

structure Collected where
  chunks : List Chunk
  waited : Waited
  killSent : Bool
  deriving DecidableEq, Repr, Inhabited

def signalName : Nat → String
  | 1 => "SIGHUP"
  | 2 => "SIGINT"
  | 3 => "SIGQUIT"
  | 6 => "SIGABRT"
  | 9 => "SIGKILL"
  | 11 => "SIGSEGV"
  | 13 => "SIGPIPE"
  | 15 => "SIGTERM"
  | n => "SIG" ++ toString n

structure Outcome where
  exitCode : Option Int
  signal : Option String
  /-- What was printed, in the chunks in which it arrived. -/
  stdoutChunks : List String
  stderrChunks : List String
  startedAt : String
  deriving DecidableEq, Repr, Inhabited

namespace Outcome

def notStarted (message startedAt : String) : Outcome := ⟨none, none, [], [message], startedAt⟩

def stdout (o : Outcome) : String := String.join o.stdoutChunks

def stderr (o : Outcome) : String := String.join o.stderrChunks

def hasStderr (o : Outcome) : Bool := o.stderrChunks.any fun chunk => !chunk.isEmpty

def killedBy (signal : String) : String := "Process was killed due to signal " ++ signal

def exitMessage (o : Outcome) : Option String :=
  match o.exitCode, o.signal with
  | some code, _ => some ("Process exited with code " ++ toString code)
  | none, some signal => some (killedBy signal)
  | none, none => none

/-- Why the process counts as failed: its error text, else the signal. -/
def fault? (o : Outcome) : Option String :=
  if o.hasStderr then some o.stderr else o.signal.map killedBy

def chunksOf (stream : Stream) (chunks : List Chunk) : List String :=
  (chunks.filter fun c => c.stream = stream).map Chunk.text

/-- The signal of a process that was killed, also if it was about to end by itself. -/
def signalOf (c : Collected) : Option String :=
  match c.waited with
  | .ended (.signalled n) => some (signalName n)
  | _ => if c.killSent then some (signalName 9) else none

def waitFailed (e : OsError) : String := "Failed to wait for process: " ++ e.text

/-- A failed wait counts as printed on the error stream, behind all that was. -/
def complaint : Waited → List String
  | .ended _ => []
  | .failed e => [waitFailed e]

def ofCollected (c : Collected) (startedAt : String) : Outcome where
  exitCode := match c.waited with
    | .ended (.exited code) => some code
    | _ => none
  signal := signalOf c
  stdoutChunks := chunksOf .stdout c.chunks
  stderrChunks := chunksOf .stderr c.chunks ++ complaint c.waited
  startedAt := startedAt

theorem fault?_eq_none_iff (o : Outcome) :
    o.fault? = none ↔ (∀ chunk ∈ o.stderrChunks, chunk = "") ∧ o.signal = none := by
  unfold fault? hasStderr
  split
  · rename_i h
    simp only [List.any_eq_true, Bool.not_eq_true'] at h
    obtain ⟨chunk, hm, hc⟩ := h
    simp only [reduceCtorEq, false_iff, not_and]
    intro hall
    rw [hall chunk hm] at hc
    exact absurd hc (by decide)
  · rename_i h
    simp only [List.any_eq_true, Bool.not_eq_true', not_exists, not_and, Bool.not_eq_false,
      String.isEmpty_iff] at h
    simp only [Option.map_eq_none_iff]
    exact ⟨fun hs => ⟨h, hs⟩, fun hs => hs.2⟩

end Outcome

end TraceWorkbench

import TraceWorkbench.Proofs.Watching
import TraceWorkbench.Simulation.Host

set_option autoImplicit false

/-!
# What is printed has text

The pumps pass on no empty text, so whatever a process on the simulated host is shown to print has
text.
-/
namespace TraceWorkbench

namespace Watch

variable {σ : Type} {t : Ticket} {echo : Bool}

theorem mem_chunks_after {c : Chunk} (v : Watch σ) (ms : List (Move σ)) :
    c ∈ (v.after t echo ms).chunks ↔ c ∈ v.chunks ∨ .print c ∈ ms := by
  induction ms generalizing v with
  | nil => simp [after_nil]
  | cons m ms ih =>
    rw [after_cons, ih, List.mem_cons, ← or_assoc]
    refine or_congr ?_ Iff.rfl
    cases m with
    | print c' => simp [move, or_comm]
    | work files host => simp [move]
    | exit e => simp [move]
    | cancel => simp [move]
    | poll first => simp [move]

end Watch

/-- Processes print something whenever they print. -/
def Host.PrintsText {σ : Type} (h : Host σ) : Prop :=
  ∀ t pid echo w, ∀ c ∈ (h.supervise t pid echo w).1.chunks, c.text ≠ ""

theorem Host.scripted_printsText {script : StageKind → List (Move Unit)}
    (hscript : ∀ stage c, .print c ∈ script stage → c.text ≠ "") :
    (scripted script).PrintsText := by
  intro t pid echo w c hc
  obtain ⟨hcollected, -⟩ := Host.scripted_explained script t pid echo w
  rw [Watch.chunks_of_collected hcollected, List.mem_reverse, Watch.mem_chunks_after] at hc
  rcases hc with hc | hc
  · simp [Watch.start] at hc
  · simp only [movesOf, List.mem_append, List.mem_cons, List.not_mem_nil, reduceCtorEq,
      or_false] at hc
    exact hscript t.stage c hc

theorem ofBytesLossy_ne_empty {bytes : Bytes} (h : bytes ≠ []) :
    String.ofBytesLossy bytes ≠ "" := by
  intro hempty
  have hsegments : Utf8.segments bytes = [] := by
    simpa [String.ofBytesLossy, Utf8.decodeLossy] using hempty
  have hbytes := Utf8.segments_bytes bytes
  rw [hsegments] at hbytes
  exact h hbytes.symm

namespace Simulation

def HasText (cs : List Chunk) : Prop := ∀ c ∈ cs, c.text ≠ ""

theorem HasText.append {cs ds : List Chunk} (hc : HasText cs) (hd : HasText ds) :
    HasText (cs ++ ds) := by
  intro c hm
  rcases List.mem_append.1 hm with h | h
  · exact hc c h
  · exact hd c h

namespace Pump

theorem feed_hasText (p : Pump) (piece : Bytes) : HasText (p.feed piece).2 := by
  intro c hc
  simp only [feed] at hc
  split at hc
  · simp at hc
  · rename_i htext
    rw [List.mem_singleton.1 hc]
    simpa using htext

theorem feedAll_hasText (fuel : Nat) (p : Pump) (data : Bytes) :
    HasText (feedAll fuel p data).2 := by
  induction fuel generalizing p data with
  | zero => simp [HasText, feedAll]
  | succ fuel ih =>
    unfold feedAll
    split
    · simp [HasText]
    · exact (feed_hasText p _).append (ih _ _)

theorem close_hasText (p : Pump) : HasText p.close.2 := by
  intro c hc
  simp only [close] at hc
  split at hc
  · simp at hc
  · rename_i hpending
    rw [List.mem_singleton.1 hc]
    exact ofBytesLossy_ne_empty (by simpa using hpending)

theorem read_hasText (m : Machine) (p : Pump) : HasText (p.read m).2.2 := by
  unfold read
  split
  · simp [HasText]
  · simp only
    split
    · exact feedAll_hasText _ _ _
    · exact (feedAll_hasText _ _ _).append (close_hasText _)

end Pump

theorem readPumps_hasText (m : Machine) (ps : List Pump) : HasText (readPumps m ps).2.2 := by
  induction ps generalizing m with
  | nil => simp [HasText, readPumps]
  | cons p ps ih => exact (Pump.read_hasText m p).append (ih _)

variable {τ : Type}

namespace Watched

/-- Everything that was printed so far has text. -/
def TextOnly (p : Watched τ) : Prop := HasText p.watch.chunks

theorem TextOnly.make {p : Watched τ} (hp : p.TextOnly) {ms : List (Move (Simulated τ))}
    (hms : ∀ c, .print c ∈ ms → c.text ≠ "") : (p.make ms).TextOnly := by
  intro c hc
  rcases (Watch.mem_chunks_after _ ms).1 hc with h | h
  · exact hp c h
  · exact hms c h

theorem TextOnly.work {α : Type} {p : Watched τ} (hp : p.TextOnly) (f : Machine → Machine × α) :
    (p.work f).1.TextOnly := hp.make (by simp)

theorem TextOnly.change {p : Watched τ} (hp : p.TextOnly) (f : Machine → Machine) :
    (p.change f).TextOnly := hp.work _

theorem TextOnly.takeOutput {p : Watched τ} (hp : p.TextOnly) : p.takeOutput.TextOnly := by
  refine TextOnly.make (hp.work fun m => readPumps m p.pumps) fun c hc => ?_
  obtain ⟨c', hc', heq⟩ := List.mem_map.1 hc
  obtain rfl := Move.print.inj heq
  exact readPumps_hasText _ p.pumps c' hc'

theorem TextOnly.killIfAsked {p : Watched τ} (hp : p.TextOnly) : p.killIfAsked.TextOnly := by
  unfold Watched.killIfAsked
  split
  · exact (hp.make (by simp)).change _
  · exact hp

theorem TextOnly.noticeEnd {p : Watched τ} (hp : p.TextOnly) : p.noticeEnd.TextOnly := by
  unfold Watched.noticeEnd
  split
  · exact hp.make (by simp)
  · exact hp

theorem TextOnly.giveUpPumps {p : Watched τ} (hp : p.TextOnly) : p.giveUpPumps.TextOnly := by
  unfold Watched.giveUpPumps
  split
  · rename_i limit hlimit
    exact hp.change fun m => (settle p.machine.clock limit p.pumps).2.2.foldl
      (fun m q => m.hangUp q.pipe) m
  · exact hp

theorem TextOnly.finish {p : Watched τ} (hp : p.TextOnly) : HasText p.finish.1.chunks := by
  have hclose : p.close.TextOnly := (hp.make (by simp)).change _
  intro c hc
  refine hclose c ?_
  simp only [Watched.finish] at hc
  cases hcollected : p.close.watch.collected? with
  | none => simpa [hcollected] using hc
  | some collected =>
    rw [hcollected, Option.getD_some, Watch.chunks_of_collected hcollected] at hc
    exact List.mem_reverse.1 hc

end Watched

theorem watch_hasText (act : Watcher τ) (fuel : Nat) {p : Watched τ} (hp : p.TextOnly) :
    HasText (watch act fuel p).1.chunks := by
  induction fuel generalizing p with
  | zero => exact hp.finish
  | succ fuel ih =>
    have hround := (hp.work Machine.round).takeOutput.noticeEnd.giveUpPumps
    unfold watch
    simp only
    split
    · exact hround.finish
    · split
      · exact ih hround
      · split
        · exact ih hround
        · split
          · exact ih hround.killIfAsked
          · split
            · exact hround.killIfAsked.finish
            · exact ih (hround.killIfAsked.change _)

/-- So the simulated host keeps to it, whoever watches. -/
theorem host_printsText (time : String) (act : Watcher τ) : (host time act).PrintsText := by
  intro t pid echo w c hc
  let p : Watched τ := ⟨t, pid.toNat, echo, pumpsOf w.host.machine pid.toNat, .start w, none⟩
  have hstart : p.TextOnly := by
    intro c hc
    exact absurd hc List.not_mem_nil
  exact watch_hasText act watchLimit hstart.killIfAsked c hc

end Simulation

end TraceWorkbench

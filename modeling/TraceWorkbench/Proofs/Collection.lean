import TraceWorkbench.Proofs.StageRuns

set_option autoImplicit false

/-!
# What is collected from a process

The two streams of a process arrive as one sequence of chunks, in any interleaving. The loop that
receives them keeps a list for each stream and makes known what is to be shown, one chunk after the
other. `Collects` says what has to come of such a sequence, whatever the loop does; a run that is
watched to its end collects and tells just that.
-/
namespace TraceWorkbench

/-- From a sequence of chunks come the texts of either stream and the events that show them. -/
inductive Collects (stage : StageKind) (echo : Bool) :
    List Chunk → List String → List String → List Event → Prop where
  | nil : Collects stage echo [] [] [] []
  | shown {text : String} {cs : List Chunk} {out err : List String} {told : List Event}
      (echoes : echo = true) (rest : Collects stage echo cs out err told) :
      Collects stage echo (⟨.stdout, text⟩ :: cs) (text :: out) err (.console text :: told)
  | hidden {text : String} {cs : List Chunk} {out err : List String} {told : List Event}
      (silent : echo = false) (rest : Collects stage echo cs out err told) :
      Collects stage echo (⟨.stdout, text⟩ :: cs) (text :: out) err told
  | failing {text : String} {cs : List Chunk} {out err : List String} {told : List Event}
      (rest : Collects stage echo cs out err told) :
      Collects stage echo (⟨.stderr, text⟩ :: cs) out (text :: err) (.errorText stage text :: told)

section

variable {stage : StageKind} {echo : Bool} {cs : List Chunk} {out err : List String}
  {told : List Event}

theorem collects_projections (stage : StageKind) (echo : Bool) (cs : List Chunk) :
    Collects stage echo cs (Outcome.chunksOf .stdout cs) (Outcome.chunksOf .stderr cs)
      (cs.filterMap (Event.ofChunk stage echo)) := by
  induction cs with
  | nil => exact .nil
  | cons c cs ih =>
    obtain ⟨stream, text⟩ := c
    cases stream with
    | stderr => simpa [Outcome.chunksOf, Event.ofChunk] using Collects.failing ih
    | stdout =>
      cases echo with
      | true => simpa [Outcome.chunksOf, Event.ofChunk] using Collects.shown rfl ih
      | false => simpa [Outcome.chunksOf, Event.ofChunk] using Collects.hidden rfl ih

/-- The sequence leaves no choice, so that nothing is lost, told twice or exchanged. -/
theorem collects_iff : Collects stage echo cs out err told ↔
    out = Outcome.chunksOf .stdout cs ∧ err = Outcome.chunksOf .stderr cs ∧
      told = cs.filterMap (Event.ofChunk stage echo) := by
  constructor
  · intro h
    induction h with
    | nil => exact ⟨rfl, rfl, rfl⟩
    | shown echoes rest ih =>
      obtain ⟨rfl, rfl, rfl⟩ := ih
      simp [Outcome.chunksOf, Event.ofChunk, echoes]
    | hidden silent rest ih =>
      obtain ⟨rfl, rfl, rfl⟩ := ih
      simp [Outcome.chunksOf, Event.ofChunk, silent]
    | failing rest ih =>
      obtain ⟨rfl, rfl, rfl⟩ := ih
      simp [Outcome.chunksOf, Event.ofChunk]
  · rintro ⟨rfl, rfl, rfl⟩
    exact collects_projections stage echo cs

/-- Output on the console has no sender. Error text names its stage, and the channel of that. -/
def Event.Tagged (stage : StageKind) (e : Event) : Prop :=
  (∃ text, e = .console text) ∨ ∃ text, e = .errorText stage text ∧ e.content =
    [("stage", .string stage.name), ("channel", .string stage.channel.name), ("text", .string text)]

theorem Collects.tagged (h : Collects stage echo cs out err told) {e : Event} (he : e ∈ told) :
    e.Tagged stage := by
  induction h with
  | nil => simp at he
  | @shown text _ _ _ _ _ rest ih =>
    rcases List.mem_cons.1 he with rfl | he
    · exact .inl ⟨text, rfl⟩
    · exact ih he
  | hidden _ rest ih => exact ih he
  | @failing text _ _ _ _ rest ih =>
    rcases List.mem_cons.1 he with rfl | he
    · exact .inr ⟨text, rfl, rfl⟩
    · exact ih he

end

section

variable {σ : Type}

def Move.chunk? : Move σ → Option Chunk
  | .print c => some c
  | _ => none

def arrivals (ms : List (Move σ)) : List Chunk := ms.filterMap Move.chunk?

namespace Watch

variable {t : Ticket} {echo : Bool}

theorem move_chunks (v : Watch σ) (m : Move σ) :
    (v.move t echo m).chunks.reverse = v.chunks.reverse ++ m.chunk?.toList := by
  cases m <;> simp [move, Move.chunk?]

theorem after_chunks (w : World σ) (ms : List (Move σ)) :
    ((start w).after t echo ms).chunks.reverse = arrivals ms := by
  induction ms using List.reverseRecOn with
  | nil => rfl
  | append_singleton ms m ih =>
    rw [after_concat, move_chunks, ih, arrivals, arrivals, List.filterMap_append]
    cases hm : m.chunk? <;> simp [hm]

/-- A wait that is over knows how the process ended. -/
def KnowsEnding (v : Watch σ) : Prop :=
  ∀ waited killSent, v.wait = .gone waited killSent → v.ended = some waited

theorem KnowsEnding.move {v : Watch σ} (hv : v.KnowsEnding) (m : Move σ) :
    (v.move t echo m).KnowsEnding := by
  intro waited killSent hgone
  cases m with
  | exit e =>
    have hended := hv waited killSent hgone
    simp [Watch.move, hended]
  | poll first =>
    change v.wait.poll first v.ended (v.world.slot.killRequested t) = _ at hgone
    change v.ended = some waited
    cases hw : v.wait with
    | gone e k =>
      rw [hw] at hgone
      obtain ⟨rfl, rfl⟩ : e = waited ∧ k = killSent := by simpa [Wait.poll] using hgone
      exact hv e k hw
    | listening =>
      rw [hw] at hgone
      cases he : v.ended <;> cases hr : v.world.slot.killRequested t <;>
        simp_all [Wait.poll]
    | killing =>
      rw [hw] at hgone
      cases he : v.ended <;> simp_all [Wait.poll]
  | _ => exact hv waited killSent hgone

theorem after_knowsEnding (w : World σ) (ms : List (Move σ)) :
    ((start w).after t echo ms).KnowsEnding := by
  induction ms using List.reverseRecOn with
  | nil => intro waited killSent hgone; simp [after_nil, start] at hgone
  | append_singleton ms m ih =>
    rw [after_concat]
    exact ih.move m

/-- What a watch hands on is all that arrived, how the process ended and whether it was killed. -/
theorem Explains.collected {w w' : World σ} {ms : List (Move σ)} {c : Collected}
    (he : Explains t echo w ms (c, w')) :
    ((start w).after t echo ms).wait = .gone c.waited c.killSent ∧
      ((start w).after t echo ms).ended = some c.waited ∧ c.chunks = arrivals ms := by
  have hc : ((start w).after t echo ms).collected? = some c := he.1
  have hchunks : c.chunks = arrivals ms := by
    rw [chunks_of_collected hc, after_chunks]
  unfold collected? at hc
  split at hc
  · rename_i waited killSent hwait
    obtain rfl := Option.some.inj hc
    exact ⟨hwait, after_knowsEnding w ms waited killSent hwait, hchunks⟩
  · simp at hc

end Watch

/-- An outcome shows how its process ended. -/
structure Outcome.Shows (o : Outcome) (waited : Waited) (killSent : Bool) : Prop where
  signal_isSome_iff : o.signal.isSome = true ↔
    (∃ n, waited = .ended (.signalled n)) ∨ killSent = true
  signal_of_signalled : ∀ n, waited = .ended (.signalled n) → o.signal = some (signalName n)
  exitCode_iff : ∀ code : Int, o.exitCode = some code ↔
    ∃ n : Nat, waited = .ended (.exited n) ∧ code = n

theorem Outcome.shows_ofCollected (c : Collected) (startedAt : String) :
    (ofCollected c startedAt).Shows c.waited c.killSent where
  signal_isSome_iff := by
    rcases he : c.waited with ⟨⟨code⟩ | ⟨n⟩⟩ | ⟨e⟩ <;> cases hk : c.killSent <;>
      simp [ofCollected, signalOf, he, hk]
  signal_of_signalled n hn := by simp [ofCollected, signalOf, hn]
  exitCode_iff code := by
    rcases he : c.waited with ⟨⟨code⟩ | ⟨n⟩⟩ | ⟨e⟩ <;> simp [ofCollected, he, eq_comm]

/-- A process that was started and watched to its end: its outcome has the chunks of either stream
in the order of their arrival, and behind them no more than the complaint of a wait that failed.
Before the controls are freed, just the chunks that are to be shown were published, in that order as
well. -/
theorem runWatched_collects_arrivals {h : Host σ} (hh : h.Faithful) {t : Ticket} {c : CommandSpec}
    {w v : World σ} {pid : UInt32} {time : String} {echo : Bool} {ms : List (Move σ)}
    (hs : Spawned h t c w pid v time)
    (he : Watch.Explains t echo v ms (h.supervise t pid echo v)) :
    ∃ o w' stderr told waited killSent,
      (runWatched t c echo).run h w = (o, w') ∧
      Collects t.stage echo (arrivals ms) o.stdoutChunks stderr told ∧
      o.stderrChunks = stderr ++ Outcome.complaint waited ∧
      (∀ e ∈ told, e.Tagged t.stage) ∧
      w'.events = w.events ++ told ++ .controlsChanged false :: exitEvents t.stage o ∧
      ((Watch.start v).after t echo ms).ended = some waited ∧
      ((Watch.start v).after t echo ms).wait = .gone waited killSent ∧ o.Shows waited killSent := by
  obtain ⟨files, host, hv⟩ := hs.frame hh
  obtain ⟨hwait, hended, harrived⟩ := he.collected
  have hcollects : Collects t.stage echo (h.supervise t pid echo v).1.chunks _ _ _ :=
    collects_projections ..
  have hevents : (h.supervise t pid echo v).2.events =
      w.events ++ (h.supervise t pid echo v).1.chunks.filterMap (Event.ofChunk t.stage echo) := by
    have hshown : ((Watch.start v).after t echo ms).ShowsChunks t echo v :=
      Watch.after_showsChunks v ms
    rw [← he.2, hshown, Watch.after_chunks, harrived, hv]
  rw [runWatched_of_spawned hs, run_endRun, ← harrived, hevents]
  exact ⟨_, _, _, _, _, _, rfl, hcollects, rfl, fun e hm => hcollects.tagged hm, rfl, hended, hwait,
    Outcome.shows_ofCollected _ _⟩

theorem Host.scripted_arrivals (cs : List Chunk) (t : Ticket) :
    arrivals (movesOf (fun _ => cs.map Move.print) t) = cs := by
  simp only [arrivals, movesOf, List.filterMap_append, List.filterMap_map]
  have hprints : cs.filterMap (Move.chunk? ∘ Move.print (σ := Unit)) = cs := by
    rw [show (Move.chunk? ∘ Move.print (σ := Unit)) = some from rfl, List.filterMap_some]
  rw [hprints]
  simp [Move.chunk?]

end

namespace Demo

def chatter : List Chunk := [⟨.stdout, "one"⟩, ⟨.stderr, "two"⟩, ⟨.stdout, "three"⟩]

def chatty : Host Unit := .scripted fun _ => chatter.map .print

def ready : World Unit :=
  ⟨⟨.dir [], []⟩, [], (Slot.empty.acquire .runBinary).2, .none, [], ()⟩

def watched : World Unit := { ready with slot := ready.slot.recordPid ⟨0, .runBinary⟩ 1 }

end Demo

theorem runWatched_collects_chatter :
    Demo.chatty.Faithful ∧
    Spawned Demo.chatty ⟨0, .runBinary⟩ ⟨⟨"demo"⟩, [], none, none⟩ Demo.ready 1 Demo.watched "" ∧
    ∃ o w', (runWatched ⟨0, .runBinary⟩ ⟨⟨"demo"⟩, [], none, none⟩ true).run Demo.chatty
        Demo.ready = (o, w') ∧
      o.stdoutChunks = ["one", "three"] ∧ o.stderrChunks = ["two"] ∧
      o.signal = none ∧ o.exitCode = some 0 ∧
      w'.events = [.console "one", .errorText .runBinary "two", .console "three",
        .controlsChanged false, .console "\nProcess exited with code 0\n\n"] := by
  have hh : Demo.chatty.Faithful := Host.scripted_faithful _
  have hs : Spawned Demo.chatty ⟨0, .runBinary⟩ ⟨⟨"demo"⟩, [], none, none⟩ Demo.ready 1
      Demo.watched "" := ⟨Demo.ready, Demo.ready, rfl, rfl, rfl, rfl⟩
  obtain ⟨o, w', stderr, told, waited, killSent, hrun, hcollects, herr, -, hevents, -, hwait,
    hshows⟩ := runWatched_collects_arrivals hh hs (Host.scripted_explained _ _ 1 true Demo.watched)
  rw [Host.scripted_arrivals] at hcollects
  obtain ⟨hout, rfl, rfl⟩ := collects_iff.1 hcollects
  have hgone : Wait.gone (.ended (.exited 0)) false = .gone waited killSent := by
    rw [← hwait]
    decide +kernel
  obtain ⟨rfl, rfl⟩ := Wait.gone.inj hgone
  have hcode : o.exitCode = some 0 := (hshows.exitCode_iff 0).2 ⟨0, rfl, rfl⟩
  have hsignal : o.signal = none := by
    simpa using hshows.signal_isSome_iff.not.2 (by simp)
  refine ⟨hh, hs, o, w', hrun, hout, herr, hsignal, hcode, ?_⟩
  rw [hevents, exitEvents, Outcome.exitMessage, hcode]
  rfl

end TraceWorkbench

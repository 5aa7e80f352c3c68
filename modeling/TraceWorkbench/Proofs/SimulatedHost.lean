import TraceWorkbench.Proofs.Watching
import TraceWorkbench.Simulation.Host

set_option autoImplicit false

/-!
# The simulated host does what processes can do

Everything that the simulation does with a watched process is a move of the watch, as long as the
watcher keeps to moves as well.
-/
namespace TraceWorkbench.Simulation

variable {τ : Type}

/-- A watcher whose acts are moves that do not belong to the process. -/
def Watcher.Polite (act : Watcher τ) : Prop :=
  ∀ w w', act w = some w' → ∃ ms : List (Move (Simulated τ)), ∀ t echo v, v.world = w →
    Watch.after t echo v ms = { v with world := w' }

namespace Watched

/-- `q` is `p` after some moves. -/
structure Follows (p q : Watched τ) : Prop where
  ticket : q.ticket = p.ticket
  echo : q.echo = p.echo
  moves : ∃ ms, q.watch = p.watch.after p.ticket p.echo ms

theorem Follows.refl (p : Watched τ) : p.Follows p := ⟨rfl, rfl, [], rfl⟩

theorem Follows.trans {p q r : Watched τ} (h : p.Follows q) (h' : q.Follows r) : p.Follows r := by
  obtain ⟨ms, hms⟩ := h.moves
  obtain ⟨ns, hns⟩ := h'.moves
  refine ⟨h'.ticket.trans h.ticket, h'.echo.trans h.echo, ms ++ ns, ?_⟩
  rw [hns, h.ticket, h.echo, hms, Watch.after_append]

theorem follows_make (p : Watched τ) (ms : List (Move (Simulated τ))) : p.Follows (p.make ms) :=
  ⟨rfl, rfl, ms, rfl⟩

theorem follows_work {α : Type} (p : Watched τ) (f : Machine → Machine × α) :
    p.Follows (p.work f).1 := ⟨rfl, rfl, _, rfl⟩

theorem follows_change (p : Watched τ) (f : Machine → Machine) : p.Follows (p.change f) :=
  follows_work p _

theorem Follows.of_watch {p q r : Watched τ} (h : p.Follows q) (ht : r.ticket = q.ticket)
    (he : r.echo = q.echo) (hw : r.watch = q.watch) : p.Follows r :=
  ⟨ht.trans h.ticket, he.trans h.echo, by rw [hw]; exact h.moves⟩

theorem follows_takeOutput (p : Watched τ) : p.Follows p.takeOutput :=
  ((follows_work p fun m => readPumps m p.pumps).trans (follows_make _ _)).of_watch rfl rfl rfl

theorem follows_killIfAsked (p : Watched τ) : p.Follows p.killIfAsked := by
  unfold killIfAsked
  split
  · exact (follows_make p _).trans (follows_change _ _)
  · exact .refl p

theorem follows_noticeEnd (p : Watched τ) : p.Follows p.noticeEnd := by
  unfold noticeEnd
  split
  · exact (follows_make p _).of_watch rfl rfl rfl
  · exact .refl p

theorem follows_giveUpPumps (p : Watched τ) : p.Follows p.giveUpPumps := by
  unfold giveUpPumps
  split
  · rename_i limit hlimit
    exact (follows_change p fun m => (settle p.machine.clock limit p.pumps).2.2.foldl
      (fun m q => m.hangUp q.pipe) m).of_watch rfl rfl rfl
  · exact .refl p

theorem follows_close (p : Watched τ) : p.Follows p.close :=
  (follows_make p _).trans (follows_change _ _)

theorem close_gone (p : Watched τ) : ∃ e k, p.close.watch.wait = .gone e k := by
  change ∃ e k, (p.make [.exit (.ended (.signalled 9)), .poll .kill]).watch.wait = .gone e k
  exact Watch.gone_of_exit p.ticket p.echo p.watch (.ended (.signalled 9)) .kill

/-- Closing the watch leaves nothing open: by then the process counts as gone. -/
theorem finish_explained {w : World (Simulated τ)} {t : Ticket} {echo : Bool} {p q : Watched τ}
    (hp : p.watch = .start w ∧ p.ticket = t ∧ p.echo = echo) (h : p.Follows q) :
    ∃ ms, Watch.Explains t echo w ms q.finish := by
  obtain ⟨hw, rfl, rfl⟩ := hp
  obtain ⟨ms, hms⟩ := (h.trans (follows_close q)).moves
  obtain ⟨e, k, hgone⟩ := close_gone q
  have hc : q.close.watch.collected? = some ⟨q.close.watch.chunks.reverse, e, k⟩ := by
    simp [Watch.collected?, hgone]
  have hfinish : q.finish = (⟨q.close.watch.chunks.reverse, e, k⟩, q.close.watch.world) := by
    simp [finish, hc]
  refine ⟨ms, ?_⟩
  unfold Watch.Explains
  rw [hw] at hms
  rw [← hms, hfinish]
  exact ⟨hc, rfl⟩

end Watched

theorem watch_explained {act : Watcher τ} (ha : act.Polite) {w : World (Simulated τ)} {t : Ticket}
    {echo : Bool} {p : Watched τ} (hp : p.watch = .start w ∧ p.ticket = t ∧ p.echo = echo)
    (fuel : Nat) (q : Watched τ) (h : p.Follows q) :
    ∃ ms, Watch.Explains t echo w ms (watch act fuel q) := by
  -- a round only makes moves, so the watch follows the start in all rounds
  induction fuel generalizing q with
  | zero => exact Watched.finish_explained hp h
  | succ fuel ih =>
    have hround := h.trans (Watched.follows_work q Machine.round)
    have hseen := ((hround.trans (Watched.follows_takeOutput _)).trans
      (Watched.follows_noticeEnd _)).trans (Watched.follows_giveUpPumps _)
    unfold watch
    simp only
    split
    · exact Watched.finish_explained hp hseen
    · split
      · exact ih _ hseen
      · split
        · rename_i w' hact
          obtain ⟨ms, hms⟩ := ha _ w' hact
          exact ih _ (hseen.trans ⟨rfl, rfl, ms, (hms _ _ _ rfl).symm⟩)
        · have hasked := hseen.trans (Watched.follows_killIfAsked _)
          split
          · exact ih _ hasked
          · split
            · exact Watched.finish_explained hp hasked
            · exact ih _ (hasked.trans (Watched.follows_change _ _))

theorem host_faithful (time : String) {act : Watcher τ} (ha : act.Polite) :
    (host time act).Faithful where
  launch c w := ⟨_, _, rfl⟩
  supervise t pid echo w := by
    let p : Watched τ := ⟨t, pid.toNat, echo, pumpsOf w.host.machine pid.toNat, .start w, none⟩
    have hp : p.watch = .start w ∧ p.ticket = t ∧ p.echo = echo := ⟨rfl, rfl, rfl⟩
    exact watch_explained ha hp watchLimit _ (Watched.follows_killIfAsked p)

end TraceWorkbench.Simulation

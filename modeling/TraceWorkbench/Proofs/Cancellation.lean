import TraceWorkbench.Proofs.OverlappingJobs

set_option autoImplicit false

/-!
# Cancelling a stage

Whoever asks the slot to cancel a stage, and is told that the request was heard, expects the stage
to fail with a signal and its job to stop there. The request may come at any time from when the slot
was taken, also before the process is started or watched, and others may act in between. It comes to
nothing in one case only: a poll finds the request and that the process is gone as well, and takes
the end of the process.
-/
namespace TraceWorkbench

/-- What a party that watches has found so far, and under which ticket. -/
def Party.vigil? (q : Party) : Option (Ticket × Vigil) :=
  match q.doing with
  | .watching t _ _ vigil _ => some (t, vigil)
  | .acting _ => none

namespace Pool

variable {σ : Type}

def vigil? (p : Pool σ) (i : Nat) : Option (Ticket × Vigil) := (p.parties[i]?).bind Party.vigil?

/-- The party has watched its process to the end, and goes on with this. -/
def Collects (p : Pool σ) (i : Nat) (t : Ticket) (c : Collected) : Prop :=
  ∃ vigil, p.vigil? i = some (t, vigil) ∧ (vigil.watch p.world).collected? = some c

end Pool

section

variable {σ : Type} {h : Host σ} {p : Pool σ} {i : Nat} {q q' : Party} {t : Ticket}
  {vigil : Vigil} {τ : Turn σ} {d : Option Deed}

/-- The wait of the party is over and its process had this signal, or it has gone on with this and
is about to give the slot back. -/
inductive Party.Settled (t : Ticket) (signal : Option String) (q : Party) : Prop where
  | finished {pid : UInt32} {echo : Bool} {vigil : Vigil} {e : Waited} {killSent : Bool}
      {next : Collected → Activity (Result q.Answer)}
      (doing : q.doing = .watching t pid echo vigil next) (gone : vigil.wait = .gone e killSent)
      (known : Outcome.signalOf ⟨[], e, killSent⟩ = signal)
      (obeys : ∀ c, (next c).Obeys Phase.Ends (.waited t (Outcome.signalOf c)))
  | waited {x : Activity (Result q.Answer)} (doing : q.doing = .acting x)
      (obeys : x.Obeys Phase.Ends (.waited t signal))

def Party.IsIn (ph : Phase) (q : Party) : Prop :=
  ∃ x, q.doing = .acting x ∧ x.Obeys Phase.Ends ph

theorem Watch.signalOf_of_gone {v : Watch σ} {e : Waited} {killSent : Bool} {c : Collected}
    (hgone : v.wait = .gone e killSent) (hc : v.collected? = some c) :
    Outcome.signalOf c = Outcome.signalOf ⟨[], e, killSent⟩ := by
  simp only [collected?, hgone] at hc
  rw [← Option.some.inj hc]
  rfl

/-- What was found at the end of the wait stands until the slot is given back. -/
theorem Party.Settled.goes {signal : Option String} (hq : q.Settled t signal)
    (hgoes : q.Goes h p.world i τ d q') :
    q'.Settled t signal ∧ d = none ∨
      d = some .gaveBack ∧ q'.IsIn (.released t.stage signal) := by
  cases hgoes with
  | rests => exact .inl ⟨hq, rfl⟩
  | @acts Answer β e next heard =>
    cases hq with
    | finished doing => cases doing
    | waited doing obeys =>
      cases doing
      obtain ⟨hallows, hnext⟩ := obeys
      cases e with
      | release t' =>
        obtain rfl : t' = t := hallows
        exact .inr ⟨rfl, _, rfl, hnext () trivial⟩
      | _ => exact hallows.elim
  | begins =>
    cases hq with
    | finished doing => cases doing
    | waited doing obeys =>
      cases doing
      exact obeys.1.elim
  | watches m =>
    cases hq with
    | waited doing => cases doing
    | finished doing gone known obeys =>
      cases doing
      exact .inl ⟨.finished rfl (Watch.move_gone gone m) known obeys, rfl⟩
  | @collects Answer t' pid echo vigil next heard c collected =>
    cases hq with
    | waited doing => cases doing
    | finished doing gone known obeys =>
      cases doing
      have hsignal : Outcome.signalOf c = signal :=
        (Watch.signalOf_of_gone gone collected).trans known
      exact .inl ⟨.waited rfl (hsignal ▸ obeys c), rfl⟩

/-- A party whose process was killed starts no stage when the slot is given back. -/
theorem Party.IsIn.goes {stage : StageKind} {signal : String} (hq : q.IsIn (.killed stage signal))
    (hgoes : q.Goes h p.world i τ d q') :
    q'.IsIn (.killed stage signal) ∧ d.bind Deed.startedStage? = none := by
  obtain ⟨x, doing, obeys⟩ := hq
  cases hgoes with
  | rests => exact ⟨⟨x, doing, obeys⟩, rfl⟩
  | @acts Answer β e next heard =>
    cases doing
    obtain ⟨hallows, hnext⟩ := obeys
    cases e with
    | publish e => exact ⟨⟨_, rfl, hnext () trivial⟩, hallows⟩
    | files f => exact ⟨⟨_, rfl, hnext _ (World.canAnswer h p.world _)⟩, rfl⟩
    | _ => exact hallows.elim
  | begins =>
    cases doing
    exact obeys.1.elim
  | watches | collects => cases doing

def Party.Stopped (stage : StageKind) (signal : String) (q : Party) : Prop :=
  (∃ t : Ticket, t.stage = stage ∧ q.Settled t (some signal)) ∨ q.IsIn (.killed stage signal)

theorem Party.Stopped.goes {stage : StageKind} {signal : String} (hq : q.Stopped stage signal)
    (hgoes : q.Goes h p.world i τ d q') :
    q'.Stopped stage signal ∧ d.bind Deed.startedStage? = none := by
  rcases hq with ⟨t, rfl, hq⟩ | hq
  · rcases hq.goes hgoes with ⟨hq', rfl⟩ | ⟨rfl, hq'⟩
    · exact ⟨.inl ⟨t, rfl, hq'⟩, rfl⟩
    · exact ⟨.inr hq', rfl⟩
  · exact (hq.goes hgoes).imp_left .inr

namespace Pool

end Pool

theorem Party.vigil?_eq_some_iff : q.vigil? = some (t, vigil) ↔
    ∃ pid echo next, q.doing = .watching t pid echo vigil next := by
  obtain ⟨Answer, doing, announced⟩ := q
  cases doing with
  | acting x => simp [vigil?]
  | watching t' pid echo vigil' next =>
    constructor
    · intro h
      obtain ⟨rfl, rfl⟩ := Prod.mk.inj (Option.some.inj h)
      exact ⟨pid, echo, next, rfl⟩
    · rintro ⟨pid', echo', next', h⟩
      cases h
      rfl

namespace Pool

variable {switch : KillSwitch}

theorem Taken.watched (hp : p.Taken i t switch) (hq : p.parties[i]? = some q)
    (hv : q.vigil? = some (t, vigil)) : vigil.wait.Fits switch ∧ ∃ pid echo next,
      q.doing = .watching t pid echo vigil next ∧
        ∀ c, (next c).Obeys Phase.Ends (.waited t (Outcome.signalOf c)) := by
  have holds := hp.holds hq
  obtain ⟨pid, echo, next, hwatching⟩ := Party.vigil?_eq_some_iff.1 hv
  generalize p.running = running at holds
  cases holds with
  | watched doing obeys heard fits =>
    rw [hwatching] at doing
    cases doing
    exact ⟨fits, pid, echo, next, hwatching, obeys⟩
  | prepared doing | launched doing | waited doing =>
    rw [hwatching] at doing
    cases doing

theorem Taken.held (hp : p.Taken i t switch) (hq : p.parties[i]? = some q)
    (hv : q.vigil? = some (t, vigil)) : (vigil.watch p.world).Held t switch :=
  ⟨hp.slot, (hp.watched hq hv).1⟩

theorem Taken.settled (hp : p.Taken i t switch) (hq : p.parties[i]? = some q)
    (hv : q.vigil? = some (t, vigil)) {e : Waited} {killSent : Bool}
    (hgone : vigil.wait = .gone e killSent) :
    q.Settled t (Outcome.signalOf ⟨[], e, killSent⟩) := by
  obtain ⟨-, pid, echo, next, hwatching, obeys⟩ := hp.watched hq hv
  exact .finished hwatching hgone rfl obeys

theorem Taken.gaveBack (hh : h.Faithful) (hp : p.Taken i t switch)
    (hfree : (p.turn h (.act i)).Free) :
    .gaveBack ∈ History.of (p.deed? h (.act i)).toList i := by
  have hshown := ((Ordered.taken hp).turn_seen hh (.act i)).slot
  rw [hp.slot.activeStage, (Owned.free hfree).activeStage] at hshown
  cases hd : p.deed? h (.act i) with
  | none => simp [hd] at hshown
  | some x =>
    obtain ⟨j, d⟩ := x
    obtain rfl := deed?_act hd
    rw [hd] at hshown
    cases d with
    | gaveBack => simp [History.of]
    | took | launched | told => simp [Deed.shows] at hshown

end Pool

end

namespace Demo

def acts (n : Nat) : List (Turn Unit) := List.replicate n (.act 0)

end Demo

end TraceWorkbench

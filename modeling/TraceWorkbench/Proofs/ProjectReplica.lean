import Mathlib.Data.List.Induction
import TraceWorkbench.Watch
import TraceWorkbench.Workflow.Editor

set_option autoImplicit false

/-!
# Events replicate the active project

Five calls of the editor share one active project. Each call moves it in one of four ways, and tells
so: whoever keeps up with the events knows the active project after every call.
-/
namespace TraceWorkbench

inductive EditorRequest where
  | openProject (root : Path)
  | fileChanged (file : Option Path)
  | fileSaved (file : Path)
  | lastFileClosed
  | splitView

/-- Each call has a view of its own: folders may come and go in between. -/
structure EditorCall where
  view : EditorView
  request : EditorRequest

namespace EditorCall

def activity (b : Bench) (c : EditorCall) : Activity Unit :=
  match c.request with
  | .openProject root => (b.openProject root).bind fun _ => .done ()
  | .fileChanged file => (b.fileChangedIn c.view file).bind fun _ => .done ()
  | .fileSaved file => (b.fileSavedIn c.view file).bind fun _ => .done ()
  | .lastFileClosed => b.lastFileClosed.bind fun _ => .done ()
  | .splitView => (b.splitViewIn c.view).bind fun _ => .done ()

/-- The root that the call is about. -/
def root? (c : EditorCall) : Option Path :=
  match c.request with
  | .openProject root => some root
  | .fileChanged file => file.bind c.view.rootOf
  | .fileSaved file => c.view.rootOf file
  | .lastFileClosed => none
  | .splitView => c.view.focusedRoot

/-- What the call means for the active project. -/
def update (c : EditorCall) (a : ActiveProject) : ProjectUpdate × ActiveProject :=
  match c.request, c.root? with
  | .lastFileClosed, _ => a.noOpenFile
  | _, none => (.unchanged, a)
  | .fileSaved _, some root => a.fileSaved root
  | _, some root => a.activate root

end EditorCall

/-! What a call publishes -/

def ProjectUpdate.events : ProjectUpdate → List Event
  | changed project => [.activeProjectChanged project]
  | refreshed project => [.projectRefreshed project]
  | unchanged => []

def Event.tellsProject : Event → Bool
  | activeProjectChanged _ | projectRefreshed _ => true
  | _ => false

section

variable {σ : Type} (h : Host σ) (b : Bench) (w : World σ)

theorem run_announce (u : ProjectUpdate) :
    ((b.announce u).run h w).2.events = w.events ++ u.events ∧
      ((b.announce u).run h w).2.active = w.active := by
  cases u with
  | changed project =>
    cases project with
    | none => exact ⟨rfl, rfl⟩
    | some p => exact ⟨rfl, rfl⟩
  | refreshed project => exact ⟨rfl, rfl⟩
  | unchanged => exact ⟨(List.append_nil _).symm, rfl⟩

theorem run_update (f : ActiveProject → ProjectUpdate × ActiveProject) :
    ((b.update f).run h w).2.events = w.events ++ (f w.active).1.events ∧
      ((b.update f).run h w).2.active = (f w.active).2 := by
  have hrun : ((b.update f).run h w).2 =
      ((b.announce (f w.active).1).run h { w with active := (f w.active).2 }).2 := by
    unfold Bench.update
    rw [Activity.run_andThen, Activity.run_andThen]
    rfl
  rw [hrun]
  exact run_announce h b _ _

/-- What a call publishes about the project is its update; warnings may follow. -/
structure CallRun (c : EditorCall) (w w' : World σ) : Prop where
  events : ∃ warnings, w'.events = w.events ++ ((c.update w.active).1.events ++ warnings) ∧
    ∀ e ∈ warnings, e.tellsProject = false
  active : w'.active = (c.update w.active).2

theorem callRun_update {c : EditorCall} {f : ActiveProject → ProjectUpdate × ActiveProject}
    (hf : f w.active = c.update w.active) : CallRun c w ((b.update f).run h w).2 := by
  obtain ⟨hevents, hactive⟩ := run_update h b w f
  rw [hf] at hevents hactive
  exact ⟨⟨[], by rw [hevents, List.append_nil], by simp⟩, hactive⟩

theorem CallRun.warn {c : EditorCall} {w w' : World σ} (hrun : CallRun c w w')
    (title detail : String) : CallRun c w (w'.publish (.warning title detail)) := by
  obtain ⟨⟨warnings, hevents, hplain⟩, hactive⟩ := hrun
  refine ⟨⟨warnings ++ [.warning title detail], ?_, ?_⟩, hactive⟩
  · simp [World.publish, hevents]
  · intro e he
    rcases List.mem_append.1 he with he | he
    · exact hplain e he
    · rw [List.mem_singleton.1 he]
      rfl

theorem callRun_self {c : EditorCall} (hc : c.update w.active = (.unchanged, w.active)) :
    CallRun c w w := by
  refine ⟨⟨[], ?_, by simp⟩, ?_⟩
  · simp [hc, ProjectUpdate.events]
  · rw [hc]

theorem run_splitViewIn (v : EditorView) :
    CallRun ⟨v, .splitView⟩ w ((b.splitViewIn v).run h w).2 := by
  cases hroot : v.focusedRoot with
  | none =>
    have hself : CallRun ⟨v, .splitView⟩ w w :=
      callRun_self w (by simp [EditorCall.update, EditorCall.root?, hroot])
    simp only [Bench.splitViewIn, hroot]
    exact hself.warn _ _
  | some root =>
    have hopened : CallRun ⟨v, .splitView⟩ w ((b.openProject root).run h w).2 :=
      callRun_update h b w (by simp [EditorCall.update, EditorCall.root?, hroot])
    simp only [Bench.splitViewIn, hroot]
    rw [Activity.run_andThen, Activity.run_andThen, Activity.run_look]
    split
    · exact hopened.warn _ _
    · exact hopened

theorem run_call (c : EditorCall) : CallRun c w ((c.activity b).run h w).2 := by
  have hrest : ∀ {α : Type} (x : Activity α),
      ((x.bind fun _ => .done ()).run h w).2 = (x.run h w).2 := by
    intro α x
    rw [Activity.run_bind]
    rfl
  obtain ⟨v, request⟩ := c
  cases request with
  | openProject root =>
    rw [EditorCall.activity, hrest]
    exact callRun_update h b w rfl
  | fileChanged file =>
    rw [EditorCall.activity, hrest]
    apply callRun_update h b w
    cases hroot : file.bind v.rootOf <;>
      simp [EditorCall.update, EditorCall.root?, ActiveProject.fileChanged, hroot]
  | fileSaved file =>
    rw [EditorCall.activity, hrest, Bench.fileSavedIn]
    cases hroot : v.rootOf file with
    | none => exact callRun_self w (by simp [EditorCall.update, EditorCall.root?, hroot])
    | some root =>
      exact callRun_update h b w (by simp [EditorCall.update, EditorCall.root?, hroot])
  | lastFileClosed =>
    rw [EditorCall.activity, hrest]
    exact callRun_update h b w rfl
  | splitView =>
    rw [EditorCall.activity, hrest]
    exact run_splitViewIn h b w v

end

/-! How a call moves the active project -/

namespace ActiveProject

/-- No project is active, or one with another root. -/
def Elsewhere (a : ActiveProject) (root : Path) : Prop :=
  ∀ p, a.current = some p → p.root.same root = false

variable {a : ActiveProject} {root : Path}

theorem elsewhere_or_same (a : ActiveProject) (root : Path) :
    a.Elsewhere root ∨ ∃ p, a.current = some p ∧ p.root.same root = true := by
  cases hcurrent : a.current with
  | none => exact .inl (by simp [Elsewhere, hcurrent])
  | some p =>
    cases hsame : p.root.same root with
    | true => exact .inr ⟨p, rfl, hsame⟩
    | false => exact .inl (by simp [Elsewhere, hcurrent, hsame])

theorem activate_of_elsewhere (h : a.Elsewhere root) :
    a.activate root = (.changed (some (.ofRoot root)), .ofRoot root) := by
  unfold activate
  cases hcurrent : a.current with
  | none => rfl
  | some p => simp [h p hcurrent]

theorem activate_of_same {p : Project} (hp : a.current = some p) (hsame : p.root.same root = true) :
    a.activate root = (.unchanged, a) := by
  simp [activate, hp, hsame]

end ActiveProject

namespace EditorCall

/-- The call makes the project at `root` active. -/
def Activates (c : EditorCall) (a : ActiveProject) (root : Path) : Prop :=
  c.root? = some root ∧ a.Elsewhere root

inductive Move (c : EditorCall) (a : ActiveProject) : ProjectUpdate → ActiveProject → Prop
  | stays (h : ∀ root, ¬ c.Activates a root) : Move c a .unchanged a
  | refreshes {p : Project} (h : ∀ root, ¬ c.Activates a root) (hp : a.current = some p) :
      Move c a (.refreshed p) a
  | activates {root : Path} (h : c.Activates a root) :
      Move c a (.changed (some (.ofRoot root))) (.ofRoot root)
  | closes (h : ∀ root, ¬ c.Activates a root) (hp : a.current ≠ none) :
      Move c a (.changed none) .none

variable {c : EditorCall} {a : ActiveProject} {root : Path}

theorem not_activates_of_root_eq_none (h : c.root? = none) (root : Path) :
    ¬ c.Activates a root := by
  rintro ⟨hroot, -⟩
  rw [h] at hroot
  simp at hroot

theorem not_activates_of_same {p : Project} (h : c.root? = some root) (hp : a.current = some p)
    (hsame : p.root.same root = true) (root' : Path) : ¬ c.Activates a root' := by
  rintro ⟨hroot, helse⟩
  obtain rfl := Option.some.inj (h.symm.trans hroot)
  rw [helse p hp] at hsame
  simp at hsame

theorem move_activate (h : c.root? = some root) :
    c.Move a (a.activate root).1 (a.activate root).2 := by
  rcases a.elsewhere_or_same root with helse | ⟨p, hp, hsame⟩
  · rw [ActiveProject.activate_of_elsewhere helse]
    exact .activates ⟨h, helse⟩
  · rw [ActiveProject.activate_of_same hp hsame]
    exact .stays (not_activates_of_same h hp hsame)

theorem move_fileSaved (h : c.root? = some root) :
    c.Move a (a.fileSaved root).1 (a.fileSaved root).2 := by
  unfold ActiveProject.fileSaved
  rcases a.elsewhere_or_same root with helse | ⟨p, hp, hsame⟩
  · rw [ActiveProject.activate_of_elsewhere helse]
    exact .activates ⟨h, helse⟩
  · rw [ActiveProject.activate_of_same hp hsame]
    simp only [hp, Option.map_some, Option.getD_some]
    exact .refreshes (not_activates_of_same h hp hsame) hp

theorem move_noOpenFile (h : c.root? = none) : c.Move a a.noOpenFile.1 a.noOpenFile.2 := by
  have hno := not_activates_of_root_eq_none (a := a) h
  unfold ActiveProject.noOpenFile
  obtain ⟨current⟩ := a
  cases current with
  | none => exact .stays hno
  | some p => exact .closes hno (by simp)

theorem move_update (c : EditorCall) (a : ActiveProject) :
    c.Move a (c.update a).1 (c.update a).2 := by
  cases hroot : c.root? with
  | none =>
    have hno := not_activates_of_root_eq_none (a := a) hroot
    cases hrequest : c.request with
    | lastFileClosed =>
      simp only [update, hrequest]
      exact move_noOpenFile hroot
    | openProject | fileChanged | fileSaved | splitView =>
      simp only [update, hrequest, hroot]
      exact .stays hno
  | some root =>
    cases hrequest : c.request with
    | lastFileClosed => simp [root?, hrequest] at hroot
    | fileSaved =>
      simp only [update, hrequest, hroot]
      exact move_fileSaved hroot
    | openProject | fileChanged | splitView =>
      simp only [update, hrequest, hroot]
      exact move_activate hroot

end EditorCall

/-! Runs of calls -/

/-- Keeps up with the active project by the events alone. -/
def Event.follow (shown : Option Project) : Event → Option Project
  | activeProjectChanged project => project
  | _ => shown

def replica (es : List Event) : Option Project := es.foldl Event.follow none

/-- A new session after some calls of an editor, made one after another. -/
def World.afterCalls {σ : Type} (h : Host σ) (b : Bench) (w : World σ) (calls : List EditorCall) :
    World σ :=
  calls.foldl (fun w c => ((c.activity b).run h w).2) { w with events := [], active := .none }

section

variable {σ : Type} (h : Host σ) (b : Bench) (w : World σ)

theorem afterCalls_concat (calls : List EditorCall) (c : EditorCall) :
    CallRun c (w.afterCalls h b calls) (w.afterCalls h b (calls ++ [c])) := by
  have hrun := run_call h b (w.afterCalls h b calls) c
  unfold World.afterCalls at hrun ⊢
  rw [List.foldl_append]
  exact hrun

theorem foldl_follow_of_plain {es : List Event} (hes : ∀ e ∈ es, e.tellsProject = false)
    (shown : Option Project) : es.foldl Event.follow shown = shown := by
  induction es with
  | nil => rfl
  | cons e es ih =>
    have he : Event.follow shown e = shown := by
      have hplain := hes e List.mem_cons_self
      cases e <;> first | rfl | simp [Event.tellsProject] at hplain
    rw [List.foldl_cons, he]
    exact ih fun e' he' => hes e' (List.mem_cons_of_mem e he')

/-- One call keeps the replica right. -/
theorem CallRun.replica_eq {c : EditorCall} {w w' : World σ} (hrun : CallRun c w w')
    (hw : replica w.events = w.active.current) : replica w'.events = w'.active.current := by
  obtain ⟨⟨warnings, hevents, hplain⟩, hactive⟩ := hrun
  unfold replica at hw ⊢
  rw [hevents, hactive, List.foldl_append, List.foldl_append, foldl_follow_of_plain hplain, hw]
  have hmove := c.move_update w.active
  generalize (c.update w.active).1 = u, (c.update w.active).2 = a at hmove
  cases hmove with
  | stays => rfl
  | refreshes => rfl
  | activates => rfl
  | closes => rfl

theorem replica_afterCalls (calls : List EditorCall) :
    replica (w.afterCalls h b calls).events = (w.afterCalls h b calls).active.current := by
  induction calls using List.reverseRecOn with
  | nil => rfl
  | append_singleton calls c ih => exact (afterCalls_concat h b w calls c).replica_eq ih

/-- What the events of a call from `a` to `a'` say is so. -/
structure Truthful (a a' : ActiveProject) (es : List Event) : Prop where
  changed : ∀ p, .activeProjectChanged (some p) ∈ es → a.Elsewhere p.root
  closed : .activeProjectChanged none ∈ es → a.current ≠ none
  refreshed : ∀ p, .projectRefreshed p ∈ es → a.current = some p ∧ a'.current = some p

theorem EditorCall.Move.truthful {c : EditorCall} {a a' : ActiveProject} {u : ProjectUpdate}
    (hmove : c.Move a u a') : Truthful a a' u.events := by
  cases hmove with
  | stays => constructor <;> simp [ProjectUpdate.events]
  | @refreshes p _ hp =>
    constructor
    case refreshed =>
      intro q hq
      obtain rfl : q = p := by simpa [ProjectUpdate.events] using hq
      exact ⟨hp, hp⟩
    all_goals simp [ProjectUpdate.events]
  | @activates root hactivates =>
    constructor
    case changed =>
      intro q hq
      obtain rfl : q = .ofRoot root := by simpa [ProjectUpdate.events] using hq
      exact hactivates.2
    all_goals simp [ProjectUpdate.events]
  | closes _ hp =>
    constructor
    case closed => exact fun _ => hp
    all_goals simp [ProjectUpdate.events]

theorem Truthful.append {a a' : ActiveProject} {es warnings : List Event}
    (htrue : Truthful a a' es) (hplain : ∀ e ∈ warnings, e.tellsProject = false) :
    Truthful a a' (es ++ warnings) := by
  have hmem : ∀ e, e.tellsProject = true → e ∈ es ++ warnings → e ∈ es := by
    intro e he hmem
    rcases List.mem_append.1 hmem with hmem | hmem
    · exact hmem
    · rw [hplain e hmem] at he
      simp at he
  exact ⟨fun p hp => htrue.changed p (hmem _ rfl hp), fun hp => htrue.closed (hmem _ rfl hp),
    fun p hp => htrue.refreshed p (hmem _ rfl hp)⟩

/-- What a call from `a` to `a'` asks for is done, and its events say so. -/
structure EditorCall.Heeded (c : EditorCall) (a a' : ActiveProject) (es : List Event) : Prop where
  activated : ∀ root, c.Activates a root → a'.current = some (.ofRoot root) ∧
    .activeProjectChanged (some (.ofRoot root)) ∈ es
  closed : c.request = .lastFileClosed → a.current ≠ none → a'.current = none ∧
    .activeProjectChanged none ∈ es
  saved : ∀ file root p, c.request = .fileSaved file → c.root? = some root → a.current = some p →
    p.root.same root = true → a'.current = some p ∧ .projectRefreshed p ∈ es

theorem EditorCall.update_of_activates {c : EditorCall} {a : ActiveProject} {root : Path}
    (hc : c.Activates a root) :
    c.update a = (.changed (some (.ofRoot root)), .ofRoot root) := by
  obtain ⟨hroot, helse⟩ := hc
  cases hrequest : c.request with
  | lastFileClosed => simp [root?, hrequest] at hroot
  | fileSaved =>
    simp only [update, hrequest, hroot, ActiveProject.fileSaved,
      ActiveProject.activate_of_elsewhere helse]
  | openProject | fileChanged | splitView =>
    simp only [update, hrequest, hroot, ActiveProject.activate_of_elsewhere helse]

theorem EditorCall.heeded_update (c : EditorCall) (a : ActiveProject) :
    c.Heeded a (c.update a).2 (c.update a).1.events where
  activated root hc := by
    rw [update_of_activates hc]
    exact ⟨rfl, List.mem_singleton_self _⟩
  closed hrequest hcurrent := by
    have hsome : a.current.isSome = true := Option.isSome_iff_ne_none.2 hcurrent
    simp [update, hrequest, ActiveProject.noOpenFile, hsome, ProjectUpdate.events,
      ActiveProject.none]
  saved file root p hrequest hroot hp hsame := by
    simp [update, hrequest, hroot, ActiveProject.fileSaved,
      ActiveProject.activate_of_same hp hsame, hp, ProjectUpdate.events]

theorem CallRun.heeded {c : EditorCall} {w w' : World σ} (hrun : CallRun c w w') :
    ∃ es, w'.events = w.events ++ es ∧ Truthful w.active w'.active es ∧
      c.Heeded w.active w'.active es := by
  obtain ⟨⟨warnings, hevents, hplain⟩, hactive⟩ := hrun
  have hheeded := c.heeded_update w.active
  refine ⟨_, hevents, ?_, ?_⟩
  · rw [hactive]
    exact (c.move_update w.active).truthful.append hplain
  · rw [hactive]
    exact ⟨fun root hc => (hheeded.activated root hc).imp_right (List.mem_append_left _),
      fun hrequest hcurrent =>
        (hheeded.closed hrequest hcurrent).imp_right (List.mem_append_left _),
      fun file root p hrequest hroot hp hsame =>
        (hheeded.saved file root p hrequest hroot hp hsame).imp_right (List.mem_append_left _)⟩

/-- The last call that activated a project named `root`. -/
def LastActivated (calls : List EditorCall) (root : Path) : Prop :=
  ∃ front c back, calls = front ++ c :: back ∧
    c.Activates (w.afterCalls h b front).active root ∧
    ∀ between d rest root', back = between ++ d :: rest →
      ¬ d.Activates (w.afterCalls h b (front ++ c :: between)).active root'

theorem LastActivated.concat {calls : List EditorCall} {root : Path} {c : EditorCall}
    (hlast : LastActivated h b w calls root)
    (hc : ∀ root', ¬ c.Activates (w.afterCalls h b calls).active root') :
    LastActivated h b w (calls ++ [c]) root := by
  obtain ⟨front, first, back, rfl, hfirst, hback⟩ := hlast
  refine ⟨front, first, back ++ [c], by simp, hfirst, ?_⟩
  intro between d rest root' hsplit
  cases rest using List.reverseRecOn with
  | nil =>
    obtain ⟨rfl, hd⟩ := List.append_inj' hsplit rfl
    rw [← (List.cons.inj hd).1]
    exact hc root'
  | append_singleton rest last =>
    rw [← List.cons_append, ← List.append_assoc] at hsplit
    exact hback between d rest root' (List.append_inj' hsplit rfl).1

theorem active_eq_lastActivated (calls : List EditorCall) {p : Project}
    (hp : (w.afterCalls h b calls).active.current = some p) :
    ∃ root, LastActivated h b w calls root ∧ p = .ofRoot root := by
  induction calls using List.reverseRecOn generalizing p with
  | nil => simp [World.afterCalls, ActiveProject.none] at hp
  | append_singleton calls c ih =>
    have hactive := (afterCalls_concat h b w calls c).active
    have hmove := c.move_update (w.afterCalls h b calls).active
    rw [← hactive] at hmove
    generalize (c.update (w.afterCalls h b calls).active).1 = u at hmove
    generalize ha : (w.afterCalls h b (calls ++ [c])).active = a at hmove hp
    cases hmove with
    | stays hno =>
      obtain ⟨root, hlast, hroot⟩ := ih hp
      exact ⟨root, hlast.concat h b w hno, hroot⟩
    | refreshes hno =>
      obtain ⟨root, hlast, hroot⟩ := ih hp
      exact ⟨root, hlast.concat h b w hno, hroot⟩
    | @activates root hnow =>
      exact ⟨root, ⟨calls, c, [], rfl, hnow, by simp⟩, (Option.some.inj hp).symm⟩
    | closes => simp [ActiveProject.none] at hp

/-- After every call the active project is what the events say, and the project at the root of the
last activation. What a call asks for is done and told, and no event tells of a change that is none,
or of a refresh of another project. -/
theorem events_replicate_active_project (calls : List EditorCall) :
    replica (w.afterCalls h b calls).events = (w.afterCalls h b calls).active.current ∧
    (∀ front c back, calls = front ++ c :: back → ∃ es,
      (w.afterCalls h b (front ++ [c])).events = (w.afterCalls h b front).events ++ es ∧
      Truthful (w.afterCalls h b front).active (w.afterCalls h b (front ++ [c])).active es ∧
      c.Heeded (w.afterCalls h b front).active (w.afterCalls h b (front ++ [c])).active es) ∧
    ∀ p, (w.afterCalls h b calls).active.current = some p →
      ∃ root, LastActivated h b w calls root ∧ p = .ofRoot root :=
  ⟨replica_afterCalls h b w calls,
    fun front c _ _ => (afterCalls_concat h b w front c).heeded,
    fun _ hp => active_eq_lastActivated h b w calls hp⟩

end

namespace Demo

/-- Two projects are called by their names and by another one of the first. -/
def session : List EditorCall := [.openProject ⟨"/a"⟩, .openProject ⟨"/a/"⟩,
  .fileSaved ⟨"/a/main.c"⟩, .fileChanged (some ⟨"/b/main.c"⟩), .lastFileClosed,
  .fileSaved ⟨"/b/main.c"⟩].map (EditorCall.mk (Workspace.view ⟨[⟨"/a"⟩, ⟨"/b"⟩], [], none⟩))

def afterSession : World Unit :=
  World.afterCalls (.scripted fun _ => []) ⟨{}, default, []⟩
    ⟨⟨.dir [], []⟩, [], .empty, .none, [], ()⟩ session

end Demo

theorem events_replicate_of_session :
    Demo.afterSession.events = [.activeProjectChanged (some (.ofRoot ⟨"/a"⟩)),
      .projectRefreshed (.ofRoot ⟨"/a"⟩), .activeProjectChanged (some (.ofRoot ⟨"/b"⟩)),
      .activeProjectChanged none, .activeProjectChanged (some (.ofRoot ⟨"/b"⟩))] ∧
    Demo.afterSession.active.current = some (.ofRoot ⟨"/b"⟩) ∧
    replica Demo.afterSession.events = Demo.afterSession.active.current ∧
    ∃ root, LastActivated (.scripted fun _ => []) ⟨{}, default, []⟩
      ⟨⟨.dir [], []⟩, [], .empty, .none, [], ()⟩ Demo.session root ∧
      Project.ofRoot ⟨"/b"⟩ = .ofRoot root := by
  have hcurrent : Demo.afterSession.active.current = some (.ofRoot ⟨"/b"⟩) := by decide +kernel
  obtain ⟨hreplica, -, hlast⟩ := events_replicate_active_project (.scripted fun _ => [])
    ⟨{}, default, []⟩ ⟨⟨.dir [], []⟩, [], .empty, .none, [], ()⟩ Demo.session
  exact ⟨by decide +kernel, hcurrent, hreplica, hlast _ hcurrent⟩

end TraceWorkbench

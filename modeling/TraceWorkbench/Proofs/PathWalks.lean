import TraceWorkbench.Proofs.FileTrees

set_option autoImplicit false

/-!
# Where paths lead

A path that leads somewhere leads there still after a file is written. Its last name stands in the
directory that the rest of it leads to, unless it is the name of a link that is followed.
-/
namespace TraceWorkbench.FileTree

open Node (Keeps)

/-- A path may end at a name: at a new one in a directory, at a file, or at a link that is not to be
followed. -/
def Ends (root : Node) (last : Bool) (above : Place) (name : String) : Prop :=
  (root.at? (above ++ [name]) = none ∧ ∃ es, root.at? above = some (.dir es)) ∨
    (∃ content executable, root.at? (above ++ [name]) = some (.file content executable)) ∨
    last = false ∧ ∃ target, root.at? (above ++ [name]) = some (.link target)

theorem dir_above {root m : Node} {above : Place} {name : String}
    (h : root.at? (above ++ [name]) = some m) : ∃ es, root.at? above = some (.dir es) := by
  rw [Node.at?_concat] at h
  obtain ⟨n, hn, hchild⟩ := Option.bind_eq_some_iff.1 h
  obtain ⟨es, rfl, -⟩ := Node.child?_eq_some hchild
  exact ⟨es, hn⟩

theorem Ends.above {root : Node} {last : Bool} {above : Place} {name : String}
    (h : Ends root last above name) : ∃ es, root.at? above = some (.dir es) := by
  rcases h with ⟨-, hdir⟩ | ⟨content, executable, hfile⟩ | ⟨-, target, hlink⟩
  · exact hdir
  · exact dir_above hfile
  · exact dir_above hlink

theorem Ends.keeps {root root' : Node} {last : Bool} {above : Place} {name : String}
    (hk : ∀ place, Keeps (root.at? place) (root'.at? place)) (h : Ends root last above name) :
    Ends root' last above name := by
  have hat := hk (above ++ [name])
  rcases h with ⟨hnone, es, hdir⟩ | ⟨content, executable, hfile⟩ | ⟨hlast, target, hlink⟩
  · have hdir' := hk above
    rw [hdir] at hdir'
    rw [hnone] at hat
    rcases hat with hnone' | hfile'
    · exact .inl ⟨hnone', hdir'⟩
    · exact .inr (.inl hfile')
  · rw [hfile] at hat
    exact .inr (.inl hat)
  · rw [hlink] at hat
    exact .inr (.inr ⟨hlast, target, hat⟩)

variable {root root' : Node} {last : Bool}
  {follow follow' : Place → List Path.Part → Except OsError Place}
  {up q : Place} {rest parts : List Path.Part}

theorem descend_name_iff (n : List Char) :
    descend root last follow up (.name n :: rest) = .ok q ↔
      (String.ofList n).utf8ByteSize ≤ 255 ∧
        ((rest = [] ∧ Ends root last up.reverse (String.ofList n) ∧
            up.reverse ++ [String.ofList n] = q) ∨
          ((∃ es, root.at? (up.reverse ++ [String.ofList n]) = some (.dir es)) ∧
            descend root last follow (String.ofList n :: up) rest = .ok q) ∨
          ∃ target, root.at? (up.reverse ++ [String.ofList n]) = some (.link target) ∧
            (rest = [] → last = true) ∧ target ≠ "" ∧
            follow up (Path.partsOf target.toList ++ rest) = .ok q) := by
  rw [descend]
  simp only [List.reverse_cons]
  by_cases hsize : (String.ofList n).utf8ByteSize > 255
  · simp [hsize, Nat.not_le_of_gt hsize]
  · rw [if_neg hsize]
    simp only [Nat.le_of_not_gt hsize, true_and]
    cases hat : root.at? (up.reverse ++ [String.ofList n]) with
    | none =>
      cases hup : root.at? up.reverse with
      | none => simp [Ends, hat, hup]
      | some m => cases m <;> cases rest <;> simp [Ends, hat, hup, Node.isDir]
    | some m =>
      cases m with
      | file content executable => cases rest <;> simp [Ends, hat]
      | dir es => simp [Ends, hat]
      | link target =>
        by_cases htarget : target = ""
        · cases last <;> cases rest <;> simp [Ends, hat, htarget]
        · cases last <;> cases rest <;> simp [Ends, hat, htarget]

/-- A path leads where it led, if directories and links on its way are kept. -/
theorem descend_keeps (hk : ∀ place, Keeps (root.at? place) (root'.at? place))
    (hf : ∀ up rest q, follow up rest = .ok q → follow' up rest = .ok q)
    (h : descend root last follow up parts = .ok q) :
    descend root' last follow' up parts = .ok q := by
  induction parts generalizing up with
  | nil => exact h
  | cons part rest ih =>
    cases part with
    | root => exact ih h
    | here => exact ih h
    | up => exact ih h
    | name n =>
      rw [descend_name_iff] at h ⊢
      obtain ⟨hsize, ⟨hrest, hend, hq⟩ | ⟨⟨es, hdir⟩, hdown⟩ |
        ⟨target, hlink, hlast, hne, hfollow⟩⟩ := h
      · exact ⟨hsize, .inl ⟨hrest, hend.keeps hk, hq⟩⟩
      · have hdir' := hk (up.reverse ++ [String.ofList n])
        rw [hdir] at hdir'
        exact ⟨hsize, .inr (.inl ⟨hdir', ih hdown⟩)⟩
      · have hlink' := hk (up.reverse ++ [String.ofList n])
        rw [hlink] at hlink'
        exact ⟨hsize, .inr (.inr ⟨target, hlink', hlast, hne, hf _ _ _ hfollow⟩)⟩

theorem walk_keeps (hk : ∀ place, Keeps (root.at? place) (root'.at? place)) (n : Nat)
    (h : walk root last n up parts = .ok q) : walk root' last n up parts = .ok q := by
  induction n generalizing up parts q with
  | zero => exact descend_keeps hk (fun _ _ _ hf => by simp at hf) h
  | succ n ih => exact descend_keeps hk (fun _ _ _ hf => ih hf) h

def IsLink (root : Node) (place : Place) : Prop := ∃ target, root.at? place = some (.link target)

theorem descend_unfollowed
    (hf : ∀ up rest q, follow up rest = .ok q →
      ∃ q', follow' up rest = .ok q' ∧ (q' = q ∨ IsLink root q'))
    (h : descend root true follow up parts = .ok q) :
    ∃ q', descend root false follow' up parts = .ok q' ∧ (q' = q ∨ IsLink root q') := by
  induction parts generalizing up with
  | nil => exact ⟨q, h, .inl rfl⟩
  | cons part rest ih =>
    cases part with
    | root => exact ih h
    | here => exact ih h
    | up => exact ih h
    | name n =>
      rw [descend_name_iff] at h
      obtain ⟨hsize, ⟨rfl, hend, rfl⟩ | ⟨hdir, hdown⟩ | ⟨target, hlink, -, hne, hfollow⟩⟩ := h
      · refine ⟨_, (descend_name_iff n).2 ⟨hsize, .inl ⟨rfl, ?_, rfl⟩⟩, .inl rfl⟩
        rcases hend with hfree | hfile | ⟨hlast, -⟩
        · exact .inl hfree
        · exact .inr (.inl hfile)
        · simp at hlast
      · obtain ⟨q', hq', hsame⟩ := ih hdown
        exact ⟨q', (descend_name_iff n).2 ⟨hsize, .inr (.inl ⟨hdir, hq'⟩)⟩, hsame⟩
      · -- a link that ends the path is where the two walks part
        by_cases hrest : rest = []
        · refine ⟨_, (descend_name_iff n).2 ⟨hsize, .inl ⟨hrest, ?_, rfl⟩⟩, .inr ⟨target, hlink⟩⟩
          exact .inr (.inr ⟨rfl, target, hlink⟩)
        · obtain ⟨q', hq', hsame⟩ := hf _ _ _ hfollow
          refine ⟨q', (descend_name_iff n).2 ⟨hsize, .inr (.inr ⟨target, hlink, ?_, hne, hq'⟩)⟩,
            hsame⟩
          exact fun hnil => absurd hnil hrest

theorem walk_unfollowed (n : Nat) (h : walk root true n up parts = .ok q) :
    ∃ q', walk root false n up parts = .ok q' ∧ (q' = q ∨ IsLink root q') := by
  induction n generalizing up parts q with
  | zero => exact descend_unfollowed (fun _ _ _ hf => by simp at hf) h
  | succ n ih => exact descend_unfollowed (fun _ _ _ hf => ih hf) h

/-- The last name of a path stands in the directory that the rest of the path leads to. -/
def Within (root : Node) (name : String) (q d : Place) : Prop :=
  q = d ++ [name] ∧ ∃ es, root.at? d = some (.dir es)

theorem descend_concat {n : List Char}
    (hf : ∀ up rest q, follow up (rest ++ [.name n]) = .ok q →
      ∃ d, follow' up rest = .ok d ∧ Within root (String.ofList n) q d)
    (h : descend root false follow up (parts ++ [.name n]) = .ok q) :
    ∃ d, descend root true follow' up parts = .ok d ∧ Within root (String.ofList n) q d := by
  induction parts generalizing up with
  | nil =>
    rw [List.nil_append, descend_name_iff] at h
    obtain ⟨-, ⟨-, hend, rfl⟩ | ⟨⟨es, hdir⟩, hdown⟩ | ⟨target, -, hlast, -⟩⟩ := h
    · exact ⟨up.reverse, rfl, rfl, hend.above⟩
    · obtain rfl : (String.ofList n :: up).reverse = q := Except.ok.inj hdown
      rw [List.reverse_cons]
      exact ⟨up.reverse, rfl, rfl, dir_above hdir⟩
    · simp at hlast
  | cons part rest ih =>
    cases part with
    | root => exact ih h
    | here => exact ih h
    | up => exact ih h
    | name m =>
      rw [List.cons_append, descend_name_iff] at h
      obtain ⟨hsize, ⟨hnil, -⟩ | ⟨hdir, hdown⟩ | ⟨target, hlink, -, hne, hfollow⟩⟩ := h
      · simp at hnil
      · obtain ⟨d, hd, hin⟩ := ih hdown
        exact ⟨d, (descend_name_iff m).2 ⟨hsize, .inr (.inl ⟨hdir, hd⟩)⟩, hin⟩
      · rw [← List.append_assoc] at hfollow
        obtain ⟨d, hd, hin⟩ := hf _ _ _ hfollow
        exact ⟨d, (descend_name_iff m).2
          ⟨hsize, .inr (.inr ⟨target, hlink, fun _ => rfl, hne, hd⟩)⟩, hin⟩

theorem walk_concat {n : List Char} (limit : Nat)
    (h : walk root false limit up (parts ++ [.name n]) = .ok q) :
    ∃ d, walk root true limit up parts = .ok d ∧ Within root (String.ofList n) q d := by
  induction limit generalizing up parts q with
  | zero => exact descend_concat (fun _ _ _ hf => by simp at hf) h
  | succ limit ih => exact descend_concat (fun _ _ _ hf => ih hf) h

/-- The system looks at a path at all. -/
structure Usable (p : Path) : Prop where
  no_nul : p.text.toList.contains '\x00' = false
  not_empty : p.text.isEmpty = false
  short : p.text.utf8ByteSize < 4096

variable {t t' : FileTree} {p dir : Path} {bytes : Bytes}

theorem resolve_eq_ok_iff : t.resolve p last = .ok q ↔
    Usable p ∧ walk t.root (last || wantsDirectory p) linkLimit t.cwd.reverse p.parts = .ok q ∧
      (wantsDirectory p = true → ∀ content executable,
        t.root.at? q ≠ some (.file content executable)) := by
  unfold resolve
  split
  · rename_i hnul
    exact ⟨fun h => by simp at h, fun h => absurd hnul (by rw [h.1.no_nul]; simp)⟩
  · rename_i hnul
    split
    · rename_i hempty
      exact ⟨fun h => by simp at h, fun h => absurd hempty (by simp [h.1.not_empty])⟩
    · rename_i hempty
      split
      · rename_i hlong
        exact ⟨fun h => by simp at h, fun h => absurd h.1.short (Nat.not_lt_of_ge hlong)⟩
      · rename_i hlong
        have husable : Usable p :=
          ⟨by simpa using hnul, by simpa using hempty, Nat.lt_of_not_ge hlong⟩
        cases hwalk : walk t.root (last || wantsDirectory p) linkLimit t.cwd.reverse p.parts with
        | error e => simp
        | ok place =>
          simp only [husable, true_and, Except.ok.injEq]
          split
          · rename_i content executable hat
            cases hwants : wantsDirectory p with
            | false => simp
            | true =>
              simp only [if_true]
              refine ⟨fun h => by simp at h, ?_⟩
              rintro ⟨rfl, hno⟩
              exact absurd hat (hno trivial content executable)
          · rename_i hno
            constructor
            · intro h
              obtain rfl := Except.ok.inj h
              exact ⟨rfl, fun _ => hno⟩
            · rintro ⟨rfl, -⟩
              rfl

/-- A file with these bytes is put at a place. -/
def put (t : FileTree) (q : Place) (bytes : Bytes) (executable : Bool) : FileTree :=
  t.setRoot (t.root.alterAt (fun _ => some (.file bytes executable)) q)

theorem write_eq_ok (h : t.write p bytes = .ok t') :
    ∃ q executable, t.resolve p true = .ok q ∧ wantsDirectory p = false ∧
      Node.Writable (t.root.at? q) ∧ t' = t.put q bytes executable := by
  have hfill : ∀ q executable,
      (t.put q [] executable).append q bytes = t.put q bytes executable := by
    intro q executable
    exact congrArg t.setRoot (Node.alterAt_alterAt _ rfl q t.root)
  unfold write openForWriting at h
  cases hq : t.resolve p true with
  | error e => simp [hq] at h
  | ok q =>
    obtain ⟨-, -, hfile⟩ := resolve_eq_ok_iff.1 hq
    rw [hq] at h
    cases hat : t.root.at? q with
    | none =>
      cases hwants : wantsDirectory p with
      | true => simp [hat, hwants] at h
      | false =>
        simp only [hat, hwants] at h
        exact ⟨q, false, rfl, rfl, .inl hat, (Except.ok.inj h).symm.trans (hfill q false)⟩
    | some m =>
      cases m with
      | dir es => simp [hat] at h
      | link target => simp [hat] at h
      | file content executable =>
        simp only [hat, if_true] at h
        refine ⟨q, executable, rfl, ?_, .inr ⟨content, executable, hat⟩,
          (Except.ok.inj h).symm.trans (hfill q executable)⟩
        cases hwants : wantsDirectory p with
        | false => rfl
        | true => exact absurd hat (hfile hwants content executable)

theorem put_keeps (bytes : Bytes) (executable : Bool) (hw : Node.Writable (t.root.at? q))
    (place : Place) :
    Keeps (t.root.at? place) ((t.put q bytes executable).root.at? place) :=
  Node.keeps_alterAt _ q t.root hw ⟨bytes, executable, rfl⟩ place

theorem put_at? (bytes : Bytes) (executable : Bool) {d : Place} {name : String}
    (hin : Within t.root name q d) :
    (t.put q bytes executable).root.at? q = some (.file bytes executable) := by
  obtain ⟨rfl, es, hdir⟩ := hin
  exact Node.at?_alterAt_self _ d name t.root hdir

theorem put_resolve (bytes : Bytes) (executable : Bool) {place : Place}
    (hw : Node.Writable (t.root.at? q))
    (hp : wantsDirectory p = false ∨ t.root.at? place ≠ none)
    (h : t.resolve p last = .ok place) :
    (t.put q bytes executable).resolve p last = .ok place := by
  obtain ⟨husable, hwalk, hfile⟩ := resolve_eq_ok_iff.1 h
  have hkeeps := put_keeps bytes executable hw
  refine resolve_eq_ok_iff.2 ⟨husable, walk_keeps hkeeps _ hwalk, ?_⟩
  intro hwants content executable' hat
  have hthere := hkeeps place
  rw [hat] at hthere
  rcases hold : t.root.at? place with _ | ⟨content', executable''⟩ | target | es
  · exact absurd hold (hp.resolve_left (by simp [hwants]))
  · exact hfile hwants _ _ hold
  · simp [hold, Keeps] at hthere
  · simp [hold, Keeps] at hthere

theorem resolve_unfollowed (hwants : wantsDirectory p = false) (hq : t.resolve p true = .ok q) :
    ∃ q', t.resolve p false = .ok q' ∧ (q' = q ∨ IsLink t.root q') := by
  obtain ⟨husable, hwalk, -⟩ := resolve_eq_ok_iff.1 hq
  obtain ⟨q', hwalk', hsame⟩ := walk_unfollowed _ hwalk
  refine ⟨q', resolve_eq_ok_iff.2 ⟨husable, ?_, fun hw => by simp [hwants] at hw⟩, hsame⟩
  rwa [hwants]

/-- The directory of a path that leads somewhere is there. The last name of the path stands in it,
and is where the path leads, or a link. -/
theorem resolve_above {n : List Char} (hparts : p.parts = dir.parts ++ [.name n])
    (hdir : Usable dir) (hwants : wantsDirectory p = false) (hq : t.resolve p true = .ok q) :
    ∃ q' d, t.resolve p false = .ok q' ∧ (q' = q ∨ IsLink t.root q') ∧
      t.resolve dir true = .ok d ∧ Within t.root (String.ofList n) q' d := by
  obtain ⟨q', hq', hsame⟩ := resolve_unfollowed hwants hq
  obtain ⟨-, hwalk, -⟩ := resolve_eq_ok_iff.1 hq'
  rw [hwants, hparts] at hwalk
  obtain ⟨d, hd, hname, es, hes⟩ := walk_concat _ hwalk
  exact ⟨q', d, hq', hsame, resolve_eq_ok_iff.2 ⟨hdir, hd, fun _ => by simp [hes]⟩, hname, es, hes⟩

theorem stat_eq_ok_iff {m : Node} :
    t.stat p = .ok m ↔ ∃ q, t.resolve p true = .ok q ∧ t.root.at? q = some m := by
  unfold stat
  cases t.resolve p true with
  | error e => simp
  | ok q => cases hat : t.root.at? q <;> simp [hat]

theorem exists_iff : t.exists? p = true ↔ ∃ q, t.resolve p true = .ok q ∧ t.root.at? q ≠ none := by
  unfold exists? stat
  cases t.resolve p true with
  | error e => simp [Except.toOption]
  | ok q => cases hat : t.root.at? q <;> simp [Except.toOption, hat]

theorem put_exists (bytes : Bytes) (executable : Bool) (hw : Node.Writable (t.root.at? q))
    (h : t.exists? p = true) : (t.put q bytes executable).exists? p = true := by
  obtain ⟨place, hplace, hthere⟩ := exists_iff.1 h
  refine exists_iff.2 ⟨place, put_resolve bytes executable hw (.inr hthere) hplace, fun hgone => ?_⟩
  have hkeeps := put_keeps bytes executable hw place
  rw [hgone] at hkeeps
  rcases hold : t.root.at? place with _ | ⟨content, executable'⟩ | target | es
  · exact hthere hold
  · simp [hold, Keeps] at hkeeps
  · simp [hold, Keeps] at hkeeps
  · simp [hold, Keeps] at hkeeps

end TraceWorkbench.FileTree

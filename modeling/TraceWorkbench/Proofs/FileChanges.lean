import TraceWorkbench.Proofs.Scanning

set_option autoImplicit false

/-!
# Changing one place

A file that is written or removed changes nothing but what stands at one place, the lists of the
directories above it apart. So a path that leads somewhere in a tree with a file less leads there in
the whole tree as well, and what was removed is gone.
-/
namespace TraceWorkbench

namespace Node

/-- What stands at a place, without what is in it. -/
def own : Node → Node
  | dir _ => dir []
  | n => n

theorem own_alterAt_cons (f : Option Node → Option Node) (name : String) (rest : Place) (n : Node) :
    (alterAt f (name :: rest) n).own = n.own := by
  cases n with
  | dir es => cases rest <;> rfl
  | file content executable => rw [alterAt_of_not_dir f name rfl]
  | link target => rw [alterAt_of_not_dir f name rfl]

theorem own_alterAt (f : Option Node → Option Node) (place : Place) (n : Node)
    (hold : Leaf (at? place n)) (hnew : Leaf (f (at? place n))) {q : Place} (hq : q ≠ place) :
    (at? q (alterAt f place n)).map own = (at? q n).map own := by
  induction place generalizing n q with
  | nil =>
    obtain ⟨k, q, rfl⟩ := List.exists_cons_of_ne_nil hq
    have hroot : at? (k :: q) n = none := hold.below k q
    rw [at?_nil] at hnew
    cases hf : f (some n) with
    | none => simp [alterAt, hf]
    | some m =>
      have hm : at? (k :: q) m = none := by
        rw [hf] at hnew
        exact hnew.below k q
      simp [alterAt, hf, hm, hroot]
  | cons name rest ih =>
    cases q with
    | nil =>
      rw [at?_nil, at?_nil]
      exact congrArg some (own_alterAt_cons f name rest n)
    | cons k q =>
      cases n with
      | file content executable => rw [alterAt_of_not_dir f name rfl]
      | link target => rw [alterAt_of_not_dir f name rfl]
      | dir es =>
        rw [at?_cons, child?_dir] at hold hnew
        rw [at?_cons, at?_cons, child?_dir]
        cases rest with
        | nil =>
          rw [child?_alterAt_last]
          by_cases hk : name = k
          · subst hk
            obtain ⟨k, q, rfl⟩ := List.exists_cons_of_ne_nil (l := q) fun h => hq (by rw [h])
            rw [bind_at?_nil] at hold hnew
            rw [if_pos rfl, hold.below, hnew.below]
          · rw [if_neg hk]
        | cons r rest =>
          rw [child?_alterAt_below]
          by_cases hk : name = k
          · subst hk
            rw [if_pos rfl]
            cases hc : Entries.find? name es with
            | none => rfl
            | some c =>
              rw [hc] at hold hnew
              exact ih c hold hnew fun h => hq (by rw [h])
          · rw [if_neg hk]

theorem dir_of_own {a b : Option Node} (h : a.map own = b.map own) {es : Entries}
    (ha : a = some (.dir es)) : ∃ es', b = some (.dir es') := by
  subst ha
  rcases b with _ | ⟨content, executable⟩ | target | es'
  · simp at h
  · simp [own] at h
  · simp [own] at h
  · exact ⟨es', rfl⟩

theorem link_of_own {a b : Option Node} (h : a.map own = b.map own) {target : String}
    (ha : a = some (.link target)) : b = some (.link target) := by
  subst ha
  rcases b with _ | ⟨content, executable⟩ | target' | es'
  · simp at h
  · simp [own] at h
  · simpa [own] using h.symm
  · simp [own] at h

theorem file_of_own {a b : Option Node} (h : a.map own = b.map own) {content : Bytes}
    {executable : Bool} (ha : a = some (.file content executable)) :
    b = some (.file content executable) := by
  subst ha
  rcases b with _ | ⟨content', executable'⟩ | target | es'
  · simp at h
  · simpa [own, eq_comm] using h
  · simp [own] at h
  · simp [own] at h

end Node

namespace FileTree

open Node (own)

/-- Nothing but what stands at one place is another in the second tree. -/
structure ChangesOnly (t t' : FileTree) (q : Place) : Prop where
  cwd : t'.cwd = t.cwd
  elsewhere : ∀ place, place ≠ q → (t'.root.at? place).map own = (t.root.at? place).map own

theorem changesOnly_alterAt (t : FileTree) (f : Option Node → Option Node) (q : Place)
    (hold : Node.Leaf (t.root.at? q)) (hnew : Node.Leaf (f (t.root.at? q))) :
    t.ChangesOnly (t.setRoot (t.root.alterAt f q)) q :=
  ⟨rfl, fun _ hne => Node.own_alterAt f q t.root hold hnew hne⟩

variable {root root' : Node} {last : Bool}
  {follow follow' : Place → List Path.Part → Except OsError Place} {up q : Place}
  {parts : List Path.Part}

theorem descend_of_less
    (hless : ∀ place, root'.at? place = none ∨
      (root'.at? place).map own = (root.at? place).map own)
    (hf : ∀ up rest q, root'.at? q ≠ none → follow' up rest = .ok q → follow up rest = .ok q)
    (hq : root'.at? q ≠ none) (h : descend root' last follow' up parts = .ok q) :
    descend root last follow up parts = .ok q := by
  have hsame : ∀ {place m}, root'.at? place = some m →
      (root'.at? place).map own = (root.at? place).map own := by
    intro place m hm
    exact (hless place).resolve_left (by simp [hm])
  induction parts generalizing up with
  | nil => exact h
  | cons part rest ih =>
    cases part with
    | root => exact ih h
    | here => exact ih h
    | up => exact ih h
    | name n =>
      rw [descend_name_iff] at h ⊢
      obtain ⟨hsize, ⟨hrest, hend, rfl⟩ | ⟨⟨es, hdir⟩, hdown⟩ |
        ⟨target, hlink, hlast, hne, hfollow⟩⟩ := h
      · refine ⟨hsize, .inl ⟨hrest, ?_, rfl⟩⟩
        rcases hend with ⟨hnone, -⟩ | ⟨content, executable, hfile⟩ | ⟨hlast, target, hlink⟩
        · exact absurd hnone hq
        · exact .inr (.inl ⟨content, executable, Node.file_of_own (hsame hfile) hfile⟩)
        · exact .inr (.inr ⟨hlast, target, Node.link_of_own (hsame hlink) hlink⟩)
      · exact ⟨hsize, .inr (.inl ⟨Node.dir_of_own (hsame hdir) hdir, ih hdown⟩)⟩
      · exact ⟨hsize, .inr (.inr ⟨target, Node.link_of_own (hsame hlink) hlink, hlast, hne,
          hf _ _ _ hq hfollow⟩)⟩

theorem walk_of_less
    (hless : ∀ place, root'.at? place = none ∨
      (root'.at? place).map own = (root.at? place).map own) (n : Nat)
    (hq : root'.at? q ≠ none) (h : walk root' last n up parts = .ok q) :
    walk root last n up parts = .ok q := by
  induction n generalizing up parts q with
  | zero => exact descend_of_less hless (fun _ _ _ _ hf => by simp at hf) hq h
  | succ n ih => exact descend_of_less hless (fun _ _ _ hq hf => ih hq hf) hq h

/-- A directory stands at the place, or the place is a name in one. -/
def Inside (root : Node) (q : Place) : Prop :=
  (∃ es, root.at? q = some (.dir es)) ∨ ∃ name d, Within root name q d

/-- What holds of the directories, and of the names at which a path may end, holds of each place
that a path leads to from a directory. -/
theorem descend_lands {P : Place → Prop} (hdirs : ∀ q es, root.at? q = some (.dir es) → P q)
    (hends : ∀ above name, Ends root last above name → P (above ++ [name]))
    (hf : ∀ up rest q, (∃ es, root.at? up.reverse = some (.dir es)) → follow up rest = .ok q → P q)
    (hup : ∃ es, root.at? up.reverse = some (.dir es))
    (h : descend root last follow up parts = .ok q) : P q := by
  induction parts generalizing up with
  | nil =>
    obtain rfl : up.reverse = q := Except.ok.inj h
    exact hup.elim fun es hes => hdirs _ es hes
  | cons part rest ih =>
    cases part with
    | root =>
      obtain ⟨es, hes⟩ := hup
      exact @ih [] (Node.dir_root hes) h
    | here => exact ih hup h
    | up =>
      cases up with
      | nil => exact @ih [] hup h
      | cons name up =>
        obtain ⟨es, hes⟩ := hup
        rw [List.reverse_cons] at hes
        exact @ih up (dir_above hes) h
    | name n =>
      rw [descend_name_iff] at h
      obtain ⟨-, ⟨-, hend, rfl⟩ | ⟨hdir, hdown⟩ | ⟨target, hlink, -, -, hfollow⟩⟩ := h
      · exact hends _ _ hend
      · exact @ih (String.ofList n :: up) (by rwa [List.reverse_cons]) hdown
      · exact hf _ _ _ (dir_above hlink) hfollow

theorem walk_lands {P : Place → Prop} (hdirs : ∀ q es, root.at? q = some (.dir es) → P q)
    (hends : ∀ above name, Ends root last above name → P (above ++ [name])) (limit : Nat)
    (hup : ∃ es, root.at? up.reverse = some (.dir es))
    (h : walk root last limit up parts = .ok q) : P q := by
  induction limit generalizing up parts q with
  | zero => exact descend_lands hdirs hends (fun _ _ _ _ hf => by simp at hf) hup h
  | succ limit ih => exact descend_lands hdirs hends (fun _ _ _ hup hf => ih hup hf) hup h

theorem descend_named_lands {P : Place → Prop} {n : List Char}
    (hdirs : ∀ q es, root.at? q = some (.dir es) → P q)
    (hends : ∀ above name, Ends root last above name → P (above ++ [name]))
    (hf : ∀ up rest q, (∃ es, root.at? up.reverse = some (.dir es)) → follow up rest = .ok q → P q)
    (h : descend root last follow up (parts ++ [.name n]) = .ok q) : P q := by
  induction parts generalizing up with
  | nil =>
    rw [List.nil_append, descend_name_iff] at h
    obtain ⟨-, ⟨-, hend, rfl⟩ | ⟨hdir, hdown⟩ | ⟨target, hlink, -, -, hfollow⟩⟩ := h
    · exact hends _ _ hend
    · rw [← List.reverse_cons] at hdir
      exact descend_lands hdirs hends hf hdir hdown
    · exact hf _ _ _ (dir_above hlink) hfollow
  | cons part rest ih =>
    cases part with
    | root => exact ih h
    | here => exact ih h
    | up => exact ih h
    | name m =>
      rw [List.cons_append, descend_name_iff] at h
      obtain ⟨-, ⟨hnil, -⟩ | ⟨-, hdown⟩ | ⟨target, hlink, -, -, hfollow⟩⟩ := h
      · simp at hnil
      · exact ih hdown
      · exact hf _ _ _ (dir_above hlink) hfollow

theorem walk_named_lands {P : Place → Prop} {n : List Char}
    (hdirs : ∀ q es, root.at? q = some (.dir es) → P q)
    (hends : ∀ above name, Ends root last above name → P (above ++ [name])) (limit : Nat)
    (h : walk root last limit up (parts ++ [.name n]) = .ok q) : P q := by
  cases limit with
  | zero => exact descend_named_lands hdirs hends (fun _ _ _ _ hf => by simp at hf) h
  | succ limit =>
    exact descend_named_lands hdirs hends
      (fun _ _ _ hup hf => walk_lands hdirs hends limit hup hf) h

theorem walk_named {n : List Char} (limit : Nat)
    (h : walk root last limit up (parts ++ [.name n]) = .ok q) : Inside root q :=
  walk_named_lands (fun _ es hes => .inl ⟨es, hes⟩)
    (fun above name hend => .inr ⟨name, above, rfl, hend.above⟩) limit h

theorem walk_named_unlinked {n : List Char} (limit : Nat)
    (h : walk root true limit up (parts ++ [.name n]) = .ok q) : ¬ IsLink root q := by
  refine walk_named_lands (P := fun q => ¬ IsLink root q) ?_ ?_ limit h
  · rintro q es hes ⟨target, hlink⟩
    simp [hes] at hlink
  · rintro above name hend ⟨target, hlink⟩
    simp [Ends, hlink] at hend

variable {t t' : FileTree} {p : Path}

theorem Inside.within (h : Inside root q) (hq : Node.Leaf (root.at? q)) :
    ∃ name d, Within root name q d := by
  refine h.resolve_left ?_
  rintro ⟨es, hes⟩
  exact hq es hes

theorem at?_alterAt_within {name : String} {d : Place} (hin : Within root name q d)
    (f : Option Node → Option Node) : (root.alterAt f q).at? q = f (root.at? q) := by
  obtain ⟨rfl, es, hdir⟩ := hin
  rw [Node.at?_alterAt_self f d name root hdir, Node.at?_concat, hdir]
  rfl

/-- A file that is written to a path with a name at its end is the only change, and it is what the
path then reads. Where the path is a link, this is the file behind it. -/
theorem write_changes {bytes : Bytes} {front : List Path.Part} {n : List Char}
    (hparts : p.parts = front ++ [.name n]) (h : t.write p bytes = .ok t') :
    ∃ q executable, t.resolve p true = .ok q ∧ t.ChangesOnly t' q ∧
      t'.root.at? q = some (.file bytes executable) ∧ t'.readBytes p = .ok bytes := by
  obtain ⟨q, executable, hq, hwants, hw, rfl⟩ := write_eq_ok h
  obtain ⟨-, hwalk, -⟩ := resolve_eq_ok_iff.1 hq
  rw [hparts] at hwalk
  obtain ⟨name, d, hin⟩ := (walk_named _ hwalk).within (Node.leaf_of_writable hw)
  have hchanges : t.ChangesOnly (t.put q bytes executable) q :=
    changesOnly_alterAt t _ q (Node.leaf_of_writable hw)
      (Node.leaf_of_writable (.inr ⟨bytes, executable, rfl⟩))
  have hfile := put_at? bytes executable hin
  have hreread := put_resolve bytes executable hw (.inl hwants) hq
  refine ⟨q, executable, hq, hchanges, hfile, ?_⟩
  rw [readBytes, stat_eq_ok_iff.2 ⟨q, hreread, hfile⟩]

theorem linkStat_eq_ok_iff {m : Node} :
    t.linkStat p = .ok m ↔ ∃ q, t.resolve p false = .ok q ∧ t.root.at? q = some m := by
  unfold linkStat
  cases t.resolve p false with
  | error e => simp
  | ok q => cases hat : t.root.at? q <;> simp [hat]

theorem ChangesOnly.linkStat_gone (h : t.ChangesOnly t' q) (hq : t.resolve p false = .ok q)
    (hgone : t'.root.at? q = none) (m : Node) : t'.linkStat p ≠ .ok m := by
  intro hm
  obtain ⟨q', hq', hthere⟩ := linkStat_eq_ok_iff.1 hm
  obtain ⟨-, hwalk, -⟩ := resolve_eq_ok_iff.1 hq
  obtain ⟨-, hwalk', -⟩ := resolve_eq_ok_iff.1 hq'
  have hless : ∀ place, t'.root.at? place = none ∨
      (t'.root.at? place).map own = (t.root.at? place).map own := by
    intro place
    by_cases hplace : place = q
    · exact .inl (hplace ▸ hgone)
    · exact .inr (h.elsewhere place hplace)
  rw [h.cwd] at hwalk'
  have hback := walk_of_less hless linkLimit (by simp [hthere]) hwalk'
  obtain rfl : q = q' := Except.ok.inj (hwalk.symm.trans hback)
  simp [hgone] at hthere

/-- A file that was removed by a path with a name at its end is gone, and is the only change. -/
theorem removeFile_spec {front : List Path.Part} {n : List Char}
    (hparts : p.parts = front ++ [.name n]) (h : t.removeFile p = .ok t') :
    ∃ q, t.resolve p false = .ok q ∧ t.ChangesOnly t' q ∧ t'.root.at? q = none := by
  unfold removeFile at h
  cases hq : t.resolve p false with
  | error e => simp [hq] at h
  | ok q =>
    have hleaf : Node.Leaf (t.root.at? q) := by
      intro es hes
      simp [hq, hes] at h
    obtain rfl : t.setRoot (t.root.alterAt (fun _ => none) q) = t' := by
      rw [hq] at h
      rcases hat : t.root.at? q with _ | ⟨content, executable⟩ | target | es
      · simp [hat] at h
      · simpa [hat] using h
      · simpa [hat] using h
      · exact absurd hat (hleaf es)
    obtain ⟨-, hwalk, -⟩ := resolve_eq_ok_iff.1 hq
    rw [hparts] at hwalk
    obtain ⟨name, d, hin⟩ := (walk_named _ hwalk).within hleaf
    exact ⟨q, rfl, changesOnly_alterAt t (fun _ => none) q hleaf (by simp [Node.Leaf]),
      at?_alterAt_within hin fun _ => none⟩

theorem not_linkStat_of_noEntry (h : t.removeFile p = .error .noEntry) (m : Node) :
    t.linkStat p ≠ .ok m := by
  intro hm
  obtain ⟨q, hq, hthere⟩ := linkStat_eq_ok_iff.1 hm
  unfold removeFile at h
  cases m <;> simp [hq, hthere] at h

theorem not_exists_of_linkStat (h : ∀ m, t.linkStat p ≠ .ok m) : t.exists? p = false := by
  rw [exists?]
  cases hstat : t.stat p with
  | error e => rfl
  | ok m =>
    rcases linkStat_of_stat hstat with hlink | ⟨target, hlink⟩
    · exact absurd hlink (h m)
    · exact absurd hlink (h _)

theorem readBytes_eq_ok_iff {t : FileTree} {p : Path} {bytes : Bytes} :
    t.readBytes p = .ok bytes ↔
      ∃ q executable, t.resolve p true = .ok q ∧ t.root.at? q = some (.file bytes executable) := by
  have hstat : t.readBytes p = .ok bytes ↔
      ∃ executable, t.stat p = .ok (.file bytes executable) := by
    unfold readBytes
    rcases t.stat p with e | ⟨content, executable⟩ | target | es <;> simp
  simp only [hstat, stat_eq_ok_iff]
  exact exists_comm

section

variable {root root' : Node} {last : Bool}
  {follow follow' : Place → List Path.Part → Except OsError Place} {up q place : Place}
  {parts : List Path.Part}

/-- A path to something that is there does not pass through a file or through nothing, so it leads
there still when that is changed. -/
theorem descend_past (hold : Node.Writable (root.at? q))
    (hsame : ∀ r, r ≠ q → (root'.at? r).map Node.own = (root.at? r).map Node.own)
    (hf : ∀ up rest, follow up rest = .ok place → follow' up rest = .ok place)
    (hthere : root.at? place ≠ none) (hne : place ≠ q)
    (h : descend root last follow up parts = .ok place) :
    descend root' last follow' up parts = .ok place := by
  have hdir : ∀ {r es}, root.at? r = some (.dir es) → ∃ es', root'.at? r = some (.dir es') := by
    intro r es hes
    refine Node.dir_of_own (hsame r ?_).symm hes
    rintro rfl
    exact Node.leaf_of_writable hold es hes
  have hlink : ∀ {r target}, root.at? r = some (.link target) →
      root'.at? r = some (.link target) := by
    intro r target htarget
    refine Node.link_of_own (hsame r ?_).symm htarget
    rintro rfl
    rcases hold with hnone | ⟨content, executable, hfile⟩
    · simp [hnone] at htarget
    · simp [hfile] at htarget
  induction parts generalizing up with
  | nil => exact h
  | cons part rest ih =>
    cases part with
    | root => exact ih h
    | here => exact ih h
    | up => exact ih h
    | name n =>
      rw [descend_name_iff] at h ⊢
      obtain ⟨hsize, ⟨hrest, hend, rfl⟩ | ⟨⟨es, hes⟩, hdown⟩ |
        ⟨target, htarget, hlast, hsome, hfollow⟩⟩ := h
      · refine ⟨hsize, .inl ⟨hrest, ?_, rfl⟩⟩
        rcases hend with ⟨hnone, -⟩ | ⟨content, executable, hfile⟩ | ⟨hlast, target, htarget⟩
        · exact absurd hnone hthere
        · exact .inr (.inl ⟨content, executable, Node.file_of_own (hsame _ hne).symm hfile⟩)
        · exact .inr (.inr ⟨hlast, target, hlink htarget⟩)
      · exact ⟨hsize, .inr (.inl ⟨hdir hes, ih hdown⟩)⟩
      · exact ⟨hsize, .inr (.inr ⟨target, hlink htarget, hlast, hsome, hf _ _ hfollow⟩)⟩

theorem walk_past (hold : Node.Writable (root.at? q))
    (hsame : ∀ r, r ≠ q → (root'.at? r).map Node.own = (root.at? r).map Node.own) (limit : Nat)
    (hthere : root.at? place ≠ none) (hne : place ≠ q)
    (h : walk root last limit up parts = .ok place) :
    walk root' last limit up parts = .ok place := by
  induction limit generalizing up parts with
  | zero => exact descend_past hold hsame (fun _ _ hf => by simp at hf) hthere hne h
  | succ limit ih => exact descend_past hold hsame (fun _ _ hf => ih hf) hthere hne h

theorem ChangesOnly.resolve {t t' : FileTree} {p : Path} (h : t.ChangesOnly t' q)
    (hold : Node.Writable (t.root.at? q)) (hthere : t.root.at? place ≠ none) (hne : place ≠ q)
    (hp : t.resolve p last = .ok place) : t'.resolve p last = .ok place := by
  obtain ⟨husable, hwalk, hfile⟩ := resolve_eq_ok_iff.1 hp
  refine resolve_eq_ok_iff.2 ⟨husable, ?_, fun hwants content executable hat => ?_⟩
  · rw [h.cwd]
    exact walk_past hold h.elsewhere linkLimit hthere hne hwalk
  · exact hfile hwants content executable (Node.file_of_own (h.elsewhere place hne) hat)

end

theorem changesOnly_put (t : FileTree) {q : Place} (hw : Node.Writable (t.root.at? q))
    (bytes : Bytes) (executable : Bool) : t.ChangesOnly (t.put q bytes executable) q :=
  changesOnly_alterAt t _ q (Node.leaf_of_writable hw)
    (Node.leaf_of_writable (.inr ⟨bytes, executable, rfl⟩))

end FileTree

end TraceWorkbench

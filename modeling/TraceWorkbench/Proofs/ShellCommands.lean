import Mathlib.Data.List.Induction
import TraceWorkbench.Proofs.ShellQuoting

set_option autoImplicit false

/-!
# Commands as the shell reads them

The text of a command reads back as the command. So does the line that the shell inside the
container is given, whatever the script was built from: it changes to the working directory and
then runs the script. Words with a NUL are left out, since no process can be given one.
-/
namespace TraceWorkbench

open ShellText

def NulFree (s : String) : Prop := '\x00' ∉ s.toList

instance (s : String) : Decidable (NulFree s) := inferInstanceAs (Decidable (_ ∉ _))

theorem nulFree_append_iff {a b : String} : NulFree (a ++ b) ↔ NulFree a ∧ NulFree b := by
  simp [NulFree]

theorem NulFree.append {a b : String} (ha : NulFree a) (hb : NulFree b) : NulFree (a ++ b) :=
  nulFree_append_iff.2 ⟨ha, hb⟩

theorem nulFree_intercalate_iff {sep : String} (hsep : NulFree sep) {ws : List String} :
    NulFree (sep.intercalate ws) ↔ ∀ w ∈ ws, NulFree w := by
  induction ws with
  | nil => simp [NulFree]
  | cons w rest ih =>
    cases rest with
    | nil => simp
    | cons w' rest =>
      rw [String.intercalate_cons_cons, nulFree_append_iff, nulFree_append_iff, ih,
        List.forall_mem_cons]
      simp [hsep]

theorem mem_escapeDouble {c : Char} {s : List Char} (hc : c ∈ Quoted.escapeDouble s) :
    c ∈ s ∨ c = '\\' := by
  induction s with
  | nil => simp [Quoted.escapeDouble] at hc
  | cons d rest ih =>
    simp only [Quoted.escapeDouble] at hc
    split at hc <;> simp only [List.mem_cons] at hc ⊢ <;> tauto

theorem mem_write {c : Char} {k : Quoted.Chunk} (hc : c ∈ k.write) :
    c ∈ k.text ∨ c ∈ ['\'', '"', '\\'] := by
  unfold Quoted.Chunk.write at hc
  split at hc
  · exact .inl hc
  · split at hc
    · simp only [List.cons_append, List.mem_cons, List.mem_append, List.not_mem_nil] at hc ⊢
      tauto
    · simp only [List.cons_append, List.mem_cons, List.mem_append, List.not_mem_nil] at hc ⊢
      rcases hc with hc | hc | hc
      · tauto
      · rcases mem_escapeDouble hc with hc | hc <;> tauto
      · tauto

theorem NulFree.shellQuoted {s : String} (hs : NulFree s) : NulFree s.shellQuoted := by
  have hmem : '\x00' ∉ (Quoted.chunks s.toList).flatMap Quoted.Chunk.write := by
    intro hm
    obtain ⟨k, hk, hm⟩ := List.mem_flatMap.1 hm
    rcases mem_write hm with hm | hm
    · have htext := List.mem_flatMap.2 ⟨k, hk, hm⟩
      rw [Quoted.chunks_text] at htext
      exact hs htext
    · exact absurd hm (by decide)
  unfold NulFree at hs ⊢
  simp only [String.shellQuoted, Quoted.encode, hs, if_false, String.toList_ofList]
  split
  · decide
  · exact hmem

theorem NulFree.of_shellQuoted {s : String} (h : NulFree s.shellQuoted) : NulFree s := by
  intro hm
  refine h ?_
  simp [String.shellQuoted, Quoted.encode, hm]

theorem reads_shellQuoted {w : String} (hw : NulFree w) :
    Reads w.shellQuoted.toList [.word w] := by
  refine ⟨[], Quoted.letters w.toList, ?_, ?_⟩
  · simpa [String.shellQuoted] using Quoted.feed_encode hw none
  · simp [Quoted.ofLetters_letters]

theorem reads_assignment {key value : String} (hkey : isName key.toList = true)
    (hvalue : NulFree value) :
    Reads (key ++ "=" ++ value.shellQuoted).toList [.assignment key value] := by
  refine ⟨[], key.toList.map (fun c => ⟨c, false⟩) ++ ⟨'=', false⟩ :: Quoted.letters value.toList,
    ?_, ?_⟩
  · simpa [String.shellQuoted] using Quoted.feed_assignment hkey hvalue
  · simp [Quoted.ofLetters_assignment hkey]

def redirection : Option String → List Token
  | some target => [.operator ">", .word target]
  | none => []

theorem ShellText.Reads.redirected {line : String} {ts : List Token} (h : Reads line.toList ts)
    {target : String} (ht : NulFree target) :
    Reads (line ++ (" > " ++ target.shellQuoted)).toList (ts ++ redirection (some target)) := by
  have hsep : ∀ ls, feed (.plain (some ls)) " > ".toList =
      some (ofLetters ls :: [.operator ">"], .plain none) := fun _ => rfl
  simpa [redirection] using h.join hsep (reads_shellQuoted ht)

namespace ShellScript

def tokens (s : ShellScript) : List Token :=
  s.env.map (fun (key, value) => .assignment key value) ++ (s.program :: s.args).map .word ++
    redirection s.redirect

/-- The names can be assigned to, and all texts can be given to a process. -/
structure Sound (s : ShellScript) : Prop where
  program : NulFree s.program
  env : ∀ e ∈ s.env, isName e.1.toList = true ∧ NulFree e.2
  args : ∀ a ∈ s.args, NulFree a
  redirect : ∀ t ∈ s.redirect, NulFree t

theorem Sound.words {s : ShellScript} (hs : s.Sound) : ∀ w ∈ s.program :: s.args, NulFree w := by
  rw [List.forall_mem_cons]
  exact ⟨hs.program, hs.args⟩

theorem Sound.reads {s : ShellScript} (hs : s.Sound) : Reads s.render.toList s.tokens := by
  have henv : List.Forall₂ (fun w t => Reads w.toList [t])
      (s.env.map fun (key, value) => key ++ "=" ++ value.shellQuoted)
      (s.env.map fun (key, value) => .assignment key value) := by
    rw [List.forall₂_map_left_iff, List.forall₂_map_right_iff, List.forall₂_same]
    exact fun e he => reads_assignment (hs.env e he).1 (hs.env e he).2
  have hwords : List.Forall₂ (fun w t => Reads w.toList [t])
      ((s.program :: s.args).map String.shellQuoted) ((s.program :: s.args).map .word) := by
    rw [List.forall₂_map_left_iff, List.forall₂_map_right_iff, List.forall₂_same]
    exact fun w hw => reads_shellQuoted (hs.words w hw)
  have hall : List.Forall₂ (fun w t => Reads w.toList [t]) s.words
      (s.env.map (fun (key, value) => .assignment key value) ++ (s.program :: s.args).map .word) :=
    List.rel_append henv hwords
  have hline : Reads (" ".intercalate s.words).toList _ :=
    Reads.intercalate hall (List.append_ne_nil_of_right_ne_nil _ (by simp))
  unfold render tokens
  cases hr : s.redirect with
  | none => simpa [redirection] using hline
  | some t => exact Reads.redirected hline (hs.redirect t hr)

theorem nulFree_name {key : String} (hk : isName key.toList = true) : NulFree key := by
  intro hm
  exact absurd (Quoted.isNameChar_of_isName hk _ hm) (by decide)

theorem Sound.render_nulFree {s : ShellScript} (hs : s.Sound) : NulFree s.render := by
  have hwords : NulFree (" ".intercalate s.words) := by
    refine (nulFree_intercalate_iff (by decide)).2 fun w hw => ?_
    rcases List.mem_append.1 hw with hw | hw
    · obtain ⟨e, he, rfl⟩ := List.mem_map.1 hw
      obtain ⟨hkey, hvalue⟩ := hs.env e he
      exact ((nulFree_name hkey).append (by decide)).append hvalue.shellQuoted
    · obtain ⟨a, ha, rfl⟩ := List.mem_map.1 hw
      exact (hs.words a ha).shellQuoted
  unfold render
  cases hr : s.redirect with
  | none => simpa using hwords
  | some t => exact hwords.append (NulFree.append (by decide) (hs.redirect t hr).shellQuoted)

theorem sound_of_nulFree_render {s : ShellScript}
    (henv : ∀ e ∈ s.env, isName e.1.toList = true ∧ NulFree e.2) (h : NulFree s.render) :
    s.Sound := by
  obtain ⟨hwords, hredirect⟩ := nulFree_append_iff.1 h
  rw [nulFree_intercalate_iff (by decide), words, List.forall_mem_append] at hwords
  obtain ⟨-, hcall⟩ := hwords
  rw [List.forall_mem_map, List.forall_mem_cons] at hcall
  refine ⟨hcall.1.of_shellQuoted, henv, fun a ha => (hcall.2 a ha).of_shellQuoted, fun t ht => ?_⟩
  rw [Option.mem_def.1 ht] at hredirect
  exact (nulFree_append_iff.1 hredirect).2.of_shellQuoted

inductive Addition where
  | arg (word : String)
  | pathArg (p : Path)
  | args (words : List String)
  | env (key value : String)
  | redirect (target : String)

def add (s : ShellScript) : Addition → ShellScript
  | .arg word => s.arg word
  | .pathArg p => s.pathArg p
  | .args words => s.withArgs words
  | .env key value => s.withEnv key value
  | .redirect target => s.redirectStdout target

def build (program : String) (adds : List Addition) : ShellScript := adds.foldl add { program }

namespace Addition

def assignment? : Addition → Option (String × String)
  | .env key value => some (key, value)
  | _ => none

def words : Addition → List String
  | .arg word => [word]
  | .pathArg p => [p.text]
  | .args words => words
  | _ => []

def target? : Addition → Option String
  | .redirect target => some target
  | _ => none

structure Sound (a : Addition) : Prop where
  env : ∀ e ∈ a.assignment?, isName e.1.toList = true ∧ NulFree e.2
  words : ∀ w ∈ a.words, NulFree w
  redirect : ∀ t ∈ a.target?, NulFree t

end Addition

theorem build_eq (program : String) (adds : List Addition) :
    build program adds = {
      program
      env := adds.filterMap Addition.assignment?
      args := adds.flatMap Addition.words
      redirect := (adds.filterMap Addition.target?).getLast? } := by
  induction adds using List.reverseRecOn with
  | nil => rfl
  | append_singleton adds a ih =>
    rw [build, List.foldl_append, ← build, ih]
    cases a <;> simp [add, arg, pathArg, withArgs, withEnv, redirectStdout, Addition.assignment?,
      Addition.words, Addition.target?]

theorem build_sound {program : String} (hp : NulFree program) {adds : List Addition}
    (ha : ∀ a ∈ adds, a.Sound) : (build program adds).Sound := by
  rw [build_eq]
  refine ⟨hp, fun e he => ?_, fun w hw => ?_, fun t ht => ?_⟩
  · obtain ⟨a, hmem, he⟩ := List.mem_filterMap.1 he
    exact (ha a hmem).env e he
  · obtain ⟨a, hmem, hw⟩ := List.mem_flatMap.1 hw
    exact (ha a hmem).words w hw
  · obtain ⟨a, hmem, ht⟩ := List.mem_filterMap.1 (List.mem_of_getLast? ht)
    exact (ha a hmem).redirect t ht

end ShellScript

namespace CommandSpec

def tokens (c : CommandSpec) : List Token :=
  (c.program.text :: c.args).map .word ++ redirection (c.stdoutFile.map Path.text)

/-- A process can be given all texts of the command. -/
structure NulFree (c : CommandSpec) : Prop where
  program : TraceWorkbench.NulFree c.program.text
  args : ∀ a ∈ c.args, TraceWorkbench.NulFree a
  stdoutFile : ∀ p ∈ c.stdoutFile, TraceWorkbench.NulFree p.text

theorem NulFree.read_text {c : CommandSpec} (hc : c.NulFree) : read c.text = some c.tokens := by
  have hall : List.Forall₂ (fun w t => Reads w.toList [t])
      ((c.program.text :: c.args).map String.shellQuoted)
      ((c.program.text :: c.args).map .word) := by
    rw [List.forall₂_map_left_iff, List.forall₂_map_right_iff, List.forall₂_same,
      List.forall_mem_cons]
    exact ⟨reads_shellQuoted hc.program, fun a ha => reads_shellQuoted (hc.args a ha)⟩
  have hline := Reads.intercalate hall (by simp)
  unfold text tokens
  cases hout : c.stdoutFile with
  | none => simpa [redirection] using hline.read
  | some p => exact (Reads.redirected hline (hc.stdoutFile p hout)).read

theorem words_append_cancel {a b : List String} {r r' : Option String}
    (h : a.map Token.word ++ redirection r = b.map Token.word ++ redirection r') :
    a = b ∧ r = r' := by
  induction a generalizing b with
  | nil =>
    cases b with
    | nil => cases r <;> cases r' <;> simp_all [redirection]
    | cons w b => cases r <;> simp [redirection] at h
  | cons w a ih =>
    cases b with
    | nil => cases r' <;> simp [redirection] at h
    | cons w' b =>
      simp only [List.map_cons, List.cons_append, List.cons.injEq, Token.word.injEq] at h
      obtain ⟨rfl, hrest⟩ := h
      obtain ⟨rfl, rfl⟩ := ih hrest
      exact ⟨rfl, rfl⟩

theorem eq_of_tokens {c d : CommandSpec} (h : c.tokens = d.tokens) :
    c.program = d.program ∧ c.args = d.args ∧ c.stdoutFile = d.stdoutFile := by
  obtain ⟨hwords, hout⟩ := words_append_cancel h
  obtain ⟨hprogram, hargs⟩ := List.cons.inj hwords
  have htext : Function.Injective Path.text := fun p q hpq => congrArg Path.mk hpq
  exact ⟨htext hprogram, hargs, Option.map_injective htext hout⟩

/-- What the shell in the container is given. -/
def scriptLine (container : ContainerConfig) (subdir : Option String) (script : ShellScript) :
    String :=
  "cd " ++ (container.workingDir subdir).shellQuoted ++ " && " ++ script.render

theorem read_scriptLine {container : ContainerConfig} {subdir : Option String}
    (hdir : TraceWorkbench.NulFree (container.workingDir subdir)) {script : ShellScript}
    (hs : script.Sound) : read (scriptLine container subdir script) =
      some ([.word "cd", .word (container.workingDir subdir), .operator "&&"] ++
        script.tokens) := by
  have hcd : Reads "cd".toList [.word "cd"] := ⟨[], _, rfl, rfl⟩
  have hsep : ∀ ls, feed (.plain (some ls)) " && ".toList =
      some (ofLetters ls :: [.operator "&&"], .plain none) := fun _ => rfl
  have hline := (hcd.blank (reads_shellQuoted hdir)).join hsep hs.reads
  refine Reads.read ?_
  simpa [scriptLine] using hline

end CommandSpec

structure ContainerConfig.NulFree (c : ContainerConfig) : Prop where
  docker : TraceWorkbench.NulFree c.docker.text
  image : TraceWorkbench.NulFree c.image
  mountPoint : TraceWorkbench.NulFree c.mountPoint

theorem nulFree_trimSlashes {s : String} (hs : NulFree s) : NulFree (trimSlashes s) := by
  intro hm
  simp only [trimSlashes, String.toList_ofList, List.mem_reverse] at hm
  exact hs (List.mem_reverse.1 ((List.dropWhile_sublist _).subset hm))

theorem ContainerConfig.NulFree.workingDir {c : ContainerConfig} (hc : c.NulFree)
    {subdir : Option String} (hsub : ∀ sub ∈ subdir, TraceWorkbench.NulFree sub) :
    TraceWorkbench.NulFree (c.workingDir subdir) := by
  cases subdir with
  | none => exact hc.mountPoint
  | some sub => exact ((nulFree_trimSlashes hc.mountPoint).append (by decide)).append (hsub sub rfl)

theorem containerized_nulFree {container : ContainerConfig} (hc : container.NulFree) {root : Path}
    (hroot : NulFree root.text) {subdir : Option String} (hsub : ∀ sub ∈ subdir, NulFree sub)
    {script : ShellScript} (hs : script.Sound) :
    (CommandSpec.containerized container root subdir script).NulFree where
  program := hc.docker
  args := by
    have hcd : NulFree ("cd " ++ (container.workingDir subdir).shellQuoted ++ " && ") :=
      (NulFree.append (by decide) (hc.workingDir hsub).shellQuoted).append (by decide)
    have hline := hcd.append hs.render_nulFree
    have hvolume : NulFree (root.text ++ ":" ++ container.mountPoint) :=
      (hroot.append (by decide)).append hc.mountPoint
    simp only [CommandSpec.containerized, List.forall_mem_cons, List.not_mem_nil, false_implies,
      implies_true, and_true]
    exact ⟨by decide, by decide, hvolume, by decide, hc.image, by decide, by decide, hline⟩
  stdoutFile := by simp [CommandSpec.containerized]

/-- Quoting loses nothing, at both levels. The line for the shell in the container reads back as the
calls that its script was built from, and nothing else in it has a meaning to the shell. The text of
a command reads back as the command, so commands with one text are one command; the line for the
shell in the container comes back whole, as the last word. -/
theorem shell_text_reads_back :
    (∀ (container : ContainerConfig) (root : Path) (subdir : Option String) (program : String)
      (adds : List ShellScript.Addition), container.NulFree → NulFree root.text →
      (∀ sub ∈ subdir, NulFree sub) → NulFree program → (∀ a ∈ adds, a.Sound) →
      ∃ line,
        (CommandSpec.containerized container root subdir (.build program adds)).args.getLast? =
          some line ∧
        read line = some (
          [.word "cd", .word (container.workingDir subdir), .operator "&&"] ++
            (adds.filterMap ShellScript.Addition.assignment?).map
              (fun (key, value) => .assignment key value) ++
            (program :: adds.flatMap ShellScript.Addition.words).map .word ++
            redirection (adds.filterMap ShellScript.Addition.target?).getLast?) ∧
        read (CommandSpec.containerized container root subdir (.build program adds)).text = some
          ([container.docker.text, "run", "--volume", root.text ++ ":" ++ container.mountPoint,
            "--rm", container.image, "sh", "-c", line].map .word)) ∧
    (∀ c : CommandSpec, c.NulFree → read c.text = some
      ((c.program.text :: c.args).map .word ++ redirection (c.stdoutFile.map Path.text))) ∧
    ∀ c d : CommandSpec, c.NulFree → d.NulFree → c.text = d.text →
      c.program = d.program ∧ c.args = d.args ∧ c.stdoutFile = d.stdoutFile := by
  refine ⟨?_, ?_, ?_⟩
  · intro container root subdir program adds hc hroot hsub hprogram hadds
    have hs := ShellScript.build_sound hprogram hadds
    refine ⟨CommandSpec.scriptLine container subdir (.build program adds), rfl, ?_, ?_⟩
    · rw [CommandSpec.read_scriptLine (hc.workingDir hsub) hs, ShellScript.build_eq]
      simp [ShellScript.tokens]
    · rw [(containerized_nulFree hc hroot hsub hs).read_text]
      simp [CommandSpec.tokens, CommandSpec.containerized, CommandSpec.scriptLine, redirection]
  · exact fun c hc => hc.read_text
  · intro c d hc hd htext
    have htokens := hc.read_text.symm.trans ((congrArg read htext).trans hd.read_text)
    exact CommandSpec.eq_of_tokens (Option.some.inj htokens)

namespace Demo

def trickyContainer : ContainerConfig := { image := "my image", mountPoint := "/it's mounted/" }

def trickyAdditions : List ShellScript.Addition :=
  [.env "LANG" "C $HOME", .arg "", .redirect "old", .pathArg ⟨"-o=*.c"⟩, .args ["!^#", "a\nb;'c'"],
    .redirect "x && y"]

def trickyCommand : CommandSpec :=
  .containerized trickyContainer ⟨"/me/my demo"⟩ (some "b\"in") (.build "./a b" trickyAdditions)

theorem trickyAdditions_sound : ∀ a ∈ trickyAdditions, a.Sound := by
  simp only [trickyAdditions, List.forall_mem_cons]
  refine ⟨?_, ?_, ?_, ?_, ?_, ?_, by simp⟩ <;> constructor <;> decide +kernel

end Demo

theorem shell_text_reads_back_of_tricky : Demo.trickyContainer.NulFree ∧
    (∀ a ∈ Demo.trickyAdditions, a.Sound) ∧
    ∃ line, Demo.trickyCommand.args.getLast? = some line ∧
      read line = some [.word "cd", .word "/it's mounted/b\"in", .operator "&&",
        .assignment "LANG" "C $HOME", .word "./a b", .word "", .word "-o=*.c", .word "!^#",
        .word "a\nb;'c'", .operator ">", .word "x && y"] ∧
      read Demo.trickyCommand.text = some [.word "docker", .word "run", .word "--volume",
        .word "/me/my demo:/it's mounted/", .word "--rm", .word "my image", .word "sh", .word "-c",
        .word line] := by
  have hc : Demo.trickyContainer.NulFree := ⟨by decide, by decide, by decide⟩
  exact ⟨hc, Demo.trickyAdditions_sound, shell_text_reads_back.1 Demo.trickyContainer
    ⟨"/me/my demo"⟩ (some "b\"in") "./a b" Demo.trickyAdditions hc (by decide)
    (by simp; decide) (by decide) Demo.trickyAdditions_sound⟩

end TraceWorkbench

import Mathlib.Data.List.Nodup
import Mathlib.Data.Set.Insert
import TraceWorkbench.Config
import TraceWorkbench.Proofs.RecordTexts

set_option autoImplicit false

/-!
# Partial configurations

A text that mentions some settings gives a configuration that has them, and the default for every
other setting. A default stands in two places, with the field and in the default configuration, and
which of them counts depends on what else is mentioned; so both have to be the same.
-/
namespace TraceWorkbench

namespace Json

theorem reads_path (p : Path) : Reads Path.decoder p.toJson p := by
  intro pad t rest hpad ht
  rw [Path.decoder, pathString, reads_stringCalled _ p.text hpad ht]
  rfl

/-- A setting of a record: how it is got and put, and under which key it is written and read. -/
structure Setting (σ : Type) where
  {α : Type}
  key : String
  get : σ → α
  put : α → σ → σ
  write : α → Value
  decoder : Decoder α
  get_put : ∀ a r, get (put a r) = a
  reads : ∀ a, Reads decoder (write a) a

namespace Setting

variable {σ : Type}

def flag (key : String) (get : σ → Bool) (put : Bool → σ → σ) (h : ∀ b r, get (put b r) = b) :
    Setting σ :=
  ⟨key, get, put, .bool, boolean, h, reads_boolean⟩

def text (key : String) (get : σ → String) (put : String → σ → σ)
    (h : ∀ s r, get (put s r) = s) : Setting σ :=
  ⟨key, get, put, .string, string, h, reads_stringCalled _⟩

def path (key : String) (get : σ → Path) (put : Path → σ → σ) (h : ∀ p r, get (put p r) = p) :
    Setting σ :=
  ⟨key, get, put, Path.toJson, Path.decoder, h, reads_path⟩

def member (s : Setting σ) (c : σ) : String × Value := (s.key, s.write (s.get c))

def copy (s : Setting σ) (c r : σ) : σ := s.put (s.get c) r

end Setting

/-- Settings under different keys that do not touch each other, each with its field among fields
that may all be missing. -/
structure ReadBy {ι σ : Type} (fields : List (Field σ)) (setting : ι → Setting σ) : Prop where
  keys : Function.Injective fun i => (setting i).key
  get_put_other : ∀ {i j}, j ≠ i → ∀ a r, (setting i).get ((setting j).put a r) = (setting i).get r
  lookedUp : ∀ i, fields.find? (fun f => f.name == (setting i).key) =
    some (.of (setting i).key false (setting i).decoder (setting i).put)
  optional : ∀ f ∈ fields, f.required = false

theorem ReadBy.hasField {ι σ : Type} {fields : List (Field σ)} {setting : ι → Setting σ}
    (h : ReadBy fields setting) (i : ι) (c : σ) :
    HasField fields ((setting i).member c) ((setting i).copy c) :=
  ⟨_, h.lookedUp i, reads_of ((setting i).reads _) _ _ _⟩

/-- The members for the indices in `S`, each once, in any order. -/
inductive MembersFor {ι : Type} (S : Set ι) (member : ι → String × Value) : Members → Prop where
  | listed {L : List ι} : L.Nodup → (∀ i, i ∈ L ↔ i ∈ S) → MembersFor S member (L.map member)

section

variable {ι σ : Type}

theorem foldl_copy {τ : Type} [DecidableEq ι] (get : σ → τ) (copy : ι → σ → σ) {a : τ} {i : ι}
    (hself : ∀ r, get (copy i r) = a) (hother : ∀ j, j ≠ i → ∀ r, get (copy j r) = get r)
    (L : List ι) (r : σ) :
    get (L.foldl (fun r j => copy j r) r) = if i ∈ L then a else get r := by
  induction L generalizing r with
  | nil => simp
  | cons j L ih =>
    rw [List.foldl_cons, ih]
    by_cases hj : j = i
    · subst hj
      simp [hself]
    · simp [hother j hj, Ne.symm hj]

/-- `r` has the settings in `S` as `c` has them, and the others as `start` has them. -/
def Overridden (setting : ι → Setting σ) (S : Set ι) (c start r : σ) : Prop :=
  ∀ i, (i ∈ S → (setting i).get r = (setting i).get c) ∧
    (i ∉ S → (setting i).get r = (setting i).get start)

section

variable {setting : ι → Setting σ} {S : Set ι} {c start : σ}

/-- A record is read with the settings that the object mentions, and keeps the others. -/
theorem reads_settings [DecidableEq ι] {fields : List (Field σ)} {ms : Members}
    (hfields : ReadBy fields setting) (h : MembersFor S (fun i => (setting i).member c) ms)
    (name : String) (start : σ) :
    ∃ r, Reads (record name start fields) (.object ms) r ∧ Overridden setting S c start r := by
  cases h with
  | @listed L hnodup hmem =>
    refine ⟨_, reads_record name start hfields.optional (fun i _ => hfields.hasField i c)
      (List.Nodup.map hfields.keys hnodup), fun i => ?_⟩
    rw [foldl_copy (setting i).get (fun j => (setting j).copy c)
      (fun r => (setting i).get_put _ r) (fun j hj r => hfields.get_put_other hj _ r)]
    constructor
    · intro hi
      rw [if_pos ((hmem i).2 hi)]
    · intro hi
      rw [if_neg (hi ∘ (hmem i).1)]

theorem overridden_of_part {present : Prop} [Decidable present] {part read : σ}
    (hpart : part = if present then read else start) (hpresent : (∃ i, i ∈ S) → present)
    (hread : Overridden setting S c start read) : Overridden setting S c start part := by
  by_cases h : present
  · rwa [hpart, if_pos h]
  · rw [hpart, if_neg h]
    exact fun i => ⟨fun hi => absurd (hpresent ⟨i, hi⟩) h, fun _ => rfl⟩

end

theorem exists_membersFor {all : List ι} (hnodup : all.Nodup) (hall : ∀ i, i ∈ all) (S : Set ι)
    (member : ι → String × Value) : ∃ ms, MembersFor S member ms := by
  classical
  exact ⟨_, .listed (hnodup.filter (· ∈ S)) fun i => by simp [hall i]⟩

theorem MembersFor.written {S : Set ι} {member : ι → String × Value} {ms : Members}
    (h : MembersFor S member ms) (hwritten : ∀ i, Written (member i).2) :
    Written (.object ms) := by
  cases h with
  | listed _ _ =>
    refine written_object fun m hm => ?_
    obtain ⟨i, -, rfl⟩ := List.mem_map.1 hm
    exact hwritten i

end

end Json

/-! The settings of the records -/

inductive ContainerConfig.Leaf where
  | docker | image | name | mountPoint | llvmBin | instrumentDir | compilerJar | server
  deriving DecidableEq

inductive TraceFormatting.Leaf where
  | variableValues | functionCalls
  deriving DecidableEq

namespace ContainerConfig

def setting : Leaf → Json.Setting ContainerConfig
  | .docker => .path "docker" (·.docker) (fun p c => { c with docker := p }) fun _ _ => rfl
  | .image => .text "image" (·.image) (fun s c => { c with image := s }) fun _ _ => rfl
  | .name => .text "name" (·.name) (fun s c => { c with name := s }) fun _ _ => rfl
  | .mountPoint =>
    .text "mount_point" (·.mountPoint) (fun s c => { c with mountPoint := s }) fun _ _ => rfl
  | .llvmBin => .text "llvm_bin" (·.llvmBin) (fun s c => { c with llvmBin := s }) fun _ _ => rfl
  | .instrumentDir =>
    .text "instrument_dir" (·.instrumentDir) (fun s c => { c with instrumentDir := s })
      fun _ _ => rfl
  | .compilerJar =>
    .text "compiler_jar" (·.compilerJar) (fun s c => { c with compilerJar := s }) fun _ _ => rfl
  | .server => .text "server" (·.server) (fun s c => { c with server := s }) fun _ _ => rfl

theorem settings_readBy : Json.ReadBy fields setting where
  keys := by rintro ⟨⟩ ⟨⟩ h <;> first | rfl | exact absurd h (by decide)
  get_put_other := by rintro ⟨⟩ ⟨⟩ h a r <;> first | rfl | exact absurd rfl h
  lookedUp := by rintro ⟨⟩ <;> rfl
  optional := by decide

theorem unmentioned_eq : unmentioned = {} := rfl

def sortedLeaves : List Leaf :=
  [.compilerJar, .docker, .image, .instrumentDir, .llvmBin, .mountPoint, .name, .server]

theorem nodup_sortedLeaves : sortedLeaves.Nodup := by
  decide

theorem mem_sortedLeaves (leaf : Leaf) : leaf ∈ sortedLeaves := by
  cases leaf <;> decide

theorem written_setting (c : ContainerConfig) (leaf : Leaf) :
    Json.Written ((setting leaf).member c).2 := by
  cases leaf <;> exact Json.written_string _

theorem eq_of_settings {a b : ContainerConfig}
    (h : ∀ leaf, (setting leaf).get a = (setting leaf).get b) : a = b := by
  have hdocker : a.docker = b.docker := h .docker
  have himage : a.image = b.image := h .image
  have hname : a.name = b.name := h .name
  have hmountPoint : a.mountPoint = b.mountPoint := h .mountPoint
  have hllvmBin : a.llvmBin = b.llvmBin := h .llvmBin
  have hinstrumentDir : a.instrumentDir = b.instrumentDir := h .instrumentDir
  have hcompilerJar : a.compilerJar = b.compilerJar := h .compilerJar
  have hserver : a.server = b.server := h .server
  cases a
  cases b
  simp_all

end ContainerConfig

namespace TraceFormatting

def setting : Leaf → Json.Setting TraceFormatting
  | .variableValues =>
    .text "variable_values" (·.variableValues) (fun s c => { c with variableValues := s })
      fun _ _ => rfl
  | .functionCalls =>
    .text "function_calls" (·.functionCalls) (fun s c => { c with functionCalls := s })
      fun _ _ => rfl

theorem settings_readBy : Json.ReadBy fields setting where
  keys := by rintro ⟨⟩ ⟨⟩ h <;> first | rfl | exact absurd h (by decide)
  get_put_other := by rintro ⟨⟩ ⟨⟩ h a r <;> first | rfl | exact absurd rfl h
  lookedUp := by rintro ⟨⟩ <;> rfl
  optional := by decide

theorem unmentioned_eq : unmentioned = {} := rfl

def sortedLeaves : List Leaf := [.functionCalls, .variableValues]

theorem nodup_sortedLeaves : sortedLeaves.Nodup := by
  decide

theorem mem_sortedLeaves (leaf : Leaf) : leaf ∈ sortedLeaves := by
  cases leaf <;> decide

theorem written_setting (c : TraceFormatting) (leaf : Leaf) :
    Json.Written ((setting leaf).member c).2 := by
  cases leaf <;> exact Json.written_string _

theorem eq_of_settings {a b : TraceFormatting}
    (h : ∀ leaf, (setting leaf).get a = (setting leaf).get b) : a = b := by
  have hvariableValues : a.variableValues = b.variableValues := h .variableValues
  have hfunctionCalls : a.functionCalls = b.functionCalls := h .functionCalls
  cases a
  cases b
  simp_all

end TraceFormatting

namespace ToolchainConfig

/-- The settings that do not belong to a part. -/
inductive Own where
  | useDocker | clangPath | libInstrumentFunctions | tesslaCompiler | tesslaServer | javaPath
  deriving DecidableEq

inductive Leaf where
  | own (o : Own)
  | container (leaf : ContainerConfig.Leaf)
  | formatting (leaf : TraceFormatting.Leaf)
  deriving DecidableEq

/-- What a member of the object is for: a setting or one of the two parts. -/
inductive Entry where
  | own (o : Own)
  | container
  | formatting
  deriving DecidableEq

def setting : Own → Json.Setting ToolchainConfig
  | .useDocker =>
    .flag "use_docker" (·.useDocker) (fun b c => { c with useDocker := b }) fun _ _ => rfl
  | .clangPath =>
    .path "clang_path" (·.clangPath) (fun p c => { c with clangPath := p }) fun _ _ => rfl
  | .libInstrumentFunctions =>
    .path "lib_instrument_functions" (·.libInstrumentFunctions)
      (fun p c => { c with libInstrumentFunctions := p }) fun _ _ => rfl
  | .tesslaCompiler =>
    .path "tessla_compiler" (·.tesslaCompiler) (fun p c => { c with tesslaCompiler := p })
      fun _ _ => rfl
  | .tesslaServer =>
    .path "tessla_server" (·.tesslaServer) (fun p c => { c with tesslaServer := p })
      fun _ _ => rfl
  | .javaPath => .path "java_path" (·.javaPath) (fun p c => { c with javaPath := p }) fun _ _ => rfl

def Leaf.Same (a b : ToolchainConfig) : Leaf → Prop
  | own o => (setting o).get a = (setting o).get b
  | container leaf =>
    (ContainerConfig.setting leaf).get a.container = (ContainerConfig.setting leaf).get b.container
  | formatting leaf =>
    (TraceFormatting.setting leaf).get a.formatting =
      (TraceFormatting.setting leaf).get b.formatting

def Entry.key : Entry → String
  | own o => (setting o).key
  | container => "container"
  | formatting => "formatting"

section

variable (c : ToolchainConfig) (container formatting : Json.Members)

def Entry.value : Entry → Json.Value
  | .own o => ((setting o).member c).2
  | .container => .object container
  | .formatting => .object formatting

def Entry.member (e : Entry) : String × Json.Value := (e.key, e.value c container formatting)

end

/-- The object of these members mentions just the settings in `S`, as `c` has them. A part may be
missing if nothing in it is mentioned. -/
inductive Mentions (S : Set Leaf) (c : ToolchainConfig) : Json.Members → Prop where
  | listed {entries : List Entry} {container formatting : Json.Members} : entries.Nodup →
      (∀ o, .own o ∈ entries ↔ .own o ∈ S) →
      ((∃ leaf, .container leaf ∈ S) → .container ∈ entries) →
      ((∃ leaf, .formatting leaf ∈ S) → .formatting ∈ entries) →
      Json.MembersFor {leaf | .container leaf ∈ S}
        (fun leaf => (ContainerConfig.setting leaf).member c.container) container →
      Json.MembersFor {leaf | .formatting leaf ∈ S}
        (fun leaf => (TraceFormatting.setting leaf).member c.formatting) formatting →
      Mentions S c (entries.map (Entry.member c container formatting))

section

variable {c r : ToolchainConfig} {k : ContainerConfig} {f : TraceFormatting}
  {container formatting ms : Json.Members}

theorem Entry.key_injective : Function.Injective key := by
  rintro (⟨⟨⟩⟩ | _ | _) (⟨⟨⟩⟩ | _ | _) h <;> first | rfl | exact absurd h (by decide)

theorem settings_readBy : Json.ReadBy fields setting where
  keys := by rintro ⟨⟩ ⟨⟩ h <;> first | rfl | exact absurd h (by decide)
  get_put_other := by rintro ⟨⟩ ⟨⟩ h a r <;> first | rfl | exact absurd rfl h
  lookedUp := by rintro ⟨⟩ <;> rfl
  optional := by decide

theorem unmentioned_eq : unmentioned = {} := rfl

theorem eq_of_leaves {a b : ToolchainConfig} (h : ∀ leaf : Leaf, leaf.Same a b) : a = b := by
  have huseDocker : a.useDocker = b.useDocker := h (.own .useDocker)
  have hclangPath : a.clangPath = b.clangPath := h (.own .clangPath)
  have hlibInstrumentFunctions : a.libInstrumentFunctions = b.libInstrumentFunctions :=
    h (.own .libInstrumentFunctions)
  have htesslaCompiler : a.tesslaCompiler = b.tesslaCompiler := h (.own .tesslaCompiler)
  have htesslaServer : a.tesslaServer = b.tesslaServer := h (.own .tesslaServer)
  have hjavaPath : a.javaPath = b.javaPath := h (.own .javaPath)
  have hcontainer : a.container = b.container :=
    ContainerConfig.eq_of_settings fun leaf => h (.container leaf)
  have hformatting : a.formatting = b.formatting :=
    TraceFormatting.eq_of_settings fun leaf => h (.formatting leaf)
  cases a
  cases b
  simp_all

/-- `r` with the entry of `c`, or with the part that was read. -/
def Entry.copy (c : ToolchainConfig) (k : ContainerConfig) (f : TraceFormatting) (e : Entry)
    (r : ToolchainConfig) : ToolchainConfig :=
  match e with
  | .own o => (setting o).copy c r
  | .container => { r with container := k }
  | .formatting => { r with formatting := f }

theorem Entry.hasField (hcontainer : Json.Reads ContainerConfig.decoder (.object container) k)
    (hformatting : Json.Reads TraceFormatting.decoder (.object formatting) f) (e : Entry) :
    Json.HasField fields (e.member c container formatting) (e.copy c k f) := by
  cases e with
  | own o => exact settings_readBy.hasField o c
  | container => exact ⟨_, rfl, Json.reads_of hcontainer _ _ _⟩
  | formatting => exact ⟨_, rfl, Json.reads_of hformatting _ _ _⟩

theorem Entry.get_copy_self (o : Own) (r : ToolchainConfig) :
    (setting o).get ((Entry.own o).copy c k f r) = (setting o).get c :=
  (setting o).get_put _ r

theorem Entry.get_copy_other {o : Own} {e : Entry} (h : e ≠ .own o) (r : ToolchainConfig) :
    (setting o).get (e.copy c k f r) = (setting o).get r := by
  cases e with
  | own other =>
    have hother : other ≠ o := fun heq => h (congrArg Entry.own heq)
    exact settings_readBy.get_put_other hother _ r
  | container => cases o <;> rfl
  | formatting => cases o <;> rfl

theorem Entry.container_copy_other {e : Entry} (h : e ≠ .container) (r : ToolchainConfig) :
    (e.copy c k f r).container = r.container := by
  cases e with
  | own o => cases o <;> rfl
  | container => exact absurd rfl h
  | formatting => rfl

theorem Entry.formatting_copy_other {e : Entry} (h : e ≠ .formatting) (r : ToolchainConfig) :
    (e.copy c k f r).formatting = r.formatting := by
  cases e with
  | own o => cases o <;> rfl
  | container => rfl
  | formatting => exact absurd rfl h

/-- What is mentioned is read, and everything else is the default. -/
theorem Mentions.reads {S : Set Leaf} (h : Mentions S c ms) :
    ∃ r, Json.Reads decoder (.object ms) r ∧
      ∀ leaf : Leaf, (leaf ∈ S → leaf.Same r c) ∧ (leaf ∉ S → leaf.Same r {}) := by
  cases h with
  | @listed entries container formatting hnodup hown hcontainer hformatting hinside hformats =>
    obtain ⟨k, hreadsContainer, hk⟩ := Json.reads_settings ContainerConfig.settings_readBy
      hinside "ContainerConfig" ContainerConfig.unmentioned
    obtain ⟨f, hreadsFormatting, hf⟩ := Json.reads_settings TraceFormatting.settings_readBy
      hformats "TraceFormatting" TraceFormatting.unmentioned
    rw [ContainerConfig.unmentioned_eq] at hk
    rw [TraceFormatting.unmentioned_eq] at hf
    refine ⟨_, Json.reads_record "ToolchainConfig" unmentioned settings_readBy.optional
      (fun e _ => e.hasField hreadsContainer hreadsFormatting)
      (List.Nodup.map Entry.key_injective hnodup), fun leaf => ?_⟩
    rw [unmentioned_eq]
    cases leaf with
    | own o =>
      have hget := Json.foldl_copy (setting o).get (Entry.copy c k f)
        (Entry.get_copy_self o) (fun _ => Entry.get_copy_other) entries {}
      constructor
      · intro ho
        exact hget.trans (if_pos ((hown o).2 ho))
      · intro ho
        exact hget.trans (if_neg (ho ∘ (hown o).1))
    | container leaf =>
      have hget := Json.foldl_copy (·.container) (Entry.copy c k f) (fun _ => rfl)
        (fun _ => Entry.container_copy_other) entries {}
      exact Json.overridden_of_part hget hcontainer hk leaf
    | formatting leaf =>
      have hget := Json.foldl_copy (·.formatting) (Entry.copy c k f) (fun _ => rfl)
        (fun _ => Entry.formatting_copy_other) entries {}
      exact Json.overridden_of_part hget hformatting hf leaf

theorem Mentions.written {S : Set Leaf} (h : Mentions S c ms) : Json.Written (.object ms) := by
  cases h with
  | listed _ _ _ _ hcontainer hformatting =>
    refine Json.written_object fun m hm => ?_
    obtain ⟨e, -, rfl⟩ := List.mem_map.1 hm
    cases e with
    | own o =>
      cases o with
      | useDocker => exact Json.written_bool _
      | _ => exact Json.written_string _
    | container => exact hcontainer.written (ContainerConfig.written_setting _)
    | formatting => exact hformatting.written (TraceFormatting.written_setting _)

theorem Mentions.parse {S : Set Leaf} {text : String} (h : Mentions S c ms)
    (ht : Json.DocumentText (.object ms) text) :
    ∃ r, ToolchainConfig.parse text = .ok r ∧
      ∀ leaf : Leaf, (leaf ∈ S → leaf.Same r c) ∧ (leaf ∉ S → leaf.Same r {}) := by
  obtain ⟨r, hreads, hleaves⟩ := h.reads
  exact ⟨r, hreads.decode ht, hleaves⟩

/-- The entries in the order of their keys. -/
def sortedEntries : List Entry := [.own .clangPath, .container, .formatting, .own .javaPath,
  .own .libInstrumentFunctions, .own .tesslaCompiler, .own .tesslaServer, .own .useDocker]

theorem nodup_sortedEntries : sortedEntries.Nodup := by
  decide

theorem mem_sortedEntries (e : Entry) : e ∈ sortedEntries := by
  rcases e with (⟨⟨⟩⟩ | _ | _) <;> decide

theorem exists_mentions (c : ToolchainConfig) (S : Set Leaf) : ∃ ms, Mentions S c ms := by
  classical
  obtain ⟨container, hcontainer⟩ := Json.exists_membersFor
    ContainerConfig.nodup_sortedLeaves ContainerConfig.mem_sortedLeaves
    {leaf | Leaf.container leaf ∈ S} fun leaf => (ContainerConfig.setting leaf).member c.container
  obtain ⟨formatting, hformatting⟩ := Json.exists_membersFor
    TraceFormatting.nodup_sortedLeaves TraceFormatting.mem_sortedLeaves
    {leaf | Leaf.formatting leaf ∈ S} fun leaf => (TraceFormatting.setting leaf).member c.formatting
  have hentries := nodup_sortedEntries.filter fun e => ∀ o, e = .own o → .own o ∈ S
  refine ⟨_, .listed hentries ?_ ?_ ?_ hcontainer hformatting⟩
  all_goals simp [mem_sortedEntries]

theorem toJson_mentions (c : ToolchainConfig) :
    ∃ ms, c.toJson = .object ms ∧ Mentions Set.univ c ms := by
  have hcontainer : Json.MembersFor {leaf | Leaf.container leaf ∈ Set.univ}
      (fun leaf => (ContainerConfig.setting leaf).member c.container) _ :=
    .listed ContainerConfig.nodup_sortedLeaves
      fun leaf => by simp [ContainerConfig.mem_sortedLeaves]
  have hformatting : Json.MembersFor {leaf | Leaf.formatting leaf ∈ Set.univ}
      (fun leaf => (TraceFormatting.setting leaf).member c.formatting) _ :=
    .listed TraceFormatting.nodup_sortedLeaves
      fun leaf => by simp [TraceFormatting.mem_sortedLeaves]
  refine ⟨_, ?_, .listed nodup_sortedEntries (by simp [mem_sortedEntries])
    (fun _ => mem_sortedEntries _) (fun _ => mem_sortedEntries _) hcontainer hformatting⟩
  rfl

end

end ToolchainConfig

open ToolchainConfig in
/-- Some settings of a configuration, whichever, can be mentioned by an object, and any text of an
object that mentions them, in any order, is read as the configuration that has these settings and
the default for all others. The settings are all that makes a configuration; so what mentions all of
them, as what is written of it does, is read as the configuration itself. -/
theorem mentioned_settings_override_defaults :
    (∀ (c : ToolchainConfig) (S : Set Leaf), (∃ ms, Mentions S c ms) ∧
      ∀ (ms : Json.Members) (text : String), Mentions S c ms →
        Json.DocumentText (.object ms) text →
        ∃ r, ToolchainConfig.parse text = .ok r ∧
          ∀ leaf : Leaf, (leaf ∈ S → leaf.Same r c) ∧ (leaf ∉ S → leaf.Same r {})) ∧
    (∀ a b : ToolchainConfig, (∀ leaf : Leaf, leaf.Same a b) → a = b) ∧
    (∀ (c : ToolchainConfig) (ms : Json.Members), Mentions Set.univ c ms →
      ToolchainConfig.parse (Json.Value.object ms).text = .ok c ∧
        ToolchainConfig.parse (Json.Value.object ms).indentedText = .ok c) ∧
    ∀ c : ToolchainConfig, ∃ ms, c.toJson = .object ms ∧ Mentions Set.univ c ms := by
  have hall : ∀ (c : ToolchainConfig) (ms : Json.Members) (text : String),
      Mentions Set.univ c ms → Json.DocumentText (.object ms) text →
      ToolchainConfig.parse text = .ok c := by
    intro c ms text h ht
    obtain ⟨r, hparse, hleaves⟩ := h.parse ht
    have hr : r = c := eq_of_leaves fun leaf => (hleaves leaf).1 (Set.mem_univ leaf)
    rw [hparse, hr]
  refine ⟨fun c S => ⟨exists_mentions c S, fun ms text h ht => h.parse ht⟩,
    fun a b => eq_of_leaves, fun c ms h => ?_, toJson_mentions⟩
  exact ⟨hall c ms _ h h.written.text, hall c ms _ h h.written.indentedText⟩

namespace Demo

open ToolchainConfig

def renamed : ToolchainConfig := {
  useDocker := true
  clangPath := ⟨"/opt/llvm/bin/clang"⟩
  container := { image := "tessla:2", name := "other" } }

def mentioned : Set Leaf := {.own .useDocker, .own .clangPath, .container .image}

def mentionedText : String :=
  "\x7b\"use_docker\":true,\"container\":\x7b\"image\":\"tessla:2\"\x7d," ++
    "\"clang_path\":\"/opt/llvm/bin/clang\"\x7d"

theorem renamed_mentions : ∃ ms, Mentions mentioned renamed ms ∧
    (Json.Value.object ms).text = mentionedText := by
  have hcontainer : Json.MembersFor {leaf | Leaf.container leaf ∈ mentioned}
      (fun leaf => (ContainerConfig.setting leaf).member renamed.container) _ :=
    .listed (L := [.image]) (by decide) fun leaf => by simp [mentioned]
  have hformatting : Json.MembersFor {leaf | Leaf.formatting leaf ∈ mentioned}
      (fun leaf => (TraceFormatting.setting leaf).member renamed.formatting) _ :=
    .listed (L := []) (by decide) fun leaf => by simp [mentioned]
  have hentries : [Entry.own .useDocker, .container, .own .clangPath].Nodup := by decide
  refine ⟨_, .listed hentries (fun o => by simp [mentioned]) (by simp) (by simp [mentioned])
    hcontainer hformatting, ?_⟩
  decide +kernel

end Demo

open ToolchainConfig in
theorem mentioned_settings_override_defaults_of_renamed :
    ∃ r, ToolchainConfig.parse Demo.mentionedText = .ok r ∧ r.useDocker = true ∧
      r.clangPath = ⟨"/opt/llvm/bin/clang"⟩ ∧ r.container.image = "tessla:2" ∧
      r.container.name = "tessla" ∧ r.tesslaServer = ToolchainConfig.defaultTesslaServer := by
  obtain ⟨ms, hmentions, htext⟩ := Demo.renamed_mentions
  have hdocument : Json.DocumentText (.object ms) Demo.mentionedText :=
    htext ▸ hmentions.written.text
  obtain ⟨hpartial, -⟩ := mentioned_settings_override_defaults
  obtain ⟨r, hparse, hleaves⟩ := (hpartial _ _).2 ms _ hmentions hdocument
  refine ⟨r, hparse, (hleaves (.own .useDocker)).1 ?_, (hleaves (.own .clangPath)).1 ?_,
    (hleaves (.container .image)).1 ?_, (hleaves (.container .name)).2 ?_,
    (hleaves (.own .tesslaServer)).2 ?_⟩
  all_goals simp [Demo.mentioned]

end TraceWorkbench

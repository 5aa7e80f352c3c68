import TraceWorkbench.Proofs.CompiledOutput
import TraceWorkbench.Proofs.DocumentOrder

set_option autoImplicit false

/-!
# The outputs that the server is asked for

A document lists its streams as items. What an item has to say so that the server is asked for its
stream is said here without the search; the server gets one selector for each item that says it.
-/
namespace TraceWorkbench

namespace Json

theorem Number.text_ne_nil (n : Number) : n.text ≠ [] := by
  cases n with
  | int k =>
    cases k with
    | ofNat m =>
      have htext : (Number.int (Int.ofNat m)).text = Nat.toDigits 10 m := Nat.toList_repr
      rw [htext]
      exact Nat.toDigits_ne_nil
    | negSucc m =>
      have htext : (Number.int (Int.negSucc m)).text = ("-" ++ Nat.repr (m + 1)).toList := rfl
      simp [htext]
  | double bits =>
    have hdecimal : ∀ g, decimalText g ≠ [] := by
      intro g
      unfold decimalText
      simp only
      split
      · split
        · simp
        · split <;> simp
      · simp
    unfold Number.text doubleText
    simp only
    split
    · simp
    · split <;> simp [hdecimal]

end Json

namespace TraceOutput

/-- A flag that does not count: nothing, no, zero or an empty text. -/
inductive Unset : Json.Value → Prop where
  | null : Unset .null
  | no : Unset (.bool false)
  | zero : Unset (.number (.int 0))
  | positiveZero : Unset (.number (.double 0))
  | negativeZero : Unset (.number (.double 0x8000000000000000))
  | emptyText : Unset (.string "")

/-- The item is marked as an output and has the name. -/
structure Marked (item : Json.Value) (name : String) : Prop where
  flag : ∃ flag, item.get? "out" = some flag ∧ ¬ Unset flag
  called : item.get? "name" = some (.string name)
  name_ne : name ≠ ""

inductive OwnId (item : Json.Value) : String → Prop where
  | number {n : Json.Number} : item.get? "id" = some (.number n) →
      OwnId item (String.ofList n.text)
  | text {s : String} : item.get? "id" = some (.string s) → s ≠ "" → OwnId item s

/-- The id of an item: its own one, or else its key. -/
inductive IdOf (key : Option String) (item : Json.Value) : String → Prop where
  | own {id : String} : OwnId item id → IdOf key item id
  | key {id : String} : (∀ other, ¬ OwnId item other) → key = some id → IdOf key item id

/-- The item asks for an output by a name and an id that are not empty. -/
structure Asks (key : Option String) (item : Json.Value) (o : TraceOutput) : Prop where
  marked : Marked item o.streamName
  id : IdOf key item o.streamId
  id_ne : o.streamId ≠ ""

/-- The items of a document in their order, with their keys if they have some. -/
inductive Items (document : Json.Value) : List (Option String × Json.Value) → Prop where
  | array {items : List Json.Value} : document.get? "items" = some (.array items) →
      Items document (items.map fun item => (none, item))
  | object {ms : Json.Members} : document.get? "items" = some (.object ms) →
      Items document (ms.map fun m => (some m.1, m.2))
  | none : (∀ items, document.get? "items" ≠ some (.array items)) →
      (∀ ms, document.get? "items" ≠ some (.object ms)) → Items document []

/-- One output for each item that asks for one, in the order of the items. -/
inductive Lists : List (Option String × Json.Value) → List TraceOutput → Prop where
  | nil : Lists [] []
  | asked {key item o items outputs} : Asks key item o → Lists items outputs →
      Lists ((key, item) :: items) (o :: outputs)
  | other {key item items outputs} : (∀ o, ¬ Asks key item o) → Lists items outputs →
      Lists ((key, item) :: items) outputs

section

variable {key : Option String} {item flag document : Json.Value} {o : TraceOutput}

theorem isSet_double_iff {bits : UInt64} :
    isSet (.number (.double bits)) = true ↔ bits ≠ 0 ∧ bits ≠ 0x8000000000000000 := by
  have hlt := bits.toNat_lt
  have hzero : bits = 0 ↔ bits.toNat = 0 := UInt64.toNat_inj.symm
  have hnegative : bits = 0x8000000000000000 ↔ bits.toNat = 2 ^ 63 := UInt64.toNat_inj.symm
  have hshift : 1 <<< 63 = 2 ^ 63 := by decide
  simp only [isSet, hshift, bne_iff_ne, ne_eq, hzero, hnegative]
  omega

theorem isSet_iff : isSet flag = true ↔ ¬ Unset flag := by
  constructor
  · intro h hunset
    cases hunset <;> simp [isSet] at h
  · intro h
    cases flag with
    | null => exact absurd .null h
    | bool b =>
      cases b with
      | false => exact absurd .no h
      | true => rfl
    | number n =>
      cases n with
      | int k =>
        by_cases hk : k = 0
        · exact absurd (hk ▸ .zero) h
        · simpa [isSet] using hk
      | double bits =>
        refine isSet_double_iff.2 ⟨?_, ?_⟩
        · rintro rfl
          exact h .positiveZero
        · rintro rfl
          exact h .negativeZero
    | string s =>
      by_cases hs : s = ""
      · exact absurd (hs ▸ .emptyText) h
      · simpa [isSet] using hs
    | array _ | object _ => rfl

theorem idText?_iff {id : String} : (item.get? "id").bind idText? = some id ↔ OwnId item id := by
  constructor
  · intro h
    obtain ⟨value, hvalue, htext⟩ := Option.bind_eq_some_iff.1 h
    cases value with
    | number n => exact Option.some.inj htext ▸ .number hvalue
    | string s =>
      rw [idText?, Option.ite_none_left_eq_some] at htext
      obtain ⟨hne, hid⟩ := htext
      obtain rfl := Option.some.inj hid
      exact .text hvalue (by simpa using hne)
    | null | bool _ | array _ | object _ => simp [idText?] at htext
  · intro h
    cases h with
    | number hvalue => rw [hvalue]; rfl
    | text hvalue hne => simp [hvalue, idText?, hne]

theorem idOf_iff {id : String} :
    ((item.get? "id").bind idText?).or key = some id ↔ IdOf key item id := by
  cases hown : (item.get? "id").bind idText? with
  | some own =>
    rw [Option.some_or]
    constructor
    · rintro h
      exact .own (Option.some.inj h ▸ idText?_iff.1 hown)
    · intro h
      cases h with
      | own hid => rw [← idText?_iff.2 hid, hown]
      | key hno _ => exact absurd (idText?_iff.1 hown) (hno own)
  | none =>
    have hno : ∀ other, ¬ OwnId item other := by
      intro other hother
      rw [idText?_iff.2 hother] at hown
      simp at hown
    rw [Option.none_or]
    constructor
    · exact .key hno
    · intro h
      cases h with
      | own hid => exact absurd hid (hno id)
      | key _ hkey => exact hkey

theorem ofItem?_eq_some_iff :
    ofItem? key item = some o ↔ Marked item o.streamName ∧ IdOf key item o.streamId := by
  constructor
  · intro h
    obtain ⟨flag, hflag, h⟩ := Option.bind_eq_some_iff.1 h
    simp only at h
    split at h
    · rename_i hcalled
      split at h
      · simp at h
      · rename_i hne
        obtain ⟨name, hname, h⟩ := Option.bind_eq_some_iff.1 h
        obtain rfl := Option.some.inj hname
        obtain ⟨id, hid, h⟩ := Option.bind_eq_some_iff.1 h
        obtain ⟨hset, ho⟩ := Option.ite_none_right_eq_some.1 h
        obtain rfl := Option.some.inj ho
        exact ⟨⟨⟨flag, hflag, isSet_iff.1 hset⟩, hcalled, by simpa using hne⟩, idOf_iff.1 hid⟩
    · simp at h
  · rintro ⟨⟨⟨flag, hflag, hset⟩, hcalled, hne⟩, hid⟩
    simp only [ofItem?, bind, hflag, hcalled, idOf_iff.2 hid, Option.bind_some,
      isSet_iff.2 hset, if_true]
    simp [hne]

theorem OwnId.ne_empty {id : String} (h : OwnId item id) : id ≠ "" := by
  cases h with
  | number _ => exact fun hempty => Json.Number.text_ne_nil _ (by simpa using hempty)
  | text _ hne => exact hne

/-- The id is empty just for an item without its own one under the empty key. -/
theorem idOf_empty_iff : IdOf key item "" ↔ (∀ id, ¬ OwnId item id) ∧ key = some "" := by
  constructor
  · intro h
    cases h with
    | own hid => exact absurd rfl hid.ne_empty
    | key hno hkey => exact ⟨hno, hkey⟩
  · rintro ⟨hno, hkey⟩
    exact .key hno hkey

theorem ofItem?_asks (h : ofItem? key item = some o) (hne : o.streamId ≠ "") :
    Asks key item o := by
  obtain ⟨hmarked, hid⟩ := ofItem?_eq_some_iff.1 h
  exact ⟨hmarked, hid, hne⟩

theorem Asks.ofItem? (h : Asks key item o) : TraceOutput.ofItem? key item = some o :=
  ofItem?_eq_some_iff.2 ⟨h.marked, h.id⟩

def ofItems (items : List (Option String × Json.Value)) : List TraceOutput :=
  items.filterMap fun item => TraceOutput.ofItem? item.1 item.2

theorem items_ofDocument (document : Json.Value) :
    ∃ items, Items document items ∧ ofDocument document = ofItems items := by
  unfold ofDocument ofItems
  cases hitems : document.get? "items" with
  | none => exact ⟨[], .none (by simp [hitems]) (by simp [hitems]), rfl⟩
  | some value =>
    cases value with
    | array items => exact ⟨_, .array hitems, by rw [List.filterMap_map]; rfl⟩
    | object ms => exact ⟨_, .object hitems, by rw [List.filterMap_map]; rfl⟩
    | null | bool _ | number _ | string _ =>
      exact ⟨[], .none (by simp [hitems]) (by simp [hitems]), rfl⟩

theorem ofItems_cons_none {items : List (Option String × Json.Value)}
    (h : ofItem? key item = none) : ofItems ((key, item) :: items) = ofItems items :=
  List.filterMap_cons_none h

theorem ofItems_cons_some {items : List (Option String × Json.Value)}
    (h : ofItem? key item = some o) : ofItems ((key, item) :: items) = o :: ofItems items :=
  List.filterMap_cons_some h

theorem lists_ofItems (items : List (Option String × Json.Value)) :
    Lists items ((ofItems items).filter fun o => o.streamId ≠ "") := by
  induction items with
  | nil => exact .nil
  | cons first items ih =>
    obtain ⟨key, item⟩ := first
    cases ho : ofItem? key item with
    | none =>
      rw [ofItems_cons_none ho]
      refine .other (fun o hasks => ?_) ih
      rw [hasks.ofItem?] at ho
      simp at ho
    | some o =>
      rw [ofItems_cons_some ho]
      by_cases hne : o.streamId = ""
      · rw [List.filter_cons_of_neg (by simpa using hne)]
        refine .other (fun other hasks => ?_) ih
        rw [hasks.ofItem?] at ho
        obtain rfl := Option.some.inj ho
        exact hasks.id_ne hne
      · rw [List.filter_cons_of_pos (by simpa using hne)]
        exact .asked (ofItem?_asks ho hne) ih

theorem Lists.id_ne {items : List (Option String × Json.Value)} {outputs : List TraceOutput}
    (h : Lists items outputs) : ∀ o ∈ outputs, o.streamId ≠ "" := by
  induction h with
  | nil => simp
  | asked hasks _ ih => exact List.forall_mem_cons.2 ⟨hasks.id_ne, ih⟩
  | other _ _ ih => exact ih

theorem mem_ofItems_iff {items : List (Option String × Json.Value)} :
    o ∈ ofItems items ↔
      ∃ key item, (key, item) ∈ items ∧ Marked item o.streamName ∧ IdOf key item o.streamId := by
  simp only [ofItems, List.mem_filterMap, Prod.exists, ofItem?_eq_some_iff]

theorem ids_ne_iff {items : List (Option String × Json.Value)} :
    (∀ o ∈ ofItems items, o.streamId ≠ "") ↔
      ∀ item name, (some "", item) ∈ items → Marked item name → ∃ id, OwnId item id := by
  constructor
  · intro h item name hmem hmarked
    by_contra hno
    have hid : IdOf (some "") item "" := idOf_empty_iff.2 ⟨not_exists.1 hno, rfl⟩
    exact h ⟨"", name⟩ (mem_ofItems_iff.2 ⟨_, _, hmem, hmarked, hid⟩) rfl
  · intro h o ho hempty
    obtain ⟨key, item, hmem, hmarked, hid⟩ := mem_ofItems_iff.1 ho
    rw [hempty] at hid
    obtain ⟨hno, rfl⟩ := idOf_empty_iff.1 hid
    obtain ⟨id, hown⟩ := h item _ hmem hmarked
    exact hno id hown

end

theorem selectors_of_plan {S : Setting} {t : FileTree} {plan : Plan} {json : Path} {text : String}
    {document : Json.Value} (hplan : Stage.runVerificationServer.plan S t = .ok plan)
    (hinput : plan.input = some json) (hread : t.readText json = .ok text)
    (hparse : Json.parse text = .ok document)
    (hnul : S.mode = .inContainer → plan.command.NulFree) :
    ∃ i, plan.command.call? S.mode = some i ∧
      i.words.drop 3 = (ofDocument document).flatMap fun o => ["-o", o.selector] := by
  obtain ⟨served, hserves⟩ := Stage.serverPlan_serves hplan
  obtain ⟨outputs, houtputs, hcommand⟩ := hserves.command
  obtain rfl : served = json := Option.some.inj (hserves.input.symm.trans hinput)
  obtain rfl : ofDocument document = outputs :=
    Except.ok.inj ((Stage.readOutputs_of_written hread hparse).symm.trans houtputs)
  rw [hcommand] at hnul ⊢
  exact Stage.selectors_of_serverCommand hnul

end TraceOutput

open TraceOutput in
/-- Of the outputs of a document those with an id are just those that its items ask for, one for
each such item, in the order of the items, and all have a name. The others come from an item without
an id of its own under the empty key, which then stands for the id. In a document that is read the
items of an object are in the order of their keys, and the server that reads it gets these outputs,
each with its id and its name on both sides of a colon. -/
theorem outputs_identified_unless_key_empty (document : Json.Value) :
    ∃ items, Items document items ∧
      Lists items ((ofDocument document).filter fun o => o.streamId ≠ "") ∧
      (∀ o ∈ ofDocument document, o.streamName ≠ "") ∧
      ((∀ o ∈ ofDocument document, o.streamId ≠ "") ↔
        ∀ item name, (some "", item) ∈ items → Marked item name → ∃ id, OwnId item id) ∧
      ∀ text, Json.parse text = .ok document →
        (∀ ms, document.get? "items" = some (.object ms) → Json.Members.Ordered ms) ∧
        ∀ S t plan json, Stage.runVerificationServer.plan S t = .ok plan →
          plan.input = some json → t.readText json = .ok text →
          (S.mode = .inContainer → plan.command.NulFree) →
          ∃ i, plan.command.call? S.mode = some i ∧
            i.words.drop 3 = (ofDocument document).flatMap fun o =>
              ["-o", o.streamId ++ ":" ++ o.streamName] := by
  obtain ⟨items, hitems, houtputs⟩ := items_ofDocument document
  refine ⟨items, hitems, ?_, ?_, ?_, ?_⟩
  · rw [houtputs]
    exact lists_ofItems items
  · intro o ho
    rw [houtputs] at ho
    obtain ⟨_, _, -, hmarked, -⟩ := mem_ofItems_iff.1 ho
    exact hmarked.name_ne
  · rw [houtputs]
    exact ids_ne_iff
  · intro text hparse
    refine ⟨fun ms hms => ?_, ?_⟩
    · have hordered := (Json.ordered_of_parse hparse).get? hms
      cases hordered with
      | object hms _ => exact hms
    · intro S t plan json hplan hinput hread hnul
      exact selectors_of_plan hplan hinput hread hparse hnul

namespace Demo

def keyedItems : String :=
  "\x7b\"items\":\x7b\"\":\x7b\"name\":\"x\",\"out\":true\x7d," ++
    "\"7\":\x7b\"name\":\"y\",\"out\":1\x7d\x7d\x7d"

def keyed : FileTree := tree [("instrumented_demo.tessla.json", .file keyedItems.utf8Bytes false)]

def keyedPlan : Plan := {
  command := Stage.serverCommand inDocker inDocker.project.compiledSpec [⟨"", "x"⟩, ⟨"7", "y"⟩]
  input := some inDocker.project.compiledSpec }

theorem keyedPlan_nulFree : keyedPlan.command.NulFree := by
  constructor <;> decide +kernel

theorem inDocker_outputDir : inDocker.project.outputDir = ⟨"/demo/build"⟩ := by
  decide +kernel

theorem inDocker_compiledSpec :
    inDocker.project.compiledSpec = ⟨"/demo/build/instrumented_demo.tessla.json"⟩ := by
  decide +kernel

theorem keyed_found :
    Scan.compiledSpecs keyed inDocker.project.outputDir = [inDocker.project.compiledSpec] := by
  rw [inDocker_outputDir, inDocker_compiledSpec]
  decide +kernel

theorem keyed_read : keyed.readText inDocker.project.compiledSpec = .ok keyedItems := by
  refine FileTree.readText_of_readBytes ?_
  rw [inDocker_compiledSpec]
  decide +kernel

theorem keyedItems_outputs :
    (Json.parse keyedItems).toOption.map TraceOutput.ofDocument = some [⟨"", "x"⟩, ⟨"7", "y"⟩] := by
  decide +kernel

end Demo

theorem outputs_identified_of_keyed : ∃ document i,
    Json.parse Demo.keyedItems = .ok document ∧
    Demo.keyedPlan.command.call? .inContainer = some i ∧
    i.words.drop 3 = ["-o", ":x", "-o", "7:y"] := by
  have hlisted := Demo.keyedItems_outputs
  have hread := Demo.keyed_read
  cases hparse : Json.parse Demo.keyedItems with
  | error e => simp [hparse, Except.toOption] at hlisted
  | ok document =>
    rw [hparse] at hlisted
    have houtputs := Option.some.inj hlisted
    have hplan := Stage.serverPlan_of_only (fun honHost => absurd honHost (by decide))
      Demo.keyed_found (Stage.readOutputs_of_written hread hparse)
    rw [houtputs] at hplan
    obtain ⟨_, -, -, -, -, hserved⟩ := outputs_identified_unless_key_empty document
    obtain ⟨i, hcall, hwords⟩ := (hserved _ hparse).2 _ _ Demo.keyedPlan _ hplan rfl hread
      fun _ => Demo.keyedPlan_nulFree
    rw [houtputs] at hwords
    exact ⟨document, i, rfl, hcall, hwords⟩

open TraceOutput in
/-- An item without an id under an empty key asks for nothing, but it is listed. -/
theorem empty_key_stands_for_id :
    let item : Json.Value := .object [("name", .string "x"), ("out", .bool true)]
    let document : Json.Value := .object [("items", .object [("", item)])]
    ofDocument document = [⟨"", "x"⟩] ∧ (⟨"", "x"⟩ : TraceOutput).selector = ":x" ∧
      ∀ items, ¬ Lists items (ofDocument document) := by
  intro item document
  have hlisted : ofDocument document = [⟨"", "x"⟩] := by decide +kernel
  refine ⟨hlisted, by decide +kernel, fun items hlists => ?_⟩
  rw [hlisted] at hlists
  exact hlists.id_ne _ (List.mem_singleton_self _) rfl

end TraceWorkbench

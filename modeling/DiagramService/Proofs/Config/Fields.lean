import Mathlib
import DiagramService.Config.Environment
import DiagramService.Proofs.Text.Decimal
import DiagramService.Proofs.Yaml.Tree

/-! A configuration file is taken as a whole. What it configures depends on the values of the known
keys only: not on their order, nor on anything that stands under other keys. -/

namespace DiagramService

open Yaml

/-! ## What nodes mean to settings -/

namespace Yaml.Node

/-- The text of a scalar. -/
def text? : Node → Option String
  | .scalar content => some (String.ofList content.text)
  | _ => none

/-- The texts of a list of scalars. A value that is left out is a list of none. -/
def texts? : Node → Option (List String)
  | .list nodes => nodes.mapM text?
  | .scalar content => if Config.isNothing content then some [] else none
  | .map _ => none

/-- The number that a scalar spells. -/
def number? : Node → Option UInt64
  | .scalar content => Config.scalarNumber? content
  | _ => none

/-- The values of a key in a mapping, in their order. -/
def valuesOf (key : String) (entries : List (Node × Node)) : List Node :=
  entries.filterMap fun entry => if entry.1.text? = some key then some entry.2 else none

/-- Whether all keys of a mapping are texts. -/
def Keyed (entries : List (Node × Node)) : Prop :=
  ∀ entry ∈ entries, ∃ content, entry.1 = .scalar content

end Yaml.Node

namespace Config

open Node (text? texts? valuesOf Keyed)

/-- What a setting is after some more values for it: `none` if it would be given twice or if a value
is of another type. -/
def settled? {α : Type} (decode : Node → Option α) : Option α → List Node → Option (Option α)
  | given, [] => some given
  | none, [node] => (decode node).map some
  | _, _ => none

/-- The renderer that a mapping configures. -/
def rendererOf? : Node → Option RendererConfig
  | .map entries => do
    let command ← settled? text? none (valuesOf "command" entries)
    let args ← settled? texts? none (valuesOf "args" entries)
    let timeoutSeconds ← settled? Node.number? none (valuesOf "timeout_secs" entries)
    return RendererFields.toConfig ⟨command, args, timeoutSeconds⟩
  | _ => none

/-- The settings that a mapping configures. -/
def settingsOf? (temporary : Path) (entries : List (Node × Node)) : Option Config := do
  let renderer ← settled? rendererOf? none (valuesOf "renderer" entries)
  let saveDir ← settled? text? none (valuesOf "save_dir" entries)
  let workDir ← settled? text? none (valuesOf "work_dir" entries)
  return Fields.toConfig temporary ⟨renderer, saveDir, workDir⟩

/-! ## Numbers -/

/-- Where every step appends a digit and keeps to 64 bits, the result is the value of the digits. -/
theorem foldlM_digits {step : Nat → Char → Option Nat}
    (hstep : ∀ {value c next}, c.isDigit → step value c = some next →
      next = value * 10 + (c.toNat - 48) ∧ next < 2 ^ 64)
    {ds : List Char} (hdigits : ∀ c ∈ ds, c.isDigit) {value n : Nat} (hvalue : value < 2 ^ 64)
    (h : ds.foldlM step value = some n) : n = Nat.ofDigitChars 10 ds value ∧ n < 2 ^ 64 := by
  induction ds generalizing value with
  | nil =>
    cases h
    exact ⟨rfl, hvalue⟩
  | cons c ds ih =>
    rw [List.foldlM_cons] at h
    obtain ⟨next, hnext, h⟩ := Option.bind_eq_some_iff.mp h
    obtain ⟨rfl, hfits⟩ := hstep (hdigits c List.mem_cons_self) hnext
    obtain ⟨rfl, hn⟩ := ih (fun x hx => hdigits x (List.mem_cons_of_mem _ hx)) hfits h
    refine ⟨?_, hn⟩
    rw [Nat.ofDigitChars_cons, Nat.mul_comm]
    rfl

theorem digitsIn?_ten {ds : List Char} (hdigits : ∀ c ∈ ds, c.isDigit) {n : Nat}
    (h : digitsIn? 10 ds = some n) : n = Nat.ofDigitChars 10 ds 0 ∧ n < 2 ^ 64 := by
  unfold digitsIn? at h
  split at h
  · cases h
  · refine foldlM_digits ?_ hdigits (by decide) h
    intro value c next hc hnext
    simp only [hc, if_true, Option.bind_some] at hnext
    split at hnext
    · next hfits =>
      cases hnext
      simp only [Bool.and_eq_true, decide_eq_true_eq] at hfits
      exact ⟨rfl, hfits.2⟩
    · cases hnext

/-- Digits, with or without a plus sign, are read in decimal only. -/
theorem number?_digits {cs ds : List Char} (hcs : cs = ds ∨ cs = '+' :: ds)
    (hdigits : ∀ c ∈ ds, c.isDigit) :
    number? cs = (if leadingZero ds then none else digitsIn? 10 ds).map UInt64.ofNat := by
  have hunsigned : (if cs.head? == some '+' then cs.tail else cs) = ds := by
    obtain rfl | rfl := hcs
    · refine if_neg fun hplus => ?_
      have hmem : '+' ∈ cs := List.mem_of_mem_head? (by simpa using hplus)
      exact absurd (hdigits '+' hmem) (by decide)
    · rfl
  unfold number?
  simp only [hunsigned]
  split
  · exact absurd (hdigits 'x' (by simp)) (by decide)
  · exact absurd (hdigits 'o' (by simp)) (by decide)
  · exact absurd (hdigits 'b' (by simp)) (by decide)
  · rfl

/-- A number in decimal that is negative or too large is none of 64 bits. -/
theorem number?_eq_none {cs : List Char} {i : Int} (h : Text.Numeral cs i)
    (hrange : i < 0 ∨ 2 ^ 64 ≤ i) : number? cs = none := by
  have hlarge : ∀ {ds : List Char}, (∀ c ∈ ds, c.isDigit) → 2 ^ 64 ≤ Nat.ofDigitChars 10 ds 0 →
      digitsIn? 10 ds = none := by
    intro ds hdigits hlarge
    refine Option.eq_none_iff_forall_ne_some.mpr fun n hn => ?_
    obtain ⟨rfl, hfits⟩ := digitsIn?_ten hdigits hn
    omega
  cases h with
  | unsigned ds hne hdigits =>
    rw [number?_digits (.inl rfl) hdigits, hlarge hdigits (by omega)]
    simp
  | plus ds hne hdigits =>
    rw [number?_digits (.inr rfl) hdigits, hlarge hdigits (by omega)]
    simp
  | minus ds hne hdigits =>
    simp [number?, leadingZero, digitsIn?]

/-! ## Reading nodes -/

section Read

variable {d : Document} {rest rest' : List Item} {fuel : Nat}

theorem readText?_node (node : Node) :
    readText? d (node.items ++ rest) = node.text?.map (·, rest) := by
  cases node <;> rfl

theorem readText?_scalar (content : Scalar) :
    readText? d (.scalar content :: rest) = some (String.ofList content.text, rest) := rfl

theorem readNumber?_node (node : Node) :
    readNumber? d (node.items ++ rest) = node.number?.map (·, rest) := by
  cases node <;> rfl

theorem readTexts?_nodes {nodes : List Node} (done : List String) (hfuel : nodes.length < fuel) :
    readTexts? d fuel done (Node.itemsOfList nodes ++ .listEnd :: rest) =
      (nodes.mapM text?).map fun texts => (done.reverse ++ texts, rest) := by
  induction nodes generalizing fuel done with
  | nil =>
    obtain ⟨fuel, rfl⟩ := Nat.exists_eq_add_one_of_ne_zero (Nat.ne_of_gt hfuel)
    simp [Node.itemsOfList, readTexts?]
  | cons node nodes ih =>
    obtain ⟨fuel, rfl⟩ := Nat.exists_eq_add_one_of_ne_zero (Nat.ne_of_gt (Nat.zero_lt_of_lt hfuel))
    have hstep : readTexts? d (fuel + 1) done
        (Node.itemsOfList (node :: nodes) ++ .listEnd :: rest) =
        node.text?.bind fun text => readTexts? d fuel (text :: done)
          (Node.itemsOfList nodes ++ .listEnd :: rest) := by
      cases node <;> rfl
    rw [hstep, List.mapM_cons]
    cases node.text? with
    | none => rfl
    | some text =>
      have hrest := ih (text :: done) (Nat.lt_of_succ_lt_succ hfuel)
      simp only [Option.bind_some, hrest]
      cases nodes.mapM text? with
      | none => rfl
      | some texts => simp

theorem readList?_node (node : Node) :
    readList? d (node.items ++ rest) = node.texts?.map (·, rest) := by
  cases node with
  | scalar content =>
    have hread : readList? d ((Node.scalar content).items ++ rest) =
        if isNothing content then some ([], rest) else none := rfl
    rw [hread, Node.texts?]
    split <;> rfl
  | list nodes =>
    have hread : readList? d ((Node.list nodes).items ++ rest) =
        readTexts? d (Node.itemsOfList nodes ++ [Item.listEnd] ++ rest).length []
          (Node.itemsOfList nodes ++ [.listEnd] ++ rest) := rfl
    rw [hread, List.append_assoc, List.singleton_append, readTexts?_nodes [] ?_]
    · rfl
    · have hlength := Node.length_le_itemsOfList nodes
      rw [List.length_append, List.length_cons]
      omega
  | map entries => rfl

/-! ## Reading mappings -/

section Settled

variable {α : Type} {decode : Node → Option α} {given : Option α} {node node' : Node}
  {values values' : List Node}

/-- Reading a value for a setting goes on if none has been given for it. -/
theorem once?_bind_eq_some_iff {β : Type} {next : α × List Item → Option β} {b : β} :
    (once? given ((decode node).map (·, rest))).bind next = some b ↔
      ∃ value, (given = none ∧ decode node = some value) ∧ next (value, rest) = some b := by
  cases given with
  | some value => simp [once?]
  | none => cases decode node <;> simp [once?]

/-- One more value settles a setting if none has been given and no other one comes after it. -/
theorem settled?_cons_eq_some_iff {after : Option α} :
    settled? decode given (node :: values) = some after ↔
      ∃ value, (given = none ∧ decode node = some value) ∧
        settled? decode (some value) values = some after := by
  cases given with
  | some value => cases values <;> simp [settled?]
  | none => cases values <;> cases hdecode : decode node <;> simp [settled?, hdecode]

end Settled

theorem valuesOf_cons (key : String) (content : Scalar) (value : Node)
    (entries : List (Node × Node)) : valuesOf key ((.scalar content, value) :: entries) =
      if String.ofList content.text = key then value :: valuesOf key entries
      else valuesOf key entries := by
  by_cases h : String.ofList content.text = key <;> simp [valuesOf, text?, h]

/-- The renderer's settings are read to the end of their mapping, and settle one by one. -/
theorem readRendererFields?_entries {entries : List (Node × Node)} (hkeys : Keyed entries)
    (hfuel : entries.length < fuel) (f f' : RendererFields) :
    readRendererFields? d fuel f (Node.itemsOfMap entries ++ .mapEnd :: rest) = some (f', rest') ↔
      rest' = rest ∧ settled? text? f.command (valuesOf "command" entries) = some f'.command ∧
      settled? texts? f.args (valuesOf "args" entries) = some f'.args ∧
      settled? Node.number? f.timeoutSeconds (valuesOf "timeout_secs" entries) =
        some f'.timeoutSeconds := by
  induction entries generalizing fuel f with
  | nil =>
    obtain ⟨fuel, rfl⟩ := Nat.exists_eq_add_one_of_ne_zero (Nat.ne_of_gt hfuel)
    obtain ⟨command, args, timeoutSeconds⟩ := f
    obtain ⟨command', args', timeoutSeconds'⟩ := f'
    simp [Node.itemsOfMap, readRendererFields?, valuesOf, settled?]
    grind
  | cons entry entries ih =>
    obtain ⟨fuel, rfl⟩ := Nat.exists_eq_add_one_of_ne_zero (Nat.ne_of_gt (Nat.zero_lt_of_lt hfuel))
    obtain ⟨key, value⟩ := entry
    obtain ⟨content, rfl⟩ : ∃ content, key = .scalar content := hkeys _ List.mem_cons_self
    have hkeys' : Keyed entries := fun entry h => hkeys entry (List.mem_cons_of_mem _ h)
    have hih := fun f => ih hkeys' (Nat.lt_of_succ_lt_succ hfuel) f
    have hitems : Node.itemsOfMap ((.scalar content, value) :: entries) ++ .mapEnd :: rest =
        .scalar content :: (value.items ++ (Node.itemsOfMap entries ++ .mapEnd :: rest)) := by
      simp [Node.itemsOfMap, Node.items]
    rw [hitems, readRendererFields?]
    · simp only [readText?_scalar, Option.bind_eq_bind, Option.bind_some, valuesOf_cons,
        beq_iff_eq, readText?_node, readList?_node, readNumber?_node, Node.skipNode_items]
      generalize String.ofList content.text = key
      obtain rfl | hcommand := eq_or_ne key "command"
      · simp only [if_true, String.reduceEq, if_false, once?_bind_eq_some_iff, hih,
          settled?_cons_eq_some_iff]
        grind
      obtain rfl | hargs := eq_or_ne key "args"
      · simp only [if_true, String.reduceEq, if_false, once?_bind_eq_some_iff, hih,
          settled?_cons_eq_some_iff]
        grind
      obtain rfl | htimeout := eq_or_ne key "timeout_secs"
      · simp only [if_true, String.reduceEq, if_false, once?_bind_eq_some_iff, hih,
          settled?_cons_eq_some_iff]
        grind
      · simp only [hcommand, hargs, htimeout, if_false, hih]
    · nofun

theorem rendererOf?_map_eq_some_iff {entries : List (Node × Node)} {config : RendererConfig} :
    rendererOf? (.map entries) = some config ↔ ∃ f : RendererFields,
      (settled? text? none (valuesOf "command" entries) = some f.command ∧
        settled? texts? none (valuesOf "args" entries) = some f.args ∧
        settled? Node.number? none (valuesOf "timeout_secs" entries) = some f.timeoutSeconds) ∧
      f.toConfig = config := by
  simp only [rendererOf?, Option.bind_eq_bind, Option.bind_eq_some_iff, Option.pure_def,
    Option.some.injEq]
  constructor
  · rintro ⟨command, hcommand, args, hargs, timeoutSeconds, htimeout, rfl⟩
    exact ⟨⟨command, args, timeoutSeconds⟩, ⟨hcommand, hargs, htimeout⟩, rfl⟩
  · rintro ⟨f, ⟨hcommand, hargs, htimeout⟩, rfl⟩
    exact ⟨_, hcommand, _, hargs, _, htimeout, rfl⟩

/-- The mapping of the renderer is read as what it configures. -/
theorem readRenderer?_map {entries : List (Node × Node)} (hkeys : Keyed entries) :
    readRenderer? d ((Node.map entries).items ++ rest) =
      (rendererOf? (.map entries)).map (·, rest) := by
  have hlength : entries.length < (Node.itemsOfMap entries ++ .mapEnd :: rest).length := by
    have hle := Node.length_le_itemsOfMap entries
    rw [List.length_append, List.length_cons]
    omega
  have hread : readRenderer? d ((Node.map entries).items ++ rest) =
      (readRendererFields? d (Node.itemsOfMap entries ++ .mapEnd :: rest).length {}
        (Node.itemsOfMap entries ++ .mapEnd :: rest)).map fun r => (r.1.toConfig, r.2) := by
    rw [Node.items, List.cons_append, List.append_assoc]
    rfl
  refine Option.ext fun r => ?_
  obtain ⟨config, rest'⟩ := r
  simp only [hread, Option.map_eq_some_iff, Prod.exists, rendererOf?_map_eq_some_iff,
    readRendererFields?_entries hkeys hlength, Prod.mk.injEq]
  constructor
  · rintro ⟨f, _, ⟨rfl, hsettled⟩, hconfig, rfl⟩
    exact ⟨config, ⟨f, hsettled, hconfig⟩, rfl, rfl⟩
  · rintro ⟨_, ⟨f, hsettled, hconfig⟩, rfl, rfl⟩
    exact ⟨f, rest, ⟨rfl, hsettled⟩, hconfig, rfl⟩

/-- A mapping from texts whose renderer, if it has one, is a mapping from texts. -/
@[mk_iff]
structure Suitable (entries : List (Node × Node)) : Prop where
  keys : Keyed entries
  renderer : ∀ node ∈ valuesOf "renderer" entries, ∃ inner, node = .map inner ∧ Keyed inner

/-- The settings are read to the end of their mapping, and settle one by one. -/
theorem readFields?_entries {entries : List (Node × Node)} (h : Suitable entries)
    (hfuel : entries.length < fuel) (f f' : Fields) :
    readFields? d fuel f (Node.itemsOfMap entries ++ .mapEnd :: rest) = some (f', rest') ↔
      rest' = rest ∧
      settled? rendererOf? f.renderer (valuesOf "renderer" entries) = some f'.renderer ∧
      settled? text? f.saveDir (valuesOf "save_dir" entries) = some f'.saveDir ∧
      settled? text? f.workDir (valuesOf "work_dir" entries) = some f'.workDir := by
  induction entries generalizing fuel f with
  | nil =>
    obtain ⟨fuel, rfl⟩ := Nat.exists_eq_add_one_of_ne_zero (Nat.ne_of_gt hfuel)
    obtain ⟨renderer, saveDir, workDir⟩ := f
    obtain ⟨renderer', saveDir', workDir'⟩ := f'
    simp [Node.itemsOfMap, readFields?, valuesOf, settled?]
    grind
  | cons entry entries ih =>
    obtain ⟨fuel, rfl⟩ := Nat.exists_eq_add_one_of_ne_zero (Nat.ne_of_gt (Nat.zero_lt_of_lt hfuel))
    obtain ⟨key, value⟩ := entry
    obtain ⟨content, rfl⟩ : ∃ content, key = .scalar content := h.keys _ List.mem_cons_self
    have hrenderer := h.renderer
    have hkeys' : Keyed entries := fun entry hentry => h.keys entry (List.mem_cons_of_mem _ hentry)
    have hitems : Node.itemsOfMap ((.scalar content, value) :: entries) ++ .mapEnd :: rest =
        .scalar content :: (value.items ++ (Node.itemsOfMap entries ++ .mapEnd :: rest)) := by
      simp [Node.itemsOfMap, Node.items]
    rw [hitems, readFields?]
    · rw [valuesOf_cons] at hrenderer
      simp only [readText?_scalar, Option.bind_eq_bind, Option.bind_some, valuesOf_cons,
        beq_iff_eq, readText?_node, Node.skipNode_items]
      generalize String.ofList content.text = key at hrenderer ⊢
      obtain rfl | hkey := eq_or_ne key "renderer"
      · rw [if_pos rfl] at hrenderer
        obtain ⟨inner, rfl, hinner⟩ := hrenderer value List.mem_cons_self
        have hih := fun f => ih ⟨hkeys', fun node hnode =>
          hrenderer node (List.mem_cons_of_mem _ hnode)⟩ (Nat.lt_of_succ_lt_succ hfuel) f
        simp only [if_true, String.reduceEq, if_false, readRenderer?_map hinner,
          once?_bind_eq_some_iff, hih, settled?_cons_eq_some_iff]
        grind
      rw [if_neg hkey] at hrenderer
      have hih := fun f => ih ⟨hkeys', hrenderer⟩ (Nat.lt_of_succ_lt_succ hfuel) f
      obtain rfl | hsaveDir := eq_or_ne key "save_dir"
      · simp only [if_true, String.reduceEq, if_false, once?_bind_eq_some_iff, hih,
          settled?_cons_eq_some_iff]
        grind
      obtain rfl | hworkDir := eq_or_ne key "work_dir"
      · simp only [if_true, String.reduceEq, if_false, once?_bind_eq_some_iff, hih,
          settled?_cons_eq_some_iff]
        grind
      · simp only [hkey, hsaveDir, hworkDir, if_false, hih]
    · nofun

/-- A document that is a mapping is taken as what its entries configure. -/
theorem ofDocument?_map {temporary : Path} {entries : List (Node × Node)} (h : Suitable entries)
    (places : List (Nat × Nat)) : ofDocument? temporary ⟨(Node.map entries).items, places⟩ =
      settingsOf? temporary entries := by
  generalize hdoc : Document.mk (Node.map entries).items places = doc
  have hitems : doc.items = .mapStart :: (Node.itemsOfMap entries ++ [.mapEnd]) := by
    rw [← hdoc, Node.items]
  have hlength : entries.length < (Node.itemsOfMap entries ++ [Item.mapEnd]).length := by
    have hle := Node.length_le_itemsOfMap entries
    rw [List.length_append, List.length_singleton]
    omega
  refine Option.ext fun config => ?_
  simp only [ofDocument?, hitems, Option.map_eq_some_iff, Prod.exists, settingsOf?,
    readFields?_entries h hlength, Option.bind_eq_bind, Option.bind_eq_some_iff, Option.pure_def,
    Option.some.injEq]
  constructor
  · rintro ⟨f, _, ⟨rfl, hrenderer, hsaveDir, hworkDir⟩, rfl⟩
    exact ⟨_, hrenderer, _, hsaveDir, _, hworkDir, rfl⟩
  · rintro ⟨renderer, hrenderer, saveDir, hsaveDir, workDir, hworkDir, rfl⟩
    exact ⟨⟨renderer, saveDir, workDir⟩, [], ⟨rfl, hrenderer, hsaveDir, hworkDir⟩, rfl⟩

end Read

end Config

end DiagramService

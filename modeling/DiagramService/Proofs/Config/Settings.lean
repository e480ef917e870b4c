import DiagramService.Config.File
import DiagramService.Proofs.Yaml.Nesting

/-! The settings that a document gives. They are the values of its keys, which can be told without
reading any of them, by skipping from key to key. Where a document is taken at all, every setting
has the only value of its key, or its default if the key is missing. -/

namespace DiagramService

open Yaml

/-! ## Nodes that are read -/

namespace Config

section Read

variable {d : Document} {items rest : List Item} {fuel : Nat}

/-- A text is one item, which may be the name of another node. -/
theorem readText?_cases {text : String} (h : readText? d items = some (text, rest)) :
    (∃ content, items = .scalar content :: rest) ∨ ∃ number, items = .alias number :: rest := by
  unfold readText? at h
  split at h
  · cases h
    exact .inl ⟨_, rfl⟩
  · split at h
    · cases h
      exact .inr ⟨_, rfl⟩
    · cases h
  · cases h

theorem readText?_rest {text : String} (h : readText? d items = some (text, rest)) :
    rest = Item.skipNode 0 items := by
  obtain ⟨content, rfl⟩ | ⟨number, rfl⟩ := readText?_cases h
  · rfl
  · rfl

theorem readText?_skip {text : String} (h : readText? d items = some (text, rest)) (n : Nat) :
    Item.skipNode (n + 1) items = Item.skipNode (n + 1) rest := by
  obtain ⟨content, rfl⟩ | ⟨number, rfl⟩ := readText?_cases h
  · rfl
  · rfl

/-- After the text of a key comes a value. -/
theorem readText?_nested {text : String} (h : readText? d items = some (text, rest))
    {frames : List Frame} (hnested : Nested (.key :: frames) items) :
    Nested (.value :: frames) rest := by
  obtain ⟨content, rfl⟩ | ⟨number, rfl⟩ := readText?_cases h
  · exact hnested
  · exact hnested

theorem readNumber?_rest {number : UInt64} (h : readNumber? d items = some (number, rest)) :
    rest = Item.skipNode 0 items := by
  unfold readNumber? at h
  split at h
  · obtain ⟨_, -, heq⟩ := Option.map_eq_some_iff.mp h
    cases heq; rfl
  · split at h
    · obtain ⟨_, -, heq⟩ := Option.map_eq_some_iff.mp h
      cases heq; rfl
    · cases h
  · cases h

theorem readTexts?_rest {done texts : List String}
    (h : readTexts? d fuel done items = some (texts, rest)) : rest = Item.skipNode 1 items := by
  induction fuel generalizing done items with
  | zero => cases h
  | succ fuel ih =>
    unfold readTexts? at h
    split at h
    · cases h; rfl
    · obtain ⟨⟨text, items'⟩, htext, h⟩ := Option.bind_eq_some_iff.mp h
      rw [ih h, readText?_skip htext]

theorem readList?_rest {texts : List String} (h : readList? d items = some (texts, rest)) :
    rest = Item.skipNode 0 items := by
  unfold readList? at h
  split at h
  · obtain ⟨_, -, heq⟩ := Option.map_eq_some_iff.mp h
    cases heq; rfl
  · unfold readListHere? at h
    split at h
    · exact readTexts?_rest h
    · split at h <;> cases h
      rfl
    · cases h

end Read

end Config

/-! ## Keys and values -/

namespace Yaml.Document

/-- The text of a node, if it has one. -/
def textAt (d : Document) (node : List Item) : Option String :=
  (Config.readText? d node).map (·.1)

/-- The keys of a mapping up to its end, each with the items from its value on. -/
def pairs (d : Document) : List Item → List (Option String × List Item)
  | [] => []
  | .mapEnd :: _ => []
  | item :: items =>
    let value := Item.skipNode 0 (item :: items)
    (d.textAt (item :: items), value) :: d.pairs (Item.skipNode 0 value)
termination_by items => items.length
decreasing_by
  refine Nat.lt_succ_of_le (Nat.le_trans ?_ (skipNode_length 0 item items))
  cases Item.skipNode 0 (item :: items) with
  | nil => exact Nat.le_refl _
  | cons next rest => exact Nat.le_succ_of_le (skipNode_length 0 next rest)

/-- The values of a key up to the end of a mapping. -/
def valuesOf (d : Document) (key : String) (items : List Item) : List (List Item) :=
  (d.pairs items).filterMap fun pair => if pair.1 = some key then some pair.2 else none

/-- The items of a mapping, unless the node is none. -/
def mappingHere? : List Item → Option (List Item)
  | .mapStart :: rest => some rest
  | _ => none

/-- The items of the mapping that a node is. A name of another node stands for that node. -/
def mapping? (d : Document) : List Item → Option (List Item)
  | .alias number :: _ => mappingHere? (d.itemsAt number)
  | node => mappingHere? node

/-- The values of a key in a mapping. Where there is no mapping there are none. -/
def valuesIn (d : Document) (key : String) (mapping : Option (List Item)) : List (List Item) :=
  (mapping.map (d.valuesOf key)).getD []

/-- The values that some keys lead to, each in the mapping that is the value of the one before. -/
def valuesAt (d : Document) : List String → List Item → List (List Item)
  | [], node => [node]
  | key :: keys, node => (d.valuesIn key (d.mapping? node)).flatMap (d.valuesAt keys)

section Pairs

variable {d : Document} {items value : List Item} {key name : String}

/-- A key comes with the node after it. -/
theorem pairs_key (h : Config.readText? d items = some (name, value)) :
    d.pairs items = (some name, value) :: d.pairs (Item.skipNode 0 value) := by
  have htext : d.textAt items = some name := by rw [textAt, h]; rfl
  obtain ⟨content, rfl⟩ | ⟨number, rfl⟩ := Config.readText?_cases h
  · rw [pairs, htext]
    · rfl
    · nofun
  · rw [pairs, htext]
    · rfl
    · nofun

theorem valuesOf_end (rest : List Item) : d.valuesOf key (.mapEnd :: rest) = [] := by
  rw [valuesOf, pairs]
  rfl

theorem valuesOf_same (h : Config.readText? d items = some (key, value)) :
    d.valuesOf key items = value :: d.valuesOf key (Item.skipNode 0 value) := by
  rw [valuesOf, pairs_key h]
  simp [valuesOf]

theorem valuesOf_other (h : Config.readText? d items = some (name, value)) (hne : name ≠ key) :
    d.valuesOf key items = d.valuesOf key (Item.skipNode 0 value) := by
  rw [valuesOf, pairs_key h]
  simp [valuesOf, hne]

end Pairs

end Yaml.Document

/-! ## Settings that are taken -/

namespace Config

/-- What becomes of a setting when values are read for it: a setting takes one value at most. -/
inductive Taken {α : Type} (read : List Item → Option (α × List Item)) :
    Option α → List (List Item) → Option α → Prop
  | kept (given : Option α) : Taken read given [] given
  | read {node rest : List Item} {value : α} (h : read node = some (value, rest)) :
    Taken read none [node] (some value)

section Taken

variable {α : Type} {read : List Item → Option (α × List Item)} {given after : Option α}
  {node rest : List Item} {nodes : List (List Item)} {value : α}

theorem Taken.cons (honce : once? given (read node) = some (value, rest))
    (h : Taken read (some value) nodes after) : Taken read given (node :: nodes) after := by
  unfold once? at honce
  split at honce
  · cases honce
  · next hnone =>
    obtain rfl : given = none := by simpa using hnone
    cases h
    exact .read honce

theorem read_of_once? (honce : once? given (read node) = some (value, rest)) :
    read node = some (value, rest) := by
  unfold once? at honce
  split at honce
  · cases honce
  · exact honce

end Taken

/-- One pair of the settings of the renderer is read. -/
inductive RendererPair (d : Document) (f : RendererFields) (items : List Item) :
    RendererFields → List Item → Prop
  | command {node rest : List Item} {value : String}
    (hkey : readText? d items = some ("command", node))
    (h : once? f.command (readText? d node) = some (value, rest)) :
    RendererPair d f items { f with command := some value } rest
  | args {node rest : List Item} {value : List String}
    (hkey : readText? d items = some ("args", node))
    (h : once? f.args (readList? d node) = some (value, rest)) :
    RendererPair d f items { f with args := some value } rest
  | timeoutSeconds {node rest : List Item} {value : UInt64}
    (hkey : readText? d items = some ("timeout_secs", node))
    (h : once? f.timeoutSeconds (readNumber? d node) = some (value, rest)) :
    RendererPair d f items { f with timeoutSeconds := some value } rest
  | unknown {key : String} {node : List Item} (hkey : readText? d items = some (key, node))
    (hcommand : key ≠ "command") (hargs : key ≠ "args") (htimeout : key ≠ "timeout_secs") :
    RendererPair d f items f (Item.skipNode 0 node)

/-- One pair of the settings is read. -/
inductive Pair (d : Document) (f : Fields) (items : List Item) : Fields → List Item → Prop
  | renderer {node rest : List Item} {value : RendererConfig}
    (hkey : readText? d items = some ("renderer", node))
    (h : once? f.renderer (readRenderer? d node) = some (value, rest)) :
    Pair d f items { f with renderer := some value } rest
  | saveDir {node rest : List Item} {value : String}
    (hkey : readText? d items = some ("save_dir", node))
    (h : once? f.saveDir (readText? d node) = some (value, rest)) :
    Pair d f items { f with saveDir := some value } rest
  | workDir {node rest : List Item} {value : String}
    (hkey : readText? d items = some ("work_dir", node))
    (h : once? f.workDir (readText? d node) = some (value, rest)) :
    Pair d f items { f with workDir := some value } rest
  | unknown {key : String} {node : List Item} (hkey : readText? d items = some (key, node))
    (hrenderer : key ≠ "renderer") (hsaveDir : key ≠ "save_dir") (hworkDir : key ≠ "work_dir") :
    Pair d f items f (Item.skipNode 0 node)

section Pairs

variable {d : Document} {items rest : List Item} {fuel : Nat}

/-- The settings of the renderer are read pair by pair up to the end of the mapping. -/
theorem readRendererFields?_cases {f f' : RendererFields}
    (h : readRendererFields? d (fuel + 1) f items = some (f', rest)) :
    items = .mapEnd :: rest ∧ f' = f ∨ ∃ f₁ items₁, RendererPair d f items f₁ items₁ ∧
      readRendererFields? d fuel f₁ items₁ = some (f', rest) := by
  unfold readRendererFields? at h
  split at h
  · cases h
    exact .inl ⟨rfl, rfl⟩
  · obtain ⟨⟨key, node⟩, hkey, h⟩ := Option.bind_eq_some_iff.mp h
    refine .inr ?_
    simp only [beq_iff_eq] at h
    split at h
    · next heq =>
      obtain ⟨⟨value, rest'⟩, honce, h⟩ := Option.bind_eq_some_iff.mp h
      exact ⟨_, _, .command (heq ▸ hkey) honce, h⟩
    · next hcommand =>
      split at h
      · next heq =>
        obtain ⟨⟨value, rest'⟩, honce, h⟩ := Option.bind_eq_some_iff.mp h
        exact ⟨_, _, .args (heq ▸ hkey) honce, h⟩
      · next hargs =>
        split at h
        · next heq =>
          obtain ⟨⟨value, rest'⟩, honce, h⟩ := Option.bind_eq_some_iff.mp h
          exact ⟨_, _, .timeoutSeconds (heq ▸ hkey) honce, h⟩
        · next htimeout => exact ⟨_, _, .unknown hkey hcommand hargs htimeout, h⟩

/-- The settings are read pair by pair up to the end of the mapping. -/
theorem readFields?_cases {f f' : Fields}
    (h : readFields? d (fuel + 1) f items = some (f', rest)) :
    items = .mapEnd :: rest ∧ f' = f ∨ ∃ f₁ items₁, Pair d f items f₁ items₁ ∧
      readFields? d fuel f₁ items₁ = some (f', rest) := by
  unfold readFields? at h
  split at h
  · cases h
    exact .inl ⟨rfl, rfl⟩
  · obtain ⟨⟨key, node⟩, hkey, h⟩ := Option.bind_eq_some_iff.mp h
    refine .inr ?_
    simp only [beq_iff_eq] at h
    split at h
    · next heq =>
      obtain ⟨⟨value, rest'⟩, honce, h⟩ := Option.bind_eq_some_iff.mp h
      exact ⟨_, _, .renderer (heq ▸ hkey) honce, h⟩
    · next hrenderer =>
      split at h
      · next heq =>
        obtain ⟨⟨value, rest'⟩, honce, h⟩ := Option.bind_eq_some_iff.mp h
        exact ⟨_, _, .saveDir (heq ▸ hkey) honce, h⟩
      · next hsaveDir =>
        split at h
        · next heq =>
          obtain ⟨⟨value, rest'⟩, honce, h⟩ := Option.bind_eq_some_iff.mp h
          exact ⟨_, _, .workDir (heq ▸ hkey) honce, h⟩
        · next hworkDir => exact ⟨_, _, .unknown hkey hrenderer hsaveDir hworkDir, h⟩

/-- A pair of the settings of the renderer is a key and the node after it. -/
theorem RendererPair.skips {f f₁ : RendererFields} {items₁ : List Item}
    (h : RendererPair d f items f₁ items₁) : ∃ key node,
      readText? d items = some (key, node) ∧ items₁ = Item.skipNode 0 node := by
  cases h with
  | command hkey h => exact ⟨_, _, hkey, readText?_rest (read_of_once? h)⟩
  | args hkey h => exact ⟨_, _, hkey, readList?_rest (read_of_once? h)⟩
  | timeoutSeconds hkey h => exact ⟨_, _, hkey, readNumber?_rest (read_of_once? h)⟩
  | unknown hkey => exact ⟨_, _, hkey, rfl⟩

/-- The settings of the renderer are all items up to the end of their mapping. -/
theorem readRendererFields?_rest {f f' : RendererFields} {frames : List Frame}
    (hnested : Nested (.key :: frames) items)
    (h : readRendererFields? d fuel f items = some (f', rest)) :
    rest = Item.skipNode 1 items := by
  induction fuel generalizing f items with
  | zero => cases h
  | succ fuel ih =>
    obtain ⟨rfl, -⟩ | ⟨f₁, items₁, hpair, h⟩ := readRendererFields?_cases h
    · rfl
    · obtain ⟨key, node, hkey, rfl⟩ := hpair.skips
      have hvalue := readText?_nested hkey hnested
      rw [ih hvalue.skip_value h, hvalue.skip_end, readText?_skip hkey]

theorem readRenderer?_rest {config : RendererConfig} {frames : List Frame}
    (hnested : Nested (.value :: frames) items)
    (h : readRenderer? d items = some (config, rest)) : rest = Item.skipNode 0 items := by
  unfold readRenderer? at h
  split at h
  · obtain ⟨_, -, heq⟩ := Option.map_eq_some_iff.mp h
    cases heq; rfl
  · unfold readRendererHere? at h
    split at h
    · obtain ⟨⟨f, rest'⟩, hfields, heq⟩ := Option.map_eq_some_iff.mp h
      cases heq
      have hinner : Nested (.key :: .key :: frames) _ := hnested
      exact readRendererFields?_rest hinner hfields
    · split at h <;> cases h
      rfl
    · cases h

/-- Every setting of the renderer takes the only value of its key. -/
theorem readRendererFields?_taken {f f' : RendererFields}
    (h : readRendererFields? d fuel f items = some (f', rest)) :
    Taken (readText? d) f.command (d.valuesOf "command" items) f'.command ∧
    Taken (readList? d) f.args (d.valuesOf "args" items) f'.args ∧
    Taken (readNumber? d) f.timeoutSeconds (d.valuesOf "timeout_secs" items)
      f'.timeoutSeconds := by
  induction fuel generalizing f items with
  | zero => cases h
  | succ fuel ih =>
    obtain ⟨rfl, rfl⟩ | ⟨f₁, items₁, hpair, h⟩ := readRendererFields?_cases h
    · simp only [Document.valuesOf_end]
      exact ⟨.kept _, .kept _, .kept _⟩
    · obtain ⟨hcommand, hargs, htimeout⟩ := ih h
      cases hpair with
      | command hkey h =>
        obtain rfl := readText?_rest (read_of_once? h)
        rw [Document.valuesOf_same hkey, Document.valuesOf_other hkey (by decide),
          Document.valuesOf_other hkey (by decide)]
        exact ⟨.cons h hcommand, hargs, htimeout⟩
      | args hkey h =>
        obtain rfl := readList?_rest (read_of_once? h)
        rw [Document.valuesOf_other hkey (by decide), Document.valuesOf_same hkey,
          Document.valuesOf_other hkey (by decide)]
        exact ⟨hcommand, .cons h hargs, htimeout⟩
      | timeoutSeconds hkey h =>
        obtain rfl := readNumber?_rest (read_of_once? h)
        rw [Document.valuesOf_other hkey (by decide), Document.valuesOf_other hkey (by decide),
          Document.valuesOf_same hkey]
        exact ⟨hcommand, hargs, .cons h htimeout⟩
      | unknown hkey hne hne' hne'' =>
        rw [Document.valuesOf_other hkey hne, Document.valuesOf_other hkey hne',
          Document.valuesOf_other hkey hne'']
        exact ⟨hcommand, hargs, htimeout⟩

/-- Every setting takes the only value of its key. -/
theorem readFields?_taken {f f' : Fields} {frames : List Frame}
    (hnested : Nested (.key :: frames) items)
    (h : readFields? d fuel f items = some (f', rest)) :
    Taken (readRenderer? d) f.renderer (d.valuesOf "renderer" items) f'.renderer ∧
    Taken (readText? d) f.saveDir (d.valuesOf "save_dir" items) f'.saveDir ∧
    Taken (readText? d) f.workDir (d.valuesOf "work_dir" items) f'.workDir := by
  induction fuel generalizing f items with
  | zero => cases h
  | succ fuel ih =>
    obtain ⟨rfl, rfl⟩ | ⟨f₁, items₁, hpair, h⟩ := readFields?_cases h
    · simp only [Document.valuesOf_end]
      exact ⟨.kept _, .kept _, .kept _⟩
    · cases hpair with
      | renderer hkey hread =>
        have hvalue := readText?_nested hkey hnested
        obtain rfl := readRenderer?_rest hvalue (read_of_once? hread)
        obtain ⟨hrenderer, hsaveDir, hworkDir⟩ := ih hvalue.skip_value h
        rw [Document.valuesOf_same hkey, Document.valuesOf_other hkey (by decide),
          Document.valuesOf_other hkey (by decide)]
        exact ⟨.cons hread hrenderer, hsaveDir, hworkDir⟩
      | saveDir hkey hread =>
        obtain rfl := readText?_rest (read_of_once? hread)
        obtain ⟨hrenderer, hsaveDir, hworkDir⟩ :=
          ih (readText?_nested hkey hnested).skip_value h
        rw [Document.valuesOf_other hkey (by decide), Document.valuesOf_same hkey,
          Document.valuesOf_other hkey (by decide)]
        exact ⟨hrenderer, .cons hread hsaveDir, hworkDir⟩
      | workDir hkey hread =>
        obtain rfl := readText?_rest (read_of_once? hread)
        obtain ⟨hrenderer, hsaveDir, hworkDir⟩ :=
          ih (readText?_nested hkey hnested).skip_value h
        rw [Document.valuesOf_other hkey (by decide), Document.valuesOf_other hkey (by decide),
          Document.valuesOf_same hkey]
        exact ⟨hrenderer, hsaveDir, .cons hread hworkDir⟩
      | unknown hkey hne hne' hne'' =>
        obtain ⟨hrenderer, hsaveDir, hworkDir⟩ :=
          ih (readText?_nested hkey hnested).skip_value h
        rw [Document.valuesOf_other hkey hne, Document.valuesOf_other hkey hne',
          Document.valuesOf_other hkey hne'']
        exact ⟨hrenderer, hsaveDir, hworkDir⟩

end Pairs

/-! ## Documents that are taken -/

/-- What some keys lead to: nothing, or the value that is read from the only node there. -/
inductive Given {α : Type} (d : Document) (keys : List String)
    (read : List Item → Option (α × List Item)) : Option α → Prop
  | missing (h : d.valuesAt keys d.items = []) : Given d keys read none
  | once {node rest : List Item} {value : α} (h : d.valuesAt keys d.items = [node])
    (hread : read node = some (value, rest)) : Given d keys read (some value)

section Given

variable {d : Document}

theorem Given.of_taken {α : Type} {keys : List String} {read : List Item → Option (α × List Item)}
    {given : Option α} (h : Taken read none (d.valuesAt keys d.items) given) :
    Given d keys read given := by
  generalize hnodes : d.valuesAt keys d.items = nodes at h
  cases h with
  | kept => exact .missing hnodes
  | read hread => exact .once hnodes hread

theorem valuesAt_one (key : String) (node : List Item) :
    d.valuesAt [key] node = d.valuesIn key (d.mapping? node) := by
  have hnil : d.valuesAt [] = fun node => [node] := rfl
  rw [Document.valuesAt, hnil, List.flatMap_singleton']

theorem readRendererHere?_taken {config : RendererConfig} {node rest : List Item}
    (h : readRendererHere? d node = some (config, rest)) : ∃ f : RendererFields,
      config = f.toConfig ∧
      Taken (readText? d) none (d.valuesIn "command" (Document.mappingHere? node)) f.command ∧
      Taken (readList? d) none (d.valuesIn "args" (Document.mappingHere? node)) f.args ∧
      Taken (readNumber? d) none (d.valuesIn "timeout_secs" (Document.mappingHere? node))
        f.timeoutSeconds := by
  unfold readRendererHere? at h
  split at h
  · obtain ⟨⟨f, rest'⟩, hfields, heq⟩ := Option.map_eq_some_iff.mp h
    cases heq
    exact ⟨f, rfl, readRendererFields?_taken hfields⟩
  · split at h <;> cases h
    exact ⟨{}, rfl, .kept _, .kept _, .kept _⟩
  · cases h

/-- Every setting of the renderer is what its key leads to from the node that is read. -/
theorem readRenderer?_taken {config : RendererConfig} {node rest : List Item}
    (h : readRenderer? d node = some (config, rest)) : ∃ f : RendererFields,
      config = f.toConfig ∧
      Taken (readText? d) none (d.valuesAt ["command"] node) f.command ∧
      Taken (readList? d) none (d.valuesAt ["args"] node) f.args ∧
      Taken (readNumber? d) none (d.valuesAt ["timeout_secs"] node) f.timeoutSeconds := by
  simp only [valuesAt_one]
  unfold readRenderer? at h
  split at h
  · obtain ⟨⟨config', rest'⟩, hhere, heq⟩ := Option.map_eq_some_iff.mp h
    cases heq
    exact readRendererHere?_taken hhere
  · next hnode =>
    have hmapping : d.mapping? node = Document.mappingHere? node := by
      unfold Document.mapping?
      split
      · exact absurd rfl (hnode _ _)
      · rfl
    rw [hmapping]
    exact readRendererHere?_taken h

/-- What a document gives for each setting. The renderer in `f` does not count. -/
structure Sets (d : Document) (f : Fields) (g : RendererFields) : Prop where
  saveDir : Given d ["save_dir"] (readText? d) f.saveDir
  workDir : Given d ["work_dir"] (readText? d) f.workDir
  command : Given d ["renderer", "command"] (readText? d) g.command
  args : Given d ["renderer", "args"] (readList? d) g.args
  timeoutSeconds : Given d ["renderer", "timeout_secs"] (readNumber? d) g.timeoutSeconds

/-- A document that is no mapping gives nothing. -/
theorem Sets.nothing (h : d.mapping? d.items = none) : Sets d {} {} := by
  have hmissing : ∀ key keys, d.valuesAt (key :: keys) d.items = [] := by
    intro key keys
    rw [Document.valuesAt, h]
    rfl
  exact ⟨.missing (hmissing _ _), .missing (hmissing _ _), .missing (hmissing _ _),
    .missing (hmissing _ _), .missing (hmissing _ _)⟩

/-- The value of a key in a mapping goes on with the keys that are left. -/
theorem valuesAt_cons {rest : List Item} (hitems : d.items = .mapStart :: rest) (key : String)
    (keys : List String) :
    d.valuesAt (key :: keys) d.items = (d.valuesOf key rest).flatMap (d.valuesAt keys) := by
  rw [Document.valuesAt, hitems]
  rfl

/-- A document that is taken gives each setting what its keys lead to, or leaves it to its
default. -/
theorem ofDocument?_sets {text : List Char} (htext : Document.ofText? text = some d)
    {temporary : Path} {config : Config} (h : ofDocument? temporary d = some config) :
    ∃ (f : Fields) (g : RendererFields), Sets d f g ∧
      config = { f with renderer := some g.toConfig : Fields }.toConfig temporary := by
  unfold ofDocument? at h
  split at h
  · next hitems =>
    cases h
    exact ⟨{}, {}, .nothing (by rw [hitems]; rfl), rfl⟩
  · next rest hitems =>
    obtain ⟨⟨f, rest'⟩, hfields, heq⟩ := Option.map_eq_some_iff.mp h
    cases heq
    have hnested : Nested [.key] rest := by
      obtain hnil | hnested := Document.nested htext
      · cases hnil.symm.trans hitems
      · rwa [hitems] at hnested
    obtain ⟨hrenderer, hsaveDir, hworkDir⟩ := readFields?_taken hnested hfields
    have houter : ∀ key, d.valuesAt [key] d.items = d.valuesOf key rest := fun key => by
      rw [valuesAt_one, hitems]
      rfl
    have hinner : ∀ {α : Type} {read : List Item → Option (α × List Item)} {key given},
        Taken read none ((d.valuesOf "renderer" rest).flatMap (d.valuesAt [key])) given →
        Given d ["renderer", key] read given := by
      intro α read key given htaken
      rw [← valuesAt_cons hitems] at htaken
      exact .of_taken htaken
    -- the renderer may be missing, and then so are its settings
    obtain ⟨g, hconfig, hcommand, hargs, htimeout⟩ : ∃ g : RendererFields,
        f.renderer.getD .standard = g.toConfig ∧
        Given d ["renderer", "command"] (readText? d) g.command ∧
        Given d ["renderer", "args"] (readList? d) g.args ∧
        Given d ["renderer", "timeout_secs"] (readNumber? d) g.timeoutSeconds := by
      generalize d.valuesOf "renderer" rest = nodes at hrenderer hinner
      generalize f.renderer = renderer at hrenderer
      cases hrenderer with
      | kept => exact ⟨{}, rfl, hinner (.kept _), hinner (.kept _), hinner (.kept _)⟩
      | read hread =>
        obtain ⟨g, rfl, hcommand, hargs, htimeout⟩ := readRenderer?_taken hread
        refine ⟨g, rfl, hinner ?_, hinner ?_, hinner ?_⟩
        · simpa using hcommand
        · simpa using hargs
        · simpa using htimeout
    rw [← houter] at hsaveDir hworkDir
    refine ⟨f, g, ⟨.of_taken hsaveDir, .of_taken hworkDir, hcommand, hargs, htimeout⟩, ?_⟩
    simp only [Fields.toConfig, hconfig, Option.getD_some]
  · next hitems =>
    split at h <;> cases h
    exact ⟨{}, {}, .nothing (by rw [hitems]; rfl), rfl⟩
  · cases h

end Given

end Config

end DiagramService

import DiagramService.Yaml.Document

/-! The items of a document are well nested. Each end closes what was opened last, and a mapping
does not end between a key and its value. The stack of open lists and mappings is the part of the
stack of goals of the grammar that is still to be met, so every step of the grammar keeps the two
together. -/

namespace DiagramService.Yaml

/-- Something that is open, and what is next in it. -/
inductive Frame where
  /-- A document before its node. -/
  | document
  | list
  /-- A mapping before a key or its end. -/
  | key
  /-- A mapping before a value. -/
  | value

namespace Frame

/-- What is open after a node. -/
def take? : List Frame → Option (List Frame)
  | [] => none
  | .document :: frames => some frames
  | .list :: frames => some (.list :: frames)
  | .key :: frames => some (.value :: frames)
  | .value :: frames => some (.key :: frames)

/-- What is open after the end of a list or mapping. -/
def close? : Frame → List Frame → Option (List Frame)
  | .list, .list :: frames => some frames
  | .key, .key :: frames => some frames
  | _, _ => none

/-- What is open after an item. -/
def item? (frames : List Frame) : Item → Option (List Frame)
  | .scalar _ | .alias _ => take? frames
  | .listStart => (take? frames).map (.list :: ·)
  | .mapStart => (take? frames).map (.key :: ·)
  | .listEnd => close? .list frames
  | .mapEnd => close? .key frames

/-- What is open after an event. -/
def event? (frames : List Frame) : Event → Option (List Frame)
  | .documentStart => some (.document :: frames)
  | .documentEnd => some frames
  | .scalar .. | .alias _ => take? frames
  | .listStart _ => (take? frames).map (.list :: ·)
  | .mapStart _ => (take? frames).map (.key :: ·)
  | .listEnd => close? .list frames
  | .mapEnd => close? .key frames

/-- What is open while a goal is to be met. -/
def ofGoal? : Goal → Option Frame
  | .content | .node => some .document
  | .blockItem | .levelItem | .flowFirst | .flowItem => some .list
  | .blockKey | .pairKey | .pairEnd | .flowFirstKey | .flowKey => some .key
  | .blockValue | .pairValue | .flowValue | .flowNoValue => some .value
  | .firstDocument | .document | .documentEnd => none

end Frame

/-- Items can follow while something is open. -/
def Nested (frames : List Frame) (items : List Item) : Prop :=
  (items.foldlM Frame.item? frames).isSome

/-! ## The grammar -/

namespace Grammar

/-- The events so far leave something open. -/
def Leaves (g : Grammar) (frames : List Frame) : Prop :=
  g.events.reverse.foldlM Frame.event? [] = some frames

/-- What the events so far leave open is what the goals are to close, if there are any. -/
def Nested (g : Grammar) : Prop :=
  ∃ frames, g.Leaves frames ∧ (g.goals = [] ∨ frames = g.goals.filterMap Frame.ofGoal?)

section Step

variable {g g' : Grammar} {frames : List Frame} {goals : List Goal} {tokens : List Token}

theorem Leaves.emit (h : g.Leaves frames) (event : Event) {frames' : List Frame}
    (hevent : Frame.event? frames event = some frames') : (g.emit event).Leaves frames' := by
  unfold Leaves Grammar.emit at *
  simp [List.foldlM_append, h, hevent]

theorem Leaves.goTo (goals : List Goal) (h : g.Leaves (goals.filterMap Frame.ofGoal?))
    (tokens : List Token) : (g.goTo goals tokens).Nested :=
  ⟨_, h, .inr rfl⟩

theorem emit_nested (h : g.Leaves frames) {event : Event}
    (hevent : Frame.event? frames event = some (goals.filterMap Frame.ofGoal?))
    (tokens : List Token) : ((g.emit event).goTo goals tokens).Nested :=
  (h.emit event hevent).goTo goals tokens

/-- After a node the goals are those that were to follow it. -/
theorem node?_nested {block level : Bool} (h : g.Leaves frames)
    (hgoals : Frame.take? frames = some (goals.filterMap Frame.ofGoal?))
    (hnode : g.node? block level goals tokens = some g') : g'.Nested := by
  have hscalar : ∀ {anchor content rest},
      ((g.emit (.scalar anchor content)).goTo goals rest).Nested := by
    intro anchor content rest
    refine emit_nested h ?_ rest
    exact hgoals
  have hopen : ∀ {event frame goal rest},
      Frame.event? frames event = (Frame.take? frames).map (frame :: ·) →
      Frame.ofGoal? goal = some frame → ((g.emit event).goTo (goal :: goals) rest).Nested := by
    intro event frame goal rest hevent hgoal
    refine emit_nested h ?_ rest
    rw [hevent, hgoals, List.filterMap_cons_some hgoal]
    rfl
  unfold node? at hnode
  split at hnode
  · next name rest =>
    cases hnode
    refine emit_nested h ?_ rest
    exact hgoals
  · obtain ⟨⟨properties, tokens⟩, -, hnode⟩ := Option.bind_eq_some_iff.mp hnode
    simp only at hnode
    split at hnode
    · cases hnode; exact hscalar
    · cases hnode; exact hopen rfl rfl
    · cases hnode; exact hopen rfl rfl
    · split at hnode
      · cases hnode; exact hopen rfl rfl
      · split at hnode
        · cases hnode; exact hopen rfl rfl
        · split at hnode
          · cases hnode; exact hopen rfl rfl
          · split at hnode
            · cases hnode; exact hscalar
            · cases hnode
    · cases hnode

theorem nodeUnless?_nested {block level : Bool} {ends : List Token} (h : g.Leaves frames)
    (hgoals : Frame.take? frames = some (goals.filterMap Frame.ofGoal?))
    (hnode : g.nodeUnless? block level ends goals tokens = some g') : g'.Nested := by
  unfold nodeUnless? at hnode
  split at hnode
  · cases hnode
    refine emit_nested h ?_ tokens
    exact hgoals
  · exact node?_nested h hgoals hnode

theorem explicitDocument?_nested (goals : List Goal)
    (h : g.Leaves (goals.filterMap Frame.ofGoal?))
    (hdocument : g.explicitDocument? goals tokens = some g') : g'.Nested := by
  unfold explicitDocument? at hdocument
  obtain ⟨⟨forms, tokens⟩, -, hdocument⟩ := Option.bind_eq_some_iff.mp hdocument
  simp only at hdocument
  split at hdocument
  · cases hdocument
    have hstart : (g.emit .documentStart).Leaves (.document :: goals.filterMap Frame.ofGoal?) :=
      h.emit .documentStart rfl
    exact ⟨_, hstart, .inr rfl⟩
  · cases hdocument

theorem flowItem?_nested (h : g.Leaves (.list :: goals.filterMap Frame.ofGoal?))
    (hitem : g.flowItem? goals tokens = some g') : g'.Nested := by
  unfold flowItem? at hitem
  split at hitem
  · cases hitem; exact emit_nested h rfl _
  · cases hitem; exact emit_nested h rfl _
  · exact node?_nested h rfl hitem

theorem flowKey?_nested (h : g.Leaves (.key :: goals.filterMap Frame.ofGoal?))
    (hkey : g.flowKey? goals tokens = some g') : g'.Nested := by
  unfold flowKey? at hkey
  split at hkey
  · exact nodeUnless?_nested h rfl hkey
  · cases hkey; exact emit_nested h rfl _
  · exact node?_nested h rfl hkey

/-- Meeting a goal keeps what is open and what is to be closed together. -/
theorem step?_nested {goal : Goal} (h : g.Leaves ((goal :: goals).filterMap Frame.ofGoal?))
    (hstep : g.step? goal goals = some g') : g'.Nested := by
  unfold step? at hstep
  simp only at hstep
  split at hstep
  -- documents
  · cases hstep; exact ⟨_, h, .inl rfl⟩
  · split at hstep
    · exact explicitDocument?_nested (.document :: goals) h hstep
    · exact explicitDocument?_nested (.document :: goals) h hstep
    · exact explicitDocument?_nested (.document :: goals) h hstep
    · cases hstep; exact emit_nested h rfl _
  · cases hstep; exact Leaves.goTo (.document :: goals) h _
  · cases hstep; exact ⟨_, h, .inl rfl⟩
  · exact explicitDocument?_nested (.document :: goals) h hstep
  · split at hstep
    · cases hstep; exact emit_nested h rfl _
    · cases hstep; exact emit_nested h rfl _
    · cases hstep; exact emit_nested h rfl _
    · cases hstep; exact emit_nested h rfl _
    · cases hstep; exact emit_nested h rfl _
    · exact node?_nested h rfl hstep
  · cases hstep; exact ⟨_, h.emit .documentEnd rfl, .inr rfl⟩
  · cases hstep; exact ⟨_, h.emit .documentEnd rfl, .inr rfl⟩
  · exact node?_nested h rfl hstep
  -- by indentation
  · exact nodeUnless?_nested h rfl hstep
  · cases hstep; exact emit_nested h rfl _
  · exact nodeUnless?_nested h rfl hstep
  · cases hstep; exact emit_nested h rfl _
  · exact nodeUnless?_nested h rfl hstep
  · cases hstep; exact emit_nested h rfl _
  · exact nodeUnless?_nested h rfl hstep
  · cases hstep; exact emit_nested h rfl _
  -- in brackets
  · exact flowItem?_nested h hstep
  · exact flowItem?_nested h hstep
  · cases hstep; exact emit_nested h rfl _
  · split at hstep
    · cases hstep; exact emit_nested h rfl _
    · exact node?_nested h rfl hstep
  · exact nodeUnless?_nested h rfl hstep
  · cases hstep; exact emit_nested h rfl _
  · cases hstep; exact emit_nested h rfl _
  · exact flowKey?_nested h hstep
  · exact flowKey?_nested h hstep
  · cases hstep; exact emit_nested h rfl _
  · exact nodeUnless?_nested h rfl hstep
  · cases hstep; exact emit_nested h rfl _
  · cases hstep; exact emit_nested h rfl _
  · cases hstep

/-- All events of a text can follow each other. -/
theorem run?_nested (fuel : Nat) {g : Grammar} (h : g.Nested) {events : List Event}
    (hrun : run? fuel g = some events) : (events.foldlM Frame.event? []).isSome := by
  induction fuel generalizing g with
  | zero => cases hrun
  | succ fuel ih =>
    obtain ⟨frames, hleaves, hgoals⟩ := h
    unfold run? at hrun
    split at hrun
    · cases hrun
      rw [hleaves]
      rfl
    · next goal goals heq =>
      split at hrun
      · cases hrun
      · next g' hstep =>
        obtain hnil | rfl := hgoals
        · cases hnil.symm.trans heq
        · rw [heq] at hleaves
          exact ih (step?_nested hleaves hstep) hrun

end Step

end Grammar

/-! ## Documents -/

section Items

variable {frames : List Frame} {items : List Item}

theorem nested_cons {item : Item} : Nested frames (item :: items) ↔
    ∃ frames', Frame.item? frames item = some frames' ∧ Nested frames' items := by
  unfold Nested
  rw [List.foldlM_cons]
  cases h : Frame.item? frames item <;> simp

theorem name_items (n : Naming) (anchor : Option (List Char)) :
    (n.name anchor).items = n.items := by
  cases anchor <;> rfl

/-- An event that is no mark of a document gives one item, which can follow if the event can. -/
theorem event?_item {event : Event} (hstart : event ≠ .documentStart) {n n' : Naming}
    (h : n.event? event = some n') : event = .documentEnd ∧ n' = n ∨
      ∃ item, n'.items = item :: n.items ∧
        ∀ frames, Frame.item? frames item = Frame.event? frames event := by
  cases event with
  | documentStart => exact absurd rfl hstart
  | documentEnd => exact .inl ⟨rfl, (Option.some.inj h).symm⟩
  | «alias» name =>
    obtain ⟨number, -, rfl⟩ := Option.map_eq_some_iff.mp h
    exact .inr ⟨.alias number, rfl, fun _ => rfl⟩
  | scalar anchor content =>
    cases h
    exact .inr ⟨.scalar content, congrArg _ (name_items n anchor), fun _ => rfl⟩
  | listStart anchor =>
    cases h
    exact .inr ⟨.listStart, congrArg _ (name_items n anchor), fun _ => rfl⟩
  | listEnd =>
    cases h
    exact .inr ⟨.listEnd, rfl, fun _ => rfl⟩
  | mapStart anchor =>
    cases h
    exact .inr ⟨.mapStart, congrArg _ (name_items n anchor), fun _ => rfl⟩
  | mapEnd =>
    cases h
    exact .inr ⟨.mapEnd, rfl, fun _ => rfl⟩

/-- The items for some events can follow as the events can, if none starts another document. -/
theorem nested_of_events {events : List Event} (hstart : .documentStart ∉ events)
    (h : (events.foldlM Frame.event? frames).isSome) {n n' : Naming}
    (hnames : events.foldlM Naming.event? n = some n') :
    ∃ items, n'.items = items.reverse ++ n.items ∧ Nested frames items := by
  induction events generalizing frames n with
  | nil =>
    cases hnames
    exact ⟨[], rfl, rfl⟩
  | cons event events ih =>
    rw [List.mem_cons, not_or] at hstart
    rw [List.foldlM_cons] at h hnames
    obtain ⟨n₁, hevent, hnames⟩ := Option.bind_eq_some_iff.mp hnames
    obtain ⟨last, h⟩ := Option.isSome_iff_exists.mp h
    obtain ⟨frames₁, hframes, h⟩ := Option.bind_eq_some_iff.mp h
    obtain ⟨items, hitems, hnested⟩ := ih hstart.2 (by rw [h]; rfl) hnames
    obtain ⟨rfl, rfl⟩ | ⟨item, hitem, hsame⟩ := event?_item (Ne.symm hstart.1) hevent
    · cases hframes
      exact ⟨items, hitems, hnested⟩
    · refine ⟨item :: items, by simp [hitems, hitem], ?_⟩
      exact nested_cons.mpr ⟨frames₁, (hsame frames).trans hframes, hnested⟩

/-- Before the first document there is nothing. -/
theorem nested_of_all_events {events : List Event} (hone : events.count .documentStart ≤ 1)
    (h : (events.foldlM Frame.event? []).isSome) {n n' : Naming}
    (hnames : events.foldlM Naming.event? n = some n') (hn : n.items = []) :
    n'.items = [] ∨ Nested [.document] n'.items.reverse := by
  induction events generalizing n with
  | nil =>
    cases hnames
    exact .inl hn
  | cons event events ih =>
    rw [List.foldlM_cons] at h hnames
    obtain ⟨n₁, hevent, hnames⟩ := Option.bind_eq_some_iff.mp hnames
    cases event with
    | documentStart =>
      rw [List.count_cons_self] at hone
      have hrest : .documentStart ∉ events := List.count_eq_zero.mp (by omega)
      cases hevent
      obtain ⟨items, hitems, hnested⟩ := nested_of_events hrest h hnames
      refine .inr ?_
      rw [hitems, hn]
      simpa using hnested
    | documentEnd =>
      have hrest : events.count .documentStart ≤ 1 := by simpa using hone
      cases hevent
      exact ih hrest h hnames hn
    | _ => cases h

/-- The items of a document are nested. -/
theorem Document.nested {text : List Char} {d : Document} (h : ofText? text = some d) :
    d.items = [] ∨ Nested [.document] d.items := by
  obtain ⟨tokens, -, h⟩ := Option.bind_eq_some_iff.mp h
  obtain ⟨events, hevents, h⟩ := Option.bind_eq_some_iff.mp h
  split at h
  · cases h
  · next hone =>
    obtain ⟨n, hnames, rfl⟩ := Option.map_eq_some_iff.mp h
    have hstart : Grammar.Nested ⟨[.firstDocument], tokens, [], []⟩ := ⟨[], rfl, .inr rfl⟩
    have hnested := Grammar.run?_nested _ hstart hevents
    simpa using nested_of_all_events (Nat.not_lt.mp hone) hnested hnames rfl

end Items

/-! ## Skipping nodes -/

section Skip

variable {frames : List Frame} {items : List Item}

/-- After some lists and mappings have been closed, what follows is nested as it was around them. -/
theorem Nested.skipNode (inner : List Frame) (hinner : inner ≠ []) (hplain : .document ∉ inner)
    (h : Nested (inner ++ frames) items) : Nested frames (Item.skipNode inner.length items) := by
  induction items generalizing inner with
  | nil => rfl
  | cons item items ih =>
    obtain ⟨frame, inner, rfl⟩ := List.exists_cons_of_ne_nil hinner
    rw [List.mem_cons, not_or] at hplain
    -- what is open after a node has as many frames as before
    have htake : ∃ frame',
        Frame.take? (frame :: inner ++ frames) = some (frame' :: inner ++ frames) ∧
        .document ∉ frame' :: inner := by
      cases frame with
      | document => exact absurd rfl hplain.1
      | list => exact ⟨.list, rfl, by simpa using hplain.2⟩
      | key => exact ⟨.value, rfl, by simpa using hplain.2⟩
      | value => exact ⟨.key, rfl, by simpa using hplain.2⟩
    obtain ⟨frame', htake, hplain'⟩ := htake
    obtain ⟨frames', hitem, hrest⟩ := nested_cons.mp h
    have hclose : ∀ {kind : Frame}, Frame.close? kind (frame :: inner ++ frames) = some frames' →
        Nested frames (if (frame :: inner).length ≤ 1 then items
          else Item.skipNode ((frame :: inner).length - 1) items) := by
      intro kind hclose
      have heq : frames' = inner ++ frames := by
        cases kind <;> cases frame <;> simp_all [Frame.close?]
      subst heq
      cases inner with
      | nil => exact hrest
      | cons next inner => exact ih _ (List.cons_ne_nil _ _) hplain.2 hrest
    cases item with
    | scalar content =>
      obtain rfl := Option.some.inj (htake.symm.trans hitem)
      exact ih (frame' :: inner) (List.cons_ne_nil _ _) hplain' hrest
    | «alias» number =>
      obtain rfl := Option.some.inj (htake.symm.trans hitem)
      exact ih (frame' :: inner) (List.cons_ne_nil _ _) hplain' hrest
    | listStart =>
      rw [Frame.item?, htake] at hitem
      cases hitem
      exact ih (.list :: frame' :: inner) (List.cons_ne_nil _ _) (by simpa using hplain') hrest
    | mapStart =>
      rw [Frame.item?, htake] at hitem
      cases hitem
      exact ih (.key :: frame' :: inner) (List.cons_ne_nil _ _) (by simpa using hplain') hrest
    | listEnd => exact hclose hitem
    | mapEnd => exact hclose hitem

/-- After a value comes a key. -/
theorem Nested.skip_value (h : Nested (.value :: frames) items) :
    Nested (.key :: frames) (Item.skipNode 0 items) := by
  cases items with
  | nil => rfl
  | cons item items =>
    obtain ⟨frames', hitem, hrest⟩ := nested_cons.mp h
    cases item with
    | scalar content => cases hitem; exact hrest
    | «alias» number => cases hitem; exact hrest
    | listStart =>
      cases hitem
      exact hrest.skipNode [.list] (List.cons_ne_nil _ _) (by simp)
    | mapStart =>
      cases hitem
      exact hrest.skipNode [.key] (List.cons_ne_nil _ _) (by simp)
    | listEnd => cases hitem
    | mapEnd => cases hitem

/-- Closing what is open can be done in two steps. -/
theorem skipNode_add (m n : Nat) (items : List Item) :
    Item.skipNode (m + 1 + (n + 1)) items =
      Item.skipNode (n + 1) (Item.skipNode (m + 1) items) := by
  induction items generalizing m with
  | nil => rfl
  | cons item items ih =>
    have hopen : Item.skipNode (m + 1 + (n + 1) + 1) items =
        Item.skipNode (n + 1) (Item.skipNode (m + 1 + 1) items) := by
      rw [← ih (m + 1)]
      congr 1
      omega
    have hclose : Item.skipNode (m + (n + 1)) items =
        Item.skipNode (n + 1) (if m = 0 then items else Item.skipNode m items) := by
      cases m with
      | zero => simp
      | succ m => simpa using ih m
    cases item with
    | scalar content => simpa [Item.skipNode] using ih m
    | «alias» number => simpa [Item.skipNode] using ih m
    | listStart => exact hopen
    | mapStart => exact hopen
    | listEnd => simpa [Item.skipNode, Nat.add_right_comm m 1] using hclose
    | mapEnd => simpa [Item.skipNode, Nat.add_right_comm m 1] using hclose

/-- To skip to an end is to skip the next value first. -/
theorem Nested.skip_end (h : Nested (.value :: frames) items) (n : Nat) :
    Item.skipNode (n + 1) (Item.skipNode 0 items) = Item.skipNode (n + 1) items := by
  cases items with
  | nil => rfl
  | cons item items =>
    obtain ⟨frames', hitem, hrest⟩ := nested_cons.mp h
    have hopen : Item.skipNode (n + 1) (Item.skipNode (0 + 1) items) =
        Item.skipNode (n + 1 + 1) items := by
      rw [← skipNode_add]
      congr 1
      omega
    cases item with
    | scalar content => rfl
    | «alias» number => rfl
    | listStart => exact hopen
    | mapStart => exact hopen
    | listEnd => cases hitem
    | mapEnd => cases hitem

/-- A node takes at least one item. -/
theorem skipNode_length (depth : Nat) (item : Item) (items : List Item) :
    (Item.skipNode depth (item :: items)).length ≤ items.length := by
  induction items generalizing depth item with
  | nil => cases item <;> simp [Item.skipNode]
  | cons next items ih =>
    have hnext : ∀ depth, (Item.skipNode depth (next :: items)).length ≤ items.length + 1 :=
      fun depth => Nat.le_succ_of_le (ih depth next)
    cases item with
    | scalar content => rw [Item.skipNode]; split <;> simp [hnext]
    | «alias» number => rw [Item.skipNode]; split <;> simp [hnext]
    | listStart => exact hnext _
    | mapStart => exact hnext _
    | listEnd => rw [Item.skipNode]; split <;> simp [hnext]
    | mapEnd => rw [Item.skipNode]; split <;> simp [hnext]

end Skip

end DiagramService.Yaml

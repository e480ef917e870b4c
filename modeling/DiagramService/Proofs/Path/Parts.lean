import DiagramService.Proofs.Diagram.Files

/-! The parts of a path that has a file name: the text up to the name, the name, and slashes and
dots after it that count for nothing. The parent of the path depends on the first part only, and its
components are those of the parent and the name. -/

namespace DiagramService

namespace Path

/-! ## Text that counts for nothing -/

/-- Slashes, some of them with a dot after them, as they may stand at the end of a path. -/
inductive Void : List Char → Prop where
  | nil : Void []
  | slash {cs : List Char} (h : Void cs) : Void ('/' :: cs)
  | dot {cs : List Char} (h : Void cs) : Void ('/' :: '.' :: cs)

section Void

variable {t u : List Char}

theorem Void.append (h : Void t) (h' : Void u) : Void (t ++ u) := by
  induction h with
  | nil => exact h'
  | slash _ ih => exact .slash ih
  | dot _ ih => exact .dot ih

theorem Void.take (h : Void t) (n : Nat) : Void (t.take n) := by
  induction h generalizing n with
  | nil => simpa using Void.nil
  | slash _ ih =>
    cases n with
    | zero => exact .nil
    | succ n => exact .slash (ih n)
  | dot _ ih =>
    match n with
    | 0 => exact .nil
    | 1 => exact .slash .nil
    | n + 2 => exact .dot (ih n)

theorem dropVoid_append (h : Void t) (cs : List Char) :
    dropVoid (t.reverse ++ cs) = dropVoid cs := by
  induction h generalizing cs with
  | nil => rfl
  | slash _ ih =>
    rw [List.reverse_cons, List.append_assoc, ih]
    rfl
  | dot _ ih =>
    rw [List.reverse_cons, List.reverse_cons, List.append_assoc, List.append_assoc, ih]
    rfl

/-- What is dropped counts for nothing. -/
theorem exists_void (cs : List Char) : ∃ t, Void t ∧ cs = t.reverse ++ dropVoid cs := by
  fun_induction dropVoid cs with
  | case1 cs ih =>
    obtain ⟨t, ht, hcs⟩ := ih
    exact ⟨t ++ ['/'], ht.append (.slash .nil), by simpa using hcs⟩
  | case2 cs ih =>
    obtain ⟨t, ht, hcs⟩ := ih
    exact ⟨t ++ ['/', '.'], ht.append (.dot .nil), by simpa using hcs⟩
  | case3 cs => exact ⟨[], .nil, rfl⟩

theorem filterMap_name {name : List Char} (hslash : '/' ∉ name) :
    (name.splitOn '/').filterMap componentOf = (componentOf name).toList := by
  rw [List.splitOn_eq_singleton hslash, List.filterMap_cons]
  cases componentOf name <;> rfl

/-- Void text adds nothing to the component of a name. -/
theorem filterMap_void (h : Void t) {name : List Char} (hslash : '/' ∉ name) :
    ((name ++ t).splitOn '/').filterMap componentOf = (componentOf name).toList := by
  induction h generalizing name with
  | nil =>
    rw [List.append_nil]
    exact filterMap_name hslash
  | @slash cs _ ih =>
    have hnext : (cs.splitOn '/').filterMap componentOf = [] := @ih [] nofun
    rw [List.splitOn_append_cons_self, List.filterMap_append, filterMap_name hslash, hnext,
      List.append_nil]
  | @dot cs _ ih =>
    have hnext : (('.' :: cs).splitOn '/').filterMap componentOf = [] :=
      @ih ['.'] (by decide)
    rw [List.splitOn_append_cons_self, List.filterMap_append, filterMap_name hslash, hnext,
      List.append_nil]

/-- Void text has no components, and neither has a dot before it. -/
theorem filterMap_void_nil (h : Void t) : (t.splitOn '/').filterMap componentOf = [] :=
  @filterMap_void t h [] nofun

theorem filterMap_void_dot (h : Void t) :
    (('.' :: t).splitOn '/').filterMap componentOf = [] :=
  @filterMap_void t h ['.'] (by decide)

end Void

/-! ## Components -/

/-- What comes after a slash has components of its own. -/
theorem components_slash {cs : List Char} (hne : cs ≠ []) (rest : List Char) :
    components ⟨cs ++ '/' :: rest⟩ =
      components ⟨cs⟩ ++ (rest.splitOn '/').filterMap componentOf := by
  have habs : isAbsolute ⟨cs ++ '/' :: rest⟩ = isAbsolute ⟨cs⟩ := by
    obtain ⟨c, cs, rfl⟩ := List.exists_cons_of_ne_nil hne
    rfl
  have hfirst : (cs.splitOn '/' ++ rest.splitOn '/').head? = (cs.splitOn '/').head? := by
    obtain ⟨first, names, hcs⟩ := List.exists_cons_of_ne_nil (List.splitOn_ne_nil '/' cs)
    rw [hcs]
    rfl
  simp only [components, habs, hfirst, List.splitOn_append_cons_self, List.filterMap_append]
  split
  · rfl
  · split <;> rfl

theorem components_root (rest : List Char) :
    components ⟨'/' :: rest⟩ = .root :: (rest.splitOn '/').filterMap componentOf := by
  have hsplit : ('/' :: rest).splitOn '/' = [] :: rest.splitOn '/' :=
    List.splitOn_append_cons_self [] rest
  have habs : isAbsolute ⟨'/' :: rest⟩ = true := rfl
  simp only [components, habs, hsplit, List.filterMap_cons, if_true]
  rfl

/-- Void text at the end of a path does not matter. -/
theorem components_void {cs t : List Char} (hne : cs ≠ []) (h : Void t) :
    components ⟨cs ++ t⟩ = components ⟨cs⟩ := by
  cases h with
  | nil => rw [List.append_nil]
  | slash h => rw [components_slash hne, filterMap_void_nil h, List.append_nil]
  | dot h => rw [components_slash hne, filterMap_void_dot h, List.append_nil]

/-- A name at the end of a path is a component, if it counts. -/
theorem components_base {base name : List Char} (hbase : base = [] ∨ base.getLast? = some '/')
    (hne : name ≠ []) (hslash : '/' ∉ name) (hdot : name ≠ ['.']) :
    components ⟨base ++ name⟩ = components ⟨base⟩ ++ (componentOf name).toList := by
  rcases hbase with rfl | hlast
  · have habs : isAbsolute ⟨name⟩ = false := by
      obtain ⟨c, name, rfl⟩ := List.exists_cons_of_ne_nil hne
      have hc : c ≠ '/' := fun h => hslash (by simp [h])
      simp [isAbsolute, hc]
    have hfirst : ((name.splitOn '/').head? == some ['.']) = false := by
      rw [List.splitOn_eq_singleton hslash]
      simpa using hdot
    have hnone : components ⟨[]⟩ = [] := by decide
    rw [List.nil_append, hnone, List.nil_append, ← filterMap_name hslash]
    simp only [components, habs, hfirst, Bool.false_eq_true, if_false]
  · obtain ⟨cs, rfl⟩ := List.getLast?_eq_some_iff.mp hlast
    have hempty : (([] : List Char).splitOn '/').filterMap componentOf = [] := by decide
    rw [List.append_assoc, List.singleton_append]
    by_cases hnil : cs = []
    · subst hnil
      rw [List.nil_append, List.nil_append, components_root, components_root, hempty,
        filterMap_name hslash]
      rfl
    · rw [components_slash hnil, components_slash hnil, hempty, List.append_nil,
        filterMap_name hslash]

/-! ## Entries of a directory -/

section Entry

variable {name name' : FileName}

/-- The components of an entry of a directory are those of the directory and the name. -/
theorem components_join (dir : Path) (hn : Disk.Ordinary name) :
    (dir.join name).components = dir.components ++ [.normal name] := by
  have hcomponent : (componentOf name).toList = [.normal name] := by
    simp [componentOf, hn.nonempty, hn.notDot, hn.notDots]
  obtain ⟨cs⟩ := dir
  unfold join
  split
  · next hend =>
    rw [components_base (by simpa using hend) hn.nonempty hn.noSlash hn.notDot, hcomponent]
  · next hend =>
    have hcs : cs ≠ [] := by
      rintro rfl
      exact hend rfl
    have hslashed : components ⟨cs ++ ['/']⟩ = components ⟨cs⟩ :=
      components_void hcs (.slash .nil)
    rw [show cs ++ '/' :: name = cs ++ ['/'] ++ name by simp,
      components_base (.inr (by simp)) hn.nonempty hn.noSlash hn.notDot, hcomponent, hslashed]

/-- Two entries of a directory are the same path only under the same name. -/
theorem same_entry (dir : Path) (hn : Disk.Ordinary name) (hn' : Disk.Ordinary name') :
    (dir.join name).same (dir.join name') = decide (name = name') := by
  have hcomponents : (dir.join name).components = (dir.join name').components ↔ name = name' := by
    rw [components_join dir hn, components_join dir hn']
    constructor
    · intro h
      have hlast := List.append_cancel_left h
      injection (List.cons.inj hlast).1
    · rintro rfl
      rfl
  show ((dir.join name).components == (dir.join name').components) = decide (name = name')
  rw [Bool.eq_iff_iff, beq_iff_eq, decide_eq_true_iff]
  exact hcomponents

theorem not_same_entry (dir : Path) (hn : Disk.Ordinary name) (hn' : Disk.Ordinary name')
    (hne : name ≠ name') : (dir.join name).same (dir.join name') = false := by
  rw [same_entry dir hn hn', decide_eq_false_iff_not]
  exact hne

end Entry

/-! ## Parts -/

/-- A path with a file name: the text up to the name, the name, and what counts for nothing. -/
structure Parts (p : Path) (base : List Char) (name : FileName) (tail : List Char) : Prop where
  chars : p.chars = base ++ name ++ tail
  ends : base = [] ∨ base.getLast? = some '/'
  nonempty : name ≠ []
  noSlash : '/' ∉ name
  notDot : name ≠ ['.']
  notDots : name ≠ ['.', '.']
  void : Void tail

section Parts

variable {p q : Path} {base : List Char} {name name' : FileName} {tail tail' : List Char}

theorem Parts.dropVoid (h : Parts p base name tail) :
    dropVoid p.chars.reverse = name.reverse ++ base.reverse := by
  rw [h.chars, List.reverse_append, dropVoid_append h.void, List.reverse_append,
    dropVoid_of_name h.nonempty h.noSlash h.notDot]

/-- What comes before the name ends in a slash. -/
theorem Parts.dropWhile (h : Parts p base name tail) :
    (name.reverse ++ base.reverse).takeWhile (· != '/') = name.reverse ∧
      (name.reverse ++ base.reverse).dropWhile (· != '/') = base.reverse := by
  have hmem : ∀ c ∈ name.reverse, (c != '/') = true := fun c hc => by
    simpa using fun hc' : c = '/' => h.noSlash (List.mem_reverse.mp (hc' ▸ hc))
  rw [List.takeWhile_append_of_pos hmem, List.dropWhile_append_of_pos hmem]
  rcases h.ends with rfl | hlast
  · simp
  · obtain ⟨cs, rfl⟩ := List.getLast?_eq_some_iff.mp hlast
    simp

theorem Parts.split? (h : Parts p base name tail) : p.split? = some (base, name) := by
  obtain ⟨htake, hdrop⟩ := h.dropWhile
  simp only [Path.split?, h.dropVoid, htake, hdrop, List.reverse_reverse]
  simp [h.nonempty, h.notDot, h.notDots]

/-- What is left after the characters up to a slash is nothing, or starts with the slash. -/
theorem dropWhile_slash (cs : List Char) :
    cs.dropWhile (· != '/') = [] ∨ ∃ rest, cs.dropWhile (· != '/') = '/' :: rest := by
  have hhead := List.head?_dropWhile_not (· != '/') cs
  cases hdrop : cs.dropWhile (· != '/') with
  | nil => exact .inl rfl
  | cons c rest =>
    rw [hdrop] at hhead
    obtain rfl : c = '/' := by simpa using hhead
    exact .inr ⟨rest, rfl⟩

/-- A path that has a file name has such parts. -/
theorem exists_parts (h : p.split? = some (base, name)) : ∃ tail, Parts p base name tail := by
  obtain ⟨tail, hvoid, hchars⟩ := exists_void p.chars.reverse
  have hcut := List.takeWhile_append_dropWhile (p := (· != '/')) (l := dropVoid p.chars.reverse)
  simp only [split?] at h
  generalize dropVoid p.chars.reverse = cs at h hchars hcut
  split at h
  · cases h
  · next hname =>
    cases h
    simp only [Bool.or_eq_true, List.isEmpty_iff, beq_iff_eq, not_or] at hname
    obtain ⟨⟨hne, hdot⟩, hdots⟩ := hname
    refine ⟨tail, ?_, ?_, hne, ?_, hdot, hdots, hvoid⟩
    · rw [← List.reverse_append, hcut, ← List.reverse_reverse p.chars, hchars]
      simp
    · rcases dropWhile_slash cs with hdrop | ⟨rest, hdrop⟩
      · exact .inl (by rw [hdrop]; rfl)
      · exact .inr (by rw [hdrop]; simp)
    · exact fun hmem => absurd (List.all_eq_true.mp List.all_takeWhile _ (List.mem_reverse.mp hmem))
        (by decide)

theorem exists_parts_of_fileName (h : p.fileName? = some name) :
    ∃ base tail, Parts p base name tail := by
  obtain ⟨⟨base, _⟩, hsplit, rfl⟩ := Option.map_eq_some_iff.mp h
  exact ⟨base, exists_parts hsplit⟩

theorem Parts.fileName? (h : Parts p base name tail) : p.fileName? = some name := by
  rw [Path.fileName?, h.split?]
  rfl

/-! ## The parent -/

theorem Parts.isAbsolute (h : Parts p base name tail) :
    p.isAbsolute = Path.isAbsolute ⟨base⟩ := by
  unfold Path.isAbsolute
  rw [h.chars]
  cases base with
  | nil =>
    obtain ⟨c, cs, hname⟩ := List.exists_cons_of_ne_nil h.nonempty
    have hc : c ≠ '/' := fun hc => h.noSlash (by simp [hname, hc])
    simp [hname, hc]
  | cons c base => rfl

/-- The path that text before a name stands for. -/
def above (base : List Char) : Path :=
  if (Path.dropVoid base.reverse).isEmpty && Path.isAbsolute ⟨base⟩ then ⟨['/']⟩
  else ⟨(Path.dropVoid base.reverse).reverse⟩

theorem Parts.parent? (h : Parts p base name tail) : p.parent? = some (above base) := by
  have hne : (name.reverse ++ base.reverse).isEmpty = false := by simp [h.nonempty]
  simp only [Path.parent?, h.dropVoid, hne, h.dropWhile, h.isAbsolute, above,
    List.isEmpty_reverse]
  split
  · contradiction
  · split <;> rfl

theorem components_above (base : List Char) : (above base).components = components ⟨base⟩ := by
  obtain ⟨t, ht, hbase⟩ := exists_void base.reverse
  unfold above
  generalize Path.dropVoid base.reverse = cs at hbase ⊢
  obtain rfl : base = cs.reverse ++ t := by simpa using congrArg List.reverse hbase
  cases cs with
  | nil =>
    -- the whole of it counts for nothing but the slash at its start
    cases ht with
    | nil => rfl
    | @slash u ht =>
      show components ⟨['/']⟩ = components ⟨'/' :: u⟩
      rw [components_root, components_root, filterMap_void_nil ht]
      decide
    | @dot u ht =>
      show components ⟨['/']⟩ = components ⟨'/' :: '.' :: u⟩
      rw [components_root, components_root, filterMap_void_dot ht]
      decide
  | cons c cs =>
    exact (components_void (by simp) ht).symm

/-- The components of a path are those of its parent and its name. -/
theorem Parts.components (h : Parts p base name tail) :
    p.components = (above base).components ++ [.normal name] := by
  have hcomponent : (componentOf name).toList = [.normal name] := by
    simp [componentOf, h.nonempty, h.notDot, h.notDots]
  have hchars : p = ⟨base ++ name ++ tail⟩ := by
    rw [← h.chars]
  rw [hchars, components_void (by simp [h.nonempty]) h.void,
    components_base h.ends h.nonempty h.noSlash h.notDot, hcomponent, components_above]

end Parts

/-! ## Paths without a file name -/

section NoName

variable {p : Path}

theorem dropVoid_ne_slash (cs rest : List Char) : dropVoid cs ≠ '/' :: rest := by
  fun_induction dropVoid cs with
  | case1 cs ih => exact ih
  | case2 cs ih => exact ih
  | case3 cs hslash _ => exact hslash rest

theorem dropVoid_ne_dot (cs rest : List Char) : dropVoid cs ≠ '.' :: '/' :: rest := by
  fun_induction dropVoid cs with
  | case1 cs ih => exact ih
  | case2 cs ih => exact ih
  | case3 cs _ hdot => exact hdot rest

/-- What a path without a file name is when it is read from its end. -/
theorem dropVoid_of_no_name (h : p.fileName? = none) :
    Path.dropVoid p.chars.reverse = [] ∨ Path.dropVoid p.chars.reverse = ['.'] ∨
      ∃ rest, (rest = [] ∨ ∃ more, rest = '/' :: more) ∧
        Path.dropVoid p.chars.reverse = '.' :: '.' :: rest := by
  have hsplit : p.split? = none := Option.map_eq_none_iff.mp h
  have hcut := List.takeWhile_append_dropWhile (p := (· != '/')) (l := dropVoid p.chars.reverse)
  have hrest := dropWhile_slash (dropVoid p.chars.reverse)
  have hslash := dropVoid_ne_slash p.chars.reverse
  have hdot := dropVoid_ne_dot p.chars.reverse
  simp only [split?] at hsplit
  generalize dropVoid p.chars.reverse = cs at *
  generalize cs.dropWhile (· != '/') = rest at *
  rw [← hcut] at hslash hdot ⊢
  split at hsplit
  · next hvoid =>
    simp only [Bool.or_eq_true, List.isEmpty_iff, beq_iff_eq, List.reverse_eq_iff] at hvoid
    rcases hvoid with (hname | hname) | hname
    · rcases hrest with rfl | ⟨more, rfl⟩
      · exact .inl (by rw [hname]; rfl)
      · exact absurd (by rw [hname]; rfl) (hslash more)
    · rcases hrest with rfl | ⟨more, rfl⟩
      · exact .inr (.inl (by rw [hname]; rfl))
      · exact absurd (by rw [hname]; rfl) (hdot more)
    · exact .inr (.inr ⟨rest, hrest, by rw [hname]; rfl⟩)
  · cases hsplit

/-- A path has no file name if it is empty, a root or a dot, or if it ends in two dots. -/
theorem fileName?_eq_none_iff :
    p.fileName? = none ↔
      p.components ∈ [[], [.root], [.current]] ∨ p.components.getLast? = some .parent := by
  constructor
  · intro h
    rw [show p = ⟨p.chars⟩ from rfl, ← components_above p.chars, above]
    rcases dropVoid_of_no_name h with hend | hend | ⟨rest, hrest, hend⟩
    · rw [hend]
      left
      split <;> decide
    · rw [hend]
      left
      show components ⟨['.']⟩ ∈ _
      decide
    · right
      have hbase : rest.reverse = [] ∨ rest.reverse.getLast? = some '/' := by
        rcases hrest with rfl | ⟨more, rfl⟩
        · exact .inl rfl
        · exact .inr (by simp)
      have hparent : components ⟨rest.reverse ++ ['.', '.']⟩ =
          components ⟨rest.reverse⟩ ++ (componentOf ['.', '.']).toList :=
        components_base hbase (by decide) (by decide) (by decide)
      rw [hend]
      show (components ⟨('.' :: '.' :: rest).reverse⟩).getLast? = some .parent
      rw [show ('.' :: '.' :: rest).reverse = rest.reverse ++ ['.', '.'] by simp, hparent,
        List.getLast?_append]
      rfl
  · intro h
    rw [Option.eq_none_iff_forall_ne_some]
    intro name hname
    obtain ⟨base, tail, hparts⟩ := exists_parts_of_fileName hname
    have hlast : p.components.getLast? = some (.normal name) := by
      rw [hparts.components, List.getLast?_append]
      rfl
    rcases h with h | h
    · simp only [List.mem_cons, List.not_mem_nil, or_false] at h
      rcases h with h | h | h <;> rw [h] at hlast <;> simp at hlast
    · rw [h] at hlast
      simp at hlast

end NoName

end Path

end DiagramService

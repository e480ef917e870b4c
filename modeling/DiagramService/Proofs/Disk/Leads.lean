import DiagramService.Disk.Operation

/-! Where a path leads. A walk over names can be cut before its last name, and a directory that a
path leads to stays where it is as long as everything on the way there does. The facts about single
entries of such a directory are in `Proofs.Disk.Effect`. -/

namespace DiagramService

namespace Disk

/-- The names between the slashes of a path. -/
def wayOf (p : Path) : List FileName :=
  (p.chars.splitOn '/').filter (!·.isEmpty)

/-- Where the walk along a path starts. -/
def startOf (d : Disk) (p : Path) : Place :=
  if p.isAbsolute then [] else d.working

/-- A path leads to a directory. The empty path leads to the working directory, so that what is
joined to it does. -/
def Opens (d : Disk) (p : Path) (D : Place) : Prop :=
  d.walk .follow maxLinks (d.startOf p) .directory (wayOf p) = .ok (.found D .directory)

/-- Two disks hold the same but for places that are given free. -/
structure AgreesOff (free : Place → Prop) (d e : Disk) : Prop where
  working : e.working = d.working
  get : ∀ q, ¬ free q → e.get? q = d.get? q

/-- What a disk has is in a directory, and so is the working directory. -/
structure WellFormed (d : Disk) : Prop where
  parent : ∀ name q, d.get? (name :: q) ≠ none → d.get? q = some .directory
  working : d.get? d.working = some .directory

/-- A name that stands for an entry, and not for the directory or its parent. -/
structure Ordinary (name : FileName) : Prop where
  nonempty : name ≠ []
  noSlash : '/' ∉ name
  notDot : name ≠ ['.']
  notDots : name ≠ ['.', '.']
  fits : byteLength name ≤ maxNameBytes

/-! ## Agreement -/

theorem AgreesOff.refl (free : Place → Prop) (d : Disk) : AgreesOff free d d :=
  ⟨rfl, fun _ _ => rfl⟩

theorem AgreesOff.trans {free : Place → Prop} {d e f : Disk} (h : AgreesOff free d e)
    (h' : AgreesOff free e f) : AgreesOff free d f :=
  ⟨h'.working.trans h.working, fun q hq => (h'.get q hq).trans (h.get q hq)⟩

theorem AgreesOff.mono {free free' : Place → Prop} {d e : Disk} (h : AgreesOff free d e)
    (hsub : ∀ q, free q → free' q) : AgreesOff free' d e :=
  ⟨h.working, fun q hq => h.get q fun hf => hq (hsub q hf)⟩

theorem AgreesOff.startOf {free : Place → Prop} {d e : Disk} (h : AgreesOff free d e)
    (p : Path) : e.startOf p = d.startOf p := by
  simp only [Disk.startOf, h.working]

theorem agreesOff_set {free : Place → Prop} (d : Disk) {p : Place} (hp : free p) (x : Entry) :
    AgreesOff free d (d.set p x) :=
  ⟨rfl, fun q hq => get?_set_of_ne d (fun h : q = p => hq (by rw [h]; exact hp)) x⟩

theorem agreesOff_set_self (d : Disk) (p : Place) (x : Entry) : AgreesOff (· = p) d (d.set p x) :=
  ⟨rfl, fun _ hq => get?_set_of_ne d hq x⟩

theorem agreesOff_erase {free : Place → Prop} (d : Disk) {p : Place} (hp : free p) :
    AgreesOff free d (d.erase p) :=
  ⟨rfl, fun q hq => get?_erase_of_ne d fun h : q = p => hq (by rw [h]; exact hp)⟩

/-! ## Walks -/

/-- The last step of a walk, after the walk over the names before it. -/
def walkOn (d : Disk) (last : LastLink) (links : Nat) (name : FileName) :
    Except IoError Target → Except IoError Target
  | .ok (.found place entry) => d.walk last links place entry [name]
  | .ok (.missing _) => .error .notFound
  | .error e => .error e

/-- A walk can be cut before its last name. The links that are left there matter only if the last
name is a link again. -/
theorem walk_append (d : Disk) (last : LastLink) (links : Nat) (place : Place) (entry : Entry)
    (names : List FileName) (name : FileName) :
    ∃ links', d.walk last links place entry (names ++ [name]) =
      d.walkOn last links' name (d.walk .follow links place entry names) := by
  -- the links that are left for the last name are those that the names before it did not use
  fun_induction walk d .follow links place entry names with
  | case1 links place entry => exact ⟨links, rfl⟩
  | case2 links place entry x rest hne => exact ⟨0, by simp [walk, hne, walkOn]⟩
  | case3 links place entry x rest hd hdot ih =>
    obtain ⟨links', h⟩ := ih
    exact ⟨links', by simpa [walk, hd, hdot] using h⟩
  | case4 links place entry x rest hd hdot hdots ih =>
    obtain ⟨links', h⟩ := ih
    exact ⟨links', by simpa [walk, hd, hdot, hdots] using h⟩
  | case5 links place entry x rest hd hdot hdots hlong =>
    exact ⟨0, by simp [walk, hd, hdot, hdots, hlong, walkOn]⟩
  | case6 links place entry x rest hd hdot hdots hlong hget hrest =>
    exact ⟨0, by simp [walk, hd, hdot, hdots, hlong, hget, walkOn]⟩
  | case7 links place entry x rest hd hdot hdots hlong hget hrest =>
    exact ⟨0, by simp [walk, hd, hdot, hdots, hlong, hget, walkOn]⟩
  | case8 links place entry x rest hd hdot hdots hlong target hget hlast => simp at hlast
  | case9 place entry x rest hd hdot hdots hlong target hget hlast =>
    exact ⟨0, by simp [walk, hd, hdot, hdots, hlong, hget, walkOn]⟩
  | case10 place entry x rest hd hdot hdots hlong target hget hlast links ih =>
    obtain ⟨links', h⟩ := ih
    exact ⟨links', by simpa [walk, hd, hdot, hdots, hlong, hget] using h⟩
  | case11 links place entry x rest hd hdot hdots hlong old hold hget ih =>
    obtain ⟨links', h⟩ := ih
    refine ⟨links', ?_⟩
    rw [List.cons_append, walk]
    simp only [hd, hdot, hdots, hlong, hget, if_false]
    cases old with
    | link target => exact absurd rfl (hold target)
    | _ => exact h

/-- A walk that comes to an end takes its last step from a directory. -/
theorem walk_snoc {d : Disk} {last : LastLink} {links : Nat} {place : Place} {entry : Entry}
    {names : List FileName} {name : FileName} {t : Target}
    (h : d.walk last links place entry (names ++ [name]) = .ok t) :
    ∃ D links', d.walk .follow links place entry names = .ok (.found D .directory) ∧
      d.walk last links' D .directory [name] = .ok t := by
  obtain ⟨links', hw⟩ := walk_append d last links place entry names name
  rw [hw] at h
  cases hway : d.walk .follow links place entry names with
  | error e => rw [hway] at h; cases h
  | ok target =>
    rw [hway] at h
    cases target with
    | missing place => cases h
    | found D entry =>
      have hdir : entry = .directory := by
        refine Classical.byContradiction fun hne => ?_
        simp [walkOn, walk, hne] at h
      subst hdir
      exact ⟨D, links', rfl, h⟩

/-- What was found on a disk is found on any disk that still has all of it. -/
theorem walk_mono {d e : Disk} (h : ∀ q x, d.get? q = some x → e.get? q = some x)
    (last : LastLink) (links : Nat) (place : Place) (entry : Entry) (names : List FileName)
    {q : Place} {x : Entry} (hw : d.walk last links place entry names = .ok (.found q x)) :
    e.walk last links place entry names = .ok (.found q x) := by
  fun_induction walk d last links place entry names with
  | case1 links place entry => rw [walk]; exact hw
  | case3 links place entry y rest hd hdot ih =>
    rw [walk]; simp only [hd, hdot, if_true]; exact ih hw
  | case4 links place entry y rest hd hdot hdots ih =>
    rw [walk]; simp only [hd, hdot, hdots, if_true]; exact ih hw
  | case8 links place entry y rest hd hdot hdots hlong target hget hlast =>
    rw [walk]; simp only [hd, hdot, hdots, hlong, h _ _ hget, hlast, if_false, if_true]; exact hw
  | case10 place entry y rest hd hdot hdots hlong target hget hlast links ih =>
    rw [walk]; simp only [hd, hdot, hdots, hlong, h _ _ hget, hlast, if_false]
    exact ih hw
  | case11 links place entry y rest hd hdot hdots hlong old hold hget ih =>
    rw [walk]; simp only [hd, hdot, hdots, hlong, h _ _ hget, if_false]
    cases old with
    | link target => exact absurd rfl (hold target)
    | _ => exact ih hw
  | _ => simp_all

/-- On a well-formed disk a walk ends at an entry of the disk. -/
theorem walk_found_get {d : Disk} (hd : d.WellFormed) (last : LastLink) (links : Nat)
    (place : Place) (entry : Entry) (names : List FileName) (hp : d.get? place = some entry)
    {q : Place} {x : Entry} (hw : d.walk last links place entry names = .ok (.found q x)) :
    d.get? q = some x := by
  fun_induction walk d last links place entry names with
  | case1 links place entry => simp_all
  | case3 links place entry y rest _ _ ih => exact ih hp hw
  | case4 links place entry y rest hne _ _ ih =>
    have hdir : entry = .directory := by simpa using hne
    refine ih ?_ hw
    cases place with
    | nil => rfl
    | cons name p => exact hd.parent name p (by rw [hp]; simp)
  | case8 => simp_all
  | case10 place entry y rest hne _ _ _ target hget _ links ih =>
    have hdir : entry = .directory := by simpa using hne
    refine ih ?_ hw
    by_cases ha : target.isAbsolute
    · simp [ha]
    · simpa [ha, hdir] using hp
  | case11 links place entry y rest _ _ _ _ old hold hget ih => exact ih hget hw
  | _ => simp_all

/-- The place that a walk has come to. -/
def Target.place : Target → Place
  | .found place _ => place
  | .missing place => place

/-- Only links turn a walk aside: where a walk has found nothing, a walk on a disk with the same
links comes to the same place. -/
theorem walk_place_of_missing {d e : Disk}
    (hl : ∀ q t, d.get? q = some (.link t) ↔ e.get? q = some (.link t)) (last : LastLink)
    (links : Nat) (place : Place) (entry entry' : Entry) (names : List FileName) {q : Place}
    {t : Target} (hd : d.walk .keep links place entry names = .ok (.missing q))
    (he : e.walk last links place entry' names = .ok t) : t.place = q := by
  fun_induction walk d .keep links place entry names generalizing entry' with
  | case3 links place entry y rest _ hdot ih =>
    rw [walk] at he
    simp only [hdot, if_true] at he
    split at he
    · cases he
    · exact ih _ hd he
  | case4 links place entry y rest _ hdot hdots ih =>
    rw [walk] at he
    simp only [hdot, hdots, if_true] at he
    split at he
    · cases he
    · exact ih _ hd he
  | case6 links place entry y rest _ hdot hdots hlong hget hrest =>
    cases hd
    have hnil : rest = [] := by simpa using hrest
    subst hnil
    rw [walk] at he
    simp only [hdot, hdots, hlong] at he
    split at he
    · cases he
    · cases hy : e.get? (y :: place) with
      | none => simp [hy] at he; rw [← he]; rfl
      | some x =>
        cases x with
        | link target => rw [← hl, hget] at hy; cases hy
        | _ => simp [hy, walk] at he; rw [← he]; rfl
  | case10 place entry y rest _ hdot hdots hlong target hget hlast links ih =>
    have hrest : rest.isEmpty = false := by simpa using hlast
    rw [walk] at he
    simp only [hdot, hdots, hlong, (hl _ _).mp hget, hrest] at he
    split at he
    · cases he
    · exact ih _ hd (by simpa using he)
  | case11 links place entry y rest _ hdot hdots hlong old hold hget ih =>
    rw [walk] at he
    simp only [hdot, hdots, hlong] at he
    split at he
    · cases he
    · cases hy : e.get? (y :: place) with
      | none =>
        -- the walk could only end here, and then the first walk has found something
        cases rest with
        | nil => simp [walk] at hd
        | cons _ _ => simp [hy] at he
      | some x =>
        cases x with
        | link target => rw [← hl, hget] at hy; cases hy; exact absurd rfl (hold target)
        | _ => simp [hy] at he; exact ih _ hd he
  | _ => cases hd

/-! ## Entries of a directory that a path leads to -/

/-- A slash at the end adds no name. -/
theorem wayOf_slash (cs : List Char) : wayOf ⟨cs ++ ['/']⟩ = wayOf ⟨cs⟩ := by
  simp [wayOf, List.splitOn_append_cons_self]

/-- The names of an entry of a directory. -/
theorem namesOf_join (p : Path) {name : FileName} (hne : name ≠ []) (hslash : '/' ∉ name) :
    namesOf (p.join name) = wayOf p ++ [name] := by
  have hsplit : name.splitOn '/' = [name] := List.splitOn_eq_singleton hslash
  have hlast : ∀ cs : List Char, (cs ++ name).getLast? ≠ some '/' := by
    intro cs h
    obtain ⟨c, hc⟩ := Option.isSome_iff_exists.mp (List.getLast?_isSome.mpr hne)
    simp only [List.getLast?_append, hc, Option.some_or, Option.some.injEq] at h
    exact hslash (h ▸ List.mem_of_getLast? hc)
  have hcut : ∀ cs : List Char,
      namesOf ⟨cs ++ '/' :: name⟩ = wayOf ⟨cs⟩ ++ [name] := by
    intro cs
    have h : ('/' :: name).getLast? ≠ some '/' := hlast ['/']
    simp [namesOf, wayOf, h, List.splitOn_append_cons_self, hsplit, hne]
  obtain ⟨cs⟩ := p
  unfold Path.join
  by_cases hnil : cs = []
  · have h := hlast []
    rw [List.nil_append] at h
    simp [hnil, namesOf, wayOf, h, hsplit, hne]
  · by_cases hend : cs.getLast? = some '/'
    · obtain ⟨ds, rfl⟩ := List.getLast?_eq_some_iff.mp hend
      simp only [hend, wayOf_slash, beq_self_eq_true, Bool.or_true, if_true]
      rw [List.append_assoc, List.singleton_append, hcut]
    · simpa [hnil, hend] using hcut cs

/-- The walk to an entry of a directory starts where the walk to the directory does. -/
theorem startOf_join (d : Disk) (p : Path) {name : FileName} (hne : name ≠ [])
    (hslash : '/' ∉ name) :
    d.startOf (p.join name) = d.startOf p := by
  have habs : (p.join name).isAbsolute = p.isAbsolute := by
    obtain ⟨cs⟩ := p
    cases cs with
    | nil =>
      obtain ⟨c, name', rfl⟩ := List.exists_cons_of_ne_nil hne
      have hc : c ≠ '/' := fun h => hslash (by simp [h])
      simp [Path.join, Path.isAbsolute, hc]
    | cons c cs =>
      unfold Path.join
      split <;> simp [Path.isAbsolute]
  simp only [startOf, habs]

/-- A path that can be looked up. -/
structure Spelled (p : Path) : Prop where
  nonempty : p.chars ≠ []
  noZero : '\x00' ∉ p.chars
  fits : byteLength p.chars < maxPathBytes

theorem locate_of_spelled (d : Disk) (last : LastLink) {p : Path} (h : Spelled p) :
    d.locate last p = d.walk last maxLinks (d.startOf p) .directory (namesOf p) := by
  have hfits : ¬ maxPathBytes ≤ byteLength p.chars := Nat.not_le.mpr h.fits
  simp [locate, h.noZero, h.nonempty, hfits, startOf]

/-- What is wrong with a path that cannot be looked up does not depend on the disk. -/
theorem locate_of_not_spelled {p : Path} (hne : p.chars ≠ []) (h : ¬ Spelled p) :
    ∃ x : IoError, x.kind = .other ∧ ∀ d last, locate d last p = .error x := by
  by_cases hz : '\x00' ∈ p.chars
  · exact ⟨.zeroInPath, rfl, fun d last => by simp [locate, hz]⟩
  · by_cases hb : maxPathBytes ≤ byteLength p.chars
    · exact ⟨.nameTooLong, rfl, fun d last => by simp [locate, hz, hne, hb]⟩
    · exact absurd ⟨hne, hz, Nat.not_le.mp hb⟩ h

theorem join_ne_nil (p : Path) {name : FileName} (hn : Ordinary name) :
    (p.join name).chars ≠ [] := by
  unfold Path.join
  split <;> simp [hn.nonempty]

theorem byteLength_append (as bs : List Char) :
    byteLength (as ++ bs) = byteLength as + byteLength bs := by
  have hfold : ∀ (cs : List Char) (n : Nat),
      cs.foldl (fun n c => n + c.utf8Size) n = n + byteLength cs := by
    intro cs
    induction cs with
    | nil => exact fun n => rfl
    | cons c cs ih =>
      intro n
      have hcons : byteLength (c :: cs) = 0 + c.utf8Size + byteLength cs := ih (0 + c.utf8Size)
      rw [List.foldl_cons, ih, hcons]
      omega
  rw [byteLength, List.foldl_append, hfold, hfold, Nat.zero_add]

theorem byteLength_eq_length {cs : List Char} (h : ∀ c ∈ cs, c.utf8Size = 1) :
    byteLength cs = cs.length := by
  induction cs with
  | nil => rfl
  | cons c cs ih =>
    have hc : byteLength [c] = 1 := by simp [byteLength, h c List.mem_cons_self]
    rw [← List.singleton_append, byteLength_append, hc,
      ih fun b hb => h b (List.mem_cons_of_mem c hb)]
    simp [Nat.add_comm]

/-- What a path to an entry of a directory has before the name. -/
theorem join_eq (p : Path) : ∃ base, (∀ name, p.join name = ⟨base ++ name⟩) ∧
    (base = [] ∨ base.getLast? = some '/') := by
  by_cases h : p.chars.isEmpty || p.chars.getLast? == some '/'
  · refine ⟨p.chars, fun name => by simp only [Path.join, h, if_true], ?_⟩
    simpa using h
  · refine ⟨p.chars ++ ['/'], fun name => ?_, .inr (by simp)⟩
    simp only [Path.join, h]
    simp

/-- With a shorter name the path to an entry of a directory can be looked up too. -/
theorem Spelled.join_of_le {p : Path} {name name' : FileName} (h : Spelled (p.join name))
    (hn : Ordinary name') (hz : '\x00' ∉ name') (hle : byteLength name' ≤ byteLength name) :
    Spelled (p.join name') := by
  obtain ⟨base, hjoin, -⟩ := join_eq p
  obtain ⟨-, hzero, hfits⟩ := h
  refine ⟨join_ne_nil p hn, ?_, ?_⟩
  · rw [hjoin] at hzero ⊢
    simp only [List.mem_append, not_or] at hzero ⊢
    exact ⟨hzero.1, hz⟩
  · rw [hjoin] at hfits ⊢
    rw [byteLength_append] at hfits ⊢
    omega

/-- A name is joined to a path by at most one slash. -/
theorem join_chars (p : Path) (name : FileName) : ∃ slash,
    (p.join name).chars = p.chars ++ slash ++ name ∧ '\x00' ∉ slash ∧ byteLength slash ≤ 1 := by
  unfold Path.join
  split
  · exact ⟨[], by simp, nofun, by decide⟩
  · exact ⟨['/'], by simp, by decide, by decide⟩

/-- The path to a directory can be looked up if that to an entry of it can. -/
theorem Spelled.of_join {p : Path} {name : FileName} (h : Spelled (p.join name))
    (hne : p.chars ≠ []) : Spelled p := by
  obtain ⟨slash, hchars, -⟩ := join_chars p name
  obtain ⟨-, hzero, hfits⟩ := h
  rw [hchars, List.append_assoc] at hzero hfits
  rw [byteLength_append] at hfits
  exact ⟨hne, fun hz => hzero (List.mem_append_left _ hz), by omega⟩

section Entry

variable {d : Disk} {p : Path} {D : Place} {name : FileName}

theorem walk_ordinary_missing (d : Disk) (last : LastLink) (links : Nat) (hn : Ordinary name)
    (hget : d.get? (name :: D) = none) :
    d.walk last links D .directory [name] = .ok (.missing (name :: D)) := by
  have hfits : ¬ maxNameBytes < byteLength name := Nat.not_lt.mpr hn.fits
  rw [walk]
  simp [hn.notDot, hn.notDots, hfits, hget]

theorem walk_ordinary_found (d : Disk) (last : LastLink) (links : Nat) (hn : Ordinary name)
    {x : Entry} (hget : d.get? (name :: D) = some x)
    (hx : ∀ target, x = .link target → last = .keep) :
    d.walk last links D .directory [name] = .ok (.found (name :: D) x) := by
  have hfits : ¬ maxNameBytes < byteLength name := Nat.not_lt.mpr hn.fits
  rw [walk]
  cases x with
  | link target => simp [hn.notDot, hn.notDots, hfits, hget, hx target rfl]
  | _ => simp [hn.notDot, hn.notDots, hfits, hget, walk]

/-- An entry of a directory is where the directory is. -/
theorem Opens.locate (h : d.Opens p D) (hn : Ordinary name) (hs : Spelled (p.join name))
    (last : LastLink) : ∃ links,
    d.locate last (p.join name) = d.walk last links D .directory [name] := by
  obtain ⟨links, hw⟩ :=
    walk_append d last maxLinks (d.startOf p) .directory (wayOf p) name
  refine ⟨links, ?_⟩
  rw [locate_of_spelled d last hs, startOf_join d p hn.nonempty hn.noSlash,
    namesOf_join p hn.nonempty hn.noSlash, hw, h]
  rfl

theorem Opens.locate_missing (h : d.Opens p D) (hn : Ordinary name)
    (hs : Spelled (p.join name)) (last : LastLink) (hget : d.get? (name :: D) = none) :
    d.locate last (p.join name) = .ok (.missing (name :: D)) := by
  obtain ⟨links, hw⟩ := h.locate hn hs last
  rw [hw, walk_ordinary_missing d last links hn hget]

theorem Opens.locate_found (h : d.Opens p D) (hn : Ordinary name) (hs : Spelled (p.join name))
    (last : LastLink) {x : Entry} (hget : d.get? (name :: D) = some x)
    (hx : ∀ target, x = .link target → last = .keep) :
    d.locate last (p.join name) = .ok (.found (name :: D) x) := by
  obtain ⟨links, hw⟩ := h.locate hn hs last
  rw [hw, walk_ordinary_found d last links hn hget hx]

end Entry

/-- A path leads to one place only. -/
theorem Opens.unique {d : Disk} {p : Path} {D D' : Place} (h : d.Opens p D) (h' : d.Opens p D') :
    D = D' := by
  unfold Opens at h h'
  rw [h] at h'
  cases h'
  rfl

/-- The place that a path names, whether anything is there or not. A link there is not followed. -/
def At (d : Disk) (p : Path) (q : Place) : Prop :=
  ∃ t, d.locate .keep p = .ok t ∧ t.place = q

/-- An entry of a directory has one place. -/
theorem Opens.at_join {d : Disk} {p : Path} {D : Place} {name : FileName} (h : d.Opens p D)
    (hn : Ordinary name) {q : Place} (hq : d.At (p.join name) q) : q = name :: D := by
  obtain ⟨t, ht, rfl⟩ := hq
  by_cases hs : Spelled (p.join name)
  · cases hget : d.get? (name :: D) with
    | none =>
      rw [h.locate_missing hn hs .keep hget] at ht
      cases ht
      rfl
    | some x =>
      rw [h.locate_found hn hs .keep hget fun _ _ => rfl] at ht
      cases ht
      rfl
  · obtain ⟨x, -, hx⟩ := locate_of_not_spelled (join_ne_nil p hn) hs
    rw [hx] at ht
    cases ht

/-- A directory stays where it is while everything that was there does. -/
theorem Opens.mono {d e : Disk} {p : Path} {D : Place} (h : d.Opens p D)
    (hw : e.working = d.working) (hget : ∀ q x, d.get? q = some x → e.get? q = some x) :
    e.Opens p D := by
  have hs : e.startOf p = d.startOf p := by simp only [startOf, hw]
  unfold Opens
  rw [hs]
  exact walk_mono hget _ _ _ _ _ h

/-- On a well-formed disk the walk along a path starts in a directory. -/
theorem WellFormed.get_startOf {d : Disk} (hd : d.WellFormed) (p : Path) :
    d.get? (d.startOf p) = some .directory := by
  unfold startOf
  split
  · rfl
  · exact hd.working

/-- On a well-formed disk a directory that a path leads to is there. -/
theorem Opens.get {d : Disk} {p : Path} {D : Place} (h : d.Opens p D) (hd : d.WellFormed) :
    d.get? D = some .directory :=
  walk_found_get hd _ _ _ _ _ (hd.get_startOf p) h

end Disk

end DiagramService

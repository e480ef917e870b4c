import DiagramService.Proofs.Disk.Effect

/-! What a disk had at the start and still has. While no link is added, a path that once led to a
missing name never leads anywhere else, and neither do the paths below it. -/

namespace DiagramService

namespace Disk

/-- A disk has all that another had, and no more links. -/
structure Frame (d₀ d : Disk) : Prop where
  working : d.working = d₀.working
  keeps : ∀ q x, d₀.get? q = some x → d.get? q = some x
  links : NoNewLinks d₀ d

theorem Frame.refl (d : Disk) : Frame d d :=
  ⟨rfl, fun _ _ h => h, .refl d⟩

section Frame

variable {d₀ d e : Disk}

/-- What changes only where nothing was at the start keeps the start. -/
theorem Frame.agreesOff (h : Frame d₀ d) {free : Place → Prop} (hoff : AgreesOff free d e)
    (hlinks : NoNewLinks d e) (hfree : ∀ q, free q → d₀.get? q = none) : Frame d₀ e := by
  refine ⟨hoff.working.trans h.working, fun q x hq => ?_, fun q target hq => ?_⟩
  · have hq' : ¬ free q := fun hf => by
      rw [hfree q hf] at hq
      cases hq
    rw [hoff.get q hq']
    exact h.keeps q x hq
  · exact h.links q target (hlinks q target hq)

theorem Frame.grows (h : Frame d₀ d) (hgrow : Grows d e) : Frame d₀ e :=
  ⟨hgrow.working.trans h.working, fun q x hq => hgrow.get_of_some (h.keeps q x hq),
    fun q target hq => h.links q target (hgrow.noNewLinks q target hq)⟩

theorem Frame.opens (h : Frame d₀ d) {p : Path} {D : Place} (hopens : d₀.Opens p D) :
    d.Opens p D :=
  hopens.mono h.working h.keeps

theorem Frame.get_none (h : Frame d₀ d) {q : Place} (hq : d.get? q = none) :
    d₀.get? q = none := by
  cases hget : d₀.get? q with
  | none => rfl
  | some x =>
    rw [h.keeps q x hget] at hq
    cases hq

theorem Frame.link_iff (h : Frame d₀ d) (q : Place) (target : Path) :
    d.get? q = some (.link target) ↔ d₀.get? q = some (.link target) :=
  ⟨h.links q target, h.keeps q _⟩

theorem Frame.startOf (h : Frame d₀ d) (p : Path) : d.startOf p = d₀.startOf p := by
  simp only [Disk.startOf, h.working]

/-- Below a missing place nothing is there. -/
theorem WellFormed.get_below (hd : d.WellFormed) {p q : Place} (hp : d.get? p = none)
    (h : p <:+ q) : d.get? q = none := by
  obtain ⟨names, rfl⟩ := h
  induction names with
  | nil => exact hp
  | cons name names ih =>
    refine Classical.byContradiction fun hne => ?_
    have hdir := hd.parent name (names ++ p) hne
    rw [ih] at hdir
    cases hdir

theorem spelled_of_locate {p : Path} {last : LastLink} {t : Target}
    (h : d.locate last p = .ok t) : Spelled p := by
  unfold locate at h
  split at h
  · cases h
  · next hz =>
    split at h
    · cases h
    · next hne =>
      split at h
      · cases h
      · next hfits => exact ⟨by simpa using hne, by simpa using hz, Nat.not_le.mp hfits⟩

/-- The path to an entry of a directory leads there along the directory. -/
theorem opens_of_locate_join {p : Path} {name : FileName} (hn : Ordinary name) {last : LastLink}
    {t : Target} (h : d.locate last (p.join name) = .ok t) : ∃ D, d.Opens p D := by
  rw [locate_of_spelled _ _ (spelled_of_locate h), startOf_join d p hn.nonempty hn.noSlash,
    namesOf_join p hn.nonempty hn.noSlash] at h
  obtain ⟨D, -, hway, -⟩ := walk_snoc h
  exact ⟨D, hway⟩

/-- The place of an entry is in the directory that the path to it goes along. -/
theorem At.join {p : Path} {name : FileName} (hn : Ordinary name) {q : Place}
    (h : d.At (p.join name) q) : ∃ D, d.Opens p D ∧ q = name :: D := by
  obtain ⟨t, ht, -⟩ := id h
  obtain ⟨D, hD⟩ := opens_of_locate_join hn ht
  exact ⟨D, hD, hD.at_join hn h⟩

/-- A path that has led to a missing name leads nowhere else. -/
theorem Frame.onePlace {d₁ : Disk} (h₁ : Frame d₀ d₁) (h : Frame d₀ d) {p : Path} {q : Place}
    (hp : d₁.locate .keep p = .ok (.missing q)) {last : LastLink} {t : Target}
    (ht : d.locate last p = .ok t) : t.place = q := by
  have hs := spelled_of_locate hp
  rw [locate_of_spelled _ _ hs, h₁.startOf] at hp
  rw [locate_of_spelled _ _ hs, h.startOf] at ht
  exact walk_place_of_missing (fun r target => (h₁.link_iff r target).trans
    (h.link_iff r target).symm) _ _ _ _ _ _ hp ht

theorem namesOf_eq_wayOf {p : Path} (h : asksDirectory p = false) : namesOf p = wayOf p := by
  have hlast : (p.chars.getLast? == some '/') = false := h
  simp [namesOf, wayOf, hlast]

/-- A slash at the end of a path only adds a dot to its names. -/
theorem namesOf_cases (p : Path) : namesOf p = wayOf p ∨ namesOf p = wayOf p ++ [['.']] := by
  simp only [namesOf, wayOf]
  split
  · exact .inr rfl
  · exact .inl rfl

/-- Neither do the paths of what might be below it. -/
theorem Frame.onePlace_join (hd₀ : d₀.WellFormed) {d₁ : Disk} (h₁ : Frame d₀ d₁) (h : Frame d₀ d)
    {p : Path} (hend : asksDirectory p = false) {q : Place}
    (hp : d₁.locate .keep p = .ok (.missing q)) {name : FileName} (hn : Ordinary name)
    {last : LastLink} {t : Target} (ht : d.locate last (p.join name) = .ok t) :
    t.place = name :: q := by
  have hs := spelled_of_locate hp
  have hq := h₁.get_none (locate_missing_get hp).1
  rw [locate_of_spelled _ _ hs, h₁.startOf, namesOf_eq_wayOf hend] at hp
  obtain ⟨D, hD⟩ := opens_of_locate_join hn ht
  have hway : d.walk .follow maxLinks (d₀.startOf p) .directory (wayOf p) =
      .ok (.found D .directory) := by
    rw [← h.startOf]
    exact hD
  obtain rfl : D = q := walk_place_of_missing (fun r target => (h₁.link_iff r target).trans
    (h.link_iff r target).symm) _ _ _ _ _ _ hp hway
  cases hget : d.get? (name :: D) with
  | none =>
    rw [hD.locate_missing hn (spelled_of_locate ht) last hget] at ht
    cases ht
    rfl
  | some x =>
    -- a link here would be a new one
    have hlink : ∀ target, x = .link target → last = .keep := by
      rintro target rfl
      have hold := h.links _ _ hget
      rw [hd₀.get_below hq (List.suffix_cons name D)] at hold
      cases hold
    rw [hD.locate_found hn (spelled_of_locate ht) last hget hlink] at ht
    cases ht
    rfl

end Frame

/-! ## Making one directory -/

theorem trimSlashes_of_not_asksDirectory {p : Path} (hne : p.chars ≠ [])
    (h : asksDirectory p = false) : trimSlashes p = p := by
  obtain ⟨cs⟩ := p
  obtain ⟨rs, rfl⟩ : ∃ rs, cs = rs.reverse := ⟨cs.reverse, cs.reverse_reverse.symm⟩
  cases rs with
  | nil => exact absurd rfl hne
  | cons c rs =>
    have hc : c ≠ '/' := by simpa [asksDirectory] using h
    simp [trimSlashes, hc]

/-- A directory can be made in another where nothing is. -/
theorem Opens.makeDir {d : Disk} {p : Path} {D : Place} {name : FileName} (h : d.Opens p D)
    (hn : Ordinary name) (hs : Spelled (p.join name)) : d.makeDir (p.join name) =
      if d.get? (name :: D) = none then (d.set (name :: D) .directory).done
      else d.fail .exists_ := by
  unfold Disk.makeDir
  rw [trimSlashes_of_not_asksDirectory (join_ne_nil p hn) (asksDirectory_join p hn)]
  cases hget : d.get? (name :: D) with
  | none => simp [h.locate_missing hn hs .keep hget]
  | some x => simp [h.locate_found hn hs .keep hget fun _ _ => rfl]

/-- A directory in another is where its name leads. -/
theorem Opens.join {d : Disk} {p : Path} {D : Place} {name : FileName} (h : d.Opens p D)
    (hn : Ordinary name) (hget : d.get? (name :: D) = some .directory) :
    d.Opens (p.join name) (name :: D) := by
  obtain ⟨links, hw⟩ := walk_append d .follow maxLinks (d.startOf p) .directory (wayOf p) name
  unfold Opens
  rw [← namesOf_eq_wayOf (asksDirectory_join p hn), namesOf_join p hn.nonempty hn.noSlash,
    startOf_join d p hn.nonempty hn.noSlash, hw, h]
  exact walk_ordinary_found d .follow links hn hget nofun

/-- A directory is made in a directory, where nothing was. -/
theorem makeDir_join_ok {d d' : Disk} {p : Path} {name : FileName} (hn : Ordinary name)
    (h : d.makeDir (p.join name) = (.ok (), d')) : ∃ q, d.Opens p q ∧
      d.locate .keep (p.join name) = .ok (.missing (name :: q)) ∧
      d' = d.set (name :: q) .directory := by
  unfold makeDir at h
  rw [trimSlashes_of_not_asksDirectory (join_ne_nil p hn) (asksDirectory_join p hn)] at h
  split at h
  · cases h
  · next place hl =>
    obtain ⟨q, hopens, hq⟩ := At.join hn ⟨_, hl, rfl⟩
    obtain rfl : place = name :: q := hq
    cases h
    exact ⟨q, hopens, hl, rfl⟩
  · cases h

/-! ## Making a directory with its parents -/

/-- Where a walk ends that has come to a place. -/
def targetAt (d : Disk) (q : Place) : Target :=
  match d.get? q with
  | some x => .found q x
  | none => .missing q

theorem targetAt_place (d : Disk) (q : Place) : (d.targetAt q).place = q := by
  unfold targetAt
  split <;> rfl

/-- The last name of a walk leads to what is there, unless this is a link. -/
theorem walk_last (e : Disk) (last : LastLink) (links : Nat) {place : Place} {entry : Entry}
    {z : FileName} (hd : ¬ (entry != .directory) = true) (hdot : ¬ (z == ['.']) = true)
    (hdots : ¬ (z == ['.', '.']) = true) (hlong : ¬ maxNameBytes < byteLength z)
    (hlink : ∀ target, e.get? (z :: place) ≠ some (.link target)) :
    e.walk last links place entry [z] = .ok (e.targetAt (z :: place)) := by
  rw [walk, targetAt]
  simp only [hd, hdot, hdots, hlong, if_false]
  cases hget : e.get? (z :: place) with
  | none => simp
  | some y =>
    cases y with
    | link target => exact absurd hget (hlink target)
    | _ => simp [walk]

section Lands

variable {d e : Disk}

/-- A walk that has ended at a file or at a missing name ends there again if all directories and
links are still there, whatever has come to this place but a link. A link at the end of its path can
be followed now, but can only be kept if it was. -/
theorem walk_lands_on (hdir : ∀ q, d.get? q = some .directory → e.get? q = some .directory)
    (hlinks : ∀ q target, d.get? q = some (.link target) → e.get? q = some (.link target))
    {last last' : LastLink} (hkeep : last' = .keep → last = .keep) {links : Nat} {place : Place}
    {entry : Entry} {names : List FileName} (hentry : entry = .directory) {t : Target}
    (hw : d.walk last links place entry names = .ok t)
    (ht : ∀ q x, t = .found q x → ∃ content time, x = .file content time)
    (hlink : ∀ target, e.get? t.place ≠ some (.link target)) :
    e.walk last' links place entry names = .ok (e.targetAt t.place) := by
  fun_induction walk d last links place entry names with
  | case1 links place entry =>
    cases hw
    obtain ⟨content, time, rfl⟩ := ht _ _ rfl
    cases hentry
  | case3 links place entry z rest hd hdot ih =>
    rw [walk]; simp only [hd, hdot, if_true]; exact ih hentry hw
  | case4 links place entry z rest hd hdot hdots ih =>
    rw [walk]; simp only [hd, hdot, hdots, if_true]; exact ih rfl hw
  | case6 links place entry z rest hd hdot hdots hlong hnone hrest =>
    cases hw
    obtain rfl : rest = [] := by simpa using hrest
    exact walk_last e last' links hd hdot hdots hlong hlink
  | case8 links place entry z rest hd hdot hdots hlong target hlink hlast =>
    cases hw
    obtain ⟨content, time, hfile⟩ := ht _ _ rfl
    cases hfile
  | case10 place entry z rest hd hdot hdots hlong target hget hlast links ih =>
    have hfollow : ¬ (rest.isEmpty && last' == .keep) = true := by
      cases last' with
      | follow => simp
      | keep => rwa [hkeep rfl] at hlast
    rw [walk]; simp only [hd, hdot, hdots, hlong, hlinks _ _ hget, hfollow, if_false]
    exact ih rfl hw
  | case11 links place entry z rest hd hdot hdots hlong old hold hfound ih =>
    cases rest with
    | nil =>
      rw [walk] at hw
      cases hw
      exact walk_last e last' links hd hdot hdots hlong hlink
    | cons name rest =>
      -- only a directory is walked through
      obtain rfl : old = .directory := by
        refine Classical.byContradiction fun hne => ?_
        simp [walk, hne] at hw
      rw [walk]; simp only [hd, hdot, hdots, hlong, hdir _ hfound, if_false]
      exact ih rfl hw
  | _ => cases hw

/-- Such a walk ends there again if a link at the end of its path is followed. -/
theorem walk_lands (hdir : ∀ q, d.get? q = some .directory → e.get? q = some .directory)
    (hlinks : ∀ q target, d.get? q = some (.link target) → e.get? q = some (.link target))
    {last : LastLink} {links : Nat} {place : Place} {entry : Entry} {names : List FileName}
    (hentry : entry = .directory) {t : Target} (hw : d.walk last links place entry names = .ok t)
    (ht : ∀ q x, t = .found q x → ∃ content time, x = .file content time)
    (hlink : ∀ target, e.get? t.place ≠ some (.link target)) :
    e.walk .follow links place entry names = .ok (e.targetAt t.place) := by
  refine walk_lands_on hdir hlinks ?_ hentry hw ht hlink
  nofun

end Lands

/-- A directory is made where nothing was, and is where its path leads then. -/
theorem makeDir_made {d d' : Disk} {p : Path} (hne : p.chars ≠ [])
    (h : d.makeDir p = (.ok (), d')) :
    ∃ D, d.get? D = none ∧ D ≠ [] ∧ d' = d.set D .directory ∧ d'.Opens p D := by
  obtain ⟨-, habs, hway⟩ := trimSlashes_spec p hne
  unfold makeDir at h
  split at h
  · cases h
  · next place hl =>
    cases h
    obtain ⟨hget, hroot⟩ := locate_missing_get hl
    have hstart : d.startOf (trimSlashes p) = d.startOf p := by simp only [startOf, habs]
    rw [locate_of_spelled _ _ (spelled_of_locate hl), hstart, hway] at hl
    have hgrow := grows_set_directory hget hroot
    have hmade := get?_set_self d hroot .directory
    have hwalk := walk_lands (fun q => hgrow.get_of_some) (fun q target => hgrow.get_of_some) rfl hl
      (by simp) (fun target h => by cases hmade.symm.trans h)
    rw [Target.place, targetAt, hmade] at hwalk
    exact ⟨place, hget, hroot, rfl, hwalk⟩
  · cases h

theorem opens_of_makeDir {d d' : Disk} {p : Path} (hne : p.chars ≠ [])
    (h : d.makeDir p = (.ok (), d')) : ∃ D, d'.Opens p D := by
  obtain ⟨D, -, -, -, hD⟩ := makeDir_made hne h
  exact ⟨D, hD⟩

theorem opens_of_isDir {d : Disk} {p : Path} (h : d.isDir p = true) : ∃ D, d.Opens p D := by
  unfold isDir find at h
  cases hl : d.locate .follow p with
  | error e => simp [hl] at h
  | ok t =>
    cases t with
    | missing place => simp [hl] at h
    | found place entry =>
      obtain rfl : entry = .directory := by
        cases entry <;> simp [hl] at h ⊢
      rw [locate_of_spelled _ _ (spelled_of_locate hl)] at hl
      rcases namesOf_cases p with hnames | hnames <;> rw [hnames] at hl
      · exact ⟨place, hl⟩
      · -- the dot at the end stands for the directory itself
        obtain ⟨links, hw⟩ :=
          walk_append d .follow maxLinks (d.startOf p) .directory (wayOf p) ['.']
        rw [hw] at hl
        cases hway : d.walk .follow maxLinks (d.startOf p) .directory (wayOf p) with
        | error e => rw [hway] at hl; cases hl
        | ok target =>
          rw [hway] at hl
          cases target with
          | missing q => cases hl
          | found q entry =>
            refine ⟨q, ?_⟩
            rw [Opens, hway]
            cases entry <;> simp [walkOn, walk] at hl ⊢

/-- A directory that was made with its parents is where its path leads. -/
theorem opens_of_makeDirs {d d' : Disk} {p : Path} (h : d.makeDirs p = (.ok (), d')) :
    ∃ D, d'.Opens p D := by
  unfold makeDirs depth makeDirsWithin at h
  split at h
  · next hp =>
    cases h
    obtain ⟨cs⟩ := p
    obtain rfl : cs = [] := by simpa using hp
    exact ⟨d.working, by simp [Opens, wayOf, startOf, Path.isAbsolute, walk]⟩
  · next hp =>
    have hne : p.chars ≠ [] := by simpa using hp
    split at h
    · next hmake =>
      cases h
      exact opens_of_makeDir hne hmake
    · next hmake =>
      split at h
      · split at h
        · next hdir =>
          cases h
          exact opens_of_isDir hdir
        · cases h
      · split at h
        · cases h
        · split at h
          · cases h
          · -- the second attempt, after the parent has been made
            split at h
            · next hmake' =>
              cases h
              exact opens_of_makeDir hne hmake'
            · split at h
              · next hdir =>
                cases h
                exact opens_of_isDir hdir
              · cases h

end Disk

end DiagramService

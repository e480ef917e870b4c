import DiagramService.Proofs.Disk.Frame

/-! What can be found under a path while files come and go. Directories and links alone decide where
a path leads, so where no directory stood none stands after a file was written, and what has been
removed stays away until something is made under its path again. -/

namespace DiagramService

namespace Disk

/-- Nothing is found under a path, not even a link that leads nowhere. -/
def Gone (d : Disk) (p : Path) : Prop :=
  ∀ r, d.find .keep p ≠ .ok r

/-- No directory is found under a path. -/
def NoDirAt (d : Disk) (p : Path) : Prop :=
  ∀ q, d.find .keep p ≠ .ok (q, .directory)

/-- Nothing but a directory is found under a path. -/
def OnlyDirAt (d : Disk) (p : Path) : Prop :=
  ∀ q x, d.find .keep p = .ok (q, x) → x = .directory

/-- A disk has nothing that another has not. -/
structure Shrinks (d e : Disk) : Prop where
  working : e.working = d.working
  get : ∀ q x, e.get? q = some x → d.get? q = some x

/-- What is new on a disk are files and devices. -/
structure AddsFiles (d e : Disk) : Prop where
  working : e.working = d.working
  directory : ∀ q, e.get? q = some .directory → d.get? q = some .directory
  links : NoNewLinks d e

/-! ## Finding -/

section Find

variable {d e : Disk} {p : Path}

theorem locate_of_find {last : LastLink} {q : Place} {x : Entry}
    (h : d.find last p = .ok (q, x)) : d.locate last p = .ok (.found q x) := by
  unfold find at h
  split at h
  · cases h
  · cases h
  · next hl =>
    cases h
    exact hl

theorem find_of_locate {last : LastLink} {q : Place} {x : Entry}
    (h : d.locate last p = .ok (.found q x)) : d.find last p = .ok (q, x) := by
  simp [find, h]

theorem Shrinks.refl (d : Disk) : Shrinks d d :=
  ⟨rfl, fun _ _ h => h⟩

theorem Shrinks.addsFiles (h : Shrinks d e) : AddsFiles d e :=
  ⟨h.working, fun q hq => h.get q _ hq, fun q _ hq => h.get q _ hq⟩

/-- What is found among less is found among more. -/
theorem Shrinks.find (h : Shrinks d e) {last : LastLink} {q : Place} {x : Entry}
    (hf : e.find last p = .ok (q, x)) : d.find last p = .ok (q, x) := by
  have hl := locate_of_find hf
  have hs := spelled_of_locate hl
  refine find_of_locate ?_
  rw [locate_of_spelled _ _ hs] at hl ⊢
  rw [show d.startOf p = e.startOf p by simp only [startOf, h.working]]
  exact walk_mono h.get _ _ _ _ _ hl

/-- What is found is found again when directories have been made. -/
theorem Grows.find (h : Grows d e) {last : LastLink} {q : Place} {x : Entry}
    (hf : d.find last p = .ok (q, x)) : e.find last p = .ok (q, x) :=
  Shrinks.find ⟨h.working.symm, fun _ _ => h.get_of_some⟩ hf

/-- A walk that ends at a directory leads along directories and links. -/
theorem walk_directory (h : AddsFiles d e) (last : LastLink) (links : Nat) (place : Place)
    (entry : Entry) (names : List FileName) {q : Place}
    (hw : e.walk last links place entry names = .ok (.found q .directory)) :
    d.walk last links place entry names = .ok (.found q .directory) := by
  fun_induction walk e last links place entry names with
  | case1 links place entry => rw [walk]; exact hw
  | case3 links place entry y rest hd hdot ih =>
    rw [walk]; simp only [hd, hdot, if_true]; exact ih hw
  | case4 links place entry y rest hd hdot hdots ih =>
    rw [walk]; simp only [hd, hdot, hdots, if_true]; exact ih hw
  | case8 => cases hw
  | case10 place entry y rest hd hdot hdots hlong target hget hlast links ih =>
    rw [walk]; simp only [hd, hdot, hdots, hlong, h.links _ _ hget, hlast, if_false]
    exact ih hw
  | case11 links place entry y rest hd hdot hdots hlong old hold hget ih =>
    cases old with
    | link target => exact absurd rfl (hold target)
    | directory =>
      rw [walk]; simp only [hd, hdot, hdots, hlong, h.directory _ hget, if_false]
      exact ih hw
    | _ =>
      -- nothing is found behind a file
      cases rest <;> simp [walk] at hw
  | _ => cases hw

/-- What is found is an entry of the disk, unless it is a directory. -/
theorem walk_entry {last : LastLink} {links : Nat} {place : Place} {entry : Entry}
    {names : List FileName} (hp : entry ≠ .directory → d.get? place = some entry) {q : Place}
    {x : Entry} (hw : d.walk last links place entry names = .ok (.found q x))
    (hx : x ≠ .directory) : d.get? q = some x := by
  fun_induction walk d last links place entry names with
  | case1 links place entry =>
    cases hw
    exact hp hx
  | case3 links place entry y rest _ _ ih => exact ih hp hw
  | case4 links place entry y rest _ _ _ ih => exact ih (fun h => absurd rfl h) hw
  | case8 links place entry y rest _ _ _ _ target hget _ =>
    cases hw
    exact hget
  | case10 place entry y rest _ _ _ _ target hget _ links ih =>
    exact ih (fun h => absurd rfl h) hw
  | case11 links place entry y rest _ _ _ _ old hold hget ih => exact ih (fun _ => hget) hw
  | _ => cases hw

theorem find_entry {last : LastLink} {q : Place} {x : Entry} (h : d.find last p = .ok (q, x))
    (hx : x ≠ .directory) : d.get? q = some x := by
  have hl := locate_of_find h
  rw [locate_of_spelled _ _ (spelled_of_locate hl)] at hl
  exact walk_entry (fun h => absurd rfl h) hl hx

/-- What is found under an ordinary name is the entry with this name in a directory. -/
theorem find_join {name : FileName} (hn : Ordinary name) {q : Place} {x : Entry} :
    d.find .keep (p.join name) = .ok (q, x) ↔ Spelled (p.join name) ∧
      ∃ D, d.Opens p D ∧ q = name :: D ∧ d.get? (name :: D) = some x := by
  constructor
  · intro h
    have hl := locate_of_find h
    have hs := spelled_of_locate hl
    obtain ⟨D, hD⟩ := opens_of_locate_join hn hl
    refine ⟨hs, D, hD, ?_⟩
    cases hget : d.get? (name :: D) with
    | none =>
      rw [hD.locate_missing hn hs .keep hget] at hl
      cases hl
    | some y =>
      rw [hD.locate_found hn hs .keep hget fun _ _ => rfl] at hl
      cases hl
      exact ⟨rfl, rfl⟩
  · rintro ⟨hs, D, hD, rfl, hget⟩
    exact find_of_locate (hD.locate_found hn hs .keep hget fun _ _ => rfl)

end Find

/-! ## What operations leave under a path -/

section Change

variable {d e : Disk} {p : Path}

theorem AddsFiles.opens (h : AddsFiles d e) {D : Place} (hD : e.Opens p D) : d.Opens p D := by
  unfold Opens at hD ⊢
  rw [show d.startOf p = e.startOf p by simp only [startOf, h.working]]
  exact walk_directory h _ _ _ _ _ hD

theorem Gone.shrinks (h : d.Gone p) (he : Shrinks d e) : e.Gone p := by
  rintro ⟨q, x⟩ hr
  exact h _ (he.find hr)

theorem NoDirAt.addsFiles (h : d.NoDirAt p) (he : AddsFiles d e) : e.NoDirAt p := by
  intro q hq
  have hl := locate_of_find hq
  have hs := spelled_of_locate hl
  refine h q (find_of_locate ?_)
  rw [locate_of_spelled _ _ hs] at hl ⊢
  rw [show d.startOf p = e.startOf p by simp only [startOf, he.working]]
  exact walk_directory he _ _ _ _ _ hl

theorem OnlyDirAt.shrinks (h : d.OnlyDirAt p) (he : Shrinks d e) : e.OnlyDirAt p :=
  fun q x hr => h q x (he.find hr)

theorem addsFiles_set_file (d : Disk) (q : Place) (content : Bytes) (time : Int) :
    AddsFiles d (d.set q (.file content time)) := by
  have hset : ∀ r x, (d.set q (.file content time)).get? r = some x →
      x ≠ .file content time → d.get? r = some x := by
    intro r x hr hx
    by_cases hrq : r = q
    · subst hrq
      cases r with
      | nil => exact hr
      | cons name r =>
        rw [get?_set_self d (List.cons_ne_nil _ _)] at hr
        cases hr
        exact absurd rfl hx
    · rwa [get?_set_of_ne d hrq] at hr
  exact ⟨rfl, fun r hr => hset r _ hr nofun, fun r _ hr => hset r _ hr nofun⟩

theorem shrinks_erase (d : Disk) (q : Place) : Shrinks d (d.erase q) := by
  refine ⟨rfl, fun r x hr => ?_⟩
  by_cases hrq : r = q
  · subst hrq
    cases r with
    | nil => exact hr
    | cons name r =>
      rw [get?_erase_self d (List.cons_ne_nil _ _)] at hr
      cases hr
  · rwa [get?_erase_of_ne d hrq] at hr

theorem shrinks_eraseTree (d : Disk) {q : Place} (hq : q ≠ []) : Shrinks d (d.eraseTree q) := by
  refine ⟨rfl, fun r x hr => ?_⟩
  rw [get?_eraseTree d hq] at hr
  split at hr
  · cases hr
  · exact hr

/-- A file that could be written is where its path leads, in the place of a file or of nothing. A
device only takes what is written. -/
theorem writeFile_ok {content : Bytes} {now : Int}
    (h : d.writeFile p content now = (.ok (), e)) :
    (∃ q, d.locate .follow p = .ok (d.targetAt q) ∧
      (∀ x, d.get? q = some x → ∃ content time, x = .file content time) ∧
      e = d.set q (.file content now)) ∨
    (∃ q kind, d.find .follow p = .ok (q, .device kind)) ∧ e = d := by
  unfold writeFile modify at h
  cases hl : d.locate .follow p with
  | error cause =>
    exfalso
    simp only [hl] at h
    split at h
    · cases h
    · split at h <;> cases h
  | ok t =>
    rw [hl] at h
    cases t with
    | missing q =>
      cases h
      have hget := (locate_missing_get hl).1
      exact .inl ⟨q, by rw [targetAt, hget], by simp [hget], rfl⟩
    | found q x =>
      cases x with
      | file old time =>
        cases h
        have hget := find_entry (find_of_locate hl) (by simp)
        exact .inl ⟨q, by rw [targetAt, hget], by simp [hget], rfl⟩
      | device kind =>
        cases h
        exact .inr ⟨⟨q, kind, find_of_locate hl⟩, rfl⟩
      | directory => cases h
      | link target => cases h

theorem writeFile_error {content : Bytes} {now : Int} {cause : IoError}
    (h : d.writeFile p content now = (.error cause, e)) : e = d := by
  unfold writeFile modify at h
  split at h
  · split at h
    · cases h
      rfl
    · split at h <;> cases h <;> rfl
  all_goals cases h <;> rfl

/-- A file is written where a file is or nothing. -/
theorem writeFile_cases (d : Disk) (p : Path) (content : Bytes) (now : Int) :
    (d.writeFile p content now).2 = d ∨ ∃ t q, d.locate .follow p = .ok t ∧ t.place = q ∧
      (∀ x, d.get? q = some x → x ≠ .directory ∧ ∀ target, x ≠ .link target) ∧
      (d.writeFile p content now).2 = d.set q (.file content now) := by
  cases hwrite : d.writeFile p content now with
  | mk answer e =>
    cases answer with
    | error cause => exact .inl (writeFile_error hwrite)
    | ok =>
      obtain ⟨q, hl, hold, rfl⟩ | ⟨-, rfl⟩ := writeFile_ok hwrite
      · refine .inr ⟨_, q, hl, targetAt_place d q, fun x hx => ?_, rfl⟩
        obtain ⟨content, time, rfl⟩ := hold x hx
        simp
      · exact .inl rfl

theorem writeFile_addsFiles (d : Disk) (p : Path) (content : Bytes) (now : Int) :
    AddsFiles d (d.writeFile p content now).2 := by
  obtain h | ⟨t, q, -, -, -, h⟩ := writeFile_cases d p content now
  · rw [h]
    exact (Shrinks.refl d).addsFiles
  · rw [h]
    exact addsFiles_set_file d q content now

theorem removeFile_shrinks (d : Disk) (p : Path) : Shrinks d (d.removeFile p).2 := by
  unfold removeFile
  split
  · exact .refl d
  · exact .refl d
  · exact shrinks_erase d _

/-- An entry that is removed is no directory. -/
theorem removeFile_ok (h : d.removeFile p = (.ok (), e)) :
    ∃ q x, d.find .keep p = .ok (q, x) ∧ x ≠ .directory ∧ e = d.erase q := by
  unfold removeFile at h
  cases hfind : d.find .keep p with
  | error cause =>
    rw [hfind] at h
    cases h
  | ok found =>
    obtain ⟨q, x⟩ := found
    rw [hfind] at h
    cases x with
    | directory => cases h
    | _ =>
      cases h
      exact ⟨q, _, rfl, nofun, rfl⟩

theorem removeFile_error {cause : IoError} (h : d.removeFile p = (.error cause, e)) : e = d := by
  unfold removeFile at h
  split at h <;> cases h <;> rfl

/-- What is removed is gone, unless a directory stands there. -/
theorem removeFile_gone (h : d.NoDirAt p) : (d.removeFile p).2.Gone p := by
  rintro ⟨r, y⟩ hr
  have hold := (removeFile_shrinks d p).find hr
  unfold removeFile at hr
  rw [hold] at hr
  cases y with
  | directory => exact h r hold
  | _ =>
    have hroot : r ≠ [] := by
      rintro rfl
      have hget := find_entry hold nofun
      cases hget
    have hget := find_entry hr nofun
    simp only [done] at hget
    rw [get?_erase_self d hroot] at hget
    cases hget

/-- A file that could be removed was no directory. -/
theorem noDirAt_of_removeFile {r : Except IoError Unit} (h : d.removeFile p = (r, e))
    (hr : ∀ cause, r = .error cause → cause.kind = .notFound) : d.NoDirAt p := by
  intro q hq
  unfold removeFile at h
  rw [hq] at h
  cases h
  have hkind : IoError.isDirectory.kind ≠ .notFound := by decide
  exact hkind (hr _ rfl)

/-- Nothing was under the path of a file that is new, and no directory is there now. -/
theorem createNew_noDirAt {now : Int} (h : d.createNew p now = (.ok (), e)) : e.NoDirAt p := by
  unfold createNew at h
  split at h
  · cases h
  · next q hl =>
    cases h
    refine NoDirAt.addsFiles (d := d) (fun r hr => ?_) (addsFiles_set_file d q [] now)
    rw [locate_of_find hr] at hl
    cases hl
  · cases h

/-- A directory is made where nothing was. -/
theorem makeDir_onlyDirAt {name : FileName} (hn : Ordinary name)
    (h : d.makeDir (p.join name) = (.ok (), e)) : e.OnlyDirAt (p.join name) := by
  obtain ⟨D, hopens, hl, rfl⟩ := makeDir_join_ok hn h
  obtain ⟨hget, hroot⟩ := locate_missing_get hl
  intro q x hq
  obtain ⟨-, E, hE, rfl, hx⟩ := (find_join hn).mp hq
  -- the directory above is where it was
  have hgrow := grows_set_directory hget hroot
  obtain rfl : D = E := (hopens.mono hgrow.working fun _ _ => hgrow.get_of_some).unique hE
  rw [get?_set_self d hroot] at hx
  cases hx
  rfl

/-- A file written into a directory does not stand in the place of the directory. -/
theorem OnlyDirAt.writeFile {name : FileName} (h : d.OnlyDirAt (p.join name))
    (hn : Ordinary name) {inner : FileName} (hinner : Ordinary inner) (content : Bytes)
    (now : Int) : (d.writeFile ((p.join name).join inner) content now).2.OnlyDirAt
      (p.join name) := by
  have hfiles := writeFile_addsFiles d ((p.join name).join inner) content now
  obtain hsame | ⟨t, place, hl, rfl, hold, hset⟩ :=
    writeFile_cases d ((p.join name).join inner) content now
  · rwa [hsame]
  rw [hset] at hfiles ⊢
  intro q x hq
  obtain ⟨hs, D, hD, rfl, hx⟩ := (find_join hn).mp hq
  have hD' := hfiles.opens hD
  by_cases hplace : name :: D = t.place
  · -- the path of the directory leads to a directory, or nothing could be written below it
    exfalso
    obtain ⟨S, hS⟩ := opens_of_locate_join hinner hl
    obtain ⟨r, y, hkeep⟩ := walk_keep_of_follow _ _ _ _ hS
    rw [← namesOf_eq_wayOf (asksDirectory_join p hn), ← locate_of_spelled d .keep hs] at hkeep
    obtain ⟨-, E, hE, rfl, hy⟩ := (find_join hn).mp (find_of_locate hkeep)
    obtain rfl : D = E := hD'.unique hE
    exact (hold y (hplace ▸ hy)).1 (h _ y (find_of_locate hkeep))
  · rw [get?_set_of_ne d hplace] at hx
    exact h _ x ((find_join hn).mpr ⟨hs, D, hD', rfl, hx⟩)

/-- A directory that is removed with everything in it is gone. -/
theorem removeTree_gone {name : FileName} (hn : Ordinary name) (h : d.OnlyDirAt (p.join name)) :
    (d.removeTree (p.join name)).2.Gone (p.join name) := by
  unfold removeTree
  cases hf : d.find .keep (p.join name) with
  | error cause => exact fun r hr => nomatch hf.symm.trans hr
  | ok found =>
    obtain ⟨q, x⟩ := found
    obtain rfl := h q x hf
    obtain ⟨-, D, hD, rfl, hget⟩ := (find_join hn).mp hf
    have hroot : name :: D ≠ [] := List.cons_ne_nil _ _
    have hshrinks := shrinks_eraseTree d hroot
    rintro ⟨r, y⟩ hr
    obtain ⟨-, E, hE, rfl, hy⟩ := (find_join hn).mp hr
    obtain rfl : D = E := hD.unique (hshrinks.addsFiles.opens hE)
    simp only [done] at hy
    rw [get?_eraseTree d hroot, if_pos (List.suffix_refl _)] at hy
    cases hy

/-- Nothing is found in a directory that is gone. -/
theorem Gone.join {name inner : FileName} (h : d.Gone (p.join name)) (hn : Ordinary name)
    (hinner : Ordinary inner) : d.Gone ((p.join name).join inner) := by
  rintro ⟨q, x⟩ hq
  obtain ⟨hs, S, hS, -⟩ := (find_join hinner).mp hq
  obtain ⟨r, y, hkeep⟩ := walk_keep_of_follow _ _ _ _ hS
  rw [← namesOf_eq_wayOf (asksDirectory_join p hn),
    ← locate_of_spelled d .keep (hs.of_join (join_ne_nil p hn))] at hkeep
  exact h _ (find_of_locate hkeep)

end Change

end Disk

end DiagramService

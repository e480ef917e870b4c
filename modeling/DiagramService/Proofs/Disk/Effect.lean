import DiagramService.Proofs.Disk.Leads

/-! What the operations do to one entry of a directory that a path leads to, as a matter of what is
at its place. An operation on a path that cannot be looked up fails alike on all disks. Making a
directory with its parents adds directories where nothing was and changes nothing else. -/

namespace DiagramService

namespace Disk

/-! ## Files of a directory -/

section Entry

variable {d : Disk} {p : Path} {D : Place} {name : FileName}

/-- A name without slashes does not ask for a directory. -/
theorem asksDirectory_join (p : Path) (hn : Ordinary name) :
    asksDirectory (p.join name) = false := by
  obtain ⟨c, hc⟩ := Option.isSome_iff_exists.mp (List.getLast?_isSome.mpr hn.nonempty)
  have hslash : c ≠ '/' := fun h => hn.noSlash (h ▸ List.mem_of_getLast? hc)
  unfold asksDirectory Path.join
  split <;> simp [List.getLast?_append, List.getLast?_cons, hc, hslash]

/-- What is in a directory of another one is named after a slash. -/
theorem join_join (p : Path) (hn : Ordinary name) (inner : FileName) :
    (p.join name).join inner = ⟨(p.join name).chars ++ '/' :: inner⟩ := by
  have hend : ((p.join name).chars.getLast? == some '/') = false := asksDirectory_join p hn
  have hne : (p.join name).chars.isEmpty = false := by simp [join_ne_nil p hn]
  rw [Path.join, hend, hne]
  rfl

/-- A directory with a shorter name can be looked into as well. -/
theorem Spelled.rename {name' inner : FileName} (h : Spelled ((p.join name).join inner))
    (hn : Ordinary name) (hn' : Ordinary name') (hz : '\x00' ∉ name')
    (hle : byteLength name' ≤ byteLength name) : Spelled ((p.join name').join inner) := by
  obtain ⟨base, hjoin, -⟩ := join_eq p
  obtain ⟨-, hzero, hfits⟩ := h
  rw [join_join p hn, hjoin] at hzero hfits
  rw [join_join p hn', hjoin]
  refine ⟨by simp, ?_, ?_⟩
  · simp only [List.mem_append, not_or] at hzero ⊢
    exact ⟨⟨hzero.1.1, hz⟩, hzero.2⟩
  · simp only [byteLength_append] at hfits ⊢
    omega

theorem Opens.createNew (h : d.Opens p D) (hn : Ordinary name) (hs : Spelled (p.join name))
    (now : Int) : d.createNew (p.join name) now =
      if d.get? (name :: D) = none then (d.set (name :: D) (.file [] now)).done
      else d.fail .exists_ := by
  cases hget : d.get? (name :: D) with
  | none => simp [Disk.createNew, h.locate_missing hn hs .keep hget]
  | some x => simp [Disk.createNew, h.locate_found hn hs .keep hget fun _ _ => rfl]

theorem Opens.removeFile (h : d.Opens p D) (hn : Ordinary name) (hs : Spelled (p.join name)) :
    d.removeFile (p.join name) =
      match d.get? (name :: D) with
      | none => d.fail .notFound
      | some .directory => d.fail .isDirectory
      | some _ => (d.erase (name :: D)).done := by
  cases hget : d.get? (name :: D) with
  | none => simp [Disk.removeFile, find, h.locate_missing hn hs .keep hget]
  | some x =>
    have hl := h.locate_found hn hs .keep hget fun _ _ => rfl
    cases x <;> simp [Disk.removeFile, find, hl]

theorem Opens.writeFile (h : d.Opens p D) (hn : Ordinary name) (hs : Spelled (p.join name))
    {old : Bytes} {time : Int} (hget : d.get? (name :: D) = some (.file old time))
    (content : Bytes) (now : Int) : d.writeFile (p.join name) content now =
      (d.set (name :: D) (.file content now)).done := by
  simp [Disk.writeFile, modify, h.locate_found hn hs .follow hget nofun]

theorem Opens.writeFile_new (h : d.Opens p D) (hn : Ordinary name) (hs : Spelled (p.join name))
    (hget : d.get? (name :: D) = none) (content : Bytes) (now : Int) :
    d.writeFile (p.join name) content now = (d.set (name :: D) (.file content now)).done := by
  simp [Disk.writeFile, modify, h.locate_missing hn hs .follow hget]

theorem Opens.removeTree (h : d.Opens p D) (hn : Ordinary name) (hs : Spelled (p.join name))
    (hget : d.get? (name :: D) = some .directory) :
    d.removeTree (p.join name) = (d.eraseTree (name :: D)).done := by
  simp [Disk.removeTree, find, h.locate_found hn hs .keep hget nofun]

theorem Opens.contentAt_file (h : d.Opens p D) (hn : Ordinary name)
    (hs : Spelled (p.join name)) {content : Bytes} {time : Int}
    (hget : d.get? (name :: D) = some (.file content time)) :
    d.contentAt (p.join name) = .ok content := by
  simp [contentAt, find, h.locate_found hn hs .follow hget nofun]

theorem Opens.contentAt_missing (h : d.Opens p D) (hn : Ordinary name)
    (hs : Spelled (p.join name)) (hget : d.get? (name :: D) = none) :
    d.contentAt (p.join name) = .error .notFound := by
  simp [contentAt, find, h.locate_missing hn hs .follow hget]

theorem Opens.contentAt_directory (h : d.Opens p D) (hn : Ordinary name)
    (hs : Spelled (p.join name)) (hget : d.get? (name :: D) = some .directory) :
    d.contentAt (p.join name) = .error .isDirectory := by
  simp [contentAt, find, h.locate_found hn hs .follow hget nofun]

theorem createNew_of_not_spelled (p : Path) (hn : Ordinary name)
    (hs : ¬ Spelled (p.join name)) : ∃ x : IoError, x.kind = .other ∧
      ∀ (d : Disk) (now : Int), d.createNew (p.join name) now = d.fail x := by
  obtain ⟨x, hx, hl⟩ := locate_of_not_spelled (join_ne_nil p hn) hs
  exact ⟨x, hx, fun d now => by simp [Disk.createNew, hl]⟩

/-- A content is only read along a path that can be looked up. -/
theorem spelled_of_contentAt {content : Bytes} (hn : Ordinary name)
    (h : d.contentAt (p.join name) = .ok content) : Spelled (p.join name) := by
  refine Classical.byContradiction fun hs => ?_
  obtain ⟨x, -, hl⟩ := locate_of_not_spelled (join_ne_nil p hn) hs
  simp [contentAt, find, hl] at h

end Entry

/-! ## Changes of one entry -/

/-- Changes nothing but what is at a path, and puts a file there or removes what is there. -/
structure Alters (p : Path) (d e : Disk) : Prop where
  off : AgreesOff (d.At p) d e
  left : ∀ q, d.At p q → e.get? q = d.get? q ∨ e.get? q = none ∨
    ∃ content time, e.get? q = some (.file content time)

/-- Leaves an entry at the place that a path names. -/
def leave (d : Disk) (p : Path) (x : Entry) : Disk :=
  match d.locate .keep p with
  | .ok t => d.set t.place x
  | .error _ => d

theorem agreesOff_leave (d : Disk) (p : Path) (x : Entry) :
    AgreesOff (d.At p) d (d.leave p x) := by
  unfold leave
  split
  · next t ht => exact agreesOff_set d ⟨t, ht, rfl⟩ x
  · exact .refl _ d

theorem alters_leave (d : Disk) (p : Path) (content : Bytes) (time : Int) :
    Alters p d (d.leave p (.file content time)) := by
  refine ⟨agreesOff_leave d p _, ?_⟩
  rintro q ⟨t, ht, rfl⟩
  rw [leave, ht]
  by_cases hroot : t.place = []
  · exact .inl (by rw [hroot]; rfl)
  · exact .inr (.inr ⟨content, time, get?_set_self d hroot _⟩)

theorem Opens.leave {d : Disk} {p : Path} {D : Place} {name : FileName} (h : d.Opens p D)
    (hn : Ordinary name) (hs : Spelled (p.join name)) (x : Entry) :
    d.leave (p.join name) x = d.set (name :: D) x := by
  unfold Disk.leave
  cases hget : d.get? (name :: D) with
  | none =>
    rw [h.locate_missing hn hs .keep hget]
    rfl
  | some y =>
    rw [h.locate_found hn hs .keep hget fun _ _ => rfl]
    rfl

/-! ## Directories -/

/-- A disk has nothing but more directories than another. -/
structure Grows (d e : Disk) : Prop where
  working : e.working = d.working
  get : ∀ q, e.get? q = d.get? q ∨ d.get? q = none ∧ e.get? q = some .directory

theorem Grows.refl (d : Disk) : Grows d d :=
  ⟨rfl, fun _ => .inl rfl⟩

theorem Grows.trans {d e f : Disk} (h : Grows d e) (h' : Grows e f) : Grows d f := by
  refine ⟨h'.working.trans h.working, fun q => ?_⟩
  rcases h.get q with hq | ⟨hq, hdir⟩
  · rcases h'.get q with hq' | ⟨hq', hdir'⟩
    · exact .inl (hq'.trans hq)
    · exact .inr ⟨hq ▸ hq', hdir'⟩
  · rcases h'.get q with hq' | ⟨hq', -⟩
    · exact .inr ⟨hq, hq'.trans hdir⟩
    · rw [hdir] at hq'
      cases hq'

theorem Grows.get_of_some {d e : Disk} (h : Grows d e) {q : Place} {x : Entry}
    (hq : d.get? q = some x) : e.get? q = some x := by
  rcases h.get q with h' | ⟨h', -⟩
  · rw [h', hq]
  · rw [hq] at h'
    cases h'

/-- A walk that ends at a missing name ends where nothing is. -/
theorem walk_missing_get {d : Disk} (last : LastLink) (links : Nat) (place : Place)
    (entry : Entry) (names : List FileName) {q : Place}
    (hw : d.walk last links place entry names = .ok (.missing q)) :
    d.get? q = none ∧ q ≠ [] := by
  fun_induction walk d last links place entry names with
  | case3 links place entry y rest _ _ ih => exact ih hw
  | case4 links place entry y rest _ _ _ ih => exact ih hw
  | case6 links place entry y rest _ _ _ _ hget _ =>
    cases hw
    exact ⟨hget, List.cons_ne_nil _ _⟩
  | case10 place entry y rest _ _ _ _ target _ _ links ih => exact ih hw
  | case11 links place entry y rest _ _ _ _ old _ _ ih => exact ih hw
  | _ => cases hw

theorem locate_missing_get {d : Disk} {last : LastLink} {p : Path} {q : Place}
    (h : d.locate last p = .ok (.missing q)) : d.get? q = none ∧ q ≠ [] := by
  unfold locate at h
  split at h
  · cases h
  · split at h
    · cases h
    · split at h
      · cases h
      · exact walk_missing_get _ _ _ _ _ h

theorem grows_set_directory {d : Disk} {q : Place} (hget : d.get? q = none) (hq : q ≠ []) :
    Grows d (d.set q .directory) := by
  refine ⟨rfl, fun r => ?_⟩
  by_cases hr : r = q
  · rw [hr]
    exact .inr ⟨hget, get?_set_self d hq _⟩
  · exact .inl (get?_set_of_ne d hr _)

theorem makeDir_error {d d' : Disk} {p : Path} {e : IoError} (h : d.makeDir p = (.error e, d')) :
    d' = d := by
  unfold makeDir at h
  split at h <;> cases h <;> rfl

theorem makeDir_grows (d : Disk) (p : Path) : Grows d (d.makeDir p).2 := by
  unfold makeDir
  split
  · exact .refl d
  · next q hl =>
    obtain ⟨hget, hq⟩ := locate_missing_get hl
    exact grows_set_directory hget hq
  · exact .refl d

/-- The paths that a path goes along: the path itself, its parent, the parent of that, and so on. -/
inductive Along (p : Path) : Path → Prop
  | self : Along p p
  | up {q r : Path} (h : Along p q) (hparent : q.parent? = some r) : Along p r

/-- What is kept when one directory is made is kept when its parents are made too. -/
theorem makeDirsWithin_keeps {P : Disk → Prop} {p₀ : Path}
    (hmakeDir : ∀ d p, Along p₀ p → P d → P (d.makeDir p).2) (fuel : Nat) {d : Disk} {p : Path}
    (hp : Along p₀ p) (hd : P d) : P (makeDirsWithin fuel d p).2 := by
  induction fuel generalizing d p with
  | zero => exact hd
  | succ fuel ih =>
    unfold makeDirsWithin
    split
    · exact hd
    · have hmade := hmakeDir d p hp hd
      split
      · next h => rwa [h] at hmade
      · next h =>
        rw [h] at hmade
        split
        · split
          · exact hmade
          · exact hmade
        · split
          · exact hmade
          · -- the parent is missing: it is made first, and then there is a second attempt
            next hparent =>
            have hup := ih (hp.up hparent) hmade
            split
            · next h' => rwa [h'] at hup
            · next h' =>
              rw [h'] at hup
              have hagain := hmakeDir _ p hp hup
              split
              · next h'' => rwa [h''] at hagain
              · next h'' =>
                rw [h''] at hagain
                split
                · exact hagain
                · exact hagain

/-- Making a directory adds directories and changes nothing else. -/
theorem makeDirs_grows (d : Disk) (p : Path) : Grows d (d.makeDirs p).2 :=
  makeDirsWithin_keeps (fun e q _ h => h.trans (makeDir_grows e q)) _ .self (.refl d)

/-- A walk that finds something also finds something if a link at its end is kept. -/
theorem walk_keep_of_follow {d : Disk} (links : Nat) (place : Place) (entry : Entry)
    (names : List FileName) {q : Place} {x : Entry}
    (hw : d.walk .follow links place entry names = .ok (.found q x)) :
    ∃ r y, d.walk .keep links place entry names = .ok (.found r y) := by
  fun_induction walk d .follow links place entry names with
  | case1 links place entry => exact ⟨place, entry, by rw [walk]⟩
  | case3 links place entry y rest hd hdot ih =>
    rw [walk]; simp only [hd, hdot, if_true]; exact ih hw
  | case4 links place entry y rest hd hdot hdots ih =>
    rw [walk]; simp only [hd, hdot, hdots, if_true]; exact ih hw
  | case10 place entry y rest hd hdot hdots hlong target hget _ links ih =>
    by_cases hrest : rest.isEmpty
    · exact ⟨_, _, by rw [walk]; simp only [hd, hdot, hdots, hlong, hget, hrest]; rfl⟩
    · obtain ⟨r, z, h⟩ := ih hw
      refine ⟨r, z, ?_⟩
      rw [walk]; simp only [hd, hdot, hdots, hlong, hget, hrest]; exact h
  | case11 links place entry y rest hd hdot hdots hlong old hold hget ih =>
    rw [walk]; simp only [hd, hdot, hdots, hlong, hget, if_false]
    cases old with
    | link target => exact absurd rfl (hold target)
    | _ => exact ih hw
  | _ => simp_all

theorem trimSlashes_slash {cs : List Char} (h : cs ≠ []) :
    trimSlashes ⟨cs ++ ['/']⟩ = trimSlashes ⟨cs⟩ := by
  obtain ⟨c, ds, rfl⟩ := List.exists_cons_of_ne_nil h
  simp [trimSlashes]

/-- The slashes at the end of a path are not needed to find the directory it leads to. -/
theorem trimSlashes_spec (p : Path) (h : p.chars ≠ []) : (trimSlashes p).chars ≠ [] ∧
    (trimSlashes p).isAbsolute = p.isAbsolute ∧ namesOf (trimSlashes p) = wayOf p := by
  obtain ⟨cs⟩ := p
  obtain ⟨rs, rfl⟩ : ∃ rs, cs = rs.reverse := ⟨cs.reverse, cs.reverse_reverse.symm⟩
  induction rs with
  | nil => exact absurd rfl h
  | cons c rs ih =>
    by_cases hc : c = '/'
    · subst hc
      rw [List.reverse_cons]
      by_cases hnil : rs.reverse = []
      · rw [hnil]
        exact ⟨by simp [trimSlashes], by simp [trimSlashes], by decide⟩
      · rw [trimSlashes_slash hnil, wayOf_slash]
        obtain ⟨hne, habs, hway⟩ := ih hnil
        obtain ⟨a, as, ha⟩ := List.exists_cons_of_ne_nil hnil
        refine ⟨hne, habs.trans ?_, hway⟩
        rw [ha]
        rfl
    · have htrim : trimSlashes ⟨(c :: rs).reverse⟩ = ⟨(c :: rs).reverse⟩ := by
        simp [trimSlashes, hc]
      rw [htrim]
      exact ⟨h, rfl, by simp [namesOf, wayOf, hc]⟩

section Opens

variable {d : Disk} {p : Path} {D : Place}

/-- A directory that is there cannot be made. -/
theorem Opens.makeDir_fails (h : d.Opens p D) (hne : p.chars ≠ []) :
    ∃ x : IoError, d.makeDir p = d.fail x ∧ x.kind ≠ .notFound := by
  obtain ⟨hne', habs, hway⟩ := trimSlashes_spec p hne
  have hstart : d.startOf (trimSlashes p) = d.startOf p := by simp only [startOf, habs]
  by_cases hs : Spelled (trimSlashes p)
  · obtain ⟨r, y, hw⟩ := walk_keep_of_follow _ _ _ _ h
    refine ⟨.exists_, ?_, by decide⟩
    rw [Disk.makeDir, locate_of_spelled d .keep hs, hstart, hway, hw]
  · obtain ⟨x, hx, hl⟩ := locate_of_not_spelled hne' hs
    exact ⟨x, by rw [Disk.makeDir, hl], by rw [hx]; decide⟩

/-- A directory that is there need not be made. -/
theorem Opens.makeDirs (h : d.Opens p D) : (d.makeDirs p).2 = d := by
  unfold Disk.makeDirs depth makeDirsWithin
  split
  · rfl
  · next hp =>
    obtain ⟨x, hmake, hx⟩ := h.makeDir_fails (by simpa using hp)
    simp only [hmake, fail, bne_iff_ne, ne_eq, hx, not_false_eq_true, if_true]
    split <;> rfl

/-- A path that leads to a directory is one to a directory, also with slashes at its end. -/
theorem Opens.isDir (h : d.Opens p D) (hs : Spelled p) : d.isDir p = true := by
  have hwalk : d.walk .follow maxLinks (d.startOf p) .directory (namesOf p) =
      .ok (.found D .directory) := by
    simp only [namesOf]
    split
    · obtain ⟨links, hw⟩ :=
        walk_append d .follow maxLinks (d.startOf p) .directory (wayOf p) ['.']
      rw [show (p.chars.splitOn '/').filter (!·.isEmpty) = wayOf p from rfl, hw, h, walkOn]
      simp [walk]
    · exact h
  rw [Disk.isDir, find, locate_of_spelled d .follow hs, hwalk]

/-- Nothing is to be done for a directory that is there already. -/
theorem Opens.makeDirs_done (h : d.Opens p D) (hs : p.chars ≠ [] → Spelled p) :
    d.makeDirs p = d.done := by
  unfold Disk.makeDirs depth makeDirsWithin
  split
  · rfl
  · next hp =>
    have hne : p.chars ≠ [] := by simpa using hp
    obtain ⟨x, hmake, hx⟩ := h.makeDir_fails hne
    simp [hmake, fail, hx, h.isDir (hs hne)]

end Opens

/-! ## Operations on paths that can lead to one place only -/

/-- What is new on a disk is no link. -/
def NoNewLinks (d e : Disk) : Prop :=
  ∀ q target, e.get? q = some (.link target) → d.get? q = some (.link target)

theorem NoNewLinks.refl (d : Disk) : NoNewLinks d d :=
  fun _ _ h => h

/-- A change of one entry adds no link. -/
theorem Alters.noNewLinks {p : Path} {d e : Disk} (h : Alters p d e) : NoNewLinks d e := by
  intro q target hq
  by_cases hat : d.At p q
  · rcases h.left q hat with heq | heq | ⟨content, time, heq⟩ <;> rw [heq] at hq
    · exact hq
    · cases hq
    · cases hq
  · rwa [h.off.get q hat] at hq

theorem noNewLinks_set_file (d : Disk) {p : Place} (hp : p ≠ []) (content : Bytes) (time : Int) :
    NoNewLinks d (d.set p (.file content time)) := by
  intro q target h
  by_cases hq : q = p
  · rw [hq, get?_set_self d hp] at h
    cases h
  · rwa [get?_set_of_ne d hq] at h

theorem noNewLinks_erase (d : Disk) {p : Place} (hp : p ≠ []) : NoNewLinks d (d.erase p) := by
  intro q target h
  by_cases hq : q = p
  · rw [hq, get?_erase_self d hp] at h
    cases h
  · rwa [get?_erase_of_ne d hq] at h

theorem Grows.noNewLinks {d e : Disk} (h : Grows d e) : NoNewLinks d e := by
  intro q target hq
  rcases h.get q with heq | ⟨-, hdir⟩
  · rwa [← heq]
  · rw [hdir] at hq
    cases hq

theorem lookup_filter (es : List (Place × Entry)) (f : Place → Bool) (q : Place) :
    (es.filter fun e => f e.1).lookup q = if f q then es.lookup q else none := by
  induction es with
  | nil => simp
  | cons e es ih =>
    obtain ⟨r, x⟩ := e
    by_cases hq : q = r
    · subst hq
      by_cases hf : f q
      · simp [hf]
      · simp [hf, ih]
    · have hne : (q == r) = false := by simp [hq]
      by_cases hf : f r
      · simp only [List.filter_cons, hf, if_true, List.lookup_cons, hne, ih]
      · simp only [List.filter_cons, hf, List.lookup_cons, hne, ih, Bool.false_eq_true, if_false]

/-- Nothing is left at an erased place or below it. -/
theorem get?_eraseTree (d : Disk) {p : Place} (hp : p ≠ []) (q : Place) :
    (d.eraseTree p).get? q = if p <:+ q then none else d.get? q := by
  cases q with
  | nil => simp [hp]
  | cons name q =>
    have hlookup := lookup_filter d.entries (fun r => !p.isSuffixOf r) (name :: q)
    simp only [get?, eraseTree, List.isEmpty_cons, Bool.false_eq_true, if_false, hlookup]
    by_cases h : p <:+ name :: q
    · have hb : p.isSuffixOf (name :: q) = true := List.isSuffixOf_iff_suffix.mpr h
      simp [h, hb]
    · have hb : p.isSuffixOf (name :: q) = false :=
        Bool.eq_false_iff.mpr fun hb => h (List.isSuffixOf_iff_suffix.mp hb)
      simp [h, hb]

theorem agreesOff_eraseTree (d : Disk) {p : Place} (hp : p ≠ []) :
    AgreesOff (p <:+ ·) d (d.eraseTree p) :=
  ⟨rfl, fun q hq => by rw [get?_eraseTree d hp, if_neg hq]⟩

theorem noNewLinks_eraseTree (d : Disk) {p : Place} (hp : p ≠ []) :
    NoNewLinks d (d.eraseTree p) := by
  intro q target h
  rw [get?_eraseTree d hp] at h
  split at h
  · cases h
  · exact h

section OnePlace

variable {d : Disk} {p : Path} {q : Place}

theorem writeFile_onePlace (hp : ∀ t, d.locate .follow p = .ok t → t.place = q) (hq : q ≠ [])
    (content : Bytes) (now : Int) : AgreesOff (· = q) d (d.writeFile p content now).2 ∧
      NoNewLinks d (d.writeFile p content now).2 := by
  have hsame : AgreesOff (· = q) d d ∧ NoNewLinks d d := ⟨.refl _ d, .refl d⟩
  have hset : AgreesOff (· = q) d (d.set q (.file content now)) ∧
      NoNewLinks d (d.set q (.file content now)) := by
    refine ⟨agreesOff_set d ?_ _, noNewLinks_set_file d hq content now⟩
    rfl
  unfold writeFile modify
  split
  · split
    · exact hsame
    · split <;> exact hsame
  · next place hl => exact (hp _ hl : place = q) ▸ hset
  · next place _ _ hl => exact (hp _ hl : place = q) ▸ hset
  · exact hsame
  · exact hsame
  · exact hsame

theorem removeFile_onePlace (hp : ∀ t, d.locate .keep p = .ok t → t.place = q) (hq : q ≠ []) :
    AgreesOff (· = q) d (d.removeFile p).2 ∧ NoNewLinks d (d.removeFile p).2 := by
  have hsame : AgreesOff (· = q) d d ∧ NoNewLinks d d := ⟨.refl _ d, .refl d⟩
  unfold removeFile find
  cases hl : d.locate .keep p with
  | error e => exact hsame
  | ok t =>
    have hplace := hp t hl
    cases t with
    | missing place => exact hsame
    | found place x =>
      have herase : AgreesOff (· = q) d (d.erase place) ∧ NoNewLinks d (d.erase place) := by
        rw [show place = q from hplace]
        exact ⟨agreesOff_erase d rfl, noNewLinks_erase d hq⟩
      cases x with
      | directory => exact hsame
      | _ => exact herase

theorem removeTree_onePlace (hp : ∀ t, d.locate .keep p = .ok t → t.place = q) (hq : q ≠ []) :
    AgreesOff (q <:+ ·) d (d.removeTree p).2 ∧ NoNewLinks d (d.removeTree p).2 := by
  have hsame : AgreesOff (q <:+ ·) d d ∧ NoNewLinks d d := ⟨.refl _ d, .refl d⟩
  unfold removeTree find
  cases hl : d.locate .keep p with
  | error e => exact hsame
  | ok t =>
    have hplace := hp t hl
    cases t with
    | missing place => exact hsame
    | found place x =>
      rw [show place = q from hplace]
      cases x with
      | directory => exact ⟨agreesOff_eraseTree d hq, noNewLinks_eraseTree d hq⟩
      | link target =>
        exact ⟨(agreesOff_erase d rfl).mono fun r hr => hr ▸ List.suffix_refl q,
          noNewLinks_erase d hq⟩
      | _ => exact hsame

end OnePlace

end Disk

end DiagramService

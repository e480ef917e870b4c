import DiagramService.Proofs.Disk.Same
import DiagramService.Proofs.Path.Parts

/-! Directories on the way to a path. Making a directory with its parents makes no other directories
than those that the path goes along, each where its own path leads. -/

namespace DiagramService

namespace Disk

/-- Nothing has changed but that some directories were made that a path goes along, where nothing
was. -/
structure Paves (p : Path) (d e : Disk) : Prop where
  working : e.working = d.working
  get : ∀ q, e.get? q = d.get? q ∨
    d.get? q = none ∧ e.get? q = some .directory ∧ ∃ r, Along p r ∧ e.Opens r q

section Paves

variable {p : Path} {d e f : Disk}

theorem Paves.refl (p : Path) (d : Disk) : Paves p d d :=
  ⟨rfl, fun _ => .inl rfl⟩

theorem Paves.grows (h : Paves p d e) : Grows d e :=
  ⟨h.working, fun q => (h.get q).imp_right fun ⟨hnone, hdir, _⟩ => ⟨hnone, hdir⟩⟩

theorem Paves.trans (h : Paves p d e) (h' : Paves p e f) : Paves p d f := by
  refine ⟨h'.working.trans h.working, fun q => ?_⟩
  rcases h.get q with hq | ⟨hnone, hdir, r, hr, hopens⟩
  · rw [← hq]
    exact h'.get q
  · -- what was made first is still there
    have hkeep : ∀ q x, e.get? q = some x → f.get? q = some x := fun _ _ => h'.grows.get_of_some
    exact .inr ⟨hnone, hkeep q _ hdir, r, hr, hopens.mono h'.working hkeep⟩

theorem Paves.same (h : Paves p d e) (hsame : Same e f) : Paves p d f := by
  refine ⟨hsame.1.symm.trans h.working, fun q => ?_⟩
  have hkeep : ∀ q x, e.get? q = some x → f.get? q = some x := fun q x hq => by rw [← hsame.2, hq]
  rcases h.get q with hq | ⟨hnone, hdir, r, hr, hopens⟩
  · exact .inl ((hsame.2 q).symm.trans hq)
  · exact .inr ⟨hnone, hkeep q _ hdir, r, hr, hopens.mono hsame.1.symm hkeep⟩

/-- The empty path names no directory that could be made. -/
theorem makeDir_nonempty {d' : Disk} {r : Path} (h : d.makeDir r = (.ok (), d')) :
    r.chars ≠ [] := by
  intro hnil
  simp [makeDir, trimSlashes, hnil, locate, fail] at h

theorem makeDir_paves (d : Disk) {r : Path} (hr : Along p r) : Paves p d (d.makeDir r).2 := by
  cases hmake : d.makeDir r with
  | mk made d' =>
    cases made with
    | error cause =>
      rw [makeDir_error hmake]
      exact .refl p d
    | ok =>
      have hne := makeDir_nonempty hmake
      obtain ⟨D, hget, hroot, rfl, hopens⟩ := makeDir_made hne hmake
      refine ⟨rfl, fun q => ?_⟩
      by_cases hq : q = D
      · subst hq
        exact .inr ⟨hget, get?_set_self d hroot _, r, hr, hopens⟩
      · exact .inl (get?_set_of_ne d hq _)

theorem makeDirs_paves (d : Disk) (p : Path) : Paves p d (d.makeDirs p).2 :=
  makeDirsWithin_keeps (fun e _ hq h => h.trans (makeDir_paves e hq)) _ .self (.refl p d)

end Paves

/-! ## The names of the directories that were made -/

/-- A path that goes up has no other names than those it goes up from. -/
theorem wayOf_dropVoid {cs : List Char} {name : FileName}
    (h : name ∈ wayOf ⟨(Path.dropVoid cs).reverse⟩) : name ∈ wayOf ⟨cs.reverse⟩ := by
  fun_induction Path.dropVoid cs with
  | case1 cs ih =>
    rw [List.reverse_cons, wayOf_slash]
    exact ih h
  | case2 cs ih =>
    have hcut : wayOf ⟨('.' :: '/' :: cs).reverse⟩ = wayOf ⟨cs.reverse⟩ ++ wayOf ⟨['.']⟩ := by
      simp [wayOf, List.splitOn_append_cons_self]
    rw [hcut]
    exact List.mem_append_left _ (ih h)
  | case3 cs => exact h

theorem wayOf_dropName {cs : List Char} {name : FileName}
    (h : name ∈ wayOf ⟨(Path.dropVoid (cs.dropWhile (· != '/'))).reverse⟩) :
    name ∈ wayOf ⟨cs.reverse⟩ := by
  have hrest := wayOf_dropVoid h
  have hcs := List.takeWhile_append_dropWhile (p := (· != '/')) (l := cs)
  rcases Path.dropWhile_slash cs with hdrop | ⟨rest, hdrop⟩
  · rw [hdrop] at hrest
    cases hrest
  · -- what is dropped is the last name, which starts after a slash
    rw [hdrop] at hrest hcs
    have hrev : cs.reverse = rest.reverse ++ '/' :: (cs.takeWhile (· != '/')).reverse := by
      simpa using congrArg List.reverse hcs.symm
    have hcut : wayOf ⟨cs.reverse⟩ =
        wayOf ⟨rest.reverse⟩ ++ wayOf ⟨(cs.takeWhile (· != '/')).reverse⟩ := by
      rw [hrev]
      simp [wayOf, List.splitOn_append_cons_self]
    rw [List.reverse_cons, wayOf_slash] at hrest
    rw [hcut]
    exact List.mem_append_left _ hrest

theorem wayOf_parent {p r : Path} (h : p.parent? = some r) {name : FileName}
    (hname : name ∈ wayOf r) : name ∈ wayOf p := by
  have hup : ∀ {cs : List Char}, name ∈ wayOf ⟨(Path.dropVoid
      ((Path.dropVoid cs).dropWhile (· != '/'))).reverse⟩ → name ∈ wayOf ⟨cs.reverse⟩ :=
    fun hmem => wayOf_dropVoid (wayOf_dropName hmem)
  unfold Path.parent? at h
  simp only at h
  split at h
  · cases h
  · split at h
    · cases h
      have hroot : wayOf ⟨['/']⟩ = [] := by decide
      rw [hroot] at hname
      cases hname
    · cases h
      simpa using hup hname

theorem Along.wayOf {p r : Path} (h : Along p r) {name : FileName} (hname : name ∈ wayOf r) :
    name ∈ wayOf p := by
  induction h with
  | self => exact hname
  | up _ hparent ih => exact ih (wayOf_parent hparent hname)

/-- A walk that keeps a link at its end misses the last of its names. -/
theorem walk_missing_name {d : Disk} {links : Nat} {place : Place} {entry : Entry}
    {names : List FileName} {q : Place}
    (h : d.walk .keep links place entry names = .ok (.missing q)) :
    ∃ name P, q = name :: P ∧ names.getLast? = some name := by
  have hcons : ∀ (first : FileName) {rest : List FileName} {name : FileName},
      rest.getLast? = some name → (first :: rest).getLast? = some name := by
    intro first rest name hlast
    simp [List.getLast?_cons, hlast]
  fun_induction walk d .keep links place entry names with
  | case3 links place entry name rest _ _ ih =>
    obtain ⟨name', P, hq, hlast⟩ := ih h
    exact ⟨name', P, hq, hcons _ hlast⟩
  | case4 links place entry name rest _ _ _ ih =>
    obtain ⟨name', P, hq, hlast⟩ := ih h
    exact ⟨name', P, hq, hcons _ hlast⟩
  | case6 links place entry name rest _ _ _ _ hget hrest =>
    cases h
    obtain rfl : rest = [] := by simpa using hrest
    exact ⟨name, place, rfl, rfl⟩
  | case10 place entry name rest _ _ _ _ target hget hend links ih =>
    -- the names of a link come before those that are left, of which there are some
    obtain ⟨name', P, hq, hlast⟩ := ih h
    obtain ⟨last, hrest⟩ := Option.isSome_iff_exists.mp
      (List.getLast?_isSome.mpr (show rest ≠ [] by simpa using hend))
    rw [List.getLast?_append, hrest, Option.some_or] at hlast
    exact ⟨name', P, hq, hcons _ (hrest.trans hlast)⟩
  | case11 links place entry name rest _ _ _ _ old hold hget ih =>
    cases old with
    | link target => exact absurd rfl (hold target)
    | _ =>
      obtain ⟨name', P, hq, hlast⟩ := ih h
      exact ⟨name', P, hq, hcons _ hlast⟩
  | _ => cases h

/-- Nothing has changed but at places whose last name is on the way of a path. -/
def NamedBy (p : Path) (d e : Disk) : Prop :=
  ∀ name P, e.get? (name :: P) = d.get? (name :: P) ∨ name ∈ wayOf p

theorem makeDir_namedBy {p r : Path} {d e : Disk} (hr : Along p r) (h : NamedBy p d e) :
    NamedBy p d (e.makeDir r).2 := by
  cases hmake : e.makeDir r with
  | mk made e' =>
    cases made with
    | error cause =>
      rw [makeDir_error hmake]
      exact h
    | ok =>
      have hne := makeDir_nonempty hmake
      unfold makeDir at hmake
      split at hmake
      · cases hmake
      · next place hl =>
        cases hmake
        rw [locate_of_spelled _ _ (spelled_of_locate hl), (trimSlashes_spec r hne).2.2] at hl
        obtain ⟨name, P, rfl, hlast⟩ := walk_missing_name hl
        intro name' P'
        by_cases hplace : name' :: P' = name :: P
        · cases hplace
          exact .inr (hr.wayOf (List.mem_of_getLast? hlast))
        · rw [get?_set_of_ne _ hplace]
          exact h name' P'
      · cases hmake

/-- The directories that are made for a path have names of the path. -/
theorem makeDirs_namedBy (d : Disk) (p : Path) : NamedBy p d (d.makeDirs p).2 :=
  makeDirsWithin_keeps (fun _ _ hr h => makeDir_namedBy hr h) _ .self fun _ _ => .inl rfl

end Disk

end DiagramService

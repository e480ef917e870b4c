import DiagramService.Proofs.Disk.Gone

/-! The last name of a path. Anything but a directory is found under a path that ends in the name of
an entry, and a link under this name is all that can keep the path from the entry. -/

namespace DiagramService

/-- What stands after the last slash of a path is a name, unless it is empty. -/
theorem Path.exists_join (p : Path) : ∃ dir name, p = join dir name ∧ '/' ∉ name := by
  obtain ⟨cs, hcs⟩ : ∃ cs, p.chars = List.reverse cs := ⟨_, p.chars.reverse_reverse.symm⟩
  have hslash : '/' ∉ cs.takeWhile (· != '/') := fun hmem =>
    absurd (List.all_eq_true.mp List.all_takeWhile _ hmem) (by decide)
  refine ⟨⟨(cs.dropWhile (· != '/')).reverse⟩, (cs.takeWhile (· != '/')).reverse, ?_,
    mt List.mem_reverse.mp hslash⟩
  have hp : p = ⟨(cs.dropWhile (· != '/')).reverse ++ (cs.takeWhile (· != '/')).reverse⟩ := by
    rw [← List.reverse_append, List.takeWhile_append_dropWhile, ← hcs]
  have hhead := List.head?_dropWhile_not (· != '/') cs
  cases hrest : cs.dropWhile (· != '/') with
  | nil => rwa [hrest] at hp
  | cons c rest =>
    obtain rfl : c = '/' := by simpa [hrest] using hhead
    rw [hrest] at hp
    simpa [join] using hp

namespace Disk

section Entry

variable {d e : Disk} {p : Path} {name : FileName} {last : LastLink} {q : Place} {x : Entry}

/-- A path with a slash at its end leads to a directory only. -/
theorem walk_namesOf_slash (hslash : p.chars.getLast? = some '/') {links : Nat} {place : Place}
    (hw : d.walk last links place .directory (namesOf p) = .ok (.found q x)) : x = .directory := by
  by_cases hway : wayOf p = []
  · have hnames : namesOf p = [] := by
      unfold wayOf at hway
      simp [namesOf, hway]
    rw [hnames, walk] at hw
    cases hw
    rfl
  · have hnames : namesOf p = wayOf p ++ [['.']] := by
      unfold wayOf at hway ⊢
      simp [namesOf, hslash, hway]
    rw [hnames] at hw
    obtain ⟨D, links', -, hstep⟩ := walk_snoc hw
    simp [walk] at hstep
    exact hstep.2.symm

/-- The path to anything but a directory ends in the name of an entry. -/
theorem ordinary_of_find (hslash : '/' ∉ name) (h : d.find last (p.join name) = .ok (q, x))
    (hx : x ≠ .directory) : Ordinary name := by
  have hl := locate_of_find h
  have hs := spelled_of_locate hl
  rw [locate_of_spelled _ _ hs] at hl
  have hne : name ≠ [] := by
    rintro rfl
    obtain ⟨base, hjoin, hbase⟩ := join_eq p
    have hchars : (p.join []).chars = base := by rw [hjoin, List.append_nil]
    refine hx (walk_namesOf_slash ?_ hl)
    rw [hchars]
    exact hbase.resolve_left fun hnil => hs.nonempty (hchars.trans hnil)
  rw [namesOf_join p hne hslash] at hl
  obtain ⟨D, links, -, hstep⟩ := walk_snoc hl
  have hdot : name ≠ ['.'] := by
    rintro rfl
    simp [walk] at hstep
    exact hx hstep.2.symm
  have hdots : name ≠ ['.', '.'] := by
    rintro rfl
    simp [walk] at hstep
    exact hx hstep.2.symm
  refine ⟨hne, hslash, hdot, hdots, Nat.not_lt.mp fun hlong => ?_⟩
  simp [walk, hdot, hdots, hlong] at hstep

/-- What is found without following a link at the end is found, unless it is such a link. -/
theorem walk_follow_of_keep (hx : ∀ target, x ≠ .link target) (links : Nat) (place : Place)
    (entry : Entry) (names : List FileName)
    (hw : d.walk .keep links place entry names = .ok (.found q x)) :
    d.walk .follow links place entry names = .ok (.found q x) := by
  fun_induction walk d .keep links place entry names with
  | case1 links place entry => rw [walk]; exact hw
  | case3 links place entry y rest hd hdot ih =>
    rw [walk]; simp only [hd, hdot, if_true]; exact ih hw
  | case4 links place entry y rest hd hdot hdots ih =>
    rw [walk]; simp only [hd, hdot, hdots, if_true]; exact ih hw
  | case8 links place entry y rest hd hdot hdots hlong target hget hlast =>
    cases hw
    exact absurd rfl (hx target)
  | case10 place entry y rest hd hdot hdots hlong target hget hlast links ih =>
    rw [walk]; simp only [hd, hdot, hdots, hlong, hget]
    simpa using ih hw
  | case11 links place entry y rest hd hdot hdots hlong old hold hget ih =>
    rw [walk]; simp only [hd, hdot, hdots, hlong, hget, if_false]
    cases old with
    | link target => exact absurd rfl (hold target)
    | _ => exact ih hw
  | _ => cases hw

/-- Where no link is at the end of a path it does not matter whether one would be followed. -/
theorem find_keep_of_follow (hlink : ∀ q target, d.find .keep p ≠ .ok (q, .link target))
    (h : d.find .follow p = .ok (q, x)) : d.find .keep p = .ok (q, x) := by
  have hl := locate_of_find h
  have hs := spelled_of_locate hl
  rw [locate_of_spelled _ _ hs] at hl
  obtain ⟨r, y, hkeep⟩ := walk_keep_of_follow _ _ _ _ hl
  have hfind : d.find .keep p = .ok (r, y) :=
    find_of_locate ((locate_of_spelled _ _ hs).trans hkeep)
  have hfollow := walk_follow_of_keep
    (fun target hy => hlink r target (by rw [← hy]; exact hfind)) _ _ _ _ hkeep
  cases hl.symm.trans hfollow
  exact hfind

/-- A link that is found after files were added was there before. -/
theorem AddsFiles.find_link (h : AddsFiles d e) {target : Path}
    (hfind : e.find .keep p = .ok (q, .link target)) : d.find .keep p = .ok (q, .link target) := by
  obtain ⟨dir, name, rfl, hslash⟩ := p.exists_join
  have hn := ordinary_of_find hslash hfind nofun
  obtain ⟨hs, D, hD, rfl, hget⟩ := (find_join hn).mp hfind
  exact (find_join hn).mpr ⟨hs, D, h.opens hD, rfl, h.links _ _ hget⟩

end Entry

end Disk

end DiagramService

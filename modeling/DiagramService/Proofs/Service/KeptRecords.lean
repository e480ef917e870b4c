import Mathlib
import DiagramService.Proofs.Service.Pictures

/-! What a service keeps of its records: in every state that requests in any order lead to, a save
that was successful has its text and its image, its id is its own, and nothing that was there at the
start is lost. -/

namespace DiagramService

section Records

variable {d : Disk} {dir : Path} {D : Place} {n : Nat} {w : World}

/-- The id of a record was not in the directory at the start. -/
theorem Orderly.idOf?_ne (ho : Orderly d dir D) {id : DiagramId}
    (hid : d.get? (id.sourceName :: D) = none) {name : FileName}
    (hname : d.get? (name :: D) ≠ none) :
    Listing.idOf? name ≠ some id := by
  intro heq
  rw [ho.canonical name id hname heq] at hname
  exact hname hid

/-- One store never gives out an id twice or one that was there at the start. After a successful
save its source has the text, and its image what its renderer left there, in every state from then
on. What was there at the start stays as it is. -/
theorem one_store_keeps_records (d : Disk) (dir : Path) (D : Place) (ho : Orderly d dir D)
    {n : Nat} {w : World} (hrun : World.Run (.oneStore dir) n ⟨[.open_ dir], d, []⟩ w) :
    (∀ q x, d.get? q = some x → w.disk.get? q = some x) ∧
    (∀ (i j : Nat) (e e' : Errand) (s s' : Save) (r r' : SavedDiagram),
      w.errands[i]? = some e → w.errands[j]? = some e' → e.task = .save s (.done (.ok r)) →
      e'.task = .save s' (.done (.ok r')) → r.id = r'.id → i = j) ∧
    (∀ (i : Nat) (e : Errand) (s : Save) (r : SavedDiagram),
      w.errands[i]? = some e → e.task = .save s (.done (.ok r)) →
      (∀ name, d.get? (name :: D) ≠ none → Listing.idOf? name ≠ some r.id) ∧
      (∃ time, w.disk.get? (r.id.sourceName :: D) = some (.file (Utf8.encode s.text) time)) ∧
      w.disk.contentAt r.source = .ok (Utf8.encode s.text) ∧
      (n < 2 ^ 62 → ∃ content time, e.work = .over (some content) ∧
        w.disk.get? (r.id.imageName :: D) = some (.file content time) ∧
        w.disk.contentAt r.image = .ok content)) := by
  have hpaths : ∀ store ∈ [Store.open_ dir], store.dir = dir := by
    intro store hs
    rw [List.mem_singleton.mp hs]
    rfl
  have hstart := Upkeep.start (U := .oneStore ho) hpaths (.refl d)
  have hup := hstart.run hrun
  refine ⟨hup.disk.keeps, ?_, ?_⟩
  · intro i j e e' s s' r r' he he' htask htask' hid
    exact hup.ledger.saved_apart he he' htask htask' hid
  · intro i e s r he htask
    have hheld : e.task.held? = some r.id := by
      rw [htask]
      rfl
    have hfresh := (hup.tasks i e he).fresh r.id (.inl hheld)
    obtain ⟨hsource, hcontent⟩ := hup.ledger.saved he htask
    refine ⟨fun name hname => ho.idOf?_ne hfresh hname, hsource, hcontent, fun hn => ?_⟩
    obtain ⟨-, hcared⟩ := Cared.run hstart (.start dir d) (.start _ d) hrun hn
    obtain ⟨content, time, hget, hwork⟩ := hcared.pictured i e s _ he htask
    exact ⟨content, time, hwork, hget, hup.ledger.saved_image he htask hget⟩

end Records

/-! ## Two records of one store -/

/-- A turn of saves, at a time after the beginning, with a renderer that leaves a file. -/
def Turn.modest : Turn → Bool
  | .accept (.save _ .makeDir) _ => true
  | .go _ (.advance [] now) => 0 ≤ now && now < 2 ^ 62
  | .go _ .begin => true
  | .go _ (.leave (.file _ _)) => true
  | .go _ (.finish _) => true
  | _ => false

theorem Rules.oneStore_permits {dir : Path} {w w' : World} {turn : Turn}
    (hw : w.stores.length = 1) (h : w.turn? turn = some w') (hmodest : turn.modest) :
    (Rules.oneStore dir).Permits w turn := by
  unfold Turn.modest at hmodest
  split at hmodest
  · next number =>
    simp only [World.turn?] at h
    split at h
    · next hnumber => exact ⟨trivial, by omega⟩
    · cases h
  · next now =>
    simp only [Bool.and_eq_true, decide_eq_true_eq] at hmodest
    exact ⟨⟨by omega, hmodest.2⟩, fun _ _ _ hmem => absurd hmem List.not_mem_nil⟩
  · exact trivial
  · next i content time =>
    intro e source _ hwait source' hwait'
    rw [hwait] at hwait'
    cases hwait'
    exact Disk.alters_leave _ _ content time
  · exact fun _ _ _ _ => trivial
  · cases hmodest

theorem emptyShelf_orderly : Orderly emptyShelf ⟨"saved".toList⟩ ["saved".toList] := by
  refine ⟨emptyShelf_wellFormed, emptyShelf_opens, fun name id h => ?_, fun id h => ?_⟩
  · exact absurd (emptyShelf_vacant name) h
  · exact absurd (emptyShelf_vacant id.imageName) h

/-- Two saves of one store take turns, and the clock steps back between them. -/
def turnabout : List Turn :=
  [.accept (.save ⟨.standard, "a"⟩ .makeDir) 0, .accept (.save ⟨.standard, "b"⟩ .makeDir) 0] ++
    Turn.steps 0 3 9 ++ Turn.steps 1 6 7 ++ Turn.renderer 1 (.file [2] 9) 0 ++ Turn.steps 0 3 9 ++
    Turn.renderer 0 (.file [1] 9) 0 ++ Turn.steps 1 3 9 ++ Turn.steps 0 3 9

/-- Both saves are successful. -/
def bothFinished (w : World) : Bool :=
  match w.errands with
  | [Errand.mk (.save _ (.done (.ok _))) _ _, Errand.mk (.save _ (.done (.ok _))) _ _] => true
  | _ => false

/-- Then both have their text and their image, and their ids are not the same. -/
theorem turnabout_keeps_records : ∃ (w : World) (e e' : Errand) (s s' : Save) (r r' : SavedDiagram),
    World.Run (.oneStore ⟨"saved".toList⟩) turnabout.length
      ⟨[.open_ ⟨"saved".toList⟩], emptyShelf, []⟩ w ∧
    w.errands[0]? = some e ∧ w.errands[1]? = some e' ∧ e.task = .save s (.done (.ok r)) ∧
    e'.task = .save s' (.done (.ok r')) ∧ r.id ≠ r'.id ∧
    w.disk.contentAt r.source = .ok (Utf8.encode s.text) ∧
    (∃ content, e.work = .over (some content) ∧ w.disk.contentAt r.image = .ok content) ∧
    w.disk.contentAt r'.source = .ok (Utf8.encode s'.text) := by
  have h : (((World.mk [.open_ ⟨"saved".toList⟩] emptyShelf []).play? (fun _ => Turn.modest)
      turnabout).any bothFinished) = true := by cbv
  obtain ⟨w, hw, h⟩ := (Option.any_eq_true _ _).mp h
  have hrun : World.Run (.oneStore ⟨"saved".toList⟩) turnabout.length
      ⟨[.open_ ⟨"saved".toList⟩], emptyShelf, []⟩ w :=
    .of_play (P := fun v => v.stores.length = 1) rfl hw fun _ _ _ hv hturn hmodest =>
      ⟨Rules.oneStore_permits hv hturn hmodest, (World.length_of_turn hturn).trans hv⟩
  unfold bothFinished at h
  split at h
  · next s r number work s' r' number' work' herrands =>
    obtain ⟨-, hapart, hkeeps⟩ := one_store_keeps_records _ _ _ emptyShelf_orderly hrun
    have he : w.errands[0]? = some ⟨.save s (.done (.ok r)), number, work⟩ := by rw [herrands]; rfl
    have he' : w.errands[1]? = some ⟨.save s' (.done (.ok r')), number', work'⟩ := by
      rw [herrands]; rfl
    obtain ⟨-, -, hsource, himage⟩ := hkeeps 0 _ s r he rfl
    obtain ⟨content, -, hwork, -, hcontent⟩ := himage (by decide)
    exact ⟨w, _, _, s, s', r, r', hrun, he, he', rfl, rfl,
      fun hid => absurd (hapart 0 1 _ _ s s' r r' he he' rfl rfl hid) (by decide),
      hsource, ⟨content, hwork, hcontent⟩, (hkeeps 1 _ s' r' he' rfl).2.2.1⟩
  · cases h

end DiagramService

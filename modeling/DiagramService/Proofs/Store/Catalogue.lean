import Mathlib
import DiagramService.Proofs.Diagram.SourceNames
import DiagramService.Proofs.Disk.Same
import DiagramService.Proofs.Store.Listing

/-! What a listing returns when nothing comes in between. Every name of a source whose id is not
pending has one entry, and there are no others; the entries come with the greatest ids first. An
entry has the paths of the record with its id, and these need not be the name that it stands for:
only where this is the name that the store makes do they lead to its files. -/

namespace DiagramService

/-- A directory in which no name is twice, and no name has a slash. -/
structure Disk.Folder (d : Disk) (D : Place) : Prop where
  nodup : (d.names D).Nodup
  noSlash : ∀ name ∈ d.names D, '/' ∉ name

namespace Listing

/-- An entry stands for a name: the name spells its id, which is not pending, and the image is that
of the name with the last extension replaced. -/
structure Describes (store : Store) (d : Disk) (name : FileName) (entry : SavedEntry) : Prop where
  record : entry.record = store.record entry.record.id
  idle : store.isPending entry.record.id = false
  files : ∃ stem, Spells name entry.record.id stem ∧ (entry.hasImage = true ↔
    ∃ r, d.find .follow (store.dir.join (stem ++ '.' :: imageExtension)) = .ok r)

/-- The entries stand one by one for the names of a directory that belong to an id which is not
pending. -/
def Covers (store : Store) (d : Disk) (D : Place) (entries : List SavedEntry) : Prop :=
  ∃ names : List FileName, names.Nodup ∧
    (∀ name, name ∈ names ↔ d.get? (name :: D) ≠ none ∧
      ∃ id stem, Spells name id stem ∧ store.isPending id = false) ∧
    List.Forall₂ (Describes store d) names entries

/-! ## The steps one after another -/

section Steps

variable (store : Store) (d : Disk)

/-- From here on a listing looks at the names that are left, and sorts what it has found. -/
theorem iterate_visit (names : List FileName) (found : List SavedEntry) :
    ∃ n, (fun phase => step phase store d)^[n] (.visit names found) =
      .done (.ok (sort (found.reverse ++ names.filterMap (found? store d)))) := by
  induction names generalizing found with
  | nil => exact ⟨1, by simp [step]⟩
  | cons name names ih =>
    cases hid : idOf? name with
    | none =>
      obtain ⟨n, hn⟩ := ih found
      refine ⟨n + 1, ?_⟩
      simpa [Function.iterate_succ_apply, step, found?, hid] using hn
    | some id =>
      by_cases hpending : store.isPending id = true
      · obtain ⟨n, hn⟩ := ih found
        refine ⟨n + 1, ?_⟩
        simpa [Function.iterate_succ_apply, step, found?, hid, hpending] using hn
      · -- two steps: the id is not pending, and then the image is looked for
        obtain ⟨n, hn⟩ := ih (⟨store.record id, hasImage store.dir name d⟩ :: found)
        refine ⟨n + 2, ?_⟩
        simpa [Function.iterate_succ_apply, step, found?, hid, hpending] using hn

/-- The steps of a listing without anything in between come to what it returns at once. -/
theorem iterate_names :
    ∃ n, (fun phase => step phase store d)^[n] .names = .done (perform store d) := by
  unfold perform
  cases hread : d.readDir store.dir with
  | error error =>
    refine ⟨1, ?_⟩
    by_cases hmissing : error.kind = .notFound <;> simp [step, start, hread, hmissing]
  | ok names =>
    obtain ⟨n, hn⟩ := iterate_visit store d names []
    refine ⟨n + 1, ?_⟩
    simpa [Function.iterate_succ_apply, step, start, hread] using hn

end Steps

section Entries

variable {store : Store} {d e : Disk} {D : Place} {name : FileName} {entry : SavedEntry}

/-! ## One name -/

theorem hasImage_iff {id : DiagramId} {stem : List Char} (h : Spells name id stem)
    (hslash : '/' ∉ name) : hasImage store.dir name d = true ↔
      ∃ r, d.find .follow (store.dir.join (stem ++ '.' :: imageExtension)) = .ok r := by
  rw [hasImage, h.renderedImagePath hslash, Disk.has]
  cases d.find .follow (store.dir.join (stem ++ '.' :: imageExtension)) with
  | error error => simp
  | ok r => simp

/-- The entry of a name is the one that stands for it. -/
theorem found?_eq_some_iff (hslash : '/' ∉ name) :
    found? store d name = some entry ↔ Describes store d name entry := by
  unfold found?
  rw [Option.bind_eq_some_iff]
  constructor
  · rintro ⟨id, hid, h⟩
    obtain ⟨stem, hspells⟩ := idOf?_eq_some_iff.mp hid
    split at h
    · cases h
    · next hpending =>
      cases h
      exact ⟨rfl, Bool.eq_false_iff.mpr hpending, stem, hspells, hasImage_iff hspells hslash⟩
  · rintro ⟨hrecord, hidle, stem, hspells, himage⟩
    refine ⟨entry.record.id, idOf?_eq_some_iff.mpr ⟨stem, hspells⟩, ?_⟩
    have hsame : hasImage store.dir name d = entry.hasImage :=
      Bool.eq_iff_iff.mpr ((hasImage_iff hspells hslash).trans himage.symm)
    rw [hidle, if_neg Bool.false_ne_true, hsame, ← hrecord]

theorem found?_isSome_iff : (found? store d name).isSome ↔
    ∃ id stem, Spells name id stem ∧ store.isPending id = false := by
  unfold found?
  cases hid : idOf? name with
  | none =>
    refine ⟨nofun, fun ⟨id, stem, hspells, _⟩ => ?_⟩
    rw [idOf?_eq_some_iff.mpr ⟨stem, hspells⟩] at hid
    cases hid
  | some id =>
    obtain ⟨stem, hspells⟩ := idOf?_eq_some_iff.mp hid
    have hunique : ∀ id' stem', Spells name id' stem' → id' = id := fun id' stem' h =>
      Option.some.inj ((idOf?_eq_some_iff.mpr ⟨stem', h⟩).symm.trans hid)
    by_cases hpending : store.isPending id = true
    · refine ⟨fun h => absurd h (by simp [hpending]), fun ⟨id', stem', h, hidle⟩ => ?_⟩
      rw [hunique id' stem' h, hpending] at hidle
      cases hidle
    · exact ⟨fun _ => ⟨id, stem, hspells, Bool.eq_false_iff.mpr hpending⟩, fun _ => by
        simp [hpending]⟩

/-! ## All names -/

/-- The names that have entries go along with these. -/
theorem forall₂_filterMap {names : List FileName} (hslash : ∀ name ∈ names, '/' ∉ name) :
    List.Forall₂ (Describes store d) (names.filter fun name => (found? store d name).isSome)
      (names.filterMap (found? store d)) := by
  induction names with
  | nil => exact .nil
  | cons name names ih =>
    have htail := ih fun other hmem => hslash other (List.mem_cons_of_mem name hmem)
    cases hfound : found? store d name with
    | none => simpa [hfound] using htail
    | some entry =>
      have hhead := (found?_eq_some_iff (hslash name List.mem_cons_self)).mp hfound
      simpa [hfound] using List.Forall₂.cons hhead htail

theorem sort_perm (entries : List SavedEntry) : (sort entries).Perm entries :=
  List.mergeSort_perm _ _

theorem covers_sort (hfolder : d.Folder D) :
    Covers store d D (sort ((d.names D).filterMap (found? store d))) := by
  -- sorting the entries sorts the names along with them
  obtain ⟨names, hperm, hnames⟩ : Relation.Comp List.Perm (List.Forall₂ (Describes store d))
      ((d.names D).filter fun name => (found? store d name).isSome)
      (sort ((d.names D).filterMap (found? store d))) := by
    rw [← List.forall₂_comp_perm_eq_perm_comp_forall₂]
    exact ⟨_, forall₂_filterMap hfolder.noSlash, (sort_perm _).symm⟩
  refine ⟨names, hperm.nodup_iff.mp (hfolder.nodup.filter _), fun name => ?_, hnames⟩
  rw [← hperm.mem_iff, List.mem_filter, Disk.mem_names, found?_isSome_iff]

/-- A directory that can be read is listed. -/
theorem perform_directory (hfind : d.find .follow store.dir = .ok (D, .directory)) :
    perform store d = .ok (sort ((d.names D).filterMap (found? store d))) := by
  simp only [perform, Disk.readDir, hfind]

end Entries

end Listing

open Listing

section Names

variable {R : FileName → SavedEntry → Prop} {names : List FileName} {entries : List SavedEntry}
  {entry : SavedEntry}

/-- Each of the entries that stand one by one for names stands for one of them. -/
theorem Listing.exists_name (h : List.Forall₂ R names entries) (hentry : entry ∈ entries) :
    ∃ name ∈ names, R name entry := by
  induction h with
  | nil => cases hentry
  | cons hhead _ ih =>
    rcases List.mem_cons.mp hentry with rfl | hentry
    · exact ⟨_, List.mem_cons_self, hhead⟩
    · obtain ⟨name, hname, hstands⟩ := ih hentry
      exact ⟨name, List.mem_cons_of_mem _ hname, hstands⟩

/-- Only one of them stands for a name that is there once. -/
theorem Listing.filter_eq_singleton (h : List.Forall₂ R names entries) (hnodup : names.Nodup)
    (name : FileName) {p : SavedEntry → Bool} (honly : ∀ name' ∈ names, ∀ entry,
      R name' entry → p entry → name' = name) (hentry : entry ∈ entries) (hp : p entry) :
    entries.filter p = [entry] := by
  induction h with
  | nil => cases hentry
  | @cons name' entry' names entries hhead htail ih =>
    obtain ⟨hnew, hnodup⟩ := List.nodup_cons.mp hnodup
    have honly' : ∀ name' ∈ names, ∀ entry, R name' entry → p entry → name' = name :=
      fun name' hmem => honly name' (List.mem_cons_of_mem _ hmem)
    have hbehind : ∀ other ∈ entries, p other → name ∈ names := by
      intro other hother hpother
      obtain ⟨name'', hmem, hstands⟩ := exists_name htail hother
      exact honly' name'' hmem other hstands hpother ▸ hmem
    by_cases hp' : p entry'
    · -- the name is the first one, so none of the entries behind it stands for it
      obtain rfl := honly name' List.mem_cons_self entry' hhead hp'
      have hnone : entries.filter p = [] :=
        List.filter_eq_nil_iff.mpr fun other hother hpother => hnew (hbehind other hother hpother)
      have hsame : entry = entry' := (List.mem_cons.mp hentry).resolve_right fun hother =>
        hnew (hbehind entry hother hp)
      rw [List.filter_cons_of_pos hp', hnone, hsame]
    · have hother : entry ∈ entries := (List.mem_cons.mp hentry).resolve_left fun hsame =>
        hp' (hsame ▸ hp)
      rw [List.filter_cons_of_neg hp']
      exact ih hnodup honly' hother

end Names

/-- An entry whose id is spelled by no name of a source but the one that the store makes is the only
one with this id, and its paths are those of a source that is there and of the image, if that is
there. -/
theorem entry_with_one_name_is_true {store : Store} {d : Disk} {D : Place}
    (hfind : d.find .follow store.dir = .ok (D, .directory)) (hfolder : d.Folder D)
    {entries : List SavedEntry} (hperform : perform store d = .ok entries) {entry : SavedEntry}
    (hentry : entry ∈ entries) (hone : ∀ name stem, d.get? (name :: D) ≠ none →
      Spells name entry.record.id stem → name = entry.record.id.sourceName) :
    (entry.record.source = store.dir.join entry.record.id.sourceName ∧
      d.get? (entry.record.id.sourceName :: D) ≠ none) ∧
    (entry.hasImage = true ↔ ∃ r, d.find .follow entry.record.image = .ok r) ∧
    entries.filter (fun other => other.record.id = entry.record.id) = [entry] := by
  rw [perform_directory hfind] at hperform
  obtain rfl := Except.ok.inj hperform
  have hcovers : Covers store d D _ := covers_sort hfolder
  obtain ⟨names, hnodup, hnames, hforall⟩ := hcovers
  obtain ⟨name, hmem, hrecord, -, stem, hspells, himage⟩ := exists_name hforall hentry
  have hget := ((hnames name).mp hmem).1
  have hname : name = entry.record.id.sourceName := hone name stem hget hspells
  obtain rfl : stem = entry.record.id.stem :=
    List.append_cancel_right (hspells.extension.symm.trans hname)
  refine ⟨⟨by rw [hrecord]; rfl, hname ▸ hget⟩, ?_, ?_⟩
  · rw [himage, hrecord]
    rfl
  · refine filter_eq_singleton hforall hnodup entry.record.id.sourceName
      (fun name' hmem' other hstands hid => ?_) hentry (by simp)
    obtain ⟨-, -, stem', hspells', -⟩ := hstands
    rw [of_decide_eq_true hid] at hspells'
    exact hone name' stem' ((hnames name').mp hmem').1 hspells'

/-! ## A directory with names that the store does not make -/

/-- Sources of the ids 3, 5 and 12, another one of 12 and one of -7, with some images. -/
def untidyShelf : Disk where
  entries :=
    (["saved".toList], .directory) ::
      (["diagram_3.puml", "diagram_-07.x.puml", "diagram_-07.x.png", "notes.puml",
        "diagram_12.puml", "diagram_12.png", "diagram_+12.puml", "diagram_5.png",
        "diagram_5.puml"].map fun name =>
          ([name.toList, "saved".toList], .file [] 0))
  working := []

/-- A store of this directory in which nothing is pending. -/
def idleStore : Store := .open_ ⟨"saved".toList⟩

/-- The store while the id 3 is pending. -/
def busyStore : Store := idleStore.mark ⟨3⟩

theorem find_untidyShelf :
    untidyShelf.find .follow ⟨"saved".toList⟩ = .ok (["saved".toList], .directory) := by
  cbv

theorem untidyShelf_folder : untidyShelf.Folder ["saved".toList] :=
  ⟨by decide, by decide⟩

/-- The entry of 5 has its source and its image, and is the only one. -/
theorem untidyShelf_entry : ∃ entries, perform busyStore untidyShelf = .ok entries ∧
    ⟨busyStore.record ⟨5⟩, true⟩ ∈ entries ∧
    untidyShelf.get? ["diagram_5.puml".toList, "saved".toList] ≠ none ∧
    (∃ r, untidyShelf.find .follow (busyStore.record ⟨5⟩).image = .ok r) ∧
    entries.filter (fun other => other.record.id = ⟨5⟩) = [⟨busyStore.record ⟨5⟩, true⟩] := by
  have hmem : ∃ entries, perform busyStore untidyShelf = .ok entries ∧
      ⟨busyStore.record ⟨5⟩, true⟩ ∈ entries :=
    ⟨[⟨busyStore.record ⟨12⟩, true⟩, ⟨busyStore.record ⟨12⟩, false⟩, ⟨busyStore.record ⟨5⟩, true⟩,
      ⟨busyStore.record ⟨-7⟩, true⟩], by cbv, by simp⟩
  obtain ⟨entries, hperform, hmem⟩ := hmem
  have hone : ∀ name stem, untidyShelf.get? [name, "saved".toList] ≠ none →
      Spells name ⟨5⟩ stem → name = DiagramId.sourceName ⟨5⟩ := by
    intro name stem hget hspells
    have hnames : ∀ name ∈ untidyShelf.names ["saved".toList],
        Listing.idOf? name = some ⟨5⟩ → name = DiagramId.sourceName ⟨5⟩ := by
      decide
    exact hnames name (Disk.mem_names.mpr hget) (Listing.idOf?_eq_some_iff.mpr ⟨stem, hspells⟩)
  obtain ⟨⟨-, hsource⟩, himage, honly⟩ := entry_with_one_name_is_true find_untidyShelf
    untidyShelf_folder hperform hmem hone
  exact ⟨entries, hperform, hmem, hsource, himage.mp rfl, honly⟩

/-- The paths of the entry of -7 lead to nothing though it has an image, and of the two entries of
12 one has no image though the path of its image leads to a file, and that with nothing pending. -/
theorem entries_can_be_untrue : ∃ entries,
    idleStore.pending = [] ∧ perform idleStore untidyShelf = .ok entries ∧
    (∃ entry ∈ entries, entry.record.source = ⟨"saved/diagram_-7.puml".toList⟩ ∧
      untidyShelf.get? ["diagram_-7.puml".toList, "saved".toList] = none ∧
      entry.hasImage = true ∧ ∀ r, untidyShelf.find .follow entry.record.image ≠ .ok r) ∧
    (∃ entry ∈ entries, entry.hasImage = false ∧
      ∃ r, untidyShelf.find .follow entry.record.image = .ok r) ∧
    ¬ (entries.map (·.record.id)).Nodup := by
  have hmissing : ∀ r, untidyShelf.find .follow ⟨"saved/diagram_-7.png".toList⟩ ≠ .ok r := by
    have hfind : (untidyShelf.find .follow ⟨"saved/diagram_-7.png".toList⟩).toOption = none := by
      cbv
    intro r hr
    rw [hr] at hfind
    cases hfind
  have hfound : ∃ r, untidyShelf.find .follow ⟨"saved/diagram_12.png".toList⟩ = .ok r :=
    ⟨(["diagram_12.png".toList, "saved".toList], .file [] 0), by cbv⟩
  refine ⟨[⟨idleStore.record ⟨12⟩, true⟩, ⟨idleStore.record ⟨12⟩, false⟩,
    ⟨idleStore.record ⟨5⟩, true⟩, ⟨idleStore.record ⟨3⟩, false⟩, ⟨idleStore.record ⟨-7⟩, true⟩],
    rfl, by cbv, ?_, ?_, by decide⟩
  · exact ⟨⟨idleStore.record ⟨-7⟩, true⟩, by simp, by decide, by decide, rfl, hmissing⟩
  · exact ⟨⟨idleStore.record ⟨12⟩, false⟩, by simp, rfl, hfound⟩

end DiagramService

import DiagramService.Proofs.Path.Parts
import DiagramService.Proofs.Store.Save

/-! The paths of records. Whatever the text of the save directory is, an entry of it has the
components of the directory and its own name. So the paths of records are as different as the names
of their files, and the renderer writes the image of a record where the record has it. -/

namespace DiagramService

namespace Store

variable (store : Store) (i j : DiagramId)

theorem not_same_source (h : i ≠ j) :
    (store.record i).source.same (store.record j).source = false :=
  store.dir.not_same_entry i.sourceName_ordinary j.sourceName_ordinary
    fun hname => h (DiagramId.sourceName_injective hname)

theorem not_same_image (h : i ≠ j) :
    (store.record i).image.same (store.record j).image = false :=
  store.dir.not_same_entry i.imageName_ordinary j.imageName_ordinary
    fun hname => h (DiagramId.imageName_injective hname)

theorem not_same_source_image :
    (store.record i).source.same (store.record j).image = false :=
  store.dir.not_same_entry i.sourceName_ordinary j.imageName_ordinary
    (DiagramId.sourceName_ne_imageName i j)

theorem not_same_image_source :
    (store.record i).image.same (store.record j).source = false :=
  store.dir.not_same_entry i.imageName_ordinary j.sourceName_ordinary
    (DiagramId.sourceName_ne_imageName j i).symm

/-- The four paths of two records. -/
def pathsOf : List Path :=
  [(store.record i).source, (store.record i).image, (store.record j).source,
    (store.record j).image]

/-- No path is another one for records of two ids. -/
theorem pairwise_pathsOf (h : i ≠ j) :
    (store.pathsOf i j).Pairwise fun p q => p.same q = false := by
  have hi := store.not_same_source_image i i
  have hj := store.not_same_source_image j j
  simp [pathsOf, hi, hj, store.not_same_source i j h, store.not_same_image i j h,
    store.not_same_source_image i j, store.not_same_image_source i j]

theorem ne_of_pairwise_pathsOf
    (h : (store.pathsOf i j).Pairwise fun p q => p.same q = false) : i ≠ j := by
  rintro rfl
  obtain ⟨hfirst, -⟩ := List.pairwise_cons.mp h
  have hself : (store.record i).source.same (store.record i).source = false :=
    hfirst _ (by simp)
  simp [Path.same] at hself

/-- In every directory the image that belongs to the source of a record is the image of the record,
so that nothing is moved there, and the four paths of two records are different paths just if the
ids differ. -/
theorem record_paths_are_consistent_and_disjoint (store : Store) :
    (∀ id, (DiagramFiles.forSource (store.record id).source).image = (store.record id).image ∧
      ∀ d, Save.relocate (store.record id) d =
        (.unmark (store.record id) (.ok (store.record id)), d)) ∧
    ∀ i j, (store.pathsOf i j).Pairwise (fun p q => p.same q = false) ↔ i ≠ j := by
  refine ⟨fun id => ⟨renderedImagePath_record store.dir id, fun d => ?_⟩, fun i j => ?_⟩
  · have hsame := Save.image_same store.dir id
    simp only [Save.relocate, record, hsame, if_true]
  · constructor
    · exact store.ne_of_pairwise_pathsOf i j
    · exact store.pairwise_pathsOf i j

end Store

end DiagramService

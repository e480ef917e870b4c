import Mathlib
import DiagramService.Proofs.Disk.Descent
import DiagramService.Proofs.Http.Answer
import DiagramService.Proofs.Store.Listing
import DiagramService.Service.Basic

/-! Which files are served. However a path below the route of the files is spelled, percent signs
are decoded once and then every component has to be a name, so that a file whose content is sent
stands in the save directory under exactly these names. -/

namespace DiagramService

namespace Http.StaticFile

/-- What a path below the route of the files spells, with percent signs decoded once. -/
def spelled? (rest : List Char) : Option (List Char) :=
  (Utf8.decode? (percentDecode (rest.dropWhile (· == '/')))).map String.toList

/-- A text that starts at the root, or that leads up. -/
def Climbs (text : List Char) : Prop :=
  text.head? = some '/' ∨ ['.', '.'] ∈ text.splitOn '/'

instance (text : List Char) : Decidable (Climbs text) :=
  inferInstanceAs (Decidable (_ ∨ _))

/-- The names between the slashes of a text that count. -/
def namesIn (text : List Char) : List FileName :=
  (text.splitOn '/').filter fun name => !(name.isEmpty || name == ['.'])

/-- A response with a file or a part of it, or with the fixed text that refuses several parts. -/
def Shows (response : Response) (content : Bytes) : Prop :=
  (response.status = 200 ∧ response.body = content) ∨
    (response.status = 206 ∧ response.body <:+: content) ∨
    (response.status = 416 ∧
      response.body = Utf8.encode "Cannot serve multipart range requests")

/-! ## The names of a path -/

theorem noSlash_of_mem_splitOn {text : List Char} {name : FileName}
    (h : name ∈ text.splitOn '/') : '/' ∉ name := by
  induction text generalizing name with
  | nil =>
    rw [List.splitOn_nil, List.mem_singleton] at h
    simp [h]
  | cons c text ih =>
    rw [List.splitOn_cons_eq_if_modifyHead] at h
    split at h
    · rcases List.mem_cons.mp h with rfl | h
      · exact List.not_mem_nil
      · exact ih h
    · next hc =>
      obtain ⟨first, rest, hsplit⟩ := List.exists_cons_of_ne_nil (List.splitOn_ne_nil '/' text)
      rw [hsplit] at h ih
      rcases List.mem_cons.mp h with rfl | h
      · simpa [Ne.symm (by simpa using hc : c ≠ '/')] using ih List.mem_cons_self
      · exact ih (List.mem_cons_of_mem _ h)

theorem named_of_mem_namesIn {text : List Char} (hclimb : ¬ Climbs text) {name : FileName}
    (h : name ∈ namesIn text) : Disk.Named name := by
  obtain ⟨hmem, hcounts⟩ := List.mem_filter.mp h
  have hkept : name ≠ [] ∧ name ≠ ['.'] := by simpa using hcounts
  exact ⟨hkept.1, noSlash_of_mem_splitOn hmem, hkept.2,
    fun hdots => hclimb (.inr (hdots ▸ hmem))⟩

/-- The components between slashes are names unless two dots are among them. -/
theorem namesOf?_filterMap (names : List FileName) :
    namesOf? (names.filterMap Path.componentOf) = if ['.', '.'] ∈ names then none
      else some (names.filter fun name => !(name.isEmpty || name == ['.'])) := by
  induction names with
  | nil => rfl
  | cons name names ih =>
    by_cases hvoid : name.isEmpty || name == ['.']
    · have hdots : ['.', '.'] ≠ name := by rintro rfl; exact absurd hvoid (by decide)
      simp only [List.filterMap_cons, Path.componentOf, hvoid, if_true, ih, List.mem_cons, hdots,
        false_or, List.filter_cons, Bool.not_true, Bool.false_eq_true, if_false]
    · by_cases hdots : name = ['.', '.']
      · subst hdots
        rfl
      · have hcomponent : Path.componentOf name = some (.normal name) := by
          simp [Path.componentOf, hvoid, hdots]
        rw [List.filterMap_cons_some hcomponent, namesOf?, ih]
        split <;> simp_all [Ne.symm hdots]

/-- A text names the way down from a directory unless it climbs. -/
theorem namesOf?_components (text : List Char) :
    namesOf? (Path.components ⟨text⟩) =
      if Climbs text then none else some (namesIn text) := by
  have hbody := namesOf?_filterMap (text.splitOn '/')
  simp only [Path.components, Path.isAbsolute, beq_iff_eq, Climbs]
  split
  · next hroot => simp [hroot, namesOf?]
  · next hroot =>
    simp only [hroot, false_or]
    split
    · exact hbody
    · exact hbody

/-- What a path below a directory stands for. -/
theorem resolve?_eq (dir : Path) (rest : List Char) :
    resolve? dir rest = (spelled? rest).bind fun text =>
      if Climbs text then none else some ((namesIn text).foldl Path.join dir) := by
  simp only [resolve?, spelled?]
  cases Utf8.decode? (percentDecode (rest.dropWhile (· == '/'))) with
  | none => rfl
  | some text =>
    have hnames := namesOf?_components text.toList
    simp only [Option.bind_eq_bind, Option.bind_some, Option.map_some, Path.ofString, hnames]
    split <;> rfl

/-! ## The response with a file -/

theorem ofContent_shows (request : Request) (p : Path) (content : Bytes)
    (h : (ofContent request p content).body ≠ []) :
    Shows (ofContent request p content) content := by
  simp only [ofContent] at h ⊢
  split
  · exact .inl ⟨rfl, rfl⟩
  · next range hrange =>
    rw [hrange] at h
    simp only at h
    split
    · next hbounds =>
      rw [hbounds] at h
      exact absurd rfl h
    · exact .inr (.inl ⟨rfl,
        (List.take_prefix _ _).isInfix.trans (List.drop_suffix _ _).isInfix⟩)
    · exact .inr (.inr ⟨rfl, rfl⟩)

/-- A response that carries anything shows a file that the path leads to. -/
theorem ofFile_shows {d : Disk} {request : Request} {p : Path}
    (h : (ofFile d request p).body ≠ []) : ∃ q content modified,
      d.find .follow p = .ok (q, .file content modified) ∧
      Shows (ofFile d request p) content := by
  unfold ofFile at h ⊢
  split
  · next q content modified hfind =>
    rw [hfind] at h
    simp only at h
    refine ⟨q, content, modified, hfind, ?_⟩
    split
    · next response hconditional =>
      rw [hconditional] at h
      simp only [conditional?] at hconditional
      split at hconditional
      · cases hconditional
        exact absurd rfl h
      · split at hconditional <;> cases hconditional
        exact absurd rfl h
    · next hconditional =>
      rw [hconditional] at h
      exact ofContent_shows request p content h
  · next hfind =>
    split at h
    · next hfile => exact absurd hfile (hfind _ _ _)
    · exact absurd rfl h

/-- A file in a directory: the names on the way down to it are ordinary, and it stands in the place
that has these names. -/
structure Holds (d : Disk) (dir : Path) (names : List FileName) (content : Bytes) : Prop where
  ordinary : ∀ name ∈ names, Disk.Ordinary name
  found : ∃ q modified,
    d.find .follow (names.foldl Path.join dir) = .ok (q, .file content modified) ∧
    d.get? q = some (.file content modified) ∧
    ∀ D, d.Opens dir D → names ≠ [] ∧ q = names.reverse ++ D

/-- A file that names lead down to is in the directory where they start. -/
theorem holds_of_find {d : Disk} {dir : Path} (h : d.NoLinksBelow dir) {names : List FileName}
    (hnames : ∀ name ∈ names, Disk.Named name) {q : Place} {content : Bytes} {modified : Int}
    (hfind : d.find .follow (names.foldl Path.join dir) = .ok (q, .file content modified)) :
    Holds d dir names content := by
  have hget : d.get? q = some (.file content modified) := Disk.find_entry hfind nofun
  by_cases hne : names = []
  · subst hne
    refine ⟨nofun, q, modified, hfind, hget, fun D hD => ?_⟩
    -- a path that leads to a file opens no directory
    have hl : d.locate .follow dir = _ := Disk.locate_of_find hfind
    rw [hD.locate_self (Disk.spelled_of_locate hl)] at hl
    cases hl
  · obtain ⟨D, hD, rfl, -, hord⟩ := h.find hnames hne hfind
    exact ⟨hord, _, modified, hfind, hget, fun D' hD' => ⟨hne, by rw [hD.unique hD']⟩⟩

theorem named_indexPage : Disk.Named "index.html".toList :=
  ⟨by decide, by decide, by decide, by decide⟩

/-- A response that carries anything shows a file of the directory. -/
theorem serve_shows {d : Disk} {dir : Path} (h : d.NoLinksBelow dir) {request : Request}
    {requested : List Char} (hbody : (serve d dir request requested).body ≠ []) :
    ∃ text names content, spelled? requested = some text ∧ ¬ Climbs text ∧
      (names = namesIn text ∨ names = namesIn text ++ ["index.html".toList]) ∧
      Holds d dir names content ∧ Shows (serve d dir request requested) content := by
  -- whatever is sent is the response with a file, at the path that is asked for or at its page
  have hserved : ∃ text names, spelled? requested = some text ∧ ¬ Climbs text ∧
      (names = namesIn text ∨ names = namesIn text ++ ["index.html".toList]) ∧
      serve d dir request requested = ofFile d request (names.foldl Path.join dir) := by
    unfold serve at hbody ⊢
    rw [resolve?_eq] at hbody ⊢
    split at hbody
    · exact absurd rfl hbody
    · next hmethod =>
      rw [if_neg hmethod]
      cases htext : spelled? requested with
      | none =>
        rw [htext] at hbody
        exact absurd rfl hbody
      | some text =>
        simp only [htext, Option.bind_some] at hbody ⊢
        by_cases hclimb : Climbs text
        · rw [if_pos hclimb] at hbody
          exact absurd rfl hbody
        · simp only [hclimb, if_false] at hbody ⊢
          split at hbody
          · next hdir => exact ⟨text, _, rfl, hclimb, .inl rfl, by rw [if_pos hdir]⟩
          · next hdir =>
            split at hbody
            · next hend =>
              refine ⟨text, _, rfl, hclimb, .inr rfl, ?_⟩
              rw [if_neg hdir, if_pos hend, List.foldl_append]
              rfl
            · exact absurd rfl hbody
  obtain ⟨text, names, htext, hclimb, hnames, hserve⟩ := hserved
  rw [hserve] at hbody ⊢
  obtain ⟨q, content, modified, hfind, hshows⟩ := ofFile_shows hbody
  refine ⟨text, names, content, htext, hclimb, hnames, holds_of_find h ?_ hfind, hshows⟩
  intro name hmem
  rcases hnames with rfl | rfl
  · exact named_of_mem_namesIn hclimb hmem
  · rcases List.mem_append.mp hmem with hmem | hmem
    · exact named_of_mem_namesIn hclimb hmem
    · rw [List.mem_singleton.mp hmem]
      exact named_indexPage

/-- Nothing is served for a path that climbs or spells no text, or where nothing is found. -/
theorem serve_nothing {d : Disk} {dir : Path} {requested : List Char}
    (h : ∀ text, spelled? requested = some text → ¬ Climbs text →
      ∀ r, d.find .follow ((namesIn text).foldl Path.join dir) ≠ .ok r)
    (request : Request) (hmethod : request.method = "GET" ∨ request.method = "HEAD") :
    serve d dir request requested = .bare 404 := by
  have hallowed : ¬ (request.method != "GET" && request.method != "HEAD") = true := by
    rcases hmethod with hmethod | hmethod <;> simp [hmethod]
  rw [serve, if_neg hallowed, resolve?_eq]
  cases htext : spelled? requested with
  | none => rfl
  | some text =>
    rw [Option.bind_some]
    by_cases hclimb : Climbs text
    · rw [if_pos hclimb]
    · have hmissing := h text htext hclimb
      rw [if_neg hclimb]
      cases hfind : d.find .follow ((namesIn text).foldl Path.join dir) with
      | ok r => exact absurd hfind (hmissing r)
      | error cause => simp [Disk.isDir, hfind, ofFile]

/-- A request for a whole file, whatever its state. -/
structure Whole (request : Request) : Prop where
  method : request.method = "GET"
  range : request.field? "range" = none
  ifModified : request.field? "if-modified-since" = none
  ifUnmodified : request.field? "if-unmodified-since" = none

/-- A file that is there is sent to a request for the whole of it. -/
theorem serve_whole {d : Disk} {dir p : Path} {requested : List Char}
    (hresolve : resolve? dir requested = some p) {q : Place} {content : Bytes} {modified : Int}
    (hfind : d.find .follow p = .ok (q, .file content modified)) {request : Request}
    (h : Whole request) : (serve d dir request requested).status = 200 ∧
      (serve d dir request requested).body = content := by
  have hconditional : conditional? request modified = none := by
    simp [conditional?, since?, h.ifModified, h.ifUnmodified]
  have hcontent : (ofContent request p content).status = 200 ∧
      (ofContent request p content).body = content := by
    simp [ofContent, h.range, Response.adding, Response.bare]
  rw [serve, hresolve]
  simpa [h.method, Disk.isDir, hfind, ofFile, hconditional] using hcontent

/-- A method that asks for no file gets nothing. -/
theorem serve_refused (d : Disk) (dir : Path) {request : Request} (requested : List Char)
    (hget : request.method ≠ "GET") (hhead : request.method ≠ "HEAD") :
    (serve d dir request requested).body = [] := by
  simp [serve, hget, hhead, Response.bare, Response.adding]

end Http.StaticFile

open Http.StaticFile

/-- The path of a file is what stands after the route. -/
theorem Http.Endpoint.ofPath?_file {rest : List Char} (h : rest = [] ∨ rest.head? = some '/') :
    ofPath? ("/diagrams".toList ++ rest) = some (.file (if rest = [] then ['/'] else rest)) := by
  cases rest with
  | nil => decide
  | cons c rest =>
    obtain rfl : c = '/' := by simpa using h
    simp [ofPath?, after?]

/-- A request below the route of the files is answered without a change, and by nothing else than
the files of the save directory unless it only asks what is allowed. -/
theorem Service.handle_file (s : Service) (e : Setting) {request : Http.Request} (rest : List Char)
    (hpath : request.path = "/diagrams".toList ++ rest)
    (hrest : rest = [] ∨ rest.head? = some '/') :
    s.handle e request = ((if request.method = "OPTIONS" then Http.Response.preflight request
      else serve s.disk s.store.dir request (if rest = [] then ['/'] else rest)).finished request,
      s) := by
  have hendpoint := Http.Endpoint.ofPath?_file hrest
  rw [handle, Http.Action.ofRequest, hpath, hendpoint]
  simp only
  split
  · rfl
  · rfl

/-- Whatever the response to a request below the route of the files carries is content of a file of
the save directory, which stands there under the names that the path spells. Where the path climbs,
spells no text or names nothing, nothing is carried. -/
theorem served_content_is_from_the_save_directory (s : Service) (e : Setting)
    (request : Http.Request) (rest : List Char) (hpath : request.path = "/diagrams".toList ++ rest)
    (hrest : rest = [] ∨ rest.head? = some '/') (hlinks : s.disk.NoLinksBelow s.store.dir) :
    ((s.handle e request).1.body ≠ [] → ∃ text names content,
      spelled? rest = some text ∧ ¬ Climbs text ∧
      (names = namesIn text ∨ names = namesIn text ++ ["index.html".toList]) ∧
      Holds s.disk s.store.dir names content ∧ Shows (s.handle e request).1 content) ∧
    ((∀ text, spelled? rest = some text → ¬ Climbs text →
        ∀ r, s.disk.find .follow ((namesIn text).foldl Path.join s.store.dir) ≠ .ok r) →
      (s.handle e request).1.body = [] ∧
      (request.method = "GET" ∨ request.method = "HEAD" →
        (s.handle e request).1.status = 404)) := by
  have hspelled : spelled? (if rest = [] then ['/'] else rest) = spelled? rest := by
    split
    · next hnil => rw [hnil]; rfl
    · rfl
  rw [s.handle_file e rest hpath hrest, Http.Response.finished_body_eq, ← hspelled]
  refine ⟨fun hbody => ?_, fun hnothing => ?_⟩
  · -- neither a request that only asks what is allowed nor one for the head gets a body
    have hhead : request.method ≠ "HEAD" := fun h => hbody (by rw [if_pos h])
    rw [if_neg hhead] at hbody
    have hoptions : request.method ≠ "OPTIONS" := fun h => hbody (by rw [if_pos h]; rfl)
    rw [if_neg hoptions] at hbody ⊢
    obtain ⟨text, names, content, htext, hclimb, hnames, hholds, hshows⟩ :=
      serve_shows hlinks hbody
    refine ⟨text, names, content, htext, hclimb, hnames, hholds, ?_⟩
    rw [Shows, Http.Response.finished_status, Http.Response.finished_body_eq, if_neg hhead]
    exact hshows
  · have hserve := serve_nothing hnothing request
    refine ⟨?_, fun hmethod => ?_⟩
    · split
      · rfl
      · split
        · rfl
        · by_cases hget : request.method = "GET"
          · rw [hserve (.inl hget)]
            rfl
          · next hhead _ => rw [serve_refused _ _ _ hget hhead]
    · have hoptions : request.method ≠ "OPTIONS" := by
        rcases hmethod with h | h <;> simp [h]
      rw [Http.Response.finished_status, if_neg hoptions, hserve hmethod]
      rfl

/-- A directory with a file, and a file beside the directory. -/
def keptPage : Disk :=
  ((Disk.empty.set ["kept".toList] .directory).set ["a b.txt".toList, "kept".toList]
    (.file [104, 105] 0)).set ["secret".toList] (.file [33] 0)

/-- A service that shows the directory. -/
def keeper : Service :=
  ⟨⟨⟨"renderer", [], 60⟩, .ofString "/kept", .ofString "/work"⟩,
    .open_ (.ofString "/kept"), keptPage⟩

/-- A request for a file. -/
def fileRequest (target : String) : Http.Request :=
  ⟨"GET", target, [], []⟩

theorem keptPage_noLinks (dir : Path) : keptPage.NoLinksBelow dir := by
  rintro D - q target - - hget
  have hmem : (q, Entry.link target) ∈ keptPage.entries := by
    cases q with
    | nil => cases hget
    | cons name q =>
      obtain ⟨l₁, l₂, hentries, -⟩ := List.lookup_eq_some_iff.mp hget
      rw [hentries]
      simp
  simp [keptPage, Disk.set, Disk.empty] at hmem

/-- A setting in which nothing is rendered. -/
def idle : Setting :=
  ⟨fun _ d => (.outlived, d), [], fun _ => 0⟩

/-- A name may be spelled with percent signs, and so may a step up, which leads nowhere. -/
theorem keeper_serves_what_is_kept :
    ((keeper.handle idle (fileRequest "/diagrams/a%20b.txt")).1.body = [104, 105] ∧
      ∃ names content, Holds keptPage (.ofString "/kept") names content ∧
        Shows (keeper.handle idle (fileRequest "/diagrams/a%20b.txt")).1 content) ∧
    (keeper.handle idle (fileRequest "/diagrams/%2e%2e/secret")).1.body = [] ∧
    (keeper.handle idle (fileRequest "/diagrams/%2e%2e/secret")).1.status = 404 := by
  have hfind : keptPage.find .follow (.ofString "/kept/a b.txt") =
      .ok (["a b.txt".toList, "kept".toList], .file [104, 105] 0) := by cbv
  have hresolve : resolve? (.ofString "/kept") "/a%20b.txt".toList =
      some (.ofString "/kept/a b.txt") := by cbv
  have hbody : (keeper.handle idle (fileRequest "/diagrams/a%20b.txt")).1.body = [104, 105] := by
    rw [keeper.handle_file idle "/a%20b.txt".toList (by decide) (.inr rfl),
      Http.Response.finished_body_eq]
    have hwhole : Whole (fileRequest "/diagrams/a%20b.txt") := ⟨rfl, rfl, rfl, rfl⟩
    exact (serve_whole hresolve hfind hwhole).2
  have hspelled : spelled? "/%2e%2e/secret".toList = some "../secret".toList := by
    cbv
  obtain ⟨-, names, content, -, -, -, hholds, hshows⟩ :=
    (served_content_is_from_the_save_directory keeper idle (fileRequest "/diagrams/a%20b.txt")
      "/a%20b.txt".toList (by decide) (.inr rfl) (keptPage_noLinks _)).1
      (by rw [hbody]; exact List.cons_ne_nil _ _)
  have hnothing :=
    (served_content_is_from_the_save_directory keeper idle (fileRequest "/diagrams/%2e%2e/secret")
      "/%2e%2e/secret".toList (by decide) (.inr rfl) (keptPage_noLinks _)).2
      fun text htext hclimb => by
        rw [hspelled] at htext
        cases htext
        exact absurd (by decide) hclimb
  exact ⟨⟨hbody, names, content, hholds, hshows⟩, hnothing.1, hnothing.2 (.inl rfl)⟩

end DiagramService

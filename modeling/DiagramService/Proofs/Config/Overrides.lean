import Mathlib
import DiagramService.Config.Basic
import DiagramService.Proofs.Text.Accumulation
import DiagramService.Proofs.Text.Words

/-! What the environment overrides. Two lookups that are applied one after another are applied at
once by the second one on top of the first one, in which an invalid limit lets the one below show
through. The arguments of the renderer are the words of their variable, and its limit is the number
that its variable spells. -/

namespace DiagramService

/-- The limit that a lookup gives, if it gives one that can be read. -/
def Lookup.limit? (lookup : Lookup) : Option UInt64 :=
  (lookup "RENDER_TIMEOUT_SECS").bind fun s => Text.word? s.toList

/-- One lookup on top of another: it answers as the top one does if that has an answer, and as the
other one does otherwise. As the limit only an answer that can be read counts. -/
def Lookup.over (top base : Lookup) : Lookup := fun name =>
  if name = "RENDER_TIMEOUT_SECS" ∧ top.limit? = none then base name
  else (top name).or (base name)

namespace Config

/-- The names of the variables that override a setting. -/
def overridingNames : List String :=
  ["SAVE_DIR", "WORK_DIR", "RENDER_COMMAND", "RENDER_ARGS", "RENDER_TIMEOUT_SECS"]

variable {f g : Lookup} {name : String}

/-! ## One lookup on top of another -/

theorem over_of_ne (h : name ≠ "RENDER_TIMEOUT_SECS") : g.over f name = (g name).or (f name) :=
  if_neg fun hlimit => h hlimit.1

theorem limit?_over (f g : Lookup) : (g.over f).limit? = g.limit?.or f.limit? := by
  cases hlimit : g.limit? with
  | none =>
    have hbase : g.over f "RENDER_TIMEOUT_SECS" = f "RENDER_TIMEOUT_SECS" := if_pos ⟨rfl, hlimit⟩
    rw [Lookup.limit?, hbase]
    rfl
  | some limit =>
    obtain ⟨s, hs, hread⟩ := Option.bind_eq_some_iff.mp hlimit
    have htop : g.over f "RENDER_TIMEOUT_SECS" = some s := by
      rw [Lookup.over, if_neg (by simp [hlimit]), hs]
      rfl
    rw [Lookup.limit?, htop, Option.bind_some, hread]
    rfl

/-- A lookup on top of itself answers as before. -/
theorem over_self (f : Lookup) : f.over f = f := by
  funext name
  unfold Lookup.over
  split
  · rfl
  · exact Option.or_self

theorem override_eq (config : Config) (lookup : Lookup) : config.override lookup =
    { saveDir := ((lookup "SAVE_DIR").map Path.ofString).getD config.saveDir
      workDir := ((lookup "WORK_DIR").map Path.ofString).getD config.workDir
      renderer :=
        { command := (lookup "RENDER_COMMAND").getD config.renderer.command
          args := ((lookup "RENDER_ARGS").map Text.words).getD config.renderer.args
          timeoutSeconds := lookup.limit?.getD config.renderer.timeoutSeconds } } := rfl

/-- Each setting is read from the answer on top, or else from the one below. -/
theorem override_override (config : Config) (f g : Lookup) :
    (config.override f).override g = config.override (g.over f) := by
  have hanswer : ∀ name ∈ overridingNames, name ≠ "RENDER_TIMEOUT_SECS" →
      g.over f name = (g name).or (f name) := fun _ _ h => over_of_ne h
  rw [override_eq, override_eq, override_eq, hanswer "SAVE_DIR" (by decide) (by decide),
    hanswer "WORK_DIR" (by decide) (by decide), hanswer "RENDER_COMMAND" (by decide) (by decide),
    hanswer "RENDER_ARGS" (by decide) (by decide), limit?_over]
  simp only [Option.map_or, Option.getD_or]

theorem override_congr (config : Config) (h : ∀ name ∈ overridingNames, f name = g name) :
    config.override f = config.override g := by
  rw [override, override, h "SAVE_DIR" (by decide), h "WORK_DIR" (by decide),
    h "RENDER_COMMAND" (by decide), h "RENDER_ARGS" (by decide),
    h "RENDER_TIMEOUT_SECS" (by decide)]

theorem override_of_none (config : Config) (hlimit : f.limit? = none)
    (h : ∀ name ∈ overridingNames, name ≠ "RENDER_TIMEOUT_SECS" → f name = none) :
    config.override f = config := by
  rw [override_eq, hlimit, h "SAVE_DIR" (by decide) (by decide),
    h "WORK_DIR" (by decide) (by decide), h "RENDER_COMMAND" (by decide) (by decide),
    h "RENDER_ARGS" (by decide) (by decide)]
  rfl

/-- Overrides compose: one lookup after another does what the later one does on top of the earlier
one. So a second time changes nothing, only the five variables count, and a lookup with none of them
but perhaps an invalid limit changes nothing either. -/
theorem overrides_compose (config : Config) :
    (∀ f g : Lookup, (config.override f).override g = config.override (g.over f)) ∧
    (∀ f : Lookup, (config.override f).override f = config.override f) ∧
    (∀ f g : Lookup, (∀ name ∈ overridingNames, f name = g name) →
      config.override f = config.override g) ∧
    ∀ f : Lookup, f.limit? = none →
      (∀ name ∈ overridingNames, name ≠ "RENDER_TIMEOUT_SECS" → f name = none) →
      config.override f = config := by
  refine ⟨override_override config, fun f => ?_, fun f g => override_congr config,
    fun f => override_of_none config⟩
  rw [override_override, over_self]

/-- An environment with a directory and a limit. -/
def early : Lookup := fun name =>
  if name = "SAVE_DIR" then some "/early"
  else if name = "RENDER_TIMEOUT_SECS" then some "+05"
  else none

/-- An environment with a program and a limit that is no number. -/
def late : Lookup := fun name =>
  if name = "RENDER_COMMAND" then some "plantuml"
  else if name = "RENDER_TIMEOUT_SECS" then some "soon"
  else none

/-- An environment with an invalid limit and nothing else that counts. -/
def idle : Lookup := fun name =>
  if name = "RENDER_TIMEOUT_SECS" then some "-1"
  else if name = "HOME" then some "/root"
  else none

/-- The early limit shows through the late one, and an idle environment changes nothing. -/
theorem early_and_late_compose :
    ((standard (.ofString "/tmp")).override early).override late =
      ⟨⟨"plantuml", ["-jar", "plantuml.jar"], 5⟩, .ofString "/early", .ofString "/tmp"⟩ ∧
    (standard (.ofString "/tmp")).override idle = standard (.ofString "/tmp") := by
  obtain ⟨hcompose, -, -, hnone⟩ := overrides_compose (standard (.ofString "/tmp"))
  refine ⟨(hcompose early late).trans (by cbv), hnone idle (by cbv) ?_⟩
  intro name hmem hlimit
  simp only [overridingNames, List.mem_cons, List.not_mem_nil, or_false] at hmem
  obtain rfl | rfl | rfl | rfl | rfl := hmem
  · rfl
  · rfl
  · rfl
  · rfl
  · exact absurd rfl hlimit

/-! ## The arguments of the renderer -/

/-- The arguments are the runs of characters of their variable that are not white space, in order.
None of them is empty or has white space in it, together they have all other characters of the
variable, and whatever is put together from words and white space gives these words back. -/
theorem arguments_are_the_words (config : Config) (lookup : Lookup) {s : String}
    (h : lookup "RENDER_ARGS" = some s) :
    (∀ args : List String, (config.override lookup).renderer.args = args ↔
      Text.Spaced (args.map String.toList) s.toList) ∧
    (∀ arg, arg ∈ (config.override lookup).renderer.args ↔
      ∃ before after, s.toList = before ++ (arg.toList ++ after) ∧
        Text.IsRun before arg.toList after) ∧
    (∀ arg ∈ (config.override lookup).renderer.args,
      arg ≠ "" ∧ ∀ c ∈ arg.toList, Text.isBlank c = false) ∧
    String.join (config.override lookup).renderer.args =
      String.ofList (s.toList.filter fun c => !Text.isBlank c) := by
  have hargs : (config.override lookup).renderer.args = Text.words s := by
    rw [override, h]
    rfl
  rw [hargs]
  have hmem : ∀ arg, arg ∈ Text.words s ↔ ∃ before after,
      s.toList = before ++ (arg.toList ++ after) ∧ Text.IsRun before arg.toList after := by
    intro arg
    rw [← Text.mem_wordLists_iff, Text.words, List.mem_map]
    constructor
    · rintro ⟨word, hword, rfl⟩
      rwa [String.toList_ofList]
    · exact fun hword => ⟨_, hword, String.ofList_toList⟩
  refine ⟨fun args => ?_, hmem, fun arg harg => ?_, ?_⟩
  · rw [← Text.wordLists_eq_iff]
    constructor
    · rintro rfl
      simp [Text.words, Function.comp_def]
    · intro hwords
      simp [Text.words, hwords, Function.comp_def]
  · obtain ⟨_, _, -, hrun⟩ := (hmem arg).mp harg
    refine ⟨?_, hrun.word.solid⟩
    rintro rfl
    exact hrun.word.ne_nil rfl
  · rw [← Text.flatten_wordLists, String.join_eq, Text.words, List.map_map]
    simp [Function.comp_def]

/-- An environment in which other white space than blanks parts the arguments. -/
def spacious : Lookup := fun name =>
  if name = "RENDER_ARGS" then some "\u3000-charset\t\u0085 UTF-8\n" else none

/-- No empty argument comes of the white space at the ends or of two separators in a row. -/
theorem spacious_arguments :
    spacious "RENDER_ARGS" = some "\u3000-charset\t\u0085 UTF-8\n" ∧
    ((standard (.ofString "/tmp")).override spacious).renderer.args = ["-charset", "UTF-8"] := by
  have hwords : Text.Spaced (["-charset", "UTF-8"].map String.toList)
      "\u3000-charset\t\u0085 UTF-8\n".toList := by
    have hfirst : Text.Word "-charset".toList := ⟨by simp, by simp [Text.isBlank]⟩
    have hlast : Text.Word "UTF-8".toList := ⟨by simp, by simp [Text.isBlank]⟩
    have hlead : Text.Blank ['\u3000'] := by simp [Text.Blank, Text.isBlank]
    have hsep : Text.Blank ['\t', '\u0085', ' '] := by simp [Text.Blank, Text.isBlank]
    have hend : Text.Blank ['\n'] := by simp [Text.Blank, Text.isBlank]
    exact .cons hlead hfirst hsep (by simp) (.last Text.blank_nil hlast hend)
  exact ⟨rfl, ((arguments_are_the_words _ spacious rfl).1 _).mpr hwords⟩

/-! ## The limit of the renderer -/

theorem timeoutSeconds_override {lookup : Lookup} {s : String}
    (h : lookup "RENDER_TIMEOUT_SECS" = some s) (config : Config) :
    (config.override lookup).renderer.timeoutSeconds =
      (Text.word? s.toList).getD config.renderer.timeoutSeconds := by
  rw [override, h]
  rfl

theorem exists_limited (limit : UInt64) : ∃ config : Config,
    config.renderer.timeoutSeconds = limit :=
  ⟨⟨{ RendererConfig.standard with timeoutSeconds := limit }, .ofString "", .ofString ""⟩, rfl⟩

/-- What comes of every limit before is the number that the variable gave. -/
theorem forall_getD_iff {given : Option UInt64} {value : Nat} :
    (∀ config : Config, (given.getD config.renderer.timeoutSeconds).toNat = value) ↔
      ∃ limit, given = some limit ∧ limit.toNat = value := by
  constructor
  · intro h
    cases given with
    | none =>
      obtain ⟨unlimited, hzero⟩ := exists_limited 0
      obtain ⟨limited, hone⟩ := exists_limited 1
      have hboth := (h unlimited).trans (h limited).symm
      simp [hzero, hone] at hboth
    | some limit =>
      obtain ⟨config, -⟩ := exists_limited 0
      exact ⟨limit, rfl, h config⟩
  · rintro ⟨limit, rfl, rfl⟩ config
    rfl

/-- The limit is a given number, whatever it was before, just if the variable spells that number in
decimal and 64 bits can hold it. If the variable spells no such number, the limit stays as it was.
This comes of reading it digit by digit: whichever digits have been taken, the word that they make
is their exact value, and there is none if it would not fit. -/
theorem limit_is_taken_exactly (lookup : Lookup) {s : String}
    (h : lookup "RENDER_TIMEOUT_SECS" = some s) :
    (∀ value : Nat,
      (∀ config : Config, (config.override lookup).renderer.timeoutSeconds.toNat = value) ↔
        value < 2 ^ 64 ∧ Text.UnsignedNumeral s.toList value) ∧
    ((∀ value < 2 ^ 64, ¬ Text.UnsignedNumeral s.toList value) → ∀ config : Config,
      (config.override lookup).renderer.timeoutSeconds = config.renderer.timeoutSeconds) ∧
    (∀ config : Config, (config.override lookup).renderer.timeoutSeconds =
      (Text.wordByDigits? s.toList).getD config.renderer.timeoutSeconds) ∧
    ∀ taken, (∀ c ∈ taken, c.isDigit) → ∀ word,
      Text.accumulate? taken = some word ↔ word.toNat = Text.placeValue taken := by
  simp only [timeoutSeconds_override h]
  refine ⟨fun value => ?spelled, fun hnone config => ?kept, fun config => ?read,
    fun taken hdigits word => ?exact⟩
  case spelled =>
    rw [forall_getD_iff]
    constructor
    · rintro ⟨limit, hlimit, rfl⟩
      exact ⟨limit.toNat_lt_size, Text.word?_eq_some_iff.mp hlimit⟩
    · rintro ⟨hfits, hvalue⟩
      have htoNat : (UInt64.ofNat value).toNat = value := UInt64.toNat_ofNat_of_lt' hfits
      exact ⟨_, Text.word?_eq_some_iff.mpr (by rwa [htoNat]), htoNat⟩
  case kept =>
    have hword : Text.word? s.toList = none := Option.eq_none_iff_forall_ne_some.mpr
      fun limit hlimit => hnone _ limit.toNat_lt_size (Text.word?_eq_some_iff.mp hlimit)
    rw [hword]
    rfl
  case read => rw [Text.word?_eq_wordByDigits?]
  case exact => rw [Text.accumulate?_eq_some_iff, and_iff_right hdigits]

/-- An environment with the longest limit there is, behind a sign and more zeros than it needs. -/
def longest : Lookup := fun name =>
  if name = "RENDER_TIMEOUT_SECS" then some "+0000018446744073709551615" else none

/-- An environment with a limit that is one second too long. -/
def overlong : Lookup := fun name =>
  if name = "RENDER_TIMEOUT_SECS" then some "18446744073709551616" else none

/-- The longest limit is taken with its sign and zeros, and the next one is not taken at all: it
does not wrap around to no limit. -/
theorem longest_is_taken :
    longest "RENDER_TIMEOUT_SECS" = some "+0000018446744073709551615" ∧
    overlong "RENDER_TIMEOUT_SECS" = some "18446744073709551616" ∧
    ∀ config : Config, (config.override longest).renderer.timeoutSeconds.toNat = 2 ^ 64 - 1 ∧
      (config.override overlong).renderer.timeoutSeconds = config.renderer.timeoutSeconds := by
  obtain ⟨hlongest, -⟩ := limit_is_taken_exactly longest rfl
  obtain ⟨-, hoverlong, -⟩ := limit_is_taken_exactly overlong rfl
  have hlast : Text.placeValue "0000018446744073709551615".toList = 2 ^ 64 - 1 := by decide +kernel
  have hnext : Text.placeValue "18446744073709551616".toList = 2 ^ 64 := by decide +kernel
  have hspelled : Text.UnsignedNumeral "+0000018446744073709551615".toList (2 ^ 64 - 1) :=
    hlast ▸ .plus "0000018446744073709551615".toList (by simp) (by simp)
  have hnone : ∀ value < 2 ^ 64, ¬ Text.UnsignedNumeral "18446744073709551616".toList value := by
    intro value hfits hvalue
    obtain ⟨-, -, rfl⟩ := (Text.unsignedNumeral_iff (by simp)).mp hvalue
    omega
  exact ⟨rfl, rfl, fun config =>
    ⟨(hlongest _).mpr ⟨by decide, hspelled⟩ config, hoverlong hnone config⟩⟩

end Config

end DiagramService

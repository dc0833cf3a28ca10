/-
# One source for the configuration

A configuration that is not named is looked for at some places, one after the other
(`candidates`).  The first place where there is anything is the source, whatever
stands there; without such a place the defaults are (`Chosen`).  What a source
gives is decided by its text alone (`Gives`): it cannot be read, it is no
configuration, no run can work with it, or it is accepted.

So nothing can be taken from a place behind the source, and nothing can depend on
what stands there (`load_one_source`).
-/

import NightlyRelease.Config.Lookup
import NightlyRelease.Proofs.Result
import Mathlib.Data.List.TakeWhile
import Mathlib.Tactic.SplitIfs

namespace NightlyRelease
namespace Config

variable {files files' : FileSystem} {named userDirectory source source' : Option Path}
variable {earlier earlier' : List Path} {c : Config} {e : Error} {text : String}

/-! ### Configurations with which a run can work -/

/-- A run can work with a configuration. -/
structure IsUsable (c : Config) : Prop where
  marker : c.commits.marker ≠ ""
  window : 1 ≤ c.commits.window
  keyPrefix : ∃ a ∈ c.keyPrefix.toList, Text.isBlank a = false
  remote : ∃ a ∈ c.remote.toList, Text.isBlank a = false

theorem isAllBlank_eq_false_iff {s : List Char} :
    Text.isAllBlank s = false ↔ ∃ a ∈ s, Text.isBlank a = false := by
  rw [Text.isAllBlank, List.all_eq_false]
  simp only [Bool.not_eq_true]

theorem check_eq_ok_iff : c.check = .ok () ↔ c.IsUsable := by
  unfold check
  constructor
  · intro h
    split_ifs at h with hmarker hwindow hprefix hremote
    rw [Bool.not_eq_true] at hprefix hremote
    exact ⟨hmarker, Nat.one_le_iff_ne_zero.2 hwindow, isAllBlank_eq_false_iff.1 hprefix,
      isAllBlank_eq_false_iff.1 hremote⟩
  · intro h
    rw [if_neg h.marker, if_neg (Nat.one_le_iff_ne_zero.1 h.window),
      if_neg (by simp [isAllBlank_eq_false_iff.2 h.keyPrefix]),
      if_neg (by simp [isAllBlank_eq_false_iff.2 h.remote])]

/-- A configuration is refused with an error about configurations. -/
theorem exists_reason_of_check (h : c.check = .error e) : ∃ reason, e = .config reason := by
  unfold check at h
  split_ifs at h
  all_goals exact ⟨_, (Except.error.inj h).symm⟩

/-- A text is refused with an error about configurations. -/
theorem exists_reason_of_parse (h : parse text = .error e) : ∃ reason, e = .config reason := by
  unfold parse at h
  split at h
  · exact ⟨_, (Except.error.inj h).symm⟩
  · next t _ =>
    cases ht : ofTable t with
    | ok c => rw [ht] at h; cases h
    | error m => rw [ht] at h; exact ⟨_, (Except.error.inj h).symm⟩

/-! ### Where a configuration is looked for -/

/-- The places at which a configuration is looked for that is not named. -/
def candidates (userDirectory : Option Path) : List Path :=
  Path.join ⟨"."⟩ fileName :: (userDirectory.map (·.join fileName)).toList

/-- The source of the configuration, and the places that were looked at before in vain; `none` as
the source stands for the defaults. -/
inductive Chosen (files : FileSystem) (userDirectory : Option Path) :
    Option Path → List Path → Option Path → Prop
  /-- A file that is named is the source, whether it is there or not. -/
  | named (p : Path) : Chosen files userDirectory (some p) [] (some p)
  /-- The first place where there is anything. -/
  | found {earlier later : List Path} {p : Path}
    (hplaces : candidates userDirectory = earlier ++ p :: later)
    (hearlier : ∀ q ∈ earlier, files.pathExists q = false) (hp : files.pathExists p = true) :
    Chosen files userDirectory none earlier (some p)
  /-- There is nothing at any place. -/
  | defaults (h : ∀ q ∈ candidates userDirectory, files.pathExists q = false) :
    Chosen files userDirectory none (candidates userDirectory) none

theorem locate_eq_find? (files : FileSystem) (userDirectory : Option Path) :
    locate files none userDirectory = (candidates userDirectory).find? files.pathExists := by
  rw [locate, candidates, List.find?_cons]
  cases files.pathExists (Path.join ⟨"."⟩ fileName) with
  | true => rfl
  | false =>
    cases userDirectory with
    | none => rfl
    | some d =>
      simp only [Option.map_some, Option.filter_some, Option.toList_some, List.find?_singleton,
        Bool.false_eq_true, if_false]

theorem exists_chosen (files : FileSystem) (named userDirectory : Option Path) :
    ∃ earlier, Chosen files userDirectory named earlier (locate files named userDirectory) := by
  cases named with
  | some p => exact ⟨[], .named p⟩
  | none =>
    rw [locate_eq_find?]
    cases h : (candidates userDirectory).find? files.pathExists with
    | none => exact ⟨_, .defaults fun q hq => by simpa using List.find?_eq_none.1 h q hq⟩
    | some p =>
      obtain ⟨hp, earlier, later, hplaces, hearlier⟩ := List.find?_eq_some_iff_append.1 h
      exact ⟨earlier, .found hplaces (fun q hq => by simpa using hearlier q hq) hp⟩

/-- What was looked at before the source is what comes before the first place with anything. -/
theorem Chosen.earlier_eq (h : Chosen files userDirectory none earlier source) :
    earlier = (candidates userDirectory).takeWhile (!files.pathExists ·) := by
  cases h with
  | found hplaces hearlier hp =>
    have hall : ∀ q ∈ earlier, (!files.pathExists q) = true := fun q hq => by simp [hearlier q hq]
    rw [hplaces, List.takeWhile_append_of_pos hall, List.takeWhile_cons_of_neg (by simp [hp]),
      List.append_nil]
  | defaults h =>
    exact (List.takeWhile_eq_self_iff.2 fun q hq => by simp [h q hq]).symm

theorem Chosen.locate_eq (h : Chosen files userDirectory named earlier source) :
    locate files named userDirectory = source := by
  cases h with
  | named p => rfl
  | found hplaces hearlier hp =>
    rw [locate_eq_find?, List.find?_eq_some_iff_append]
    exact ⟨hp, _, _, hplaces, fun q hq => by simp [hearlier q hq]⟩
  | defaults h =>
    rw [locate_eq_find?, List.find?_eq_none]
    exact fun q hq => by simp [h q hq]

/-- **There is one source only.** -/
theorem Chosen.unique (h : Chosen files userDirectory named earlier source)
    (h' : Chosen files userDirectory named earlier' source') :
    earlier' = earlier ∧ source' = source := by
  refine ⟨?_, h'.locate_eq.symm.trans h.locate_eq⟩
  cases named with
  | some p => cases h; cases h'; rfl
  | none => exact h'.earlier_eq.trans h.earlier_eq.symm

/-- Two file systems show the same at the source and before it. -/
structure AgreeOn (earlier : List Path) (source : Option Path) (files files' : FileSystem) :
    Prop where
  earlier : ∀ q ∈ earlier, files'.pathExists q = files.pathExists q
  present : ∀ p, source = some p → files'.pathExists p = files.pathExists p
  content : ∀ p, source = some p → files'.readText p = files.readText p

theorem Chosen.of_agreeOn (h : Chosen files userDirectory named earlier source)
    (hagree : AgreeOn earlier source files files') :
    Chosen files' userDirectory named earlier source := by
  cases h with
  | named p => exact .named p
  | @found _ _ p hplaces hearlier hp =>
    exact .found hplaces (fun q hq => (hagree.earlier q hq).trans (hearlier q hq))
      ((hagree.present p rfl).trans hp)
  | defaults h => exact .defaults fun q hq => (hagree.earlier q hq).trans (h q hq)

/-! ### What a source gives -/

/-- What a source gives, with the lines that the log shows. -/
inductive Gives (files : FileSystem) :
    Option Path → Except Error Config → List Log.Line → Prop
  /-- The file cannot be read. -/
  | unreadable {p : Path} {fault : FileSystem.Fault} (h : files.readText p = .error fault) :
    Gives files (some p) (.error (.io fault.message)) [sourceLine (some p)]
  /-- Its text is no configuration. -/
  | unparsed {p : Path} {text reason : String} (h : files.readText p = .ok text)
    (hparse : parse text = .error (.config reason)) :
    Gives files (some p) (.error (.config (p.text ++ ": " ++ (Error.config reason).message)))
      [sourceLine (some p)]
  /-- No run can work with it. -/
  | refused {p : Path} {text reason : String} {c : Config} (h : files.readText p = .ok text)
    (hparse : parse text = .ok c) (hc : ¬ c.IsUsable)
    (hcheck : c.check = .error (.config reason)) :
    Gives files (some p) (.error (.config reason)) [sourceLine (some p)]
  | accepted {p : Path} {text : String} {c : Config} (h : files.readText p = .ok text)
    (hparse : parse text = .ok c) (hc : c.IsUsable) :
    Gives files (some p) (.ok c) (sourceLine (some p) :: c.remarks)
  | defaults (hc : default.IsUsable) : Gives files none (.ok default) [sourceLine none]

theorem isUsable_default : default.IsUsable := check_eq_ok_iff.1 rfl

theorem remarks_default : default.remarks = [] := by decide +kernel

theorem ofSource_of_usable (h : source.elim (.ok default) (ofFile files) = .ok c)
    (hc : c.IsUsable) : ofSource files source = (.ok c, sourceLine source :: c.remarks) := by
  rw [ofSource, h]
  simp only [validate, check_eq_ok_iff.2 hc]
  rfl

/-- **Every source gives one of these.** -/
theorem gives_ofSource (files : FileSystem) (source : Option Path) :
    Gives files source (ofSource files source).1 (ofSource files source).2 := by
  cases source with
  | none =>
    rw [ofSource_of_usable (c := default) rfl isUsable_default, remarks_default]
    exact .defaults isUsable_default
  | some p =>
    cases hread : files.readText p with
    | error fault =>
      have hfile : ofFile files p = .error (.io fault.message) := by rw [ofFile, hread]; rfl
      rw [ofSource, Option.elim_some, hfile]
      exact .unreadable hread
    | ok text =>
      cases hparse : parse text with
      | error e =>
        obtain ⟨reason, rfl⟩ := exists_reason_of_parse hparse
        have hfile : ofFile files p =
            .error (.config (p.text ++ ": " ++ (Error.config reason).message)) := by
          rw [ofFile, hread, Except.mapError, ok_bind, hparse]
          rfl
        rw [ofSource, Option.elim_some, hfile]
        exact .unparsed hread hparse
      | ok c =>
        have hfile : ofFile files p = .ok c := by
          rw [ofFile, hread, Except.mapError, ok_bind, hparse]
          rfl
        cases hcheck : c.check with
        | ok =>
          have hc := check_eq_ok_iff.1 hcheck
          have hsource : (some p).elim (.ok default) (ofFile files) = .ok c := hfile
          rw [ofSource_of_usable hsource hc]
          exact .accepted hread hparse hc
        | error e =>
          obtain ⟨reason, rfl⟩ := exists_reason_of_check hcheck
          have hc : ¬ c.IsUsable := fun hc => by rw [check_eq_ok_iff.2 hc] at hcheck; cases hcheck
          rw [ofSource, Option.elim_some, hfile]
          simp only [validate, hcheck]
          exact .refused hread hparse hc hcheck

/-- What is given is of use. -/
theorem Gives.isUsable {result : Except Error Config} {lines : List Log.Line}
    (h : Gives files source result lines) (hc : result = .ok c) : c.IsUsable := by
  cases h with
  | accepted _ _ husable => cases hc; exact husable
  | defaults husable => cases hc; exact husable
  | _ => cases hc

theorem ofSource_congr (h : ∀ p, source = some p → files'.readText p = files.readText p) :
    ofSource files' source = ofSource files source := by
  cases source with
  | none => rfl
  | some p => simp only [ofSource, Option.elim_some, ofFile, h p rfl]

/-- **The configuration is taken from one source,** and what stands behind it is not looked at. -/
theorem load_one_source (files : FileSystem) (named userDirectory : Option Path) :
    ∃ earlier source, Chosen files userDirectory named earlier source ∧
      (∀ earlier' source', Chosen files userDirectory named earlier' source' →
        earlier' = earlier ∧ source' = source) ∧
      Gives files source (load files named userDirectory).1 (load files named userDirectory).2 ∧
      (∀ files', AgreeOn earlier source files files' →
        load files' named userDirectory = load files named userDirectory) ∧
      ∀ c, (load files named userDirectory).1 = .ok c → c.IsUsable := by
  obtain ⟨earlier, hchosen⟩ := exists_chosen files named userDirectory
  have hgives := gives_ofSource files (locate files named userDirectory)
  refine ⟨earlier, _, hchosen, fun _ _ h => hchosen.unique h, hgives, fun files' hagree => ?_,
    fun c hc => ?_⟩
  · rw [load, (hchosen.of_agreeOn hagree).locate_eq, ofSource_congr hagree.content, load]
  · exact hgives.isUsable hc

/-- A directory in the place of the file is a source that cannot be read. -/
example : (load ⟨[(["nightly-bump.toml"], .directory), (["home"], .directory),
      (["home", "nightly-bump.toml"], .file "[remote]\nname = \"team\"\n".toUTF8)], []⟩
    none (some ⟨"/home"⟩)).1 = .error (.io "Is a directory (os error 21)") := by
  decide +kernel

end Config
end NightlyRelease

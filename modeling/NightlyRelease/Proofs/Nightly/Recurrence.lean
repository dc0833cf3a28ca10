/-
# A run after a run

A nightly run pushes a commit, and the push may start the next run.  The loop
guard ends that one, if it finds the marker in the subject of the commit.

A configuration is accepted without a remark if its marker stands in the text
before the version, the lead of the message.  The guard looks at what folding
makes of the message, though.  It finds the marker exactly if that is left in
what the subject keeps of the lead, followed by the version if no blank line
comes before it (`isAutomated_commitMessage_iff`).  If folding does not take the
marker out of the lead, a run is skipped after every run that has committed
(`rerun_skipped`); it takes no phrase out of a lead of one paragraph
(`Config.not_losesMarker`).  With the marker in a second paragraph, each run sets
off the next one (`rerun_completed_sample`).
-/

import NightlyRelease.Proofs.Commit.Folding
import NightlyRelease.Proofs.Nightly.Completion
import NightlyRelease.Proofs.Version.Canonical

namespace NightlyRelease

open Repository Text

namespace Config

variable {c : Config}

/-- What stands after the lead in the message of a nightly commit. -/
def afterLead (v : Version) : List Char := v.text.toList ++ " (nightly build)".toList

theorem commitMessage_eq (c : Config) (v : Version) :
    c.commitMessage v = String.ofList (c.commits.lead.toList ++ afterLead v) := by
  rw [← String.toList_inj]
  simp [commitMessage, afterLead]

theorem isPhrase_afterLead (v : Version) : IsPhrase (afterLead v) where
  no_feed h := by
    rcases List.mem_append.1 h with h | h
    · rcases Version.of_mem_text h with h | h
      · cases h
      · cases h
    · exact absurd h (by decide)
  starts := by
    obtain ⟨d, ds, hd⟩ := List.exists_cons_of_ne_nil (Decimal.digits_ne_nil v.major.toNat)
    refine ⟨d, _, by rw [afterLead, Version.toList_text, hd]; rfl, ?_⟩
    exact Decimal.isBlank_of_isDigit (Decimal.mem_digits (hd ▸ List.mem_cons_self))
  ends := ⟨v.text.toList ++ " (nightly build".toList, ')', by simp [afterLead], by decide⟩

/-- Folding takes the marker out of the lead: the marker stands there, and not in what subjects
keep of it. -/
def LosesMarker (c : Config) : Prop :=
  c.commits.marker.toList <:+: c.commits.lead.toList ∧
    ¬ c.commits.marker.toList <:+: Subject.kept c.commits.lead.toList

instance (c : Config) : Decidable c.LosesMarker := inferInstanceAs (Decidable (_ ∧ ¬ _))

/-- Folding takes no phrase out of a lead of one paragraph. -/
theorem not_losesMarker (hmarker : IsPhrase c.commits.marker.toList)
    (hlead : Subject.isClosed c.commits.lead.toList = false) : ¬ c.LosesMarker :=
  fun h => h.2 (Subject.infix_kept_of_isPhrase hmarker h.1 hlead)

/-- A configuration is accepted without a remark if its marker stands in the lead. -/
theorem validate_eq_iff :
    c.validate = (.ok (), []) ↔
      c.check = .ok () ∧ c.commits.marker.toList <:+: c.commits.lead.toList := by
  have hmarked : c.isMarked = true ↔ c.commits.marker.toList <:+: c.commits.lead.toList := by
    rw [isMarked, contains_iff]
    exact exists_congr fun a => exists_congr fun b => eq_comm
  rw [← hmarked, validate]
  cases c.check with
  | error e => simp
  | ok u => cases h : c.isMarked <;> simp [remarks, h]

/-- **Which nightly commits the loop guard knows** is decided by what folding keeps. -/
theorem isAutomated_commitMessage_iff (c : Config) (v : Version) :
    (Subject.ofMessage (c.commitMessage v)).isAutomated c.commits.marker = true ↔
      c.commits.marker.toList <:+: Subject.kept c.commits.lead.toList ++
        if Subject.isClosed c.commits.lead.toList then [] else afterLead v := by
  rw [Subject.isAutomated_iff, commitMessage_eq,
    Subject.toList_ofMessage_append (isPhrase_afterLead v)]

end Config

namespace Nightly

variable {options options₂ : Options} {config : Config} {w w' w₂ : World InMemory}

/-- A run leaves the history as it is, or puts the commit of its bump on top. -/
theorem Course.subjects_eq {result : Except Error Outcome}
    (h : Course options config w result w') :
    w'.repository.subjects = w.repository.subjects ∨
      ∃ v, w'.repository.subjects =
        Subject.ofMessage (config.commitMessage v) :: w.repository.subjects := by
  by_cases hcompleted : ∃ r, result = .ok (.completed r)
  · obtain ⟨r, rfl⟩ := hcompleted
    obtain ⟨file, bumped, fs₁, fs₂, hc⟩ := h.completion
    exact .inr ⟨r.version, by rw [hc.subjects_eq, hc.message_eq]; rfl⟩
  · have hne : ∀ r, result ≠ .ok (.completed r) := fun r hr => hcompleted ⟨r, hr⟩
    rcases h.checkpoint hne with huntouched | ⟨bumped, fs, e, hcommitted, -⟩
    · exact .inl (by rw [huntouched.repository])
    · exact .inr ⟨bumped.version, by rw [hcommitted.repository_eq]; rfl⟩

/-- A run is skipped exactly if the newest commit is automated. -/
theorem exists_skipped_iff :
    (∃ subject, (run options config inMemory w).1 = .ok (.skipped subject)) ↔
      ∃ s, w.repository.subjects.head? = some s ∧
        s.isAutomated config.commits.marker = true := by
  obtain ⟨result, w', h⟩ := exists_course options config w
  have hreturned (subject : String) :
      (run options config inMemory w).1 = .ok (.skipped subject) ↔
        result = .ok (.skipped subject) := by
    rw [h.run_apply]
    exact Action.returned_inj (y := .ok (Outcome.skipped subject))
  simp only [hreturned, h.skipped_iff, Subject.isAutomated_iff]
  constructor
  · rintro ⟨subject, s, hs, -, hm⟩
    exact ⟨s, hs, hm⟩
  · rintro ⟨s, hs, hm⟩
    exact ⟨s.text, s, hs, rfl, hm⟩

/-- A run on an automated commit is skipped, whatever it is asked for. -/
theorem run_of_automated {s : Subject} (hs : w.repository.subjects.head? = some s)
    (hm : s.isAutomated config.commits.marker = true) :
    run options config inMemory w = (.ok (.skipped s.text),
      w.logged [⟨.info, "Latest commit is a nightly bump, skipping: " ++ s.text⟩]) :=
  (Course.skipped hs hm).run_apply

/-- **A run does not set off the next one,** if its configuration was accepted without a remark and
folding does not take the marker out of the lead: after a run that has committed, every run is
skipped and only logs so, whatever it is asked for and whatever else has changed, as long as nobody
has committed since. In any case it is skipped exactly if the subject of the commit has kept the
marker. -/
theorem rerun_skipped {result : Except Halt Outcome} (hvalid : config.validate = (.ok (), []))
    (hrun : run options config inMemory w = (result, w'))
    (hcommit : w'.repository.subjects ≠ w.repository.subjects)
    (hsame : w₂.repository.subjects = w'.repository.subjects) :
    (¬ config.LosesMarker → ∃ subject, run options₂ config inMemory w₂ =
      (.ok (.skipped subject),
        w₂.logged [⟨.info, "Latest commit is a nightly bump, skipping: " ++ subject⟩])) ∧
    ∃ v, w'.repository.subjects =
        Subject.ofMessage (config.commitMessage v) :: w.repository.subjects ∧
      ((∃ subject, (run options₂ config inMemory w₂).1 = .ok (.skipped subject)) ↔
        config.commits.marker.toList <:+: Subject.kept config.commits.lead.toList ++
          if Subject.isClosed config.commits.lead.toList then [] else Config.afterLead v) := by
  obtain ⟨result₁, w₁, hcourse⟩ := exists_course options config w
  obtain rfl : w₁ = w' := congrArg Prod.snd (hcourse.run_apply.symm.trans hrun)
  obtain ⟨v, hv⟩ := hcourse.subjects_eq.resolve_left hcommit
  have hhead : w₂.repository.subjects.head? =
      some (Subject.ofMessage (config.commitMessage v)) := by rw [hsame, hv]; rfl
  refine ⟨fun hkept => ?_, v, hv, ?_⟩
  · have hmarker : config.commits.marker.toList <:+: Subject.kept config.commits.lead.toList := by
      by_contra hlost
      exact hkept ⟨(Config.validate_eq_iff.1 hvalid).2, hlost⟩
    have hautomated := (config.isAutomated_commitMessage_iff v).2
      (hmarker.trans (List.prefix_append _ _).isInfix)
    exact ⟨_, run_of_automated hhead hautomated⟩
  · rw [← config.isAutomated_commitMessage_iff v, exists_skipped_iff, hhead]
    simp

/-! ### Two configurations of the small library -/

/-- The small library is released as version 1.2.4, and the next run is skipped. -/
theorem rerun_skipped_sample :
    publishedBy (run Sample.options Sample.config inMemory Sample.world).1 = some ⟨1, 2, 4⟩ ∧
    ∃ subject w₃, run Sample.options Sample.config inMemory
        (run Sample.options Sample.config inMemory Sample.world).2 =
      (.ok (.skipped subject), w₃) := by
  have hvalid : Sample.config.validate = (.ok (), []) :=
    Config.validate_eq_iff.2 ⟨toOption_eq_some_iff.1 (by decide +kernel), by decide +kernel⟩
  have hkept : ¬ Sample.config.LosesMarker :=
    Config.not_losesMarker ⟨by decide, ⟨_, _, rfl, by decide⟩,
      ⟨"-- managed-buil".toList, 'd', by decide, by decide⟩⟩ (by decide +kernel)
  have hpublished : publishedBy (run Sample.options Sample.config inMemory Sample.world).1 =
      some ⟨1, 2, 4⟩ := by decide +kernel
  have hcommit : (run Sample.options Sample.config inMemory Sample.world).2.repository.subjects ≠
      Sample.world.repository.subjects := by decide +kernel
  generalize hrun : run Sample.options Sample.config inMemory Sample.world = ending at *
  obtain ⟨result, w'⟩ := ending
  obtain ⟨subject, hskipped⟩ :=
    (@rerun_skipped Sample.options Sample.options _ _ _ w' _ hvalid hrun hcommit rfl).1 hkept
  exact ⟨hpublished, subject, _, hskipped⟩

/-- The small library, with the marker in the second paragraph of its commit messages. -/
def Sample.bodied : Config := { Sample.config with
  commits := { lead := "Nightly bump\n\n-- managed-build bump version number to " } }

/-- Its configuration is accepted without a remark, and yet each of two runs in a row commits and
publishes a version. -/
theorem rerun_completed_sample :
    Sample.bodied.validate = (.ok (), []) ∧
    publishedBy (run Sample.options Sample.bodied inMemory Sample.world).1 = some ⟨1, 2, 4⟩ ∧
    publishedBy (run Sample.options Sample.bodied inMemory
      (run Sample.options Sample.bodied inMemory Sample.world).2).1 = some ⟨1, 2, 5⟩ :=
  ⟨Config.validate_eq_iff.2 ⟨toOption_eq_some_iff.1 (by decide +kernel), by decide +kernel⟩,
    by decide +kernel, by decide +kernel⟩

end Nightly
end NightlyRelease

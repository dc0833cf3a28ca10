/-
# Two runs side by side

Two runs are alike if they see the same up to the point where they publish
(`Alike`).  Then the second takes the course that the first takes, with the same
result; and what they leave differs at most in what publishing adds: the remotes,
the calls and the log lines between two common stretches (`Parallel`).

So all that is to be shown of two runs is what publishing adds in them
(`Course.parallel`).
-/

import NightlyRelease.Proofs.Nightly.Checkpoints

namespace NightlyRelease
namespace Nightly

open NightlyRelease.Action Repository Publish

variable {options₁ options₂ : Options} {config : Config} {w₁ w₂ w₁' : World InMemory}
variable {result : Except Error Outcome} {R : Trace → Trace → Prop}

/-- Two runs see the same until they publish. -/
structure Alike (options₁ options₂ : Options) (config : Config) (w₁ w₂ : World InMemory) :
    Prop where
  subjects : w₂.repository.subjects = w₁.repository.subjects
  files : w₂.files = w₁.files
  dry : options₂.dry = options₁.dry
  credentials : options₂.credentials.isNone = options₁.credentials.isNone
  planned : planned options₂ config w₂.files w₂.repository =
    planned options₁ config w₁.files w₁.repository
  planLines : planLines options₂ config w₂.files w₂.repository =
    planLines options₁ config w₁.files w₁.repository

theorem Alike.proceeds (h : Alike options₁ options₂ config w₁ w₂)
    (hg : Proceeds options₁ config w₁.repository) : Proceeds options₂ config w₂.repository where
  head := by rw [h.subjects]; exact hg.head
  credentials hd := by
    have hsome := hg.credentials (h.dry ▸ hd)
    rw [← Option.not_isNone, Bool.not_eq_true'] at hsome ⊢
    rw [h.credentials, hsome]

/-- The world after a run that has published something. -/
def settled (w : World InMemory) (message : String) (fs : FileSystem) (before : List Log.Line)
    (t : Trace) (after : List Log.Line) : World InMemory where
  files := fs
  repository := { w.repository.withCommit message with
    remotes := t.remotes, calls := w.repository.calls ++ t.calls }
  log := w.log ++ before ++ t.lines ++ after

/-- What two runs leave, where what publishing adds is related by `R`. -/
inductive Parallel (w₁ w₂ : World InMemory) (R : Trace → Trace → Prop) :
    World InMemory → World InMemory → Prop
  /-- Neither run has published anything. -/
  | logged (lines : List Log.Line) : Parallel w₁ w₂ R (w₁.logged lines) (w₂.logged lines)
  /-- Both runs have published. -/
  | published {t₁ t₂ : Trace} (h : R t₁ t₂) (message : String) (fs : FileSystem)
    (before after : List Log.Line) :
    Parallel w₁ w₂ R (settled w₁ message fs before t₁ after) (settled w₂ message fs before t₂ after)

theorem after_eq_settled (t : Trace) (request : Request) (plan : Plan) (fs : FileSystem)
    (w : World InMemory) (lines : List Log.Line) :
    t.after request (plan.written fs (w.logged lines)) =
      settled w request.message fs (lines ++ plan.writtenLines) t [] := by
  simp only [Trace.after, Plan.written, World.logged, settled, List.append_assoc, List.append_nil]

theorem logged_eq_settled (t : Trace) (request : Request) (plan : Plan) (fs fs' : FileSystem)
    (w : World InMemory) (lines after : List Log.Line) :
    World.logged { t.after request (plan.written fs (w.logged lines)) with files := fs' } after =
      settled w request.message fs' (lines ++ plan.writtenLines) t after := by
  simp only [Trace.after, Plan.written, World.logged, settled, List.append_assoc]

/-- **Of two runs that are alike, the second takes the course of the first.** -/
theorem Course.parallel (h : Course options₁ config w₁ result w₁')
    (ha : Alike options₁ options₂ config w₁ w₂)
    (hends : ∀ plan ending t₁,
      planned options₁ config w₁.files w₁.repository = .ok plan → options₁.dry = false →
      Ends (plan.request options₁ config) w₁.repository ending t₁ →
      ∃ t₂, Ends (plan.request options₂ config) w₂.repository ending t₂ ∧ R t₁ t₂) :
    ∃ w₂', Course options₂ config w₂ result w₂' ∧ Parallel w₁ w₂ R w₁' w₂' := by
  have hlogged (lines : List Log.Line) : Parallel w₁ w₂ R (w₁.logged lines) (w₂.logged lines) :=
    .logged lines
  have hnothing : Parallel w₁ w₂ R w₁ w₂ := by
    simpa only [World.logged, List.append_nil] using hlogged []
  cases h with
  | empty hs => exact ⟨_, .empty (ha.subjects ▸ hs), hnothing⟩
  | skipped hs hm => exact ⟨_, .skipped (ha.subjects ▸ hs) hm, .logged _⟩
  | uncredited hs hm hd hc =>
    have hnone : options₂.credentials = none :=
      Option.isNone_iff_eq_none.1 (by rw [ha.credentials, hc]; rfl)
    exact ⟨_, .uncredited (ha.subjects ▸ hs) hm (ha.dry ▸ hd) hnone, hnothing⟩
  | unplanned hg hp =>
    refine ⟨_, .unplanned (ha.proceeds hg) (ha.planned ▸ hp), ?_⟩
    rw [ha.planLines]
    exact .logged _
  | previewed hg hp hd =>
    refine ⟨_, .previewed (ha.proceeds hg) (ha.planned ▸ hp) (ha.dry ▸ hd), ?_⟩
    rw [ha.planLines]
    exact .logged _
  | unwritten hg hp hd hw =>
    refine ⟨_, .unwritten (ha.proceeds hg) (ha.planned ▸ hp) (ha.dry ▸ hd) (ha.files ▸ hw), ?_⟩
    rw [ha.planLines]
    exact .logged _
  | unpublished hg hp hd hw₁ hw₂ he =>
    obtain ⟨t₂, he₂, hR⟩ := hends _ _ _ hp hd he
    refine ⟨_, .unpublished (ha.proceeds hg) (ha.planned ▸ hp) (ha.dry ▸ hd) (ha.files ▸ hw₁) hw₂
      he₂, ?_⟩
    rw [ha.planLines, after_eq_settled, after_eq_settled]
    exact .published hR _ _ _ _
  | unrecorded hg hp hd hw₁ hw₂ he hw₃ =>
    obtain ⟨t₂, he₂, hR⟩ := hends _ _ _ hp hd he
    refine ⟨_, .unrecorded (ha.proceeds hg) (ha.planned ▸ hp) (ha.dry ▸ hd) (ha.files ▸ hw₁) hw₂
      he₂ hw₃, ?_⟩
    rw [ha.planLines, after_eq_settled, after_eq_settled]
    exact .published hR _ _ _ _
  | completed hg hp hd hw₁ hw₂ he hw₃ =>
    obtain ⟨t₂, he₂, hR⟩ := hends _ _ _ hp hd he
    refine ⟨_, .completed (ha.proceeds hg) (ha.planned ▸ hp) (ha.dry ▸ hd) (ha.files ▸ hw₁) hw₂
      he₂ hw₃, ?_⟩
    rw [ha.planLines, logged_eq_settled, logged_eq_settled]
    exact .published hR _ _ _ _

/-- The remotes have their URLs after a run, unless its error says otherwise. -/
theorem Course.remotes_eq (h : Course options₁ config w₁ result w₁')
    (hresult : ∀ reason, result ≠ .error (.remoteRestore reason)) :
    w₁'.repository.remotes = w₁.repository.remotes := by
  cases h with
  | unpublished hg hp hd hw₁ hw₂ he =>
    exact he.remotes_eq fun reason hr => hresult reason (by cases hr; rfl)
  | unrecorded hg hp hd hw₁ hw₂ he => exact he.remotes_eq fun reason hr => by cases hr
  | completed hg hp hd hw₁ hw₂ he => exact he.remotes_eq fun reason hr => by cases hr
  | _ => rfl

end Nightly
end NightlyRelease

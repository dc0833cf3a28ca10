/-
# What the credentials of a push change

Two runs that are asked for the same but for their credentials differ in two
calls only: the remote gets a URL with the credentials of the run, and the push
goes to that URL (`RecordedCall.SameBut`).  The credentials reach the log only as
the user-info of a URL that is redacted, and that text is the same for all
credentials (`Url.redact_of_injectInto`); no error and no warning has them.

So from the outcome, the log, the files, the history and all other calls nobody
can tell with which credentials a run has pushed (`credentials_unseen`).  The one
other place where they could show is a remote that keeps the URL with them, and
then the error says so.
-/

import NightlyRelease.Proofs.Nightly.Comparison
import NightlyRelease.Proofs.Nightly.Completion
import NightlyRelease.Proofs.Url.UserInfo
import Mathlib.Data.List.Forall2

namespace NightlyRelease

open NightlyRelease.Action Repository

/-- Two calls are the same, but for the credentials in the URL that a remote of `r` gets or is
pushed to: `c₁` in the first call and `c₂` in the second. -/
inductive RecordedCall.SameBut (r : InMemory) (c₁ c₂ : Credentials) :
    RecordedCall → RecordedCall → Prop
  | refl (call : RecordedCall) : SameBut r c₁ c₂ call call
  | setRemoteUrl {remote url carrier₁ carrier₂ : String} (hr : r.remotes remote = some url)
    (h₁ : c₁.injectInto url = some carrier₁) (h₂ : c₂.injectInto url = some carrier₂) :
    SameBut r c₁ c₂ (.setRemoteUrl remote carrier₁) (.setRemoteUrl remote carrier₂)
  | push {remote branch url carrier₁ carrier₂ : String} (hr : r.remotes remote = some url)
    (h₁ : c₁.injectInto url = some carrier₁) (h₂ : c₂.injectInto url = some carrier₂) :
    SameBut r c₁ c₂ (.push remote branch carrier₁) (.push remote branch carrier₂)

namespace Publish

variable {r : InMemory} {request : Request} {c c₁ c₂ : Credentials} {t₁ : Trace}
variable {result : Except Error Report}

/-- The URL that no remote can be set to is not the one that would carry the credentials. -/
def CanCarry (r : InMemory) (remote : String) (c : Credentials) : Prop :=
  ∀ url carrier, r.remotes remote = some url → c.injectInto url = some carrier →
    r.refusedUrl ≠ some carrier

/-- The calls and log lines of two traces differ in credentials only. -/
def SameTrace (r : InMemory) (c₁ c₂ : Credentials) (t₁ t₂ : Trace) : Prop :=
  t₂.lines = t₁.lines ∧ List.Forall₂ (RecordedCall.SameBut r c₁ c₂) t₁.calls t₂.calls

theorem exists_injectInto {url carrier : String} (h : c₁.injectInto url = some carrier)
    (c₂ : Credentials) : ∃ carrier₂, c₂.injectInto url = some carrier₂ :=
  Option.ne_none_iff_exists'.1 fun hnone => by
    rw [Url.injectInto_eq_none_iff.2 (Url.injectInto_eq_none_iff.1 hnone)] at h
    cases h

/-- **Publishing with other credentials ends in the same way.** -/
theorem Ends.withCredentials (h₁ : CanCarry r request.remote c₁)
    (h₂ : CanCarry r request.remote c₂)
    (h : Ends { request with credentials := some c₁ } r result t₁) :
    ∃ t₂, Ends { request with credentials := some c₂ } r result t₂ ∧ SameTrace r c₁ c₂ t₁ t₂ := by
  have hsame (calls : List RecordedCall) :
      List.Forall₂ (RecordedCall.SameBut r c₁ c₂) calls calls :=
    List.forall₂_same.2 fun call _ => .refl call
  have hnone {url : String} (hc : c₁.injectInto url = none) : c₂.injectInto url = none :=
    Url.injectInto_eq_none_iff.2 (Url.injectInto_eq_none_iff.1 hc)
  -- if the remote gets a URL with credentials, then two calls and the text of one line have them
  have hcarried {url carrier₁ carrier₂ : String} (hr : r.remotes request.remote = some url)
      (hc₁ : c₁.injectInto url = some carrier₁) (hc₂ : c₂.injectInto url = some carrier₂)
      (rest : List RecordedCall) (lines : List Log.Line) :
      SameTrace r c₁ c₂
        ⟨t₁.remotes, request.opening ++ request.setTo carrier₁ :: request.pushTo carrier₁ :: rest,
          request.pushLines r url ++ request.swapLine carrier₁ :: lines⟩
        ⟨t₁.remotes, request.opening ++ request.setTo carrier₂ :: request.pushTo carrier₂ :: rest,
          request.pushLines r url ++ request.swapLine carrier₂ :: lines⟩ := by
    refine ⟨by simp only [Request.swapLine, Url.redact_of_injectInto hc₁ hc₂], ?_⟩
    exact List.rel_append (hsame _) (.cons (.setRemoteUrl hr hc₁ hc₂)
      (.cons (.push hr hc₁ hc₂) (hsame rest)))
  cases h with
  | unknown hr => exact ⟨_, .unknown hr, rfl, hsame _⟩
  | pushed hr hc hp => exact ⟨_, .pushed hr (hnone hc) hp, rfl, hsame _⟩
  | refused hr hc hp => exact ⟨_, .refused hr (hnone hc) hp, rfl, hsame _⟩
  | unswapped hr hc hu => exact absurd hu (h₁ _ _ hr hc)
  | swapped hr hc hu hu' hp =>
    obtain ⟨carrier₂, hc₂⟩ := exists_injectInto hc c₂
    exact ⟨_, .swapped hr hc₂ (h₂ _ _ hr hc₂) hu' hp, hcarried hr hc hc₂ _ _⟩
  | restored hr hc hu hu' hp =>
    obtain ⟨carrier₂, hc₂⟩ := exists_injectInto hc c₂
    exact ⟨_, .restored hr hc₂ (h₂ _ _ hr hc₂) hu' hp, hcarried hr hc hc₂ _ _⟩
  | stuck hr hc hu hu' =>
    obtain ⟨carrier₂, hc₂⟩ := exists_injectInto hc c₂
    refine ⟨_, .stuck hr hc₂ (h₂ _ _ hr hc₂) hu', ?_⟩
    rw [List.append_assoc, List.append_assoc]
    exact hcarried hr hc hc₂ _ _

end Publish

namespace Nightly

variable {options : Options} {config : Config} {w w₁ w₂ : World InMemory} {c₁ c₂ : Credentials}
variable {result : Except Error Outcome}

/-- What two runs from `w` with the same result leave, one with the credentials `c₁` and the other
with `c₂`, if nothing shows which: all is the same but for the credentials in the calls, and in the
remotes if the result says that one of them could not get its URL back. -/
structure Unseen (c₁ c₂ : Credentials) (w : World InMemory) (result : Except Error Outcome)
    (w₁ w₂ : World InMemory) : Prop where
  files_eq : w₂.files = w₁.files
  log_eq : w₂.log = w₁.log
  repository_eq : w₂.repository =
    { w₁.repository with remotes := w₂.repository.remotes, calls := w₂.repository.calls }
  calls : ∃ calls₁ calls₂, w₁.repository.calls = w.repository.calls ++ calls₁ ∧
    w₂.repository.calls = w.repository.calls ++ calls₂ ∧
    List.Forall₂ (RecordedCall.SameBut w.repository c₁ c₂) calls₁ calls₂
  remotes_eq : (∀ reason, result ≠ .error (.remoteRestore reason)) →
    w₂.repository.remotes = w₁.repository.remotes

/-- Until it publishes, a run does not look at its credentials. -/
theorem alike_of_credentials (options : Options) (config : Config) (w : World InMemory)
    (c₁ c₂ : Credentials) : Alike { options with credentials := some c₁ }
      { options with credentials := some c₂ } config w w :=
  ⟨rfl, rfl, rfl, rfl, rfl, rfl⟩

/-- **With which credentials a run pushes does not show.** If a remote can be set to both URLs with
credentials, two runs that differ in the credentials have the same result, and what they leave
differs in the URL of the push only. -/
theorem credentials_unseen
    (h₁ : Publish.CanCarry w.repository (options.remote.getD config.remote) c₁)
    (h₂ : Publish.CanCarry w.repository (options.remote.getD config.remote) c₂) :
    ∃ result w₁ w₂,
      run { options with credentials := some c₁ } config inMemory w = (returned result, w₁) ∧
      run { options with credentials := some c₂ } config inMemory w = (returned result, w₂) ∧
      Unseen c₁ c₂ w result w₁ w₂ := by
  obtain ⟨result, w₁, hcourse₁⟩ := exists_course { options with credentials := some c₁ } config w
  obtain ⟨w₂, hcourse₂, hparallel⟩ := hcourse₁.parallel
    (R := Publish.SameTrace w.repository c₁ c₂) (alike_of_credentials options config w c₁ c₂) <| by
      intro plan ending t₁ hp hd he
      obtain ⟨branch, url, bumped, -, -, -, rfl⟩ := planned_eq_ok_iff.1 hp
      exact @Publish.Ends.withCredentials w.repository
        ((planOn options config w.repository branch bumped).request options config)
        c₁ c₂ t₁ ending h₁ h₂ he
  have hremotes (hresult : ∀ reason, result ≠ .error (.remoteRestore reason)) :
      w₂.repository.remotes = w₁.repository.remotes := by
    rw [hcourse₂.remotes_eq hresult, hcourse₁.remotes_eq hresult]
  refine ⟨result, w₁, w₂, hcourse₁.run_apply, hcourse₂.run_apply, ?_⟩
  cases hparallel with
  | logged lines =>
    exact ⟨rfl, rfl, rfl, ⟨[], [], (List.append_nil _).symm, (List.append_nil _).symm, .nil⟩,
      hremotes⟩
  | published h message fs before after =>
    exact ⟨rfl, by rw [settled, settled, h.1], rfl, ⟨_, _, rfl, rfl, h.2⟩, hremotes⟩

/-- The small library is released by two users, and nothing shows by whom. -/
theorem credentials_unseen_sample :
    (∀ c : Credentials, Publish.CanCarry Sample.world.repository
      (Sample.options.remote.getD Sample.config.remote) c) ∧
    ∃ result w₁ w₂,
      run { Sample.options with credentials := some ⟨"bot", "token"⟩ } Sample.config inMemory
        Sample.world = (returned result, w₁) ∧
      run { Sample.options with credentials := some ⟨"jürgen", "p@ss:/?#"⟩ } Sample.config inMemory
        Sample.world = (returned result, w₂) ∧
      publishedBy (returned result) = some ⟨1, 2, 4⟩ ∧
      Unseen ⟨"bot", "token"⟩ ⟨"jürgen", "p@ss:/?#"⟩ Sample.world result w₁ w₂ := by
  have hcarry (c : Credentials) : Publish.CanCarry Sample.world.repository
      (Sample.options.remote.getD Sample.config.remote) c := fun _ _ _ _ h => by cases h
  obtain ⟨result, w₁, w₂, hrun₁, hrun₂, hunseen⟩ :=
    credentials_unseen (hcarry ⟨"bot", "token"⟩) (hcarry ⟨"jürgen", "p@ss:/?#"⟩)
  have hpublished : publishedBy (run { Sample.options with credentials := some ⟨"bot", "token"⟩ }
      Sample.config inMemory Sample.world).1 = some ⟨1, 2, 4⟩ := by decide +kernel
  rw [hrun₁] at hpublished
  exact ⟨hcarry, result, w₁, w₂, hrun₁, hrun₂, hpublished, hunseen⟩

end Nightly
end NightlyRelease

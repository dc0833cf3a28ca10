/-
# How publishing ends

In a repository in memory, publishing ends in one of seven ways.  Three things
decide between them:

* whether the remote is known, and with which URL;
* whether that URL gets the credentials of the request (`Request.carrier`);
* whether the repository refuses the push, or one of the two URLs.

`Ends` has one constructor for each way, with everything that it leaves behind.
Every request ends in one of them (`exists_ends`), and what a constructor says is
what `publish` does (`Ends.publish_apply`).
-/

import NightlyRelease.Publish
import NightlyRelease.Repository.InMemory

namespace NightlyRelease

open NightlyRelease.Action Repository

/-! ### Remotes in memory -/

namespace Repository.inMemory

variable {w : World InMemory} {remote url before : String}

theorem remoteUrl_of_unknown (hr : w.repository.remotes remote = none) :
    inMemory.remoteUrl remote w =
      (.error (.failed (.remote ("Cannot find remote '" ++ remote ++ "'"))), w) := by
  rw [remoteUrl_apply, InMemory.remoteUrl, hr]
  rfl

theorem remoteUrl_of_known (hr : w.repository.remotes remote = some url) :
    inMemory.remoteUrl remote w = (.ok url, w) := by
  rw [remoteUrl_apply, InMemory.remoteUrl, hr]
  rfl

theorem setRemoteUrl_of_refused (hu : w.repository.refusedUrl = some url) :
    inMemory.setRemoteUrl remote url w =
      (returned (.error (.remote ("Cannot set URL of remote '" ++ remote ++ "'"))), w) := by
  rw [setRemoteUrl_apply, InMemory.setRemoteUrl, if_pos hu]
  rfl

theorem setRemoteUrl_of_known (hr : w.repository.remotes remote = some before)
    (hu : w.repository.refusedUrl ≠ some url) :
    inMemory.setRemoteUrl remote url w = (returned (.ok ()), { w with
      repository := (w.repository.withRemote remote url).record (.setRemoteUrl remote url) }) := by
  rw [setRemoteUrl_apply, InMemory.setRemoteUrl, if_neg hu, InMemory.remoteUrl, hr]
  rfl

theorem push_of_known (hr : w.repository.remotes remote = some url) (branch : String)
    (credentials : Option Credentials) :
    inMemory.push remote branch credentials w = (returned w.repository.pushOutcome,
      { w with repository := w.repository.record (.push remote branch url) }) := by
  rw [push_apply, InMemory.push, InMemory.remoteUrl, hr]
  rfl

end Repository.inMemory

namespace RemoteSwap

variable {w : World InMemory} {remote url before : String}

theorem replace_of_refused (hr : w.repository.remotes remote = some before)
    (hu : w.repository.refusedUrl = some url) :
    replace inMemory remote url w =
      (.error (.failed (.remote ("Cannot set URL of remote '" ++ remote ++ "'"))), w) := by
  simp only [replace, bind_apply, inMemory.remoteUrl_of_known hr,
    inMemory.setRemoteUrl_of_refused hu, returned_error]

theorem replace_of_known (hr : w.repository.remotes remote = some before)
    (hu : w.repository.refusedUrl ≠ some url) :
    replace inMemory remote url w = (.ok ⟨remote, before, false⟩, { w with
      repository := (w.repository.withRemote remote url).record (.setRemoteUrl remote url)
      log := w.log ++
        [⟨.debug, "Remote '" ++ remote ++ "' temporarily set to " ++ Url.redact url⟩] }) := by
  simp only [replace, bind_apply, inMemory.remoteUrl_of_known hr,
    inMemory.setRemoteUrl_of_known hr hu, returned_ok, log_apply, pure_apply]

theorem putBack_of_refused (hu : w.repository.refusedUrl = some before) :
    putBack inMemory ⟨remote, before, false⟩ w =
      (returned (.error (.remoteRestore ("remote '" ++ remote ++ "': " ++
        (Error.remote ("Cannot set URL of remote '" ++ remote ++ "'")).message))), w) := by
  simp only [putBack, bind_apply, attempt_apply w (inMemory.setRemoteUrl_of_refused hu),
    fail_apply, returned_error]

theorem putBack_of_known (hr : w.repository.remotes remote = some url)
    (hu : w.repository.refusedUrl ≠ some before) :
    putBack inMemory ⟨remote, before, false⟩ w = (returned (.ok ()), { w with
      repository := (w.repository.withRemote remote before).record (.setRemoteUrl remote before)
      log := w.log ++ [⟨.debug, "Remote '" ++ remote ++ "' restored to " ++ before⟩] }) := by
  simp only [putBack, bind_apply, attempt_apply w (inMemory.setRemoteUrl_of_known hr hu),
    log_apply, returned_ok]

end RemoteSwap

namespace Publish

/-! ### What a request asks for -/

namespace Request

variable (request : Request)

/-- The URL with the credentials of the request, if it has some and the URL can carry them. -/
def carrier (url : String) : Option String :=
  request.credentials.bind (·.injectInto url)

/-- Only https URLs carry credentials. -/
theorem isSome_carrier_iff {url : String} :
    (request.carrier url).isSome ↔
      request.credentials.isSome ∧ Credentials.secureScheme <+: url.toList := by
  cases hc : request.credentials with
  | none => simp [carrier, hc]
  | some c =>
    rw [carrier, hc, Option.bind_some, Credentials.injectInto, Option.isSome_map,
      Option.isSome_iff_exists]
    simp only [Text.stripPrefix?_eq_some_iff, Option.isSome_some, true_and]
    exact exists_congr fun r => eq_comm

/-- The calls before the push. -/
def opening : List RecordedCall := [.stage request.versionFile, .commit request.message]

/-- The call after the push. -/
def closing : RecordedCall := .setTracking request.remote request.branch

/-- The push to a URL. -/
def pushTo (url : String) : RecordedCall := .push request.remote request.branch url

/-- The call that gives the remote a URL. -/
def setTo (url : String) : RecordedCall := .setRemoteUrl request.remote url

/-- The warnings about changes that the run does not make. -/
def dirty (r : InMemory) : List Warning :=
  let foreign := foreignPaths (request.versionFile :: request.artifacts) r.status
  if foreign = [] then [] else [.dirtyWorkingTree foreign]

/-- The warnings about credentials that a URL cannot carry. -/
def unsent (url : String) : List Warning :=
  if request.credentials.isSome then [.credentialsNotInjected request.remote (Url.redact url)]
  else []

/-- The report of a request that was published, with the warnings about its push. -/
def report (r : InMemory) (unsent : List Warning) : Report where
  commit := InMemory.commitId (r.subjects.length + 1)
  warnings := request.dirty r ++ unsent

/-- The log lines before the remote is looked up. -/
def openingLines (r : InMemory) : List Log.Line :=
  r.status.map (fun e => ⟨.debug, "status: " ++ alignCode e.code ++ " " ++ e.path⟩) ++
    [⟨.info, "Committed " ++ shortId (InMemory.commitId (r.subjects.length + 1)) ++ ": " ++
      request.message⟩]

/-- The log lines before a push. -/
def pushLines (r : InMemory) (url : String) : List Log.Line :=
  request.openingLines r ++
    [⟨.info, "Pushing '" ++ request.branch ++ "' to " ++ Url.redact url⟩]

/-- The log line about a remote that gets the URL with credentials. -/
def swapLine (carrier : String) : Log.Line :=
  ⟨.debug, "Remote '" ++ request.remote ++ "' temporarily set to " ++ Url.redact carrier⟩

/-- The log line about a remote that gets its own URL back. -/
def restoreLine (url : String) : Log.Line :=
  ⟨.debug, "Remote '" ++ request.remote ++ "' restored to " ++ url⟩

end Request

/-! ### The ways to end -/

/-- What publishing leaves in a world: the remotes, and the calls and log lines that it adds. -/
structure Trace where
  remotes : String → Option String
  calls : List RecordedCall
  lines : List Log.Line

/-- The world after a trace of publishing. The commit stays in any case, and no file changes. -/
def Trace.after (t : Trace) (request : Request) (w : World InMemory) : World InMemory where
  files := w.files
  repository := { w.repository.withCommit request.message with
    remotes := t.remotes, calls := w.repository.calls ++ t.calls }
  log := w.log ++ t.lines

/-- A trace that goes on to where the push to a URL with credentials has been tried. -/
def Trace.tried (t : Trace) (request : Request) (carrier : String) : Trace where
  remotes := fun name => if name = request.remote then some carrier else t.remotes name
  calls := t.calls ++ [request.setTo carrier, request.pushTo carrier]
  lines := t.lines ++ [request.swapLine carrier]

/-- The ways in which publishing a request can end in a repository. -/
inductive Ends (request : Request) (r : InMemory) : Except Error Report → Trace → Prop
  /-- There is no such remote. -/
  | unknown (hr : r.remotes request.remote = none) :
    Ends request r (.error (.remote ("Cannot find remote '" ++ request.remote ++ "'")))
      ⟨r.remotes, request.opening, request.openingLines r⟩
  /-- The push to the URL of the remote succeeds. -/
  | pushed {url : String} (hr : r.remotes request.remote = some url)
    (hc : request.carrier url = none) (hp : r.pushRefusal = none) :
    Ends request r (.ok (request.report r (request.unsent url)))
      ⟨r.remotes, request.opening ++ [request.pushTo url, request.closing],
        request.pushLines r url⟩
  /-- The push to the URL of the remote is refused. -/
  | refused {url reason : String} (hr : r.remotes request.remote = some url)
    (hc : request.carrier url = none) (hp : r.pushRefusal = some reason) :
    Ends request r (.error (.push reason))
      ⟨r.remotes, request.opening ++ [request.pushTo url], request.pushLines r url⟩
  /-- The remote cannot get the URL with credentials. -/
  | unswapped {url carrier : String} (hr : r.remotes request.remote = some url)
    (hc : request.carrier url = some carrier) (hu : r.refusedUrl = some carrier) :
    Ends request r (.error (.remote ("Cannot set URL of remote '" ++ request.remote ++ "'")))
      ⟨r.remotes, request.opening, request.pushLines r url⟩
  /-- The push to the URL with credentials succeeds, and the old URL is put back. -/
  | swapped {url carrier : String} (hr : r.remotes request.remote = some url)
    (hc : request.carrier url = some carrier) (hu : r.refusedUrl ≠ some carrier)
    (hu' : r.refusedUrl ≠ some url) (hp : r.pushRefusal = none) :
    Ends request r (.ok (request.report r []))
      ⟨r.remotes, request.opening ++
        [request.setTo carrier, request.pushTo carrier, request.setTo url, request.closing],
        request.pushLines r url ++ [request.swapLine carrier, request.restoreLine url]⟩
  /-- The push to the URL with credentials is refused, and the old URL is put back. -/
  | restored {url carrier reason : String} (hr : r.remotes request.remote = some url)
    (hc : request.carrier url = some carrier) (hu : r.refusedUrl ≠ some carrier)
    (hu' : r.refusedUrl ≠ some url) (hp : r.pushRefusal = some reason) :
    Ends request r (.error (.push reason))
      ⟨r.remotes, request.opening ++
        [request.setTo carrier, request.pushTo carrier, request.setTo url],
        request.pushLines r url ++ [request.swapLine carrier, request.restoreLine url]⟩
  /-- The old URL cannot be put back; if the push was refused as well, the log tells. -/
  | stuck {url carrier : String} (hr : r.remotes request.remote = some url)
    (hc : request.carrier url = some carrier) (hu : r.refusedUrl ≠ some carrier)
    (hu' : r.refusedUrl = some url) :
    Ends request r
      (.error (.remoteRestore ("remote '" ++ request.remote ++ "': " ++
        (Error.remote ("Cannot set URL of remote '" ++ request.remote ++ "'")).message)))
      ⟨(r.withRemote request.remote carrier).remotes,
        request.opening ++ [request.setTo carrier, request.pushTo carrier],
        request.pushLines r url ++ [request.swapLine carrier] ++
          r.pushRefusal.toList.map fun reason =>
            ⟨.error, "Push also failed: " ++ (Error.push reason).message⟩⟩

/-- **Every request ends in one of these ways.** -/
theorem exists_ends (request : Request) (r : InMemory) : ∃ result t, Ends request r result t := by
  cases hr : r.remotes request.remote with
  | none => exact ⟨_, _, .unknown hr⟩
  | some url =>
    cases hc : request.carrier url with
    | none =>
      cases hp : r.pushRefusal with
      | none => exact ⟨_, _, .pushed hr hc hp⟩
      | some reason => exact ⟨_, _, .refused hr hc hp⟩
    | some carrier =>
      by_cases hu : r.refusedUrl = some carrier
      · exact ⟨_, _, .unswapped hr hc hu⟩
      by_cases hu' : r.refusedUrl = some url
      · exact ⟨_, _, .stuck hr hc hu hu'⟩
      cases hp : r.pushRefusal with
      | none => exact ⟨_, _, .swapped hr hc hu hu' hp⟩
      | some reason => exact ⟨_, _, .restored hr hc hu hu' hp⟩

/-! ### What publishing does -/

section

variable {request : Request} {w : World InMemory} {t : Trace} {url carrier : String}

theorem Trace.after_record (c : RecordedCall) :
    { t.after request w with repository := (t.after request w).repository.record c } =
      Trace.after { t with calls := t.calls ++ [c] } request w := by
  simp only [after, InMemory.record, List.append_assoc]

theorem Trace.after_log (line : Log.Line) :
    { t.after request w with log := (t.after request w).log ++ [line] } =
      Trace.after { t with lines := t.lines ++ [line] } request w := by
  simp only [after, List.append_assoc]

theorem inspect_apply (written : List Path) (w : World InMemory) :
    inspect inMemory written w =
      (.ok (let foreign := foreignPaths written w.repository.status
        if foreign = [] then [] else [.dirtyWorkingTree foreign]),
      { w with log := w.log ++ w.repository.status.map fun e =>
          ⟨.debug, "status: " ++ alignCode e.code ++ " " ++ e.path⟩ }) := by
  simp only [inspect, bind_apply, inMemory.status_apply, forIn_log_apply, pure_apply]

/-- What is done after a push that succeeded. -/
def Request.conclude (request : Request) (r : InMemory) (unsent : List Warning) :
    Action InMemory Report := do
  let unrecorded ← recordTracking inMemory request.remote request.branch
  return {
    commit := InMemory.commitId (r.subjects.length + 1)
    warnings := request.dirty r ++ unsent ++ unrecorded }

theorem conclude_apply (unsent : List Warning) :
    request.conclude w.repository unsent (t.after request w) =
      (.ok (request.report w.repository unsent),
        Trace.after { t with calls := t.calls ++ [request.closing] } request w) := by
  have htrack : inMemory.setTracking request.remote request.branch (t.after request w) =
      (returned (.ok ()),
        Trace.after { t with calls := t.calls ++ [request.closing] } request w) := by
    rw [inMemory.setTracking_apply, Trace.after_record]
    rfl
  simp only [Request.conclude, recordTracking, bind_apply, attempt_apply _ htrack, pure_apply,
    Request.report, List.append_nil]

/-- What is left to do after the commit. -/
theorem publish_eq (request : Request) (w : World InMemory) :
    publish inMemory request w = (do
      let url ← inMemory.remoteUrl request.remote
      log .info ("Pushing '" ++ request.branch ++ "' to " ++ Url.redact url)
      request.conclude w.repository (← push inMemory request url) : Action InMemory Report)
      (Trace.after ⟨w.repository.remotes, request.opening, request.openingLines w.repository⟩
        request w) := by
  have hcommitted : Trace.after ⟨w.repository.remotes, request.opening,
      request.openingLines w.repository⟩ request w = {
      files := w.files
      repository := ((w.repository.record (.stage request.versionFile)).commit request.message).2
      log := w.log ++ w.repository.status.map (fun e =>
        ⟨.debug, "status: " ++ alignCode e.code ++ " " ++ e.path⟩) ++
        [⟨.info, "Committed " ++ shortId (InMemory.commitId (w.repository.subjects.length + 1)) ++
          ": " ++ request.message⟩] } := by
    simp only [Trace.after, Request.openingLines, Request.opening, InMemory.commit,
      InMemory.record, InMemory.withCommit, List.append_assoc, List.singleton_append]
  rw [hcommitted]
  simp only [publish, bind_apply, inspect_apply, inMemory.stage_apply, inMemory.commit_apply,
    log_apply]
  rfl

/-- The trace of publishing before a push. -/
def Request.beforePush (request : Request) (r : InMemory) (url : String) : Trace :=
  ⟨r.remotes, request.opening, request.pushLines r url⟩

/-- What is left to do once the URL of the remote is known. -/
theorem publish_of_known (hr : w.repository.remotes request.remote = some url) :
    publish inMemory request w = (push inMemory request url >>= request.conclude w.repository)
      ((request.beforePush w.repository url).after request w) := by
  have hurl : inMemory.remoteUrl request.remote (Trace.after ⟨w.repository.remotes,
      request.opening, request.openingLines w.repository⟩ request w) = (.ok url, _) :=
    inMemory.remoteUrl_of_known hr
  simp only [publish_eq, bind_apply, hurl, log_apply, Trace.after_log]
  rfl

theorem pushTo_apply (hr : t.remotes request.remote = some url) (credentials : Option Credentials) :
    inMemory.push request.remote request.branch credentials (t.after request w) =
      (returned w.repository.pushOutcome,
        Trace.after { t with calls := t.calls ++ [request.pushTo url] } request w) := by
  rw [inMemory.push_of_known hr, Trace.after_record]
  rfl

theorem push_of_no_carrier (hr : t.remotes request.remote = some url)
    (hc : request.carrier url = none) :
    push inMemory request url (t.after request w) =
      (returned (w.repository.pushOutcome.map fun _ => request.unsent url),
        Trace.after { t with calls := t.calls ++ [request.pushTo url] } request w) := by
  unfold push Request.unsent
  cases hcred : request.credentials with
  | none =>
    simp only [bind_apply, pushTo_apply hr]
    cases w.repository.pushOutcome <;> rfl
  | some c =>
    rw [Request.carrier, hcred, Option.bind_some] at hc
    simp only [hc, bind_apply, pushTo_apply hr]
    cases w.repository.pushOutcome <;> rfl

/-- A push with credentials in the URL goes through a swap. -/
theorem push_of_carrier (hc : request.carrier url = some carrier) :
    ∃ c, push inMemory request url =
      (do pushThrough inMemory request c carrier; return [] : Action InMemory _) := by
  obtain ⟨c, hcred, hc⟩ := Option.bind_eq_some_iff.1 hc
  exact ⟨c, by simp only [push, hcred, hc]⟩

/-- What is left to do once the remote has the URL with credentials: the push is tried, and then
the old URL is put back, whose error goes before the error of the push. -/
theorem pushThrough_of_known (hr : t.remotes request.remote = some url)
    (hu : w.repository.refusedUrl ≠ some carrier) (c : Credentials) :
    pushThrough inMemory request c carrier (t.after request w) =
      (attempt (RemoteSwap.putBack inMemory ⟨request.remote, url, false⟩) >>= fun restored =>
        settle restored w.repository.pushOutcome)
      ((t.tried request carrier).after request w) := by
  generalize hswap : Trace.mk (t.tried request carrier).remotes
    (t.calls ++ [request.setTo carrier]) (t.lines ++ [request.swapLine carrier]) = swap
  have hreplace : RemoteSwap.replace inMemory request.remote carrier (t.after request w) =
      (.ok ⟨request.remote, url, false⟩, swap.after request w) := by
    rw [RemoteSwap.replace_of_known (w := t.after request w) hr hu, ← hswap]
    simp only [Trace.after, Trace.tried, InMemory.withRemote, InMemory.record,
      InMemory.withCommit, Request.setTo, Request.swapLine, List.append_assoc]
  have hcarrier : swap.remotes request.remote = some carrier := by simp [← hswap, Trace.tried]
  have hattempt : attempt (inMemory.push request.remote request.branch (some c))
      (swap.after request w) = (returned (.ok w.repository.pushOutcome),
        Trace.after { swap with calls := swap.calls ++ [request.pushTo carrier] } request w) :=
    attempt_apply _ (pushTo_apply hcarrier _)
  simp only [pushThrough, bind_apply, hreplace, RemoteSwap.inScope_restore_of_ok hattempt]
  simp only [← hswap, Trace.tried, List.append_assoc, List.singleton_append]
  rcases attempt _ _ with ⟨_ | _, _⟩ <;> rfl

/-- The old URL is put back. -/
theorem pushThrough_of_restored (hr : t.remotes request.remote = some url)
    (hu : w.repository.refusedUrl ≠ some carrier) (hu' : w.repository.refusedUrl ≠ some url)
    (c : Credentials) :
    pushThrough inMemory request c carrier (t.after request w) =
      (returned w.repository.pushOutcome, Trace.after ⟨t.remotes,
        t.calls ++ [request.setTo carrier, request.pushTo carrier, request.setTo url],
        t.lines ++ [request.swapLine carrier, request.restoreLine url]⟩ request w) := by
  rw [pushThrough_of_known hr hu, bind_apply]
  have hcarrier : (t.tried request carrier).remotes request.remote = some carrier := by
    simp [Trace.tried]
  have hremotes : (fun n => if n = request.remote then some url
      else (t.tried request carrier).remotes n) = t.remotes := by
    funext n
    by_cases h : n = request.remote <;> simp [Trace.tried, h, hr]
  have hrestore : RemoteSwap.putBack inMemory ⟨request.remote, url, false⟩
      ((t.tried request carrier).after request w) = (returned (.ok ()), Trace.after ⟨t.remotes,
        (t.tried request carrier).calls ++ [request.setTo url],
        (t.tried request carrier).lines ++ [request.restoreLine url]⟩ request w) := by
    rw [RemoteSwap.putBack_of_known (w := (t.tried request carrier).after request w) hcarrier hu',
      ← hremotes]
    simp only [Trace.after, InMemory.withRemote, InMemory.record, InMemory.withCommit,
      Request.setTo, Request.restoreLine, List.append_assoc]
  rw [attempt_apply _ hrestore]
  cases hp : w.repository.pushRefusal <;>
    simp only [InMemory.pushOutcome, hp, settle, pure_apply, fail_apply, Trace.tried,
      List.append_assoc, List.cons_append, List.nil_append, returned_ok, returned_error]

/-- The old URL cannot be put back. -/
theorem pushThrough_of_stuck (hr : t.remotes request.remote = some url)
    (hu : w.repository.refusedUrl ≠ some carrier) (hu' : w.repository.refusedUrl = some url)
    (c : Credentials) :
    pushThrough inMemory request c carrier (t.after request w) =
      (.error (.failed (.remoteRestore ("remote '" ++ request.remote ++ "': " ++
          (Error.remote ("Cannot set URL of remote '" ++ request.remote ++ "'")).message))),
        Trace.after { t.tried request carrier with
          lines := (t.tried request carrier).lines ++ w.repository.pushRefusal.toList.map
            fun reason => ⟨.error, "Push also failed: " ++ (Error.push reason).message⟩ }
          request w) := by
  have hrestore (t : Trace) : RemoteSwap.putBack inMemory ⟨request.remote, url, false⟩
      (t.after request w) = (returned (.error _), _) := RemoteSwap.putBack_of_refused hu'
  rw [pushThrough_of_known hr hu, bind_apply, attempt_apply _ (hrestore _)]
  cases hp : w.repository.pushRefusal with
  | none =>
    simp only [InMemory.pushOutcome, hp, settle, fail_apply, Option.toList_none, List.map_nil,
      List.append_nil]
  | some reason =>
    simp only [InMemory.pushOutcome, hp, settle, bind_apply, log_apply, fail_apply,
      Trace.after_log]
    rfl

/-- **What the constructors say is what `publish` does.** -/
theorem Ends.publish_apply {result : Except Error Report} (h : Ends request w.repository result t) :
    publish inMemory request w = (returned result, t.after request w) := by
  cases h with
  | unknown hr =>
    have hurl : inMemory.remoteUrl request.remote (Trace.after ⟨w.repository.remotes,
        request.opening, request.openingLines w.repository⟩ request w) = (.error _, _) :=
      inMemory.remoteUrl_of_unknown hr
    simp only [publish_eq, bind_apply, hurl, returned_error]
  | @pushed url hr hc hp =>
    have hpush := push_of_no_carrier (w := w) (t := request.beforePush w.repository url) hr hc
    rw [InMemory.pushOutcome, hp] at hpush
    rw [publish_of_known hr, bind_apply, hpush]
    simp only [Except.map, returned_ok, conclude_apply, List.append_assoc, List.singleton_append]
    rfl
  | @refused url reason hr hc hp =>
    have hpush := push_of_no_carrier (w := w) (t := request.beforePush w.repository url) hr hc
    rw [InMemory.pushOutcome, hp] at hpush
    rw [publish_of_known hr, bind_apply, hpush]
    rfl
  | @unswapped url carrier hr hc hu =>
    obtain ⟨c, hpush⟩ := push_of_carrier hc
    have hreplace := RemoteSwap.replace_of_refused
      (w := (request.beforePush w.repository url).after request w) hr hu
    simp only [publish_of_known hr, hpush, bind_apply, pushThrough, hreplace, returned_error]
    rfl
  | @swapped url carrier hr hc hu hu' hp =>
    obtain ⟨c, hpush⟩ := push_of_carrier hc
    have hthrough := pushThrough_of_restored (w := w)
      (t := request.beforePush w.repository url) hr hu hu' c
    rw [InMemory.pushOutcome, hp] at hthrough
    simp only [publish_of_known hr, hpush, bind_apply, hthrough, returned_ok, pure_apply,
      conclude_apply]
    simp only [Request.beforePush, List.append_assoc, List.cons_append, List.nil_append]
  | @restored url carrier reason hr hc hu hu' hp =>
    obtain ⟨c, hpush⟩ := push_of_carrier hc
    have hthrough := pushThrough_of_restored (w := w)
      (t := request.beforePush w.repository url) hr hu hu' c
    rw [InMemory.pushOutcome, hp] at hthrough
    simp only [publish_of_known hr, hpush, bind_apply, hthrough, returned_error]
    rfl
  | @stuck url carrier hr hc hu hu' =>
    obtain ⟨c, hpush⟩ := push_of_carrier hc
    have hthrough := pushThrough_of_stuck (w := w)
      (t := request.beforePush w.repository url) hr hu hu' c
    simp only [publish_of_known hr, hpush, bind_apply, hthrough, returned_error]
    rfl

end

end Publish
end NightlyRelease

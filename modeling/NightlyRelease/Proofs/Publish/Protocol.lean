/-
# The protocol of publishing

The calls that publishing records follow one protocol, up to the point where it
ends (`Request.protocol`).  The remote carries a URL with credentials only between
two of them, and the second one puts the old URL back.  If that is refused, the
error says so, whatever became of the push; in all other cases the remotes are
afterwards what they were before (`publish_orderly`).

Each part is read off the seven ways to end.
-/

import NightlyRelease.Proofs.Publish.Endings

namespace NightlyRelease

open NightlyRelease.Action Repository

/-- Whether a call is a push. -/
def RecordedCall.isPush : RecordedCall → Bool
  | push .. => true
  | _ => false

namespace Publish

variable {request : Request} {r : InMemory} {result : Except Error Report} {t : Trace}

/-- The push to a remote with a URL. If the URL can carry the credentials, then the remote has a
URL with them as long as the push goes on. -/
def Request.exchange (request : Request) (url : String) : List RecordedCall :=
  match request.carrier url with
  | some carrier => [request.setTo carrier, request.pushTo carrier, request.setTo url]
  | none => [request.pushTo url]

/-- The calls of publishing, if nothing ends it earlier. -/
def Request.protocol (request : Request) (r : InMemory) : List RecordedCall :=
  match r.remotes request.remote with
  | some url => request.opening ++ request.exchange url ++ [request.closing]
  | none => request.opening

theorem Ends.calls_prefix (h : Ends request r result t) : t.calls <+: request.protocol r := by
  cases h with
  | unknown hr => simp [Request.protocol, hr]
  | pushed hr hc => simp [Request.protocol, Request.exchange, hr, hc]
  | refused hr hc => simp [Request.protocol, Request.exchange, hr, hc]
  | unswapped hr hc => simp [Request.protocol, Request.exchange, hr, hc]
  | swapped hr hc => simp [Request.protocol, Request.exchange, hr, hc]
  | restored hr hc => simp [Request.protocol, Request.exchange, hr, hc]
  | stuck hr hc => simp [Request.protocol, Request.exchange, hr, hc]

/-- The protocol has one push at most, and so has every start of it. -/
theorem countP_isPush_protocol (request : Request) (r : InMemory) :
    (request.protocol r).countP RecordedCall.isPush ≤ 1 := by
  unfold Request.protocol
  cases r.remotes request.remote with
  | none => exact Nat.zero_le 1
  | some url =>
    dsimp only [Request.exchange]
    cases request.carrier url <;> exact Nat.le_refl 1

theorem Ends.countP_isPush_le (h : Ends request r result t) :
    t.calls.countP RecordedCall.isPush ≤ 1 :=
  Nat.le_trans h.calls_prefix.sublist.countP_le (countP_isPush_protocol request r)

theorem Ends.closing_mem_iff (h : Ends request r result t) :
    request.closing ∈ t.calls ↔ ∃ report, result = .ok report := by
  cases h <;> simp [Request.opening, Request.setTo, Request.pushTo, Request.closing]

theorem Ends.remotes_eq (h : Ends request r result t)
    (hresult : ∀ reason, result ≠ .error (.remoteRestore reason)) : t.remotes = r.remotes := by
  cases h with
  | stuck => exact absurd rfl (hresult _)
  | _ => rfl

/-- What was published once is published again, if the remote, its URL and the credentials are the
same and the repository refuses nothing else. -/
theorem Ends.again {request' : Request} {r' : InMemory} {report : Report}
    (h : Ends request r (.ok report) t) (hremote : request'.remote = request.remote)
    (hcredentials : request'.credentials = request.credentials) (hremotes : r'.remotes = r.remotes)
    (hurl : r'.refusedUrl = r.refusedUrl) (hpush : r'.pushRefusal = r.pushRefusal) :
    ∃ report' t', Ends request' r' (.ok report') t' := by
  have hcarrier (url : String) : request'.carrier url = request.carrier url := by
    rw [Request.carrier, Request.carrier, hcredentials]
  cases h with
  | pushed hr hc hp =>
    rw [← hremotes, ← hremote] at hr
    exact ⟨_, _, .pushed hr ((hcarrier _).trans hc) (hpush.trans hp)⟩
  | swapped hr hc hu hu' hp =>
    rw [← hremotes, ← hremote] at hr
    rw [← hurl] at hu hu'
    exact ⟨_, _, .swapped hr ((hcarrier _).trans hc) hu hu' (hpush.trans hp)⟩

theorem Ends.remoteRestore_iff (h : Ends request r result t) :
    (∃ reason, result = .error (.remoteRestore reason)) ↔
      ∃ url carrier, r.remotes request.remote = some url ∧
        request.carrier url = some carrier ∧ request.setTo carrier ∈ t.calls ∧
        r.refusedUrl = some url := by
  cases h with
  | unknown hr => simp [hr]
  | pushed hr hc => simp [hr, hc]
  | refused hr hc => simp [hr, hc]
  | unswapped hr => simp [hr, Request.opening, Request.setTo]
  | swapped hr hc hu hu' => simp [hr, hc, hu']
  | restored hr hc hu hu' => simp [hr, hc, hu']
  | stuck hr hc hu hu' => simp [hr, hc, hu']

theorem Ends.getLast?_lines {reason pushReason : String} (h : Ends request r result t)
    (hresult : result = .error (.remoteRestore reason)) (hp : r.pushRefusal = some pushReason) :
    t.lines.getLast? = some ⟨.error, "Push also failed: " ++ (Error.push pushReason).message⟩ := by
  cases h with
  | stuck => simp [hp]
  | _ => simp at hresult

/-- A request that was published was pushed once, to the URL with credentials if there is one. -/
theorem Ends.filter_isPush {report : Report} (h : Ends request r (.ok report) t) :
    ∃ url, r.remotes request.remote = some url ∧
      t.calls.filter RecordedCall.isPush = [request.pushTo ((request.carrier url).getD url)] := by
  cases h with
  | @pushed url hr hc => exact ⟨url, hr, by rw [hc]; rfl⟩
  | @swapped url carrier hr hc => exact ⟨url, hr, by rw [hc]; rfl⟩

/-- What publishing keeps to: `calls` are the calls that it adds. -/
structure Orderly (request : Request) (w w' : World InMemory) (result : Except Error Report)
    (calls : List RecordedCall) : Prop where
  calls_eq : w'.repository.calls = w.repository.calls ++ calls
  calls_prefix : calls <+: request.protocol w.repository
  countP_isPush_le : calls.countP RecordedCall.isPush ≤ 1
  /-- The branch of the remote is recorded exactly if the request was published. -/
  closing_mem_iff : request.closing ∈ calls ↔ ∃ report, result = .ok report
  /-- All remotes have the URLs that they had, unless the error says otherwise. -/
  remotes_eq : (∀ reason, result ≠ .error (.remoteRestore reason)) →
    w'.repository.remotes = w.repository.remotes
  /-- The error says so exactly if the remote got the URL with credentials and cannot get its own
  one back. -/
  remoteRestore_iff : (∃ reason, result = .error (.remoteRestore reason)) ↔
    ∃ url carrier, w.repository.remotes request.remote = some url ∧
      request.carrier url = some carrier ∧ request.setTo carrier ∈ calls ∧
      w.repository.refusedUrl = some url
  /-- The error of a push that failed as well goes to the log. -/
  push_logged : ∀ reason pushReason, result = .error (.remoteRestore reason) →
    w.repository.pushRefusal = some pushReason →
    w'.log.getLast? = some ⟨.error, "Push also failed: " ++ (Error.push pushReason).message⟩

/-- **Publishing keeps to its protocol and gives the remotes their URLs back.** Only https URLs
carry credentials. -/
theorem publish_orderly (request : Request) (w : World InMemory) :
    (∀ url, (request.carrier url).isSome ↔
      request.credentials.isSome ∧ Credentials.secureScheme <+: url.toList) ∧
    ∃ result w' calls, publish inMemory request w = (returned result, w') ∧
      Orderly request w w' result calls := by
  obtain ⟨result, t, h⟩ := exists_ends request w.repository
  refine ⟨fun url => request.isSome_carrier_iff, result, t.after request w, t.calls,
    h.publish_apply, rfl, h.calls_prefix, h.countP_isPush_le, h.closing_mem_iff, h.remotes_eq,
    h.remoteRestore_iff, fun reason pushReason hresult hp => ?_⟩
  have := h.getLast?_lines hresult hp
  simp [Trace.after, List.getLast?_append, this]

end Publish
end NightlyRelease

/-
# Programs that nest swaps

A program calls the services of a repository, writes log lines, looks at how
other programs end, and acts while a remote has another URL (`Program`).  Swaps
can be nested in it to any depth, around the same remote or around several.  The
push of a bump with credentials is such a program (`pushThrough_eq`).

How often a repository is asked to set a URL does not show in a world, since an
attempt that fails leaves nothing behind.  So a program is also run in a
repository that counts the attempts and is the same otherwise (`Observed`).  What
it does is the same there (`Program.run_observed`), and the attempts of a whole
are those of its parts in their order.  A swap makes one attempt when it starts
and one when it ends, however it ends (`Program.attempts_swapped`).
-/

import NightlyRelease.Publish

namespace NightlyRelease

open NightlyRelease.Action

variable {σ α β : Type}

namespace RemoteSwap

/-! ### Programs -/

/-- How a swap ends whose body has a result. -/
inductive Ending where
  | restored
  | dropped
  deriving DecidableEq, Repr

/-- What is done in the scope of a swap: the body, and then the swap is restored if it is to end in
this way. What comes of that is part of the result. -/
def enclosed (repo : Repository σ) (ending : Ending) (act : Action σ α) :
    Action (Scope σ) (α × Except Error Unit) := do
  let a ← Scope.within act
  match ending with
  | .restored => return (a, ← attempt (restore repo))
  | .dropped => return (a, .ok ())

/-- Acts while a remote has another URL. The swap is dropped at the end of its scope, whichever way
that is left. -/
def during (repo : Repository σ) (remote url : String) (ending : Ending) (act : Action σ α) :
    Action σ (α × Except Error Unit) := do
  let swap ← replace repo remote url
  swap.inScope repo (enclosed repo ending act)

/-- A call of a service. -/
inductive Call : Type → Type where
  | workDirectory : Call Path
  | recentSubjects (limit : Nat) : Call (List Subject)
  | headSubject : Call (Option Subject)
  | currentBranch : Call String
  | remoteUrl (remote : String) : Call String
  | setRemoteUrl (remote url : String) : Call Unit
  | status : Call (List StatusEntry)
  | stage (path : Path) : Call Unit
  | commit (message : String) (author : Option Author) : Call String
  | push (remote branch : String) (credentials : Option Credentials) : Call Unit
  | setTracking (remote branch : String) : Call Unit

/-- What a call does in a repository. -/
def Call.run (repo : Repository σ) : Call α → Action σ α
  | workDirectory => repo.workDirectory
  | recentSubjects limit => repo.recentSubjects limit
  | headSubject => repo.headSubject
  | currentBranch => repo.currentBranch
  | remoteUrl remote => repo.remoteUrl remote
  | setRemoteUrl remote url => repo.setRemoteUrl remote url
  | status => repo.status
  | stage path => repo.stage path
  | commit message author => repo.commit message author
  | push remote branch credentials => repo.push remote branch credentials
  | setTracking remote branch => repo.setTracking remote branch

/-- A program over the services of a repository, with swaps in it. -/
inductive Program : Type → Type 1 where
  /-- Ends with a result, with an error, or by being broken off. -/
  | done {α : Type} (result : Except Halt α) : Program α
  | log (level : Log.Level) (text : String) : Program Unit
  | call {α : Type} (c : Call α) : Program α
  /-- Runs the body while the remote has the URL. -/
  | swapped {α : Type} (remote url : String) (ending : Ending) (body : Program α) :
    Program (α × Except Error Unit)
  /-- Runs the body and goes on, whichever way that has ended. -/
  | handle {α β : Type} (body : Program β) (next : Except Halt β → Program α) : Program α

/-- What a program does in a repository. -/
def Program.run (repo : Repository σ) : {α : Type} → Program α → Action σ α
  | _, done result => fun w => (result, w)
  | _, log level text => Action.log level text
  | _, call c => c.run repo
  | _, swapped remote url ending body => during repo remote url ending (body.run repo)
  | _, handle body next => fun w =>
    let (result, w) := body.run repo w
    (next result).run repo w

/-- A program that gives the error of another one as its result. -/
def Program.attempted (p : Program α) : Program (Except Error α) :=
  .handle p fun
    | .ok a => .done (.ok (.ok a))
    | .error (.failed e) => .done (.ok (.error e))
    | .error (.aborted reason) => .done (.error (.aborted reason))

theorem Program.run_attempted (repo : Repository σ) (p : Program α) :
    p.attempted.run repo = attempt (p.run repo) := by
  funext w
  simp only [attempted, run, attempt]
  rcases p.run repo w with ⟨(_ | _) | _, _⟩ <;> rfl

/-- The push of a bump through a URL with credentials. -/
def Program.pushing (request : Publish.Request) (credentials : Credentials) (url : String) :
    Program (Except Error Unit × Except Error Unit) :=
  .swapped request.remote url .restored
    (Program.call (.push request.remote request.branch (some credentials))).attempted

/-- **Pushing through a URL with credentials is running a program.** -/
theorem pushThrough_eq (repo : Repository σ) (request : Publish.Request)
    (credentials : Credentials) (url : String) :
    Publish.pushThrough repo request credentials url =
      ((Program.pushing request credentials url).run repo >>= fun ends =>
        Publish.settle ends.2 ends.1) := by
  simp only [Publish.pushThrough, Program.pushing, Program.run, Program.run_attempted, Call.run,
    during, enclosed, bind_assoc]

/-! ### The end of a scope -/

/-- What is left to do with a swap when its body has a result. -/
def finish (repo : Repository σ) (s : RemoteSwap) : Ending → Action σ Unit
  | .restored => s.putBack repo
  | .dropped => s.drop repo

variable {repo : Repository σ} {swap : RemoteSwap} {remote url : String} {w v : World σ}

/-- A new swap has not been restored. -/
theorem restored_of_replace (h : replace repo remote url w = (.ok swap, v)) :
    swap.restored = false := by
  rw [replace, bind_apply] at h
  rcases hurl : repo.remoteUrl remote w with ⟨_ | before, u⟩
  · rw [hurl] at h
    cases h
  · simp only [hurl, bind_apply] at h
    rcases hset : repo.setRemoteUrl remote url u with ⟨_ | _, _⟩
    · rw [hset] at h
      cases h
    · rw [hset] at h
      cases h
      rfl

/-- Dropping a swap gives no error. -/
theorem attempt_drop (s : RemoteSwap) :
    attempt (s.drop repo) = s.drop repo >>= fun _ => pure (.ok ()) := by
  funext w
  cases hs : s.restored with
  | true =>
    rw [drop_of_restored hs]
    rfl
  | false =>
    rw [drop_of_not_restored hs]
    simp only [release, attempt, bind_apply]
    rcases repo.setRemoteUrl s.remote s.url w with ⟨(_ | _) | _, _⟩ <;> rfl

/-- **Once a swap is made, one thing is left to do with it:** a swap that has been restored is
dropped without another attempt. -/
theorem during_of_ok (ending : Ending) (act : Action σ α)
    (h : replace repo remote url w = (.ok swap, v)) :
    during repo remote url ending act w = match act v with
      | (.ok a, v) => (attempt (swap.finish repo ending) >>= fun r => pure (a, r)) v
      | (.error halt, v) => (swap.drop repo >>= fun _ => throw halt) v := by
  have hheld : during repo remote url ending act w =
      swap.inScope repo (enclosed repo ending act) v := by
    simp only [during, bind_apply, h]
  rw [hheld]
  rcases hact : act v with ⟨halt | a, v'⟩
  · have hbody : enclosed repo ending act (Scope.world swap v) =
        (.error halt, Scope.world swap v') := by
      simp only [enclosed, bind_apply, Scope.within_apply, hact]
    exact inScope_apply hbody
  · cases ending with
    | restored => exact inScope_restore_of_ok hact
    | dropped =>
      have hbody : enclosed repo .dropped act (Scope.world swap v) =
          (.ok (a, .ok ()), Scope.world swap v') := by
        simp only [enclosed, bind_apply, Scope.within_apply, hact, pure_apply]
      rw [inScope_apply hbody, finish, attempt_drop]
      simp only [bind_apply]
      rcases swap.drop repo v' with ⟨_ | _, _⟩ <;> rfl

end RemoteSwap

/-! ### Counting attempts -/

/-- A repository with the attempts to set a URL so far, oldest first: the remote and the URL. -/
structure Observed (σ : Type) where
  inner : σ
  attempts : List (String × String)

namespace Observed

/-- Calls a service of the repository that is observed. -/
def within (act : Action σ α) : Action (Observed σ) α :=
  onPart Observed.inner (fun r o => { o with inner := r }) act

/-- A world whose repository is observed. -/
def world (attempts : List (String × String)) (w : World σ) : World (Observed σ) where
  files := w.files
  repository := ⟨w.repository, attempts⟩
  log := w.log

end Observed

/-- A repository that counts the attempts to set a URL. -/
def Repository.observed (r : Repository σ) : Repository (Observed σ) where
  workDirectory := Observed.within r.workDirectory
  recentSubjects limit := Observed.within (r.recentSubjects limit)
  headSubject := Observed.within r.headSubject
  currentBranch := Observed.within r.currentBranch
  remoteUrl remote := Observed.within (r.remoteUrl remote)
  setRemoteUrl remote url := do
    modifyRepository fun o => { o with attempts := o.attempts ++ [(remote, url)] }
    Observed.within (r.setRemoteUrl remote url)
  status := Observed.within r.status
  stage path := Observed.within (r.stage path)
  commit message author := Observed.within (r.commit message author)
  push remote branch credentials := Observed.within (r.push remote branch credentials)
  setTracking remote branch := Observed.within (r.setTracking remote branch)

namespace Observed

/-- Observed, an action does what `plain` does, and the attempts that it makes are `seen`. -/
def Sees (act : Action (Observed σ) α) (plain : Action σ α)
    (seen : World σ → List (String × String)) : Prop :=
  ∀ attempts w, act (world attempts w) = ((plain w).1, world (attempts ++ seen w) (plain w).2)

theorem within_sees (act : Action σ α) : Sees (within act) act fun _ => [] := fun attempts w => by
  rw [List.append_nil]
  rfl

end Observed

namespace RemoteSwap

open Observed

variable (r : Repository σ) {swap : RemoteSwap}

/-- The attempt of a call. -/
def Call.attempts : Call α → List (String × String)
  | setRemoteUrl remote url => [(remote, url)]
  | _ => []

theorem Call.run_sees (c : Call α) : Sees (c.run r.observed) (c.run r) fun _ => c.attempts := by
  cases c with
  | setRemoteUrl remote url =>
    intro attempts w
    show within (r.setRemoteUrl remote url) (world (attempts ++ [(remote, url)]) w) = _
    rw [within_sees, List.append_nil]
    rfl
  | _ => exact within_sees _

theorem setRemoteUrl_observed (remote url : String) (attempts : List (String × String))
    (w : World σ) : r.observed.setRemoteUrl remote url (world attempts w) =
      ((r.setRemoteUrl remote url w).1,
        world (attempts ++ [(remote, url)]) (r.setRemoteUrl remote url w).2) :=
  (Call.setRemoteUrl remote url).run_sees r attempts w

/-- The attempt to give a remote another URL, which is not made if it has none. -/
def opening (remote url : String) (w : World σ) : List (String × String) :=
  match (r.remoteUrl remote w).1 with
  | .ok _ => [(remote, url)]
  | .error _ => []

theorem replace_sees (remote url : String) :
    Sees (replace r.observed remote url) (replace r remote url) (opening r remote url) := by
  intro attempts w
  have hurl := (Call.remoteUrl remote).run_sees r attempts w
  simp only [Call.run, Call.attempts, List.append_nil] at hurl
  simp only [replace, opening, bind_apply, hurl]
  rcases r.remoteUrl remote w with ⟨_ | before, v⟩
  · simp only [List.append_nil]
  · simp only [setRemoteUrl_observed]
    rcases r.setRemoteUrl remote url v with ⟨_ | _, v⟩ <;> rfl

/-- The attempt to put the old URL back. -/
def closing (s : RemoteSwap) : String × String := (s.remote, s.url)

/-- Putting the old URL back is one attempt, whether it succeeds or not. -/
theorem putBack_sees (s : RemoteSwap) :
    Sees (s.putBack r.observed) (s.putBack r) fun _ => [s.closing] := by
  intro attempts w
  simp only [putBack, bind_apply, attempt, setRemoteUrl_observed]
  rcases r.setRemoteUrl s.remote s.url w with ⟨(_ | _) | _, v⟩ <;> rfl

/-- Dropping a swap is one attempt, but none if the swap has been restored. -/
theorem drop_sees (s : RemoteSwap) :
    Sees (s.drop r.observed) (s.drop r) fun _ => if s.restored then [] else [s.closing] := by
  intro attempts w
  cases hs : s.restored with
  | true =>
    simp only [drop_of_restored hs, pure_apply, if_true, List.append_nil]
  | false =>
    simp only [drop_of_not_restored hs, release, bind_apply, attempt, setRemoteUrl_observed]
    rcases r.setRemoteUrl s.remote s.url w with ⟨(_ | _) | _, v⟩ <;> rfl

theorem drop_sees_of_not_restored (h : swap.restored = false) :
    Sees (swap.drop r.observed) (swap.drop r) fun _ => [swap.closing] := by
  have hsees := drop_sees r swap
  rwa [h] at hsees

theorem finish_sees (h : swap.restored = false) (ending : Ending) :
    Sees (swap.finish r.observed ending) (swap.finish r ending) fun _ => [swap.closing] :=
  match ending with
  | .restored => putBack_sees r swap
  | .dropped => drop_sees_of_not_restored r h

variable {r}

/-- The attempts of a swap: the opening one, those of the act, and the closing one. -/
theorem during_sees {act : Action (Observed σ) α} {plain : Action σ α}
    {seen : World σ → List (String × String)} (h : Sees act plain seen) (remote url : String)
    (ending : Ending) :
    Sees (during r.observed remote url ending act) (during r remote url ending plain) fun w =>
      opening r remote url w ++ match replace r remote url w with
        | (.ok swap, v) => seen v ++ [swap.closing]
        | (.error _, _) => [] := by
  intro attempts w
  have hopened := replace_sees r remote url attempts w
  rcases hreplace : replace r remote url w with ⟨halt | swap, v⟩
  · simp only [during, bind_apply, hopened, hreplace, List.append_nil]
  · rw [hreplace] at hopened
    have hheld := restored_of_replace hreplace
    simp only [during_of_ok ending act hopened, during_of_ok ending plain hreplace, h _ v, hreplace]
    rcases plain v with ⟨halt | a, v'⟩
    · simp only [bind_apply, drop_sees_of_not_restored r hheld _ v', List.append_assoc]
      rcases swap.drop r v' with ⟨_ | _, _⟩ <;> rfl
    · simp only [bind_apply, attempt, finish_sees r hheld ending _ v', List.append_assoc]
      rcases swap.finish r ending v' with ⟨(_ | _) | _, _⟩ <;> rfl

namespace Program

/-- The attempts of a program. -/
def attempts (r : Repository σ) (p : Program α) (w : World σ) : List (String × String) :=
  (p.run r.observed (world [] w)).2.repository.attempts

theorem attempts_of_sees {p : Program α} {seen : World σ → List (String × String)}
    (h : Sees (p.run r.observed) (p.run r) seen) : p.attempts r = seen := by
  funext w
  rw [attempts, h]
  rfl

theorem handle_sees {body : Program β} {next : Except Halt β → Program α}
    {seen : World σ → List (String × String)}
    {seenNext : Except Halt β → World σ → List (String × String)}
    (hbody : Sees (body.run r.observed) (body.run r) seen)
    (hnext : ∀ result,
      Sees ((next result).run r.observed) ((next result).run r) (seenNext result)) :
    Sees ((handle body next).run r.observed) ((handle body next).run r) fun w =>
      seen w ++ seenNext (body.run r w).1 (body.run r w).2 := by
  intro attempts w
  simp only [run, hbody attempts w, hnext _ _ _, List.append_assoc]
  rfl

/-- **Whether attempts are counted makes no difference.** -/
theorem run_observed (p : Program α) : Sees (p.run r.observed) (p.run r) (p.attempts r) := by
  induction p with
  | done result =>
    intro attempts w
    show _ = (_, world (attempts ++ []) w)
    rw [List.append_nil]
    rfl
  | log level text =>
    intro attempts w
    show _ = (_, world (attempts ++ []) _)
    rw [List.append_nil]
    rfl
  | call c =>
    rw [attempts_of_sees (p := .call c) (c.run_sees r)]
    exact c.run_sees r
  | swapped remote url ending body ih =>
    have hsees := during_sees (r := r) ih remote url ending
    rw [attempts_of_sees (p := .swapped remote url ending body) hsees]
    exact hsees
  | handle body next ihbody ihnext =>
    have hsees := handle_sees (r := r) ihbody ihnext
    rw [attempts_of_sees hsees]
    exact hsees

@[simp] theorem attempts_call (c : Call α) (w : World σ) : (call c).attempts r w = c.attempts :=
  congrFun (attempts_of_sees (p := .call c) (c.run_sees r)) w

@[simp] theorem attempts_handle (body : Program β) (next : Except Halt β → Program α)
    (w : World σ) : (handle body next).attempts r w =
      body.attempts r w ++ (next (body.run r w).1).attempts r (body.run r w).2 :=
  congrFun (attempts_of_sees (handle_sees body.run_observed fun result =>
    (next result).run_observed)) w

/-- **A swap makes one attempt when it starts, and one when it ends,** which is the one of `restore`
or else the one of the drop, and never both. -/
theorem attempts_swapped {remote url : String} {ending : Ending} {body : Program α}
    {w v : World σ} {swap : RemoteSwap} (h : replace r remote url w = (.ok swap, v)) :
    (swapped remote url ending body).attempts r w =
      (remote, url) :: body.attempts r v ++ [swap.closing] := by
  have hopening : opening r remote url w = [(remote, url)] := by
    rw [replace, bind_apply] at h
    rw [opening]
    rcases hurl : r.remoteUrl remote w with ⟨_ | before, u⟩
    · rw [hurl] at h
      cases h
    · rfl
  rw [attempts_of_sees (p := .swapped remote url ending body)
    (during_sees (r := r) body.run_observed remote url ending)]
  simp only [hopening, h, List.cons_append, List.nil_append]

/-- A swap that cannot be made makes no other attempt. -/
theorem attempts_swapped_of_error {remote url : String} {ending : Ending} {body : Program α}
    {w v : World σ} {halt : Halt} (h : replace r remote url w = (.error halt, v)) :
    (swapped remote url ending body).attempts r w = opening r remote url w := by
  rw [attempts_of_sees (p := .swapped remote url ending body)
    (during_sees (r := r) body.run_observed remote url ending)]
  simp only [h, List.append_nil]

end Program
end RemoteSwap
end NightlyRelease

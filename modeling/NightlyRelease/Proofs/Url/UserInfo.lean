/-
# Taking a user-info off and putting one in

A URL with a user-info falls apart in one way (`HasUserInfo`): the scheme up to
the first `://`, the user-info up to the last `@` of the authority, and the rest.
Hiding the user-info leaves the other two parts (`HasUserInfo.redact_eq`), and so
does replacing it by credentials (`HasUserInfo.injectInto_eq`).

Percent-encoded credentials hold no character that could move a boundary
(`Percent.not_mem_encode`).  So a URL that carries credentials has them as its
user-info (`hasUserInfo_of_injectInto`), and once they are hidden it is the same
for all credentials (`redact_of_injectInto`).
-/

import NightlyRelease.Credentials

namespace NightlyRelease
namespace Url

/-! ### The parts of a URL -/

/-- The part of a text that is the authority, if the text follows a scheme. -/
def authority (s : List Char) : List Char := s.takeWhile (!endsAuthority ·)

/-- The parts of a URL with a user-info: what stands before `://`, then before the last `@` of the
authority, and after it. -/
structure HasUserInfo (url : String) (scheme user host : List Char) : Prop where
  toList_eq : url.toList = scheme ++ schemeMark ++ (user ++ '@' :: host)
  no_mark : ¬ schemeMark <:+: scheme
  user_plain : ∀ c ∈ user, endsAuthority c = false
  no_at : '@' ∉ authority host

variable {scheme user host s r : List Char} {url : String}

theorem splitUserInfo_of_no_at (h : '@' ∉ authority s) : splitUserInfo s = (none, s) := by
  induction s with
  | nil => rfl
  | cons c r ih =>
    rw [splitUserInfo]
    by_cases hc : endsAuthority c = true
    · rw [if_pos hc]
    · rw [authority, List.takeWhile_cons_of_pos (by simp [hc]), List.mem_cons, not_or] at h
      rw [if_neg hc, ih h.2, if_neg (Ne.symm h.1)]

theorem splitUserInfo_append (huser : ∀ c ∈ user, endsAuthority c = false)
    (hhost : '@' ∉ authority host) : splitUserInfo (user ++ '@' :: host) = (some user, host) := by
  induction user with
  | nil =>
    rw [List.nil_append, splitUserInfo, if_neg (by decide), splitUserInfo_of_no_at hhost,
      if_pos rfl]
  | cons c user ih =>
    have hc : endsAuthority c = false := huser c List.mem_cons_self
    rw [List.cons_append, splitUserInfo, if_neg (by simp [hc]),
      ih fun d hd => huser d (List.mem_cons_of_mem _ hd)]

/-- Where there is no user-info, nothing is taken off. -/
theorem eq_of_splitUserInfo_eq_none {rest : List Char} (h : splitUserInfo s = (none, rest)) :
    rest = s := by
  cases s with
  | nil => cases h; rfl
  | cons c r =>
    rw [splitUserInfo] at h
    split at h
    · cases h; rfl
    · split at h
      · cases h
      · split at h <;> cases h
        rfl

/-- No `@` is left in the authority of what follows the user-info. -/
theorem no_at_splitUserInfo (s : List Char) : '@' ∉ authority (splitUserInfo s).2 := by
  induction s with
  | nil => exact List.not_mem_nil
  | cons c r ih =>
    rw [splitUserInfo]
    by_cases hc : endsAuthority c = true
    · rw [if_pos hc, authority, List.takeWhile_cons_of_neg (by simp [hc])]
      exact List.not_mem_nil
    · rw [if_neg hc]
      rcases hr : splitUserInfo r with ⟨_ | user, rest⟩
      · rw [hr, eq_of_splitUserInfo_eq_none hr] at ih
        by_cases hat : c = '@'
        · simpa only [hat, if_true] using ih
        · simpa [hat, authority, hc, Ne.symm hat] using ih
      · simpa only [hr] using ih

/-- The first `://` of a text ends its scheme. -/
theorem splitAt?_schemeMark (h : ¬ schemeMark <:+: scheme) (r : List Char) :
    Text.splitAt? schemeMark (scheme ++ schemeMark ++ r) = some (scheme, r) := by
  induction scheme with
  | nil => rfl
  | cons c t ih =>
    have hnone : Text.stripPrefix? schemeMark (c :: (t ++ schemeMark ++ r)) = none := by
      refine Option.eq_none_iff_forall_ne_some.2 fun rest hrest => ?_
      have hstarts := Text.stripPrefix?_eq_some_iff.1 hrest
      -- a mark that starts in the scheme and ends after it would overlap with itself
      match t with
      | [] => simp [schemeMark] at hstarts
      | [d] => simp [schemeMark] at hstarts
      | d :: e :: u =>
        simp only [schemeMark, List.cons_append, List.nil_append, List.cons.injEq] at hstarts
        obtain ⟨rfl, rfl, rfl, -⟩ := hstarts
        exact h ⟨[], u, rfl⟩
    have ht : ¬ schemeMark <:+: t := fun ht => h (ht.trans (List.suffix_cons c t).isInfix)
    rw [List.cons_append, List.cons_append, Text.splitAt?, hnone, ih ht]
    rfl

namespace HasUserInfo

/-- What is shown of a URL is its scheme and what follows the user-info. -/
theorem redact_eq (h : HasUserInfo url scheme user host) :
    redact url = String.ofList (scheme ++ schemeMark ++ ['*', '*', '*', '@'] ++ host) := by
  rw [redact, redactChars, h.toList_eq, splitAt?_schemeMark h.no_mark]
  simp only [splitUserInfo_append h.user_plain h.no_at]

theorem stripPrefix?_eq (h : HasUserInfo url scheme user host) :
    Text.stripPrefix? Credentials.secureScheme url.toList =
      if scheme = "https".toList then some (user ++ '@' :: host) else none := by
  have hsecure : Credentials.secureScheme = "https".toList ++ schemeMark := rfl
  split
  · next hscheme =>
    rw [Text.stripPrefix?_eq_some_iff, h.toList_eq, hscheme, hsecure]
  · next hscheme =>
    refine Option.eq_none_iff_forall_ne_some.2 fun rest hrest => hscheme ?_
    have hstarts := Text.stripPrefix?_eq_some_iff.1 hrest
    have hsplit := splitAt?_schemeMark h.no_mark (user ++ '@' :: host)
    rw [← h.toList_eq, hstarts, hsecure, splitAt?_schemeMark (by decide)] at hsplit
    exact (Prod.ext_iff.1 (Option.some.inj hsplit)).1.symm

/-- Credentials take the place of the user-info of an https URL. -/
theorem injectInto_eq (h : HasUserInfo url scheme user host) (c : Credentials) :
    c.injectInto url = if scheme = "https".toList then
      some (String.ofList (Credentials.secureScheme ++ c.userInfo ++ host)) else none := by
  rw [Credentials.injectInto, h.stripPrefix?_eq]
  split
  · rw [Option.map_some, splitUserInfo_append h.user_plain h.no_at]
  · rfl

end HasUserInfo

/-! ### Encoded credentials -/

namespace Percent

/-- The characters that part a URL. -/
def delimiters : List Char := [':', '/', '?', '#', '@']

theorem not_mem_encodeByte {c : Char} (hc : c ∈ delimiters) (b : UInt8) : c ∉ encodeByte b := by
  have h : ∀ n : Fin 256,
      delimiters.all (fun d => !(encodeByte (UInt8.ofFin n)).contains d) = true := by
    decide +kernel
  have hb : (!(encodeByte b).contains c) = true := List.all_eq_true.1 (h b.toFin) c hc
  simpa using hb

/-- No delimiter comes out of percent encoding. -/
theorem not_mem_encode {c : Char} (hc : c ∈ delimiters) (s : List UInt8) : c ∉ encode s := by
  rw [encode, List.mem_flatMap]
  rintro ⟨b, -, hb⟩
  exact not_mem_encodeByte hc b hb

theorem not_endsAuthority_of_mem_encode {c : Char} {s : List UInt8} (h : c ∈ encode s) :
    endsAuthority c = false := by
  refine Bool.eq_false_iff.2 fun hc => ?_
  have hdelimiter : c ∈ delimiters := by
    simp only [endsAuthority, Bool.or_eq_true, beq_iff_eq] at hc
    rcases hc with (rfl | rfl) | rfl <;> decide
  exact not_mem_encode hdelimiter s h

end Percent

variable {c c₁ c₂ : Credentials} {carrier : String}

/-- **A URL that carries credentials has them as its user-info.** -/
theorem hasUserInfo_of_injectInto (h : c.injectInto url = some carrier) :
    ∃ rest, url.toList = Credentials.secureScheme ++ rest ∧
      HasUserInfo carrier "https".toList c.userInfo.dropLast (splitUserInfo rest).2 := by
  obtain ⟨rest, hrest, rfl⟩ := Option.map_eq_some_iff.1 h
  have hinfo : c.userInfo = c.userInfo.dropLast ++ ['@'] := by
    rw [Credentials.userInfo, List.dropLast_concat]
  refine ⟨rest, Text.stripPrefix?_eq_some_iff.1 hrest, ?_, by decide, ?_, no_at_splitUserInfo rest⟩
  · rw [String.toList_ofList, hinfo, List.dropLast_concat, List.append_assoc, List.append_assoc]
    rfl
  · intro d hd
    rw [Credentials.userInfo, List.dropLast_concat, List.mem_append, List.mem_cons] at hd
    rcases hd with hd | rfl | hd
    · exact Percent.not_endsAuthority_of_mem_encode hd
    · decide
    · exact Percent.not_endsAuthority_of_mem_encode hd

/-- Whether a URL can carry credentials does not depend on them. -/
theorem injectInto_eq_none_iff : c.injectInto url = none ↔
    Text.stripPrefix? Credentials.secureScheme url.toList = none := Option.map_eq_none_iff

/-- **Hidden credentials are the same for everybody.** -/
theorem redact_of_injectInto {carrier₁ carrier₂ : String} (h₁ : c₁.injectInto url = some carrier₁)
    (h₂ : c₂.injectInto url = some carrier₂) : redact carrier₁ = redact carrier₂ := by
  obtain ⟨rest₁, hrest₁, hcarrier₁⟩ := hasUserInfo_of_injectInto h₁
  obtain ⟨rest₂, hrest₂, hcarrier₂⟩ := hasUserInfo_of_injectInto h₂
  obtain rfl := List.append_cancel_left (hrest₁.symm.trans hrest₂)
  rw [hcarrier₁.redact_eq, hcarrier₂.redact_eq]

end Url
end NightlyRelease

/-
# What is left of a redacted URL

A URL has one of three shapes (`shape`): no `://` stands in it, or no `@` in the
authority behind the first `://`, or it has a user-info there.  Redaction leaves
the first two as they are, and of the third one all but the user-info
(`redact_eq_self_iff`), of which three stars tell only that it was there.  So the
laws of redaction and of putting credentials into a URL follow from its parts
(`redaction_laws`): both leave the scheme and what follows the user-info alone, and what
was in the place of the user-info before does not matter.
-/

import NightlyRelease.Proofs.Url.Decoding

namespace NightlyRelease

namespace Text

variable {p s : List Char}

theorem splitAt?_eq_none (h : ¬ p <:+: s) : splitAt? p s = none := by
  induction s with
  | nil =>
    have hp : stripPrefix? p [] = none := stripPrefix?_eq_none_iff.2 fun hp => h hp.isInfix
    rw [splitAt?, hp, Option.map_none]
  | cons c r ih =>
    rw [List.infix_cons_iff, not_or] at h
    rw [splitAt?, stripPrefix?_eq_none_iff.2 h.1, ih h.2, Option.map_none]

/-- A text that holds another one falls apart where that one stands first. -/
theorem exists_first_infix (hp : p ≠ []) (h : p <:+: s) :
    ∃ a b, s = a ++ p ++ b ∧ ¬ p <:+: a := by
  induction s with
  | nil => exact absurd (List.eq_nil_of_infix_nil h) hp
  | cons c r ih =>
    by_cases hstart : p <+: c :: r
    · obtain ⟨b, hb⟩ := hstart
      exact ⟨[], b, hb.symm, fun hnil => hp (List.eq_nil_of_infix_nil hnil)⟩
    · obtain ⟨a, b, rfl, ha⟩ := ih ((List.infix_cons_iff.1 h).resolve_left hstart)
      refine ⟨c :: a, b, rfl, fun hca => ?_⟩
      rcases List.infix_cons_iff.1 hca with hca | hca
      · refine hstart (hca.trans ?_)
        rw [List.append_assoc]
        exact List.prefix_append (c :: a) (p ++ b)
      · exact ha hca

end Text

namespace Url

variable {url url' : String} {scheme user user' host rest : List Char}

/-- What a URL can look like. -/
inductive Shape (url : String) : Prop
  /-- Nothing marks off a scheme. -/
  | bare (no_mark : ¬ schemeMark <:+: url.toList)
  /-- The authority behind the scheme has no user-info. -/
  | anonymous {scheme rest : List Char} (toList_eq : url.toList = scheme ++ schemeMark ++ rest)
    (no_mark : ¬ schemeMark <:+: scheme) (no_at : '@' ∉ authority rest)
  | personal {scheme user host : List Char} (h : HasUserInfo url scheme user host)

/-- **Every URL has one of the three shapes.** -/
theorem shape (url : String) : Shape url := by
  by_cases hmark : schemeMark <:+: url.toList
  · obtain ⟨scheme, rest, hurl, hscheme⟩ := Text.exists_first_infix (by decide) hmark
    have hno := no_at_splitUserInfo rest
    rcases hsplit : splitUserInfo rest with ⟨_ | user, host⟩
    · rw [hsplit, eq_of_splitUserInfo_eq_none hsplit] at hno
      exact .anonymous hurl hscheme hno
    · rw [hsplit] at hno
      obtain ⟨rfl, huser⟩ := eq_of_splitUserInfo_eq_some hsplit
      exact .personal ⟨hurl, hscheme, huser, hno⟩
  · exact .bare hmark

/-! ### Redaction by shape -/

theorem redact_of_bare (h : ¬ schemeMark <:+: url.toList) : redact url = url := by
  rw [redact, redactChars, Text.splitAt?_eq_none h, String.ofList_toList]

theorem redact_of_anonymous (hurl : url.toList = scheme ++ schemeMark ++ rest)
    (hscheme : ¬ schemeMark <:+: scheme) (hrest : '@' ∉ authority rest) : redact url = url := by
  rw [redact, redactChars, hurl, splitAt?_schemeMark hscheme]
  simp only [splitUserInfo_of_no_at hrest]
  rw [← hurl, String.ofList_toList]

/-- Three stars that stand for a user-info. -/
def stars : List Char := ['*', '*', '*']

theorem plain_of_all (h : user.all (!endsAuthority ·) = true) :
    ∀ c ∈ user, endsAuthority c = false := by
  simpa using h

/-- What is shown of a URL has the stars as its user-info. -/
theorem HasUserInfo.redacted (h : HasUserInfo url scheme user host) :
    HasUserInfo (redact url) scheme stars host where
  toList_eq := by rw [h.redact_eq, String.toList_ofList]; simp [stars]
  no_mark := h.no_mark
  user_plain := plain_of_all (by decide)
  no_at := h.no_at

/-- **Redaction leaves a URL as it is exactly if there is no user-info to hide:** none at all, or
the stars. -/
theorem redact_eq_self_iff :
    redact url = url ↔ ∀ scheme user host, HasUserInfo url scheme user host → user = stars := by
  constructor
  · intro h scheme user host hinfo
    have hredacted := hinfo.redacted.toList_eq
    rw [h, hinfo.toList_eq] at hredacted
    exact List.append_cancel_right (List.append_cancel_left hredacted)
  · intro h
    cases shape url with
    | bare hmark => exact redact_of_bare hmark
    | anonymous hurl hscheme hrest => exact redact_of_anonymous hurl hscheme hrest
    | personal hinfo =>
      obtain rfl := h _ _ _ hinfo
      rw [← String.toList_inj, hinfo.redacted.toList_eq, hinfo.toList_eq]

/-- Redacting once more changes nothing. -/
theorem redact_redact (url : String) : redact (redact url) = redact url := by
  cases shape url with
  | bare hmark => rw [redact_of_bare hmark, redact_of_bare hmark]
  | anonymous hurl hscheme hrest =>
    rw [redact_of_anonymous hurl hscheme hrest, redact_of_anonymous hurl hscheme hrest]
  | personal hinfo => rw [hinfo.redacted.redact_eq, hinfo.redact_eq]

/-- URLs that differ in the user-info only look the same. -/
theorem HasUserInfo.redact_congr (h : HasUserInfo url scheme user host)
    (h' : HasUserInfo url' scheme user' host) : redact url = redact url' := by
  rw [h.redact_eq, h'.redact_eq]

/-! ### Redaction and credentials -/

variable {c c₁ c₂ : Credentials} {carrier : String}

/-- Of a URL with credentials the place is shown to which it leads. -/
theorem map_redact_injectInto (hrest : url.toList = Credentials.secureScheme ++ rest)
    (c : Credentials) : (c.injectInto url).map redact =
      some (String.ofList ("https://***@".toList ++ remainder rest)) := by
  obtain ⟨carrier, hcarrier⟩ := exists_carrier hrest c
  rw [hcarrier, Option.map_some, (hasUserInfo_carrier hrest hcarrier).redact_eq]
  rfl

/-- The last credentials count. -/
theorem bind_injectInto (c₁ c₂ : Credentials) (url : String) :
    (c₁.injectInto url).bind c₂.injectInto = c₂.injectInto url := by
  cases h₁ : c₁.injectInto url with
  | none =>
    rw [injectInto_eq_none_iff] at h₁
    rw [Option.bind_none, injectInto_eq_none_iff.2 h₁]
  | some carrier =>
    obtain ⟨rest, hrest, hinfo⟩ := hasUserInfo_of_injectInto h₁
    rw [Option.bind_some, hinfo.injectInto_eq, if_pos rfl, Credentials.injectInto,
      Text.stripPrefix?_eq_some_iff.2 hrest, Option.map_some]

/-- **Redaction and credentials look at one part of a URL only.** Redacting twice is redacting once.
Of a URL with credentials no more is shown than the place to which it leads, and of credentials
that are put in one after the other the last ones count.  URLs that differ in the user-info look
the same when they are redacted, and a URL stays as it is exactly if it has no user-info, or has
the stars as one. -/
theorem redaction_laws (url : String) :
    redact (redact url) = redact url ∧
    (∀ rest, url.toList = Credentials.secureScheme ++ rest → ∀ c : Credentials,
      (c.injectInto url).map redact =
        some (String.ofList ("https://***@".toList ++ remainder rest))) ∧
    (∀ c₁ c₂ : Credentials, (c₁.injectInto url).bind c₂.injectInto = c₂.injectInto url) ∧
    (∀ url' scheme user user' host, HasUserInfo url scheme user host →
      HasUserInfo url' scheme user' host → redact url = redact url') ∧
    (redact url = url ↔ ∀ scheme user host, HasUserInfo url scheme user host → user = stars) :=
  ⟨redact_redact url, fun _ hrest c => map_redact_injectInto hrest c,
    fun c₁ c₂ => bind_injectInto c₁ c₂ url, fun _ _ _ _ _ h h' => h.redact_congr h',
    redact_eq_self_iff⟩

/-- A URL with an empty user-info, and delimiters behind the host. -/
def Sample.emptyUrl : String := "https://@example.org/lib?x@y://z"

/-- The same URL with an `@` in its user-info. -/
def Sample.mailUrl : String := "https://bot:a@b@example.org/lib?x@y://z"

/-- The two URLs look the same, and tell that they had a user-info.  Credentials change nothing. -/
theorem redaction_laws_sample :
    HasUserInfo Sample.emptyUrl "https".toList [] "example.org/lib?x@y://z".toList ∧
    HasUserInfo Sample.mailUrl "https".toList "bot:a@b".toList "example.org/lib?x@y://z".toList ∧
    redact Sample.emptyUrl = redact Sample.mailUrl ∧
    redact Sample.mailUrl = "https://***@example.org/lib?x@y://z" ∧
    ((⟨"a@b", ""⟩ : Credentials).injectInto Sample.mailUrl).map redact =
      some "https://***@example.org/lib?x@y://z" := by
  have hempty : HasUserInfo Sample.emptyUrl "https".toList [] "example.org/lib?x@y://z".toList :=
    ⟨by decide, by decide +kernel, by simp, by decide⟩
  have hmail : HasUserInfo Sample.mailUrl "https".toList "bot:a@b".toList
      "example.org/lib?x@y://z".toList :=
    ⟨by decide, by decide +kernel, plain_of_all (by decide), by decide⟩
  have hurl : Sample.mailUrl.toList =
      Credentials.secureScheme ++ "bot:a@b@example.org/lib?x@y://z".toList := by decide
  have hplace : String.ofList ("https://***@".toList ++
      remainder "bot:a@b@example.org/lib?x@y://z".toList) =
        "https://***@example.org/lib?x@y://z" := by decide +kernel
  have hsame := (redaction_laws Sample.emptyUrl).2.2.2.1 Sample.mailUrl _ _ _ _ hempty hmail
  have hshown := (redaction_laws Sample.mailUrl).2.1 _ hurl ⟨"a@b", ""⟩
  exact ⟨hempty, hmail, hsame, by decide +kernel, hplace ▸ hshown⟩

end Url
end NightlyRelease

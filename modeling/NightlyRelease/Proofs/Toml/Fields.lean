/-
# What the fields of a record give

The entries of a table are read one after the other, each by the field of its
name.  If no name comes twice, the order does not matter: a part of the record
that one field settles (`Field.Settles`) is what this field's decoder makes of the
entry of its name, and what it was at the start without such an entry
(`Field.givenOr_of_setEntries`).  The table can be read if every field can read the
entry of its name (`Field.exists_setEntries`).
-/

import NightlyRelease.Proofs.Result
import NightlyRelease.Proofs.Toml.Keys
import NightlyRelease.Toml.Record

namespace NightlyRelease
namespace Toml

variable {α β : Type} {key : String} {reads : Node → β → Prop} {get : α → β} {start r r' : α}
variable {fields : List (Field α)} {v : Node} {t : Table}

/-- What is read from a value that may be missing; without one it is what it was at the start. -/
def GivenOr (reads : Node → β → Prop) (start : β) : Option Node → β → Prop
  | none, b => b = start
  | some v, b => reads v b

theorem GivenOr.unique {start b b' : β} {v? : Option Node}
    (hreads : ∀ v b b', reads v b → reads v b' → b = b')
    (h : GivenOr reads start v? b) (h' : GivenOr reads start v? b') : b = b' := by
  cases v? with
  | none => exact Eq.trans h (Eq.symm h')
  | some v => exact hreads v b b' h h'

/-- What is read from a value that need not be there. -/
def Optionally (reads : Node → β → Prop) (v : Node) (b? : Option β) : Prop :=
  ∃ b, b? = some b ∧ reads v b

theorem givenOr_optionally_some_iff {v? : Option Node} {b : β} :
    GivenOr (Optionally reads) none v? (some b) ↔ ∃ v, v? = some v ∧ reads v b := by
  cases v? with
  | none => simp [GivenOr]
  | some v => simp [GivenOr, Optionally]

theorem givenOr_optionally_none_iff {v? : Option Node} :
    GivenOr (Optionally reads) none v? none ↔ v? = none := by
  cases v? with
  | none => simp [GivenOr]
  | some v => simp [GivenOr, Optionally]

theorem Optionally.unique (hreads : ∀ v b b', reads v b → reads v b' → b = b') (v : Node)
    (b? b?' : Option β) (h : Optionally reads v b?) (h' : Optionally reads v b?') : b? = b?' := by
  obtain ⟨b, rfl, hb⟩ := h
  obtain ⟨b', rfl, hb'⟩ := h'
  rw [hreads v b b' hb hb']

/-! ### Texts and numbers -/

/-- A value is a text. -/
def IsText (v : Node) (s : String) : Prop := v.shape = .text s

/-- A value is a number that counts something. -/
def IsCount (v : Node) (n : Nat) : Prop := v.shape = .integer n

theorem IsText.unique (v : Node) (s s' : String) (h : IsText v s) (h' : IsText v s') : s = s' :=
  Shape.text.inj (h.symm.trans h')

theorem IsCount.unique (v : Node) (n n' : Nat) (h : IsCount v n) (h' : IsCount v n') : n = n' :=
  Int.ofNat.inj (Shape.integer.inj (h.symm.trans h'))

theorem textNamed_eq_ok_iff {expected s : String} :
    textNamed expected v = .ok s ↔ IsText v s := by
  unfold textNamed IsText
  split
  · next s' h => rw [h, Except.ok.injEq, Shape.text.injEq]
  · next h => exact ⟨nofun, fun hs => (h s hs).elim⟩

theorem count_eq_ok_iff {n : Nat} : count v = .ok n ↔ IsCount v n := by
  unfold count IsCount
  split
  · next m h =>
    rw [h, Shape.integer.injEq]
    split_ifs with hm
    · rw [Except.ok.injEq]
      omega
    · exact ⟨nofun, fun hn => (hm (hn ▸ Int.natCast_nonneg n)).elim⟩
  · next h => exact ⟨nofun, fun hn => (h n hn).elim⟩

theorem record_node_eq_ok_iff {expected : String} :
    record expected fields start t.node = .ok r ↔ Field.setEntries fields start t.entries = .ok r :=
  mapError_eq_ok_iff

/-! ### The entry of a name -/

namespace Table

variable {k : Key}

/-- The entry of a name with the entries around it, none of which has the name. -/
theorem exists_split_of_mem (hnodup : (t.entries.map (·.1.name)).Nodup)
    (hmem : (k, v) ∈ t.entries) :
    ∃ before after, t.entries = before ++ (k, v) :: after ∧
      k.name ∉ before.map (·.1.name) ∧ k.name ∉ after.map (·.1.name) := by
  obtain ⟨before, after, hentries⟩ := List.append_of_mem hmem
  rw [hentries, List.map_append, List.map_cons, List.nodup_append] at hnodup
  obtain ⟨-, hafter, hdisjoint⟩ := hnodup
  exact ⟨before, after, hentries, fun h => hdisjoint _ h _ List.mem_cons_self rfl,
    (List.nodup_cons.1 hafter).1⟩

theorem find?_of_mem (hnodup : (t.entries.map (·.1.name)).Nodup) (hmem : (k, v) ∈ t.entries) :
    t.find? k.name = some v := by
  obtain ⟨before, after, hentries, hbefore, -⟩ := exists_split_of_mem hnodup hmem
  have hnone : before.find? (fun e => e.1.name == k.name) = none := by
    rw [List.find?_eq_none]
    exact fun e he heq => hbefore (List.mem_map.2 ⟨e, he, by simpa using heq⟩)
  simp [find?, hentries, List.find?_append, hnone]

end Table

namespace Field

variable {f : Field α}

theorem of_set_eq_ok_iff {decode : Decoder β} {put : β → α → α} :
    (Field.of key decode put).set v r = .ok r' ↔ ∃ b, decode v = .ok b ∧ put b r = r' := by
  rw [Field.of, bind_eq_ok_iff]
  simp only [pure_eq_ok_iff]

/-- The field of a key settles a part of the record, and the others leave this part alone. -/
inductive Settles (key : String) (reads : Node → β → Prop) (get : α → β) :
    List (Field α) → Prop where
  | nil : Settles key reads get []
  /-- The field that reads the part. -/
  | own {γ : Type} {decode : Decoder γ} {put : γ → α → α} {fields : List (Field α)}
    (hget : ∀ v c r, decode v = .ok c → reads v (get (put c r)))
    (hrest : Settles key reads get fields) :
    Settles key reads get (.of key decode put :: fields)
  /-- A field that reads something else. -/
  | other {γ : Type} {key' : String} {decode : Decoder γ} {put : γ → α → α}
    {fields : List (Field α)} (hrest : Settles key reads get fields)
    (hkey : key' ≠ key := by decide) (hget : ∀ c r, get (put c r) = get r := by intros; rfl) :
    Settles key reads get (.of key' decode put :: fields)

theorem Settles.reads_get (h : Settles key reads get fields) (hf : f ∈ fields)
    (hkey : f.key = key) (hset : f.set v r = .ok r') : reads v (get r') := by
  induction h with
  | nil => cases hf
  | own hget _ ih =>
    cases hf with
    | head =>
      obtain ⟨c, hc, rfl⟩ := of_set_eq_ok_iff.1 hset
      exact hget _ c _ hc
    | tail _ hf => exact ih hf
  | other _ hne _ ih =>
    cases hf with
    | head => exact (hne hkey).elim
    | tail _ hf => exact ih hf

theorem Settles.get_eq (h : Settles key reads get fields) (hf : f ∈ fields)
    (hkey : f.key ≠ key) (hset : f.set v r = .ok r') : get r' = get r := by
  induction h with
  | nil => cases hf
  | own _ _ ih =>
    cases hf with
    | head => exact (hkey rfl).elim
    | tail _ hf => exact ih hf
  | other _ _ hget ih =>
    cases hf with
    | head =>
      obtain ⟨c, -, rfl⟩ := of_set_eq_ok_iff.1 hset
      exact hget c r
    | tail _ hf => exact ih hf

/-! ### Reading the entries of a table -/

variable {entry : Key × Node} {entries : List (Key × Node)}

/-- An entry is left out if no field has its name, and otherwise read by the field of its name. -/
theorem setEntry_eq_ok (h : setEntry fields r entry = .ok r') :
    (r' = r ∧ ∀ f ∈ fields, f.key ≠ entry.1.name) ∨
      ∃ f ∈ fields, f.key = entry.1.name ∧ f.set entry.2 r = .ok r' := by
  unfold setEntry at h
  split at h
  · next hnone =>
    refine .inl ⟨(Except.ok.inj h).symm, fun f hf heq => ?_⟩
    exact List.find?_eq_none.1 hnone f hf (by simpa using heq)
  · next f hfound =>
    exact .inr ⟨f, List.mem_of_find?_eq_some hfound, by simpa using List.find?_some hfound,
      mapError_eq_ok_iff.1 h⟩

theorem Settles.get_setEntry (hsettles : Settles key reads get fields)
    (h : setEntry fields r entry = .ok r') (hname : entry.1.name ≠ key) : get r' = get r := by
  rcases setEntry_eq_ok h with ⟨rfl, -⟩ | ⟨f, hf, hkey, hset⟩
  · rfl
  · exact hsettles.get_eq hf (hkey ▸ hname) hset

theorem Settles.get_setEntries (hsettles : Settles key reads get fields)
    (h : setEntries fields r entries = .ok r') (hname : key ∉ entries.map (·.1.name)) :
    get r' = get r := by
  induction entries generalizing r with
  | nil => exact congrArg get (Except.ok.inj h).symm
  | cons entry entries ih =>
    rw [List.map_cons, List.mem_cons, not_or] at hname
    rw [setEntries, List.foldlM_cons, bind_eq_ok_iff] at h
    obtain ⟨r₁, hentry, hrest⟩ := h
    rw [ih hrest hname.2, hsettles.get_setEntry hentry (Ne.symm hname.1)]

/-- **What a table gives for a field does not depend on its other entries.** -/
theorem givenOr_of_setEntries (hsettles : Settles key reads get fields)
    (hkey : key ∈ fields.map (·.key)) (hnodup : (t.entries.map (·.1.name)).Nodup)
    (h : setEntries fields start t.entries = .ok r) :
    GivenOr reads (get start) (t.find? key) (get r) := by
  cases hfind : t.find? key with
  | none => exact hsettles.get_setEntries h (Table.find?_eq_none_iff.1 hfind)
  | some v =>
    obtain ⟨k, rfl, hmem⟩ := Table.exists_mem_of_find? hfind
    obtain ⟨before, after, hentries, -, hafter⟩ := Table.exists_split_of_mem hnodup hmem
    rw [hentries, setEntries, List.foldlM_append, bind_eq_ok_iff] at h
    obtain ⟨r₁, -, h⟩ := h
    rw [List.foldlM_cons, bind_eq_ok_iff] at h
    obtain ⟨r₂, hentry, hrest⟩ := h
    -- What comes after the entry leaves the part alone, and what came before is overwritten.
    rw [GivenOr, hsettles.get_setEntries hrest hafter]
    rcases setEntry_eq_ok hentry with ⟨-, hnone⟩ | ⟨f, hf, hname, hset⟩
    · obtain ⟨f, hf, hname⟩ := List.mem_map.1 hkey
      exact (hnone f hf hname).elim
    · exact hsettles.reads_get hf hname hset

/-- A field can read a value. -/
def Accepts (f : Field α) (v : Node) : Prop := ∀ r, ∃ r', f.set v r = .ok r'

theorem accepts_of_givenOr {γ : Type} {decode : Decoder γ} {put : γ → α → α} {start b : β}
    (h : GivenOr reads start (t.find? key) b) (hdecode : ∀ v, reads v b → ∃ c, decode v = .ok c)
    (v : Node) (hv : t.find? key = some v) : (Field.of key decode put).Accepts v := by
  rw [hv] at h
  obtain ⟨c, hc⟩ := hdecode v h
  exact fun r => ⟨put c r, of_set_eq_ok_iff.2 ⟨c, hc, rfl⟩⟩

theorem exists_setEntry (h : ∀ f ∈ fields, f.key = entry.1.name → f.Accepts entry.2) (r : α) :
    ∃ r', setEntry fields r entry = .ok r' := by
  unfold setEntry
  split
  · exact ⟨r, rfl⟩
  · next f hfound =>
    obtain ⟨r', hset⟩ := h f (List.mem_of_find?_eq_some hfound)
      (by simpa using List.find?_some hfound) r
    exact ⟨r', mapError_eq_ok_iff.2 hset⟩

/-- **A table can be read if its entries can.** -/
theorem exists_setEntries (hnodup : (t.entries.map (·.1.name)).Nodup)
    (h : ∀ f ∈ fields, ∀ v, t.find? f.key = some v → f.Accepts v) (start : α) :
    ∃ r, setEntries fields start t.entries = .ok r := by
  have hentries : ∀ e ∈ t.entries, ∀ f ∈ fields, f.key = e.1.name → f.Accepts e.2 :=
    fun e he f hf hkey => h f hf e.2 (hkey ▸ Table.find?_of_mem hnodup he)
  generalize t.entries = entries at hentries
  induction entries generalizing start with
  | nil => exact ⟨start, rfl⟩
  | cons entry entries ih =>
    obtain ⟨hentry, hrest⟩ := List.forall_mem_cons.1 hentries
    obtain ⟨r₁, hr₁⟩ := exists_setEntry hentry start
    obtain ⟨r, hr⟩ := ih r₁ hrest
    exact ⟨r, by rw [setEntries, List.foldlM_cons, hr₁, ok_bind]; exact hr⟩

/-- If the parts that the fields settle make up the record, a table gives a record exactly when it
gives its parts. -/
theorem setEntries_eq_ok_iff {parts : α → Prop} (hnodup : (t.entries.map (·.1.name)).Nodup)
    (hsound : ∀ r, setEntries fields start t.entries = .ok r → parts r)
    (hunique : ∀ r r', parts r → parts r' → r = r')
    (haccepts : parts r → ∀ f ∈ fields, ∀ v, t.find? f.key = some v → f.Accepts v) :
    setEntries fields start t.entries = .ok r ↔ parts r := by
  refine ⟨hsound r, fun hr => ?_⟩
  obtain ⟨r', hr'⟩ := exists_setEntries hnodup (haccepts hr) start
  rw [hr', hunique r r' hr (hsound r' hr')]

end Field
end Toml
end NightlyRelease

/-
# Partial configurations

A document that gives a part of the configuration is merged with the defaults part by
part (`Merges`).  So nothing depends on the order of its keys and sections, on keys
that mean nothing, or on whether a section that gives nothing is there
(`parse_merges`).

What counts as the same document is written down as single steps from one document to
another (`Rewording`): each of them keeps what is said about the known parts
(`Rewording.saysTheSame`), and a chain of them does too.
-/

import NightlyRelease.Proofs.Config.Sections
import Mathlib.Data.List.Forall2
import Mathlib.Logic.Relation

namespace NightlyRelease
namespace Toml

/-- Two values are the same but for the places of their parts, how their tables came to be, and
the order of the keys. -/
inductive Node.Alike : Node → Node → Prop where
  /-- Only the place is another one. -/
  | same {v v' : Node} (h : v'.shape = v.shape) : v.Alike v'
  | array {span span' : Option Span} {items items' : List Node}
    (h : List.Forall₂ Node.Alike items items') :
    (mk span (.array items)).Alike (mk span' (.array items'))
  | tables {span span' : Option Span} {items items' : List Node}
    (h : List.Forall₂ Node.Alike items items') :
    (mk span (.tables items)).Alike (mk span' (.tables items'))
  /-- The entries in another order, with values that are alike. -/
  | table {span span' : Option Span} {origin origin' : Origin}
    {entries ordered entries' : List (Key × Node)} (horder : entries.Perm ordered)
    (hnames : ordered.map (·.1.name) = entries'.map (·.1.name))
    (hvalues : List.Forall₂ Node.Alike (ordered.map (·.2)) (entries'.map (·.2))) :
    (mk span (.table origin entries)).Alike (mk span' (.table origin' entries'))

variable {β : Type} {t t' : Table} {v v' : Node}

theorem Node.Alike.isText {s : String} (h : v.Alike v') (hs : IsText v s) : IsText v' s := by
  cases h with
  | same h => exact h.trans hs
  | _ => cases hs

theorem Node.Alike.isCount {n : Nat} (h : v.Alike v') (hn : IsCount v n) : IsCount v' n := by
  cases h with
  | same h => exact h.trans hn
  | _ => cases hn

theorem Node.Alike.exists_order (h : t.node.Alike t'.node) : ∃ ordered : List (Key × Node),
    t.entries.Perm ordered ∧ ordered.map (·.1.name) = t'.entries.map (·.1.name) ∧
      List.Forall₂ Node.Alike (ordered.map (·.2)) (t'.entries.map (·.2)) := by
  cases h with
  | same h =>
    obtain ⟨-, hentries⟩ := Shape.table.inj h
    rw [hentries]
    exact ⟨t.entries, .refl _, rfl, List.forall₂_same.2 fun _ _ => .same rfl⟩
  | table horder hnames hvalues => exact ⟨_, horder, hnames, hvalues⟩

theorem Node.Alike.exists_table (h : t.node.Alike v) : ∃ t' : Table, v = t'.node := by
  cases h with
  | same h =>
    obtain ⟨span, shape⟩ := v
    obtain rfl : shape = .table t.origin t.entries := h
    exact ⟨⟨t.origin, span, t.entries⟩, rfl⟩
  | @table _ span _ origin _ _ entries => exact ⟨⟨origin, span, entries⟩, rfl⟩

theorem Node.Alike.nodup_names (h : t.node.Alike t'.node)
    (hnodup : (t.entries.map (·.1.name)).Nodup) : (t'.entries.map (·.1.name)).Nodup := by
  obtain ⟨ordered, horder, hnames, -⟩ := h.exists_order
  rw [← hnames]
  exact (horder.map _).nodup_iff.1 hnodup

theorem Table.find?_eq_of_perm (hnodup : (t.entries.map (·.1.name)).Nodup)
    (h : t.entries.Perm t'.entries) (name : String) : t'.find? name = t.find? name := by
  cases hfind : t.find? name with
  | none =>
    rw [find?_eq_none_iff] at hfind ⊢
    exact fun hmem => hfind ((h.map _).mem_iff.2 hmem)
  | some v =>
    obtain ⟨k, rfl, hmem⟩ := exists_mem_of_find? hfind
    exact find?_of_mem ((h.map _).nodup_iff.1 hnodup) (h.mem_iff.1 hmem)

theorem Table.find?_rel_of_forall₂ (hnames : t.entries.map (·.1.name) = t'.entries.map (·.1.name))
    (hvalues : List.Forall₂ Node.Alike (t.entries.map (·.2)) (t'.entries.map (·.2)))
    (name : String) : Option.Rel Node.Alike (t.find? name) (t'.find? name) := by
  unfold find?
  generalize t.entries = entries at hnames hvalues
  generalize t'.entries = entries' at hnames hvalues
  induction entries generalizing entries' with
  | nil =>
    obtain rfl := List.map_eq_nil_iff.1 hnames.symm
    exact .none
  | cons e entries ih =>
    cases entries' with
    | nil => cases hnames
    | cons e' entries' =>
      obtain ⟨k, w⟩ := e
      obtain ⟨k', w'⟩ := e'
      obtain ⟨hname, hnames⟩ := List.cons.inj hnames
      obtain ⟨hvalue, hvalues⟩ := List.forall₂_cons.1 hvalues
      dsimp only at hname
      rw [List.find?_cons, List.find?_cons]
      dsimp only
      rw [hname]
      cases k'.name == name with
      | true => exact .some hvalue
      | false => exact ih entries' hnames hvalues

/-- **Tables that are alike have values that are alike under every name.** -/
theorem Node.Alike.find?_rel (h : t.node.Alike t'.node)
    (hnodup : (t.entries.map (·.1.name)).Nodup) (name : String) :
    Option.Rel Node.Alike (t.find? name) (t'.find? name) := by
  obtain ⟨ordered, horder, hnames, hvalues⟩ := h.exists_order
  have hfind : Table.find? ⟨t.origin, t.span, ordered⟩ name = t.find? name :=
    Table.find?_eq_of_perm hnodup horder name
  rw [← hfind]
  exact Table.find?_rel_of_forall₂ hnames hvalues name

section Rel

variable {v? v?' : Option Node}

theorem Node.rel_alike_refl (v? : Option Node) : Option.Rel Node.Alike v? v? := by
  cases v? with
  | none => exact .none
  | some v => exact .some (.same rfl)

theorem Node.eq_none_iff_of_rel (h : Option.Rel Node.Alike v? v?') : v?' = none ↔ v? = none := by
  cases h with
  | none => exact Iff.rfl
  | some => exact ⟨nofun, nofun⟩

theorem Node.exists_alike_of_rel_some (h : Option.Rel Node.Alike (some v) v?') :
    ∃ v', v?' = some v' ∧ v.Alike v' := by
  cases h with
  | some halike => exact ⟨_, rfl, halike⟩

theorem Node.exists_alike_of_rel_some' (h : Option.Rel Node.Alike v? (some v')) :
    ∃ v, v? = some v ∧ v.Alike v' := by
  cases h with
  | some halike => exact ⟨_, rfl, halike⟩

theorem GivenOr.of_rel {reads : Node → β → Prop} {start b : β}
    (h : GivenOr reads start v? b) (hrel : Option.Rel Node.Alike v? v?')
    (hreads : ∀ v v', v.Alike v' → reads v b → reads v' b) : GivenOr reads start v?' b := by
  cases hrel with
  | none => exact h
  | some halike => exact hreads _ _ halike h

end Rel

end Toml

namespace Config

open Toml (GivenOr IsText IsCount Table)

variable {t t' inner : Table} {heading : String} {c : Config} {text : String}

/-- Two documents say the same about everything that is known. -/
structure SaysTheSame (t t' : Table) : Prop where
  values : ∀ heading ∈ headings, ∀ key ∈ knownKeys heading,
    Option.Rel Toml.Node.Alike (valueAt t heading key) (valueAt t' heading key)
  author : t'.find? "author" = none ↔ t.find? "author" = none

theorem SaysTheSame.givesPaths {p : Paths} (h : SaysTheSame t t')
    (hp : GivesPaths (sectionOf t "paths") p) : GivesPaths (sectionOf t' "paths") p where
  versionFile := hp.versionFile.of_rel (h.values "paths" (by decide) _ (by decide))
    fun _ _ halike hv => halike.isText hv
  changelog := hp.changelog.of_rel (h.values "paths" (by decide) _ (by decide))
    fun _ _ halike hv => halike.isText hv
  versionOutput := hp.versionOutput.of_rel (h.values "paths" (by decide) _ (by decide))
    fun _ _ halike hv => halike.isText hv

theorem SaysTheSame.givesCommits {m : Commits} (h : SaysTheSame t t')
    (hm : GivesCommits (sectionOf t "commits") m) : GivesCommits (sectionOf t' "commits") m where
  marker := hm.marker.of_rel (h.values "commits" (by decide) _ (by decide))
    fun _ _ halike hv => halike.isText hv
  lead := hm.lead.of_rel (h.values "commits" (by decide) _ (by decide))
    fun _ _ halike hv => halike.isText hv
  window := hm.window.of_rel (h.values "commits" (by decide) _ (by decide))
    fun _ _ halike hv => halike.isCount hv
  minimum := hm.minimum.of_rel (h.values "commits" (by decide) _ (by decide))
    fun _ _ halike hv => halike.isCount hv

theorem SaysTheSame.givesAuthor {a : Author} (h : SaysTheSame t t')
    (ha : GivesAuthor (sectionOf t "author") a) : GivesAuthor (sectionOf t' "author") a := by
  obtain ⟨⟨v, hv, hname⟩, w, hw, hemail⟩ := ha
  have hrel := h.values "author" (by decide) "name" (by decide)
  have hrel' := h.values "author" (by decide) "email" (by decide)
  rw [valueAt, hv] at hrel
  rw [valueAt, hw] at hrel'
  obtain ⟨v', hv', halike⟩ := Toml.Node.exists_alike_of_rel_some hrel
  obtain ⟨w', hw', halike'⟩ := Toml.Node.exists_alike_of_rel_some hrel'
  exact ⟨⟨v', hv', halike.isText hname⟩, w', hw', halike'.isText hemail⟩

theorem Merges.of_saysTheSame (hc : Merges t c) (h : SaysTheSame t t') : Merges t' c where
  paths := h.givesPaths hc.paths
  keyPrefix := hc.keyPrefix.of_rel (h.values "version" (by decide) _ (by decide))
    fun _ _ halike hv => halike.isText hv
  commits := h.givesCommits hc.commits
  remote := hc.remote.of_rel (h.values "remote" (by decide) _ (by decide))
    fun _ _ halike hv => halike.isText hv
  author_eq_none_iff := hc.author_eq_none_iff.trans h.author.symm
  author_given a ha := h.givesAuthor (hc.author_given a ha)

/-- A document is written in another way. -/
inductive Rewording (t : Table) : Table → Prop where
  /-- The sections and the keys in them in another order. -/
  | reorder {t' : Table} (h : t.node.Alike t'.node) : Rewording t t'
  /-- A key or a section that means nothing. -/
  | unknownSection {key : Toml.Key} {v : Toml.Node} (hname : key.name ∉ headings)
    (hnew : t.find? key.name = none) : Rewording t (t.append key v)
  /-- A key that means nothing in its section. -/
  | unknownKey {heading : String} {inner : Table} {key : Toml.Key} {v : Toml.Node}
    (hsection : t.find? heading = some inner.node) (hname : key.name ∉ knownKeys heading)
    (hnew : inner.find? key.name = none) :
    Rewording t (t.replace heading (inner.append key v).node)
  /-- A section without a key. -/
  | emptySection {key : Toml.Key} {origin : Toml.Origin} {span : Option Toml.Span}
    (hname : key.name ∈ ["paths", "version", "commits", "remote"])
    (hnew : t.find? key.name = none) :
    Rewording t (t.append key (Table.empty origin span).node)

theorem IsSectioned.nodup_of_find? (ht : IsSectioned t) (hheading : heading ∈ headings)
    (h : t.find? heading = some inner.node) : (inner.entries.map (·.1.name)).Nodup :=
  sectionOf_of_find? h ▸ ht.nodup_sectionOf hheading

theorem find?_append_of_ne {key : Toml.Key} {v : Toml.Node} (hne : key.name ≠ heading) :
    (t.append key v).find? heading = t.find? heading := by
  rw [Table.find?_append, if_neg hne, Option.or_none]

/-- What is said in a section that is kept. -/
theorem rel_valueAt_of_eq (h : t'.find? heading = t.find? heading) (key : String) :
    Option.Rel Toml.Node.Alike (valueAt t heading key) (valueAt t' heading key) := by
  rw [valueAt, valueAt, sectionOf, sectionOf, h]
  exact Toml.Node.rel_alike_refl _

/-- What is said in a section that is put into another order. -/
theorem rel_valueAt_of_rel (ht : IsSectioned t) (hheading : heading ∈ headings)
    (h : Option.Rel Toml.Node.Alike (t.find? heading) (t'.find? heading)) (key : String) :
    Option.Rel Toml.Node.Alike (valueAt t heading key) (valueAt t' heading key) := by
  cases hfind : t.find? heading with
  | none =>
    have hfind' := (Toml.Node.eq_none_iff_of_rel h).2 hfind
    exact rel_valueAt_of_eq (hfind'.trans hfind.symm) key
  | some v =>
    obtain ⟨inner, rfl, hnodup⟩ := ht.tables heading hheading v hfind
    obtain ⟨v', hfind', halike⟩ := Toml.Node.exists_alike_of_rel_some (hfind ▸ h)
    obtain ⟨inner', rfl⟩ := halike.exists_table
    rw [valueAt, valueAt, sectionOf_of_find? hfind, sectionOf_of_find? hfind']
    exact halike.find?_rel hnodup key

theorem Rewording.isSectioned (h : Rewording t t') (ht : IsSectioned t) : IsSectioned t' := by
  cases h with
  | reorder h =>
    refine ⟨h.nodup_names ht.names, fun heading hheading v' hv' => ?_⟩
    obtain ⟨v, hv, halike⟩ :=
      Toml.Node.exists_alike_of_rel_some' (hv' ▸ h.find?_rel ht.names heading)
    obtain ⟨inner, rfl, hnodup⟩ := ht.tables heading hheading v hv
    obtain ⟨inner', rfl⟩ := halike.exists_table
    exact ⟨inner', rfl, halike.nodup_names hnodup⟩
  | unknownSection hname hnew =>
    refine ⟨Table.nodup_names_append ht.names hnew _, fun heading hheading v hv => ?_⟩
    rw [find?_append_of_ne fun heq => hname (heq ▸ hheading)] at hv
    exact ht.tables heading hheading v hv
  | @unknownKey heading inner key v hsection hname hnew =>
    refine ⟨(Table.names_replace ..).symm ▸ ht.names, fun heading' hheading' w hw => ?_⟩
    rw [Table.find?_replace, Option.map_eq_some_iff] at hw
    obtain ⟨u, hu, rfl⟩ := hw
    split_ifs with heq
    · obtain rfl := heq
      exact ⟨_, rfl, Table.nodup_names_append (ht.nodup_of_find? hheading' hsection) hnew v⟩
    · exact ht.tables heading' hheading' u hu
  | @emptySection key origin span hname hnew =>
    refine ⟨Table.nodup_names_append ht.names hnew _, fun heading hheading v hv => ?_⟩
    by_cases heq : key.name = heading
    · obtain rfl := heq
      rw [Table.find?_append_self hnew] at hv
      obtain rfl := Option.some.inj hv
      exact ⟨_, rfl, .nil⟩
    · rw [find?_append_of_ne heq] at hv
      exact ht.tables heading hheading v hv

/-- **Another way to write a document says the same.** -/
theorem Rewording.saysTheSame (h : Rewording t t') (ht : IsSectioned t) : SaysTheSame t t' := by
  cases h with
  | reorder h =>
    exact ⟨fun heading hheading key _ =>
        rel_valueAt_of_rel ht hheading (h.find?_rel ht.names heading) key,
      Toml.Node.eq_none_iff_of_rel (h.find?_rel ht.names "author")⟩
  | @unknownSection key v hname hnew =>
    have hkept : ∀ heading ∈ headings, (t.append key v).find? heading = t.find? heading :=
      fun heading hheading => find?_append_of_ne fun heq => hname (heq ▸ hheading)
    exact ⟨fun heading hheading key' _ => rel_valueAt_of_eq (hkept heading hheading) key',
      by rw [hkept "author" (by decide)]⟩
  | @unknownKey heading inner key v hsection hname hnew =>
    refine ⟨fun heading' _ key' hkey' => ?_, by rw [Table.find?_replace, Option.map_eq_none_iff]⟩
    by_cases heq : heading' = heading
    · obtain rfl := heq
      have hreplaced : (t.replace heading' (inner.append key v).node).find? heading' =
          some (inner.append key v).node := Table.find?_replace_self (by simp [hsection])
      rw [valueAt, valueAt, sectionOf_of_find? hsection, sectionOf_of_find? hreplaced,
        find?_append_of_ne fun heq => hname (heq ▸ hkey')]
      exact Toml.Node.rel_alike_refl _
    · refine rel_valueAt_of_eq ?_ key'
      simp only [Table.find?_replace, if_neg heq, Option.map_id']
  | @emptySection key origin span hname hnew =>
    have hauthor : key.name ≠ "author" := fun heq => absurd (heq ▸ hname) (by decide)
    refine ⟨fun heading _ key' _ => ?_, by rw [find?_append_of_ne hauthor]⟩
    by_cases heq : key.name = heading
    · obtain rfl := heq
      rw [valueAt, valueAt, sectionOf_of_find?_eq_none hnew,
        sectionOf_of_find? (Table.find?_append_self hnew)]
      exact .none
    · exact rel_valueAt_of_eq (find?_append_of_ne heq) key'

/-! ### Partial configurations -/

/-- Chains of rewordings. -/
abbrev Rewordings : Table → Table → Prop := Relation.ReflTransGen Rewording

/-- What one step keeps, a chain of steps keeps. -/
theorem merges_of_rewordings (ht : IsSectioned t) (hc : Merges t c)
    (h : Rewordings t t') : IsSectioned t' ∧ Merges t' c := by
  induction h with
  | refl => exact ⟨ht, hc⟩
  | tail _ hstep ih =>
    obtain ⟨hsectioned, hmerges⟩ := ih
    exact ⟨hstep.isSectioned hsectioned, hmerges.of_saysTheSame (hstep.saysTheSame hsectioned)⟩

theorem parse_eq_ok_iff :
    parse text = .ok c ↔ ∃ t, Toml.parse text = some t ∧ ofTable t = .ok c := by
  unfold parse
  cases Toml.parse text with
  | none => exact ⟨nofun, fun ⟨_, h, _⟩ => nomatch h⟩
  | some t =>
    dsimp only
    rw [mapError_eq_ok_iff]
    exact ⟨fun h => ⟨t, rfl, h⟩, fun ⟨t', ht', h⟩ => Option.some.inj ht' ▸ h⟩

/-- **Partial configurations are merged with the defaults part by part,** and it does not matter
how they are written. -/
theorem parse_merges (hparse : Toml.parse text = some t) (htables : SectionsAreTables t)
    (hc : parse text = .ok c) :
    Merges t c ∧ ∀ t', Rewordings t t' → ofTable t' = .ok c ∧
      ∀ text', Toml.parse text' = some t' → parse text' = .ok c := by
  have ht := isSectioned_of_wellKeyed (Toml.parse_wellKeyed hparse) htables
  obtain ⟨t₁, ht₁, hc⟩ := parse_eq_ok_iff.1 hc
  obtain rfl := Option.some.inj (hparse.symm.trans ht₁)
  have hmerges := (ofTable_eq_ok_iff ht).1 hc
  refine ⟨hmerges, fun t' h => ?_⟩
  obtain ⟨ht', hmerges'⟩ := merges_of_rewordings ht hmerges h
  have hc' := (ofTable_eq_ok_iff ht').2 hmerges'
  exact ⟨hc', fun text' htext' => parse_eq_ok_iff.2 ⟨t', htext', hc'⟩⟩

/-- A document with one key and one section; another one, which is empty, changes nothing. -/
theorem parse_merges_one_key : ∃ t c, Toml.parse "[commits]\nmarker = \"ci\"\n" = some t ∧
    c.commits.marker = "ci" ∧ Merges t c ∧
    ofTable (t.append ⟨"paths", ⟨0, 0⟩⟩ (Table.empty .header none).node) = .ok c := by
  have hsections : (Toml.parse "[commits]\nmarker = \"ci\"\n").any (fun t =>
      decide (SectionsAreTables t) && (t.find? "paths").isNone) = true := by decide +kernel
  have hc : parse "[commits]\nmarker = \"ci\"\n" =
      .ok { default with commits := { default.commits with marker := "ci" } } :=
    toOption_eq_some_iff.1 (by decide +kernel)
  obtain ⟨t, hparse, ht⟩ := (Option.any_eq_true _ _).1 hsections
  rw [Bool.and_eq_true, decide_eq_true_eq, Option.isNone_iff_eq_none] at ht
  obtain ⟨htables, hnew⟩ := ht
  obtain ⟨hmerges, hrewordings⟩ := parse_merges hparse htables hc
  exact ⟨t, _, hparse, rfl, hmerges,
    (hrewordings _ (.single (.emptySection (by decide) hnew))).1⟩

/-- Other places and another order, an empty section, and keys that mean nothing. -/
example : parse "[remote]\nname = \"team\"\n[paths]\nchangelog = \"log\"\nversion_file = \"v\"\n" =
    parse ("extra = 1\npaths.version_file = \"v\"\npaths.changelog = \"log\"\n" ++
      "[commits]\n[remote]\nmore = 2\nname = \"team\"\n") := by
  decide +kernel

end Config
end NightlyRelease

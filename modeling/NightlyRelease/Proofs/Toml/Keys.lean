/-
# No key is given twice

A value is well-keyed if no table in it has two entries of one name.  Every value
that the reader gives is, and so is every document (`parse_wellKeyed`).

Entries are added where nothing of their name stands, and the reader checks that,
with one exception: the table of a header is put where it belongs when the next
header comes, without a second look.  So a draft also says that nothing has been
put there in the meantime (`Draft.WellKeyed.free`).  Both rest on what a change at
the end of a path does (`Table.update_eq_some`): it changes one table, the one that
the path leads to if it leads anywhere.
-/

import NightlyRelease.Toml.Document
import Mathlib.Tactic.SplitIfs

namespace NightlyRelease
namespace Toml

/-- The names of the entries of a table; other values have none. -/
def Shape.names {α : Type} : Shape α → List String
  | .table _ entries => entries.map (·.1.name)
  | _ => []

/-- The values that a value is made of. -/
def Shape.parts {α : Type} : Shape α → List α
  | .array items => items
  | .tables items => items
  | .table _ entries => entries.map (·.2)
  | _ => []

/-- No table in a value gives a key twice. -/
inductive Node.WellKeyed : Node → Prop where
  | mk {v : Node} (hnames : v.shape.names.Nodup) (hparts : ∀ w ∈ v.shape.parts, w.WellKeyed) :
    v.WellKeyed

theorem Node.WellKeyed.nodup_names {v : Node} : v.WellKeyed → v.shape.names.Nodup
  | .mk hnames _ => hnames

theorem Node.WellKeyed.of_mem_parts {v w : Node} : v.WellKeyed → w ∈ v.shape.parts → w.WellKeyed
  | .mk _ hparts => hparts w

variable {t t' : Table} {k key : Key} {v : Node} {name : String} {dotted : Bool}
variable {change : Table → Option Table} {path : List Key}

/-! ### Tables -/

namespace Table

/-- No key is given twice in a table, nor in a table within it. -/
def WellKeyed (t : Table) : Prop := t.node.WellKeyed

theorem wellKeyed_iff :
    t.WellKeyed ↔ (t.entries.map (·.1.name)).Nodup ∧ ∀ e ∈ t.entries, e.2.WellKeyed := by
  constructor
  · intro h
    exact ⟨h.nodup_names, fun e he => h.of_mem_parts (List.mem_map_of_mem (f := (·.2)) he)⟩
  · rintro ⟨hnames, hparts⟩
    refine .mk hnames fun w hw => ?_
    obtain ⟨e, he, rfl⟩ := List.mem_map.1 hw
    exact hparts e he

theorem eq_node_of_ofNode? (h : ofNode? v = some t) : v = t.node := by
  unfold ofNode? at h
  split at h
  · obtain rfl := Option.some.inj h
    rfl
  · cases h

@[simp]
theorem ofNode?_node (t : Table) : ofNode? t.node = some t := rfl

/-- Only the entries matter. -/
theorem WellKeyed.of_entries (h : t.WellKeyed) (hentries : t'.entries = t.entries) :
    t'.WellKeyed := by
  rw [wellKeyed_iff] at h ⊢
  rwa [hentries]

theorem find?_eq_none_iff : t.find? name = none ↔ name ∉ t.entries.map (·.1.name) := by
  simp [find?, List.find?_eq_none]

theorem exists_mem_of_find? (h : t.find? name = some v) :
    ∃ k, k.name = name ∧ (k, v) ∈ t.entries := by
  obtain ⟨⟨k, w⟩, he, rfl⟩ := Option.map_eq_some_iff.1 h
  exact ⟨k, by simpa using List.find?_some he, List.mem_of_find?_eq_some he⟩

theorem find?_append (t : Table) (key : Key) (v : Node) (name : String) :
    (t.append key v).find? name = (t.find? name).or (if key.name = name then some v else none) := by
  by_cases hname : key.name = name
  · cases h : t.entries.find? (fun e => e.1.name == name) <;>
      simp [find?, append, List.find?_append, hname, h]
  · simp [find?, append, List.find?_append, hname]

theorem find?_append_self (h : t.find? key.name = none) :
    (t.append key v).find? key.name = some v := by
  rw [find?_append, h, if_pos rfl, Option.none_or]

/-- The entries of one name get the value, all others keep theirs. -/
theorem find?_replace (t : Table) (name : String) (v : Node) (other : String) :
    (t.replace name v).find? other =
      (t.find? other).map fun w => if other = name then v else w := by
  have hsame : ((fun e : Key × Node => e.1.name == other) ∘
      fun e : Key × Node => if e.1.name == name then (e.1, v) else (e.1, e.2)) =
        fun e => e.1.name == other := by
    funext e
    simp only [Function.comp_apply]
    split_ifs <;> rfl
  simp only [find?, replace, List.find?_map, hsame, Option.map_map]
  refine Option.map_congr fun e he => ?_
  have hname : e.1.name = other := by
    simpa using List.find?_some (p := fun e : Key × Node => e.1.name == other) he
  simp only [Function.comp_apply, hname, beq_iff_eq]
  split_ifs <;> rfl

theorem find?_replace_self (h : (t.find? name).isSome) :
    (t.replace name v).find? name = some v := by
  obtain ⟨w, hw⟩ := Option.isSome_iff_exists.1 h
  rw [find?_replace, hw, Option.map_some, if_pos rfl]

theorem find?_erase_self (t : Table) (name : String) : (t.erase name).find? name = none := by
  simp [find?, erase]

theorem wellKeyed_empty (origin : Origin) (span : Option Span) : (empty origin span).WellKeyed :=
  wellKeyed_iff.2 ⟨.nil, nofun⟩

theorem WellKeyed.of_find? (h : t.WellKeyed) (hv : t.find? name = some v) : v.WellKeyed := by
  obtain ⟨k, -, hmem⟩ := exists_mem_of_find? hv
  exact (wellKeyed_iff.1 h).2 _ hmem

theorem nodup_names_append (h : (t.entries.map (·.1.name)).Nodup)
    (hkey : t.find? key.name = none) (v : Node) :
    ((t.append key v).entries.map (·.1.name)).Nodup := by
  rw [append, List.map_append, List.map_singleton]
  refine List.nodup_append.2 ⟨h, List.pairwise_singleton _ _, fun a ha b hb => ?_⟩
  obtain rfl := List.mem_singleton.1 hb
  exact fun heq => find?_eq_none_iff.1 hkey (heq ▸ ha)

theorem names_replace (t : Table) (name : String) (v : Node) :
    (t.replace name v).entries.map (·.1.name) = t.entries.map (·.1.name) := by
  rw [replace, List.map_map]
  refine List.map_congr_left fun e _ => ?_
  simp only [Function.comp_apply]
  split_ifs <;> rfl

theorem WellKeyed.append (h : t.WellKeyed) (hkey : t.find? key.name = none) (hv : v.WellKeyed) :
    (t.append key v).WellKeyed := by
  obtain ⟨hnames, hparts⟩ := wellKeyed_iff.1 h
  refine wellKeyed_iff.2 ⟨nodup_names_append hnames hkey v, fun e he => ?_⟩
  rcases List.mem_append.1 he with he | he
  · exact hparts e he
  · obtain rfl := List.mem_singleton.1 he
    exact hv

theorem WellKeyed.replace (h : t.WellKeyed) (hv : v.WellKeyed) : (t.replace name v).WellKeyed := by
  obtain ⟨hnames, hparts⟩ := wellKeyed_iff.1 h
  refine wellKeyed_iff.2 ⟨(names_replace t name v).symm ▸ hnames, fun e he => ?_⟩
  obtain ⟨⟨k, w⟩, hmem, rfl⟩ := List.mem_map.1 he
  dsimp only
  split_ifs
  · exact hv
  · exact hparts _ hmem

theorem WellKeyed.erase (h : t.WellKeyed) (name : String) : (t.erase name).WellKeyed := by
  obtain ⟨hnames, hparts⟩ := wellKeyed_iff.1 h
  exact wellKeyed_iff.2 ⟨hnames.sublist (List.filter_sublist.map _),
    fun e he => hparts e (List.filter_sublist.subset he)⟩

/-- The list of tables under a name with another one at its end. -/
theorem wellKeyed_tables {span : Option Span} {items : List Node}
    (hitems : ∀ w ∈ items, w.WellKeyed) (ht : t.WellKeyed) :
    (Node.mk span (.tables (items ++ [t.node]))).WellKeyed := by
  refine .mk .nil fun w hw => ?_
  rcases List.mem_append.1 hw with hw | hw
  · exact hitems w hw
  · obtain rfl := List.mem_singleton.1 hw
    exact ht

end Table

open Table Draft.openTable

/-! ### Changes at the end of a path -/

/-- The ways in which a change goes one key down. -/
theorem Table.update_cons {ks : List Key} (h : update dotted change (k :: ks) t = some t') :
    (t.find? k.name = none ∧ ∃ child,
      update dotted change ks (.empty (if dotted then .dotted else .implied) none) = some child ∧
      t' = t.append k child.node) ∨
    (∃ inner child, t.find? k.name = some inner.node ∧
      update dotted change ks inner = some child ∧ t' = t.replace k.name child.node) ∨
    ∃ span items inner child, t.find? k.name = some (.mk span (.tables items)) ∧
      items.getLast? = some inner.node ∧ update dotted change ks inner = some child ∧
      t' = t.replace k.name (.mk span (.tables (items.dropLast ++ [child.node]))) := by
  rw [update] at h
  split at h
  · next hnone =>
    obtain ⟨child, hchild, heq⟩ := Option.bind_eq_some_iff.1 h
    exact .inl ⟨hnone, child, hchild, (Option.some.inj heq).symm⟩
  · next span origin entries hfound =>
    split_ifs at h
    obtain ⟨child, hchild, heq⟩ := Option.bind_eq_some_iff.1 h
    exact .inr (.inl ⟨⟨origin, span, entries⟩, child, hfound, hchild, (Option.some.inj heq).symm⟩)
  · next span items hfound =>
    obtain ⟨last, hlast, h⟩ := Option.bind_eq_some_iff.1 h
    obtain ⟨inner, hinner, h⟩ := Option.bind_eq_some_iff.1 h
    obtain ⟨child, hchild, heq⟩ := Option.bind_eq_some_iff.1 h
    exact .inr (.inr ⟨span, items, inner, child, hfound, eq_node_of_ofNode? hinner ▸ hlast, hchild,
      (Option.some.inj heq).symm⟩)
  · cases h

theorem lookup_cons_of_table {ks : List Key} (h : t.find? k.name = some t'.node) :
    lookup (k :: ks) t = lookup ks t' := by
  rw [lookup, h]
  rfl

theorem lookup_cons_of_tables {ks : List Key} {span : Option Span} {items : List Node}
    (h : t.find? k.name = some (.mk span (.tables items))) (hlast : items.getLast? = some t'.node) :
    lookup (k :: ks) t = lookup ks t' := by
  rw [lookup, h]
  simp only [hlast, Option.bind_some, ofNode?_node]

/-- **A change at the end of a path changes one table,** the one that stands there if there is one.
The whole is well-keyed again if that table is. -/
theorem Table.update_eq_some (h : update dotted change path t = some t') (ht : t.WellKeyed) :
    ∃ x y, change x = some y ∧ x.WellKeyed ∧ (∀ z, lookup path t = some z → z = x) ∧
      lookup path t' = some y ∧ (y.WellKeyed → t'.WellKeyed) := by
  induction path generalizing t t' with
  | nil => exact ⟨t, t', h, ht, fun z hz => (Option.some.inj hz).symm, rfl, id⟩
  | cons k ks ih =>
    -- The next table is a new one, one that is there, or the last one of a list.
    rcases update_cons h with ⟨hnone, child, hchild, rfl⟩ |
      ⟨inner, child, hfound, hchild, rfl⟩ | ⟨span, items, inner, child, hfound, hlast, hchild, rfl⟩
    · obtain ⟨x, y, hchange, hx, -, hnew, hwell⟩ := ih hchild (wellKeyed_empty _ _)
      refine ⟨x, y, hchange, hx, fun z hz => ?_, ?_, fun hy => ht.append hnone (hwell hy)⟩
      · rw [lookup, hnone] at hz
        cases hz
      · rw [lookup_cons_of_table (find?_append_self hnone), hnew]
    · obtain ⟨x, y, hchange, hx, hold, hnew, hwell⟩ := ih hchild (ht.of_find? hfound)
      refine ⟨x, y, hchange, hx, fun z hz => ?_, ?_, fun hy => ht.replace (hwell hy)⟩
      · exact hold z (lookup_cons_of_table hfound ▸ hz)
      · rw [lookup_cons_of_table (find?_replace_self (by simp [hfound])), hnew]
    · have hitems : ∀ w ∈ items, w.WellKeyed := fun w hw => (ht.of_find? hfound).of_mem_parts hw
      obtain ⟨x, y, hchange, hx, hold, hnew, hwell⟩ :=
        ih hchild (hitems _ (List.mem_of_getLast? hlast))
      refine ⟨x, y, hchange, hx, fun z hz => ?_, ?_, fun hy => ht.replace (wellKeyed_tables
        (fun w hw => hitems w (List.dropLast_subset _ hw)) (hwell hy))⟩
      · exact hold z (lookup_cons_of_tables hfound hlast ▸ hz)
      · rw [lookup_cons_of_tables (find?_replace_self (by simp [hfound]))
          (List.getLast?_concat ..), hnew]

theorem Table.WellKeyed.insert (ht : t.WellKeyed) (hv : v.WellKeyed)
    (h : t.insert path key v = some t') : t'.WellKeyed := by
  obtain ⟨x, y, hchange, hx, -, -, hwell⟩ := update_eq_some h ht
  refine hwell ?_
  split_ifs at hchange with _ hfree
  obtain rfl := Option.some.inj hchange
  exact hx.append (by simpa using hfree) hv

theorem Table.WellKeyed.pushTo {table : Table} (ht : t.WellKeyed) (htable : table.WellKeyed)
    (h : Draft.pushTo key table t = some t') : t'.WellKeyed := by
  unfold Draft.pushTo at h
  split at h
  · next hnone =>
    obtain rfl := Option.some.inj h
    have hlist : (Node.mk table.span (.tables ([] ++ [table.node]))).WellKeyed :=
      wellKeyed_tables nofun htable
    exact ht.append hnone hlist
  · next span items hfound =>
    obtain rfl := Option.some.inj h
    exact ht.replace (wellKeyed_tables (fun w hw => (ht.of_find? hfound).of_mem_parts hw) htable)
  · cases h

/-! ### Values -/

/-- What a reader of values gives is well-keyed. -/
def GivesWellKeyed (read : Reader Node) : Prop :=
  ∀ s v r, read s = some (v, r) → v.WellKeyed

theorem wellKeyed_scalar {s r : List Char} {shape : Shape Node} (h : scalar s = some (shape, r))
    (span : Option Span) : (Node.mk span shape).WellKeyed := by
  have hleaf : shape.names = [] ∧ shape.parts = [] := by
    unfold scalar at h
    split at h
    · obtain ⟨rfl, -⟩ := Prod.mk.inj (Option.some.inj h)
      exact ⟨rfl, rfl⟩
    · obtain ⟨rfl, -⟩ := Prod.mk.inj (Option.some.inj h)
      exact ⟨rfl, rfl⟩
    · split_ifs at h
      · obtain ⟨⟨t, r⟩, -, heq⟩ := Option.bind_eq_some_iff.1 h
        obtain ⟨rfl, -⟩ := Prod.mk.inj (Option.some.inj heq)
        exact ⟨rfl, rfl⟩
      · split at h
        · obtain ⟨rfl, -⟩ := Prod.mk.inj (Option.some.inj h)
          exact ⟨rfl, rfl⟩
        · split at h
          · obtain ⟨rfl, -⟩ := Prod.mk.inj (Option.some.inj h)
            exact ⟨rfl, rfl⟩
          · obtain ⟨⟨n, r⟩, -, heq⟩ := Option.bind_eq_some_iff.1 h
            obtain ⟨rfl, -⟩ := Prod.mk.inj (Option.some.inj heq)
            exact ⟨rfl, rfl⟩
    · cases h
  refine .mk ?_ ?_
  · rw [Node.shape, hleaf.1]
    exact .nil
  · rw [Node.shape, hleaf.2]
    exact nofun

theorem keyValue_wellKeyed {read : Reader Node} (hread : GivesWellKeyed read) {s r : List Char}
    {keys : List Key} (h : keyValue read s = some ((keys, v), r)) : v.WellKeyed := by
  obtain ⟨⟨keys', r₁⟩, -, h⟩ := Option.bind_eq_some_iff.1 h
  obtain ⟨r₂, -, h⟩ := Option.bind_eq_some_iff.1 h
  obtain ⟨⟨w, r₃⟩, hvalue, h⟩ := Option.bind_eq_some_iff.1 h
  obtain ⟨⟨-, rfl⟩, -⟩ := by simpa using h
  exact hread _ _ _ hvalue

theorem arrayBody_wellKeyed {read : Reader Node} (hread : GivesWellKeyed read) {fuel : Nat}
    {s r : List Char} {items : List Node} (h : arrayBody read fuel s = some (items, r)) :
    ∀ w ∈ items, w.WellKeyed := by
  induction fuel generalizing s r items with
  | zero => cases h
  | succ fuel ih =>
    obtain ⟨s₁, -, h⟩ := Option.bind_eq_some_iff.1 h
    split at h
    · obtain ⟨rfl, -⟩ := Prod.mk.inj (Option.some.inj h)
      exact nofun
    · obtain ⟨⟨v, r₁⟩, hvalue, h⟩ := Option.bind_eq_some_iff.1 h
      have hv := hread _ _ _ hvalue
      obtain ⟨r₂, -, h⟩ := Option.bind_eq_some_iff.1 h
      split at h
      · obtain ⟨⟨vs, r₃⟩, hrest, h⟩ := Option.bind_eq_some_iff.1 h
        obtain ⟨rfl, -⟩ := Prod.mk.inj (Option.some.inj h)
        exact List.forall_mem_cons.2 ⟨hv, ih hrest⟩
      · obtain ⟨rfl, -⟩ := Prod.mk.inj (Option.some.inj h)
        exact List.forall_mem_singleton.2 hv
      · cases h

theorem inlineBody_wellKeyed {read : Reader Node} (hread : GivesWellKeyed read) {fuel : Nat}
    {s r : List Char} (ht : t.WellKeyed) (h : inlineBody read fuel t s = some (t', r)) :
    t'.WellKeyed := by
  induction fuel generalizing s t with
  | zero => cases h
  | succ fuel ih =>
    obtain ⟨⟨⟨keys, v⟩, r₁⟩, hentry, h⟩ := Option.bind_eq_some_iff.1 h
    obtain ⟨⟨path, key⟩, -, h⟩ := Option.bind_eq_some_iff.1 h
    obtain ⟨t₁, hinsert, h⟩ := Option.bind_eq_some_iff.1 h
    have ht₁ := ht.insert (keyValue_wellKeyed hread hentry) hinsert
    split at h
    · exact ih ht₁ h
    · obtain ⟨rfl, -⟩ := Prod.mk.inj (Option.some.inj h)
      exact ht₁
    · cases h

theorem inlineTable_wellKeyed {read : Reader Node} (hread : GivesWellKeyed read)
    {s r : List Char} (h : inlineTable read s = some (t, r)) : t.WellKeyed := by
  unfold inlineTable at h
  split at h
  · obtain ⟨rfl, -⟩ := Prod.mk.inj (Option.some.inj h)
    exact wellKeyed_empty _ _
  · exact inlineBody_wellKeyed hread (wellKeyed_empty _ _) h

theorem value_wellKeyed (depth : Nat) : GivesWellKeyed (value depth) := by
  induction depth with
  | zero =>
    intro s v r h
    unfold value at h
    split at h
    · cases h
    · cases h
    · obtain ⟨⟨shape, rest⟩, hscalar, h⟩ := Option.bind_eq_some_iff.1 h
      obtain ⟨rfl, -⟩ := Prod.mk.inj (Option.some.inj h)
      exact wellKeyed_scalar hscalar _
  | succ depth ih =>
    intro s v r h
    unfold value at h
    split at h
    · obtain ⟨⟨vs, rest⟩, hitems, h⟩ := Option.bind_eq_some_iff.1 h
      obtain ⟨rfl, -⟩ := Prod.mk.inj (Option.some.inj h)
      exact .mk .nil (arrayBody_wellKeyed ih hitems)
    · obtain ⟨⟨t, rest⟩, htable, h⟩ := Option.bind_eq_some_iff.1 h
      obtain ⟨rfl, -⟩ := Prod.mk.inj (Option.some.inj h)
      have ht : ∀ span, Table.WellKeyed ⟨.inline, span, t.entries⟩ :=
        fun _ => (inlineTable_wellKeyed ih htable).of_entries rfl
      exact ht _
    · obtain ⟨⟨shape, rest⟩, hscalar, h⟩ := Option.bind_eq_some_iff.1 h
      obtain ⟨rfl, -⟩ := Prod.mk.inj (Option.some.inj h)
      exact wellKeyed_scalar hscalar _

/-! ### Documents -/

namespace Draft

variable {d d' : Draft} {header : List Key} {span : Span}

/-- What a draft is like: its tables are well-keyed, and nothing stands where the open table of a
header in single brackets will be put. -/
structure WellKeyed (d : Draft) : Prop where
  root : d.root.WellKeyed
  current : d.current.WellKeyed
  free : d.listed = false → ∀ path key, splitKey d.path = some (path, key) →
    ∃ t, lookup path d.root = some t ∧ t.find? key.name = none

theorem wellKeyed_start : start.WellKeyed where
  root := wellKeyed_empty _ _
  current := wellKeyed_empty _ _
  free := nofun

theorem WellKeyed.close (hd : d.WellKeyed) (h : d.close = some t) : t.WellKeyed := by
  unfold Draft.close at h
  split at h
  · obtain rfl := Option.some.inj h
    exact hd.current
  · next path key hpath =>
    split_ifs at h with hlisted
    · obtain ⟨x, y, hchange, hx, -, -, hwell⟩ := update_eq_some h hd.root
      exact hwell (hx.pushTo hd.current hchange)
    · obtain ⟨x, y, hchange, hx, hold, -, hwell⟩ := update_eq_some h hd.root
      obtain ⟨z, hz, hfree⟩ := hd.free (by simpa using hlisted) path key hpath
      obtain rfl := hold z hz
      obtain rfl := Option.some.inj hchange
      exact hwell (hx.append hfree hd.current)

theorem wellKeyed_opened {root root' current : Table} (hroot : root.WellKeyed)
    (hcurrent : current.WellKeyed) (hheader : splitKey header = some (path, key))
    (herase : update false (fun t => some (t.erase key.name)) path root = some root') :
    (Draft.mk root' current header false).WellKeyed := by
  obtain ⟨x, y, hchange, hx, -, hnew, hwell⟩ := update_eq_some herase hroot
  obtain rfl := Option.some.inj hchange
  refine ⟨hwell (hx.erase _), hcurrent, fun _ path' key' hpath => ?_⟩
  obtain ⟨rfl, rfl⟩ := Prod.mk.inj (Option.some.inj (hheader.symm.trans hpath))
  exact ⟨_, hnew, find?_erase_self _ _⟩

theorem WellKeyed.openTable (hd : d.WellKeyed) (h : d.openTable header span = some d') :
    d'.WellKeyed := by
  obtain ⟨root, hclose, h⟩ := Option.bind_eq_some_iff.1 h
  obtain ⟨⟨path, key⟩, hheader, h⟩ := Option.bind_eq_some_iff.1 h
  obtain ⟨root₁, hmade, h⟩ := Option.bind_eq_some_iff.1 h
  obtain ⟨x, y, hchange, hx, -, hnew, hwell⟩ := update_eq_some hmade (hd.close hclose)
  obtain rfl := Option.some.inj hchange
  dsimp only at h
  -- Nothing is there yet, or a table that has no header of its own.
  split at h
  · obtain ⟨current, hcurrent, h⟩ := Option.bind_eq_some_iff.1 h
    obtain ⟨root₂, herase, h⟩ := Option.bind_eq_some_iff.1 h
    obtain rfl := Option.some.inj h
    obtain rfl := Option.some.inj hcurrent
    exact wellKeyed_opened (hwell hx) (wellKeyed_empty _ _) hheader herase
  · next hfound =>
    obtain ⟨current, hcurrent, h⟩ := Option.bind_eq_some_iff.1 h
    obtain ⟨root₂, herase, h⟩ := Option.bind_eq_some_iff.1 h
    obtain rfl := Option.some.inj h
    obtain rfl := Option.some.inj hcurrent
    rw [hnew, Option.bind_some] at hfound
    have hinner : Table.WellKeyed ⟨.implied, _, _⟩ := hx.of_find? hfound
    exact wellKeyed_opened (hwell hx) (hinner.of_entries rfl) hheader herase
  · cases h

theorem WellKeyed.openListed (hd : d.WellKeyed) (h : d.openListed header span = some d') :
    d'.WellKeyed := by
  obtain ⟨root, hclose, h⟩ := Option.bind_eq_some_iff.1 h
  obtain ⟨⟨path, key⟩, hpath, h⟩ := Option.bind_eq_some_iff.1 h
  obtain ⟨-, -, h⟩ := Option.bind_eq_some_iff.1 h
  obtain rfl := Option.some.inj h
  exact ⟨hd.close hclose, wellKeyed_empty _ _, nofun⟩

theorem WellKeyed.addEntry {keys : List Key} (hd : d.WellKeyed) (hv : v.WellKeyed)
    (h : d.addEntry keys v = some d') : d'.WellKeyed := by
  obtain ⟨⟨path, key⟩, hpath, h⟩ := Option.bind_eq_some_iff.1 h
  obtain ⟨current, hinsert, h⟩ := Option.bind_eq_some_iff.1 h
  obtain rfl := Option.some.inj h
  have hcurrent : ∀ span, Table.WellKeyed { d.current with span } :=
    fun _ => hd.current.of_entries rfl
  exact ⟨hd.root, (hcurrent _).insert hv hinsert, hd.free⟩

end Draft

theorem wellKeyed_statement {d d' : Draft} {s r : List Char} (hd : d.WellKeyed)
    (h : statement d s = some (d', r)) : d'.WellKeyed := by
  unfold statement at h
  split at h
  · obtain ⟨⟨key, rest⟩, -, h⟩ := Option.bind_eq_some_iff.1 h
    obtain ⟨d₁, hopen, h⟩ := Option.bind_eq_some_iff.1 h
    obtain ⟨r, -, h⟩ := Option.bind_eq_some_iff.1 h
    obtain ⟨rfl, -⟩ := Prod.mk.inj (Option.some.inj h)
    exact hd.openListed hopen
  · obtain ⟨⟨key, rest⟩, -, h⟩ := Option.bind_eq_some_iff.1 h
    obtain ⟨d₁, hopen, h⟩ := Option.bind_eq_some_iff.1 h
    obtain ⟨r, -, h⟩ := Option.bind_eq_some_iff.1 h
    obtain ⟨rfl, -⟩ := Prod.mk.inj (Option.some.inj h)
    exact hd.openTable hopen
  · obtain ⟨⟨⟨keys, v⟩, rest⟩, hentry, h⟩ := Option.bind_eq_some_iff.1 h
    obtain ⟨d₁, hadd, h⟩ := Option.bind_eq_some_iff.1 h
    obtain ⟨r, -, h⟩ := Option.bind_eq_some_iff.1 h
    obtain ⟨rfl, -⟩ := Prod.mk.inj (Option.some.inj h)
    exact hd.addEntry (keyValue_wellKeyed (value_wellKeyed _) hentry) hadd

theorem wellKeyed_statements {fuel : Nat} {d d' : Draft} {s : List Char} (hd : d.WellKeyed)
    (h : statements fuel d s = some d') : d'.WellKeyed := by
  induction fuel generalizing d s with
  | zero => cases h
  | succ fuel ih =>
    unfold statements at h
    split at h
    · obtain rfl := Option.some.inj h
      exact hd
    · obtain ⟨r, -, h⟩ := Option.bind_eq_some_iff.1 h
      exact ih hd h
    · exact ih hd h
    · obtain ⟨r, -, h⟩ := Option.bind_eq_some_iff.1 h
      exact ih hd h
    · obtain ⟨⟨d₁, r⟩, hstatement, h⟩ := Option.bind_eq_some_iff.1 h
      exact ih (wellKeyed_statement hd hstatement) h

/-- **No document gives a key twice.** -/
theorem parse_wellKeyed {s : String} (h : parse s = some t) : t.WellKeyed := by
  obtain ⟨d, hd, hclose⟩ := Option.bind_eq_some_iff.1 h
  exact (wellKeyed_statements Draft.wellKeyed_start hd).close hclose

end Toml
end NightlyRelease

import Mathlib.Data.Finset.Card
import Mathlib.Data.List.DropRight
import RowStore.Catalog

/-!
# The names of tables

The catalog finds a table by its id and an id by a name.  A table has the name that it was
registered with last, but it may have lost this name to another table since, and then no name leads
to it.  So when it is registered once more, the name it had is to be given up only if it still
leads to it.

What makes this come out right is one invariant: a name leads to a table that has this name
(`Catalog.Agrees`).  It says that at most one name leads to a table, namely its own, so that after
this one is given up none is left (`Agrees.find?_retire`), and what registering a table does to the
names is said in one equation (`Agrees.find?_add`).
-/

namespace RowStore.Catalog

/-! ## Histories -/

/-- A change of the catalog. -/
inductive Change where
  | add (file : HeapFile) (name : String)
  | clear

/-- The catalog after a change. -/
def change (c : Catalog) : Change → Catalog
  | .add file name => c.add file name
  | .clear => empty

/-- The catalog after several changes. -/
def ofChanges (changes : List Change) : Catalog := changes.foldl change empty

@[simp] lemma ofChanges_concat (changes : List Change) (ch : Change) :
    ofChanges (changes ++ [ch]) = (ofChanges changes).change ch := by
  rw [ofChanges, List.foldl_concat, ofChanges]

/-- The id of the table that a change adds. -/
def Change.added? : Change → Option TableId
  | .add file _ => some file.id
  | .clear => none

/-- The ids of the tables that were added since everything was forgotten. -/
def addedIds (changes : List Change) : List TableId :=
  (changes.rtakeWhile fun ch => ch.added?.isSome).filterMap Change.added?

lemma addedIds_concat_add (changes : List Change) (file : HeapFile) (name : String) :
    addedIds (changes ++ [.add file name]) = addedIds changes ++ [file.id] := by
  rw [addedIds, List.rtakeWhile_concat_pos _ _ _ rfl, List.filterMap_append, addedIds]
  rfl

lemma addedIds_concat_clear (changes : List Change) : addedIds (changes ++ [.clear]) = [] := by
  rw [addedIds, List.rtakeWhile_concat_neg _ _ _ (by simp [Change.added?]), List.filterMap_nil]

/-! ## Looking up -/

variable {c : Catalog} {id : TableId} {name other : String}

lemma tableId_eq_ok_iff : c.tableId name = .ok id ↔ c.names.find? name = some id := by
  rw [tableId]
  cases c.names.find? name <;> simp

lemma mem_ids_iff : id ∈ c.ids ↔ ∃ e, c.tables.find? id = some e := c.tables.mem_keys_iff id

lemma tableName_of_find? {e : CatalogEntry} (h : c.tables.find? id = some e) :
    c.tableName id = .ok e.name := by
  rw [tableName, entry, h]
  rfl

lemma entry_add (c : Catalog) (file : HeapFile) (name : String) (id : TableId) :
    (c.add file name).entry id = if file.id = id then .ok ⟨file, name⟩ else c.entry id := by
  by_cases h : file.id = id <;> simp [entry, add, h]

lemma mem_ids_add (c : Catalog) (file : HeapFile) (name : String) (id : TableId) :
    id ∈ (c.add file name).ids ↔ id ∈ c.ids ∨ id = file.id := by
  rw [mem_ids_iff, mem_ids_iff, add, Assoc.find?_insert]
  split
  · next h => exact ⟨fun _ => .inr h.symm, fun _ => ⟨_, rfl⟩⟩
  · next h => exact ⟨.inl, fun hid => hid.resolve_right fun h' => h h'.symm⟩

/-! ## Names and ids agree -/

/-- A name leads to a table that was registered with this name last. -/
def Agrees (c : Catalog) : Prop :=
  ∀ name id, c.names.find? name = some id → ∃ e, c.tables.find? id = some e ∧ e.name = name

namespace Agrees

lemma empty : Catalog.empty.Agrees := fun _ _ h => by cases h

/-- Before a table gets a name, every other name that leads to it is given up. -/
lemma find?_retire (hc : c.Agrees) (id : TableId) (h : other ≠ name) :
    (c.retire id name).find? other =
      if c.names.find? other = some id then none else c.names.find? other := by
  rw [retire]
  split_ifs with hother
  · obtain ⟨e, he, rfl⟩ := hc other id hother
    rw [he]
    simp only [if_pos (And.intro h hother), Assoc.find?_erase, if_true]
  · split
    · next previous _ =>
      split_ifs with hprevious
      · -- The name that is given up leads to the table, so it is not the one that is asked for.
        have hne : previous.name ≠ other := fun heq => hother (heq ▸ hprevious.2)
        rw [Assoc.find?_erase, if_neg hne]
      · rfl
    · rfl

/-- What the names lead to after a table was registered. -/
lemma find?_add (hc : c.Agrees) (file : HeapFile) (name other : String) :
    (c.add file name).names.find? other =
      if name = other then some file.id
      else if c.names.find? other = some file.id then none else c.names.find? other := by
  rw [add, Assoc.find?_insert]
  split_ifs with heq hother
  · rfl
  · rw [hc.find?_retire file.id (Ne.symm heq), if_pos hother]
  · rw [hc.find?_retire file.id (Ne.symm heq), if_neg hother]

lemma add (hc : c.Agrees) (file : HeapFile) (name : String) : (c.add file name).Agrees := by
  intro other id h
  rw [hc.find?_add] at h
  rw [Catalog.add, Assoc.find?_insert]
  split_ifs at h with heq hother
  · cases h
    exact ⟨_, if_pos rfl, heq⟩
  · -- The name led to another table, whose entry is as it was.
    have hne : file.id ≠ id := fun hid => hother (hid ▸ h)
    rw [if_neg hne]
    exact hc other id h

lemma change (hc : c.Agrees) (ch : Change) : (c.change ch).Agrees := by
  cases ch with
  | add file name => exact hc.add file name
  | clear => exact .empty

lemma ofChanges (changes : List Change) : (Catalog.ofChanges changes).Agrees := by
  induction changes using List.reverseRecOn with
  | nil => exact .empty
  | append_singleton changes ch ih =>
    rw [ofChanges_concat]
    exact ih.change ch

end Agrees

/-- The tables are those that were added since everything was forgotten. -/
lemma mem_ids_ofChanges (changes : List Change) (id : TableId) :
    id ∈ (ofChanges changes).ids ↔ id ∈ addedIds changes := by
  induction changes using List.reverseRecOn with
  | nil => exact Iff.rfl
  | append_singleton changes ch ih =>
    rw [ofChanges_concat]
    cases ch with
    | add file name =>
      rw [addedIds_concat_add, List.mem_append, List.mem_singleton, ← ih]
      exact mem_ids_add _ file name id
    | clear =>
      rw [addedIds_concat_clear]
      exact Iff.rfl

lemma size_ofChanges (changes : List Change) :
    (ofChanges changes).size = (addedIds changes).toFinset.card := by
  have hids : (ofChanges changes).ids.toFinset = (addedIds changes).toFinset := by
    ext id
    rw [List.mem_toFinset, List.mem_toFinset, mem_ids_ofChanges]
  calc
    (ofChanges changes).size = (ofChanges changes).ids.length := (List.length_map Prod.fst).symm
    _ = (ofChanges changes).ids.toFinset.card :=
      (List.toFinset_card_of_nodup (ofChanges changes).tables.nodup_keys).symm
    _ = (addedIds changes).toFinset.card := by rw [hids]

/-- What registering a table under a name makes of a catalog. -/
structure Registers (c : Catalog) (file : HeapFile) (name : String) (c' : Catalog) : Prop where
  tableId_eq : c'.tableId name = .ok file.id
  heapFile_eq : c'.heapFile file.id = .ok file
  schema_eq : c'.schema file.id = .ok file.schema
  tableName_eq : c'.tableName file.id = .ok name
  /-- Another name that led to the table is given up. -/
  given_up : ∀ other ≠ name, c.tableId other = .ok file.id →
    c'.tableId other = .error (.tableNotFound other)
  /-- All other names lead to where they led. -/
  kept : ∀ other ≠ name, c.tableId other ≠ .ok file.id → c'.tableId other = c.tableId other
  entry_eq : ∀ id ≠ file.id, c'.entry id = c.entry id

lemma Agrees.registers (hc : c.Agrees) (file : HeapFile) (name : String) :
    c.Registers file name (c.add file name) := by
  have hentry : (c.add file name).entry file.id = .ok ⟨file, name⟩ := by
    rw [entry_add, if_pos rfl]
  have hfile : (c.add file name).heapFile file.id = .ok file := by
    rw [heapFile, hentry]
    rfl
  refine ⟨?_, hfile, ?_, ?_, fun other hne h => ?_, fun other hne h => ?_, fun id hne => ?_⟩
  · rw [tableId_eq_ok_iff, hc.find?_add, if_pos rfl]
  · rw [schema, hfile]
    rfl
  · rw [tableName, hentry]
    rfl
  · rw [tableId_eq_ok_iff] at h
    rw [tableId, hc.find?_add, if_neg (Ne.symm hne), if_pos h]
  · rw [ne_eq, tableId_eq_ok_iff] at h
    rw [tableId, hc.find?_add, if_neg (Ne.symm hne), if_neg h, tableId]
  · rw [entry_add, if_neg (Ne.symm hne)]

/-- **The names and the ids of a catalog agree.**  Whatever tables were registered under whatever
names, and however often everything was forgotten: a name leads to a registered table which has this
name, so no two names lead to the same table; registering a table under a name makes the name lead
to it, takes it from the other name that did, and changes nothing else; and there are as many tables
as ids were added since everything was forgotten. -/
theorem ofChanges_names (changes : List Change) :
    (∀ name id, (ofChanges changes).tableId name = .ok id →
      id ∈ (ofChanges changes).ids ∧ (ofChanges changes).tableName id = .ok name) ∧
    (∀ name other id, (ofChanges changes).tableId name = .ok id →
      (ofChanges changes).tableId other = .ok id → name = other) ∧
    (∀ file name,
      (ofChanges changes).Registers file name (ofChanges (changes ++ [.add file name]))) ∧
    (ofChanges changes).size = (addedIds changes).toFinset.card := by
  have hagrees := Agrees.ofChanges changes
  have hname : ∀ name id, (ofChanges changes).tableId name = .ok id →
      id ∈ (ofChanges changes).ids ∧ (ofChanges changes).tableName id = .ok name := by
    intro name id h
    obtain ⟨e, he, rfl⟩ := hagrees name id (tableId_eq_ok_iff.1 h)
    exact ⟨mem_ids_iff.2 ⟨e, he⟩, tableName_of_find? he⟩
  refine ⟨hname, fun name other id h h' => ?_, fun file name => ?_, size_ofChanges changes⟩
  · exact Except.ok.inj ((hname name id h).2.symm.trans (hname other id h').2)
  · rw [ofChanges_concat]
    exact hagrees.registers file name

end RowStore.Catalog

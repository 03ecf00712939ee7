import SqlTokens.Toml.Table

/-!
# No key is given twice

A table never has two entries with the same key, and neither has a table inside of it
(`Value.IsKeyed`). Entries with keys of their own stay so when a table grows in one of the ways in
which a line of a document makes it grow (`isKeyed_of_insert`, `isKeyed_of_openTable`,
`isKeyed_of_openItem`); and what happens to a table at the end of a path leaves the tables on the
way in order (`isKeyed_of_changeAt`).
-/

namespace SqlTokens.Toml

/-- No table that a value is, or that is a part of it, has the same key twice. -/
inductive Value.IsKeyed : Value → Prop where
  | string (text : List Char) : IsKeyed (.string text)
  | integer (number : Int) : IsKeyed (.integer number)
  | misspelt (spelling : List Char) : IsKeyed (.misspelt spelling)
  | float (spelling : List Char) : IsKeyed (.float spelling)
  | boolean (truth : Bool) : IsKeyed (.boolean truth)
  | moment (spelling : List Char) : IsKeyed (.moment spelling)
  | array {ofTables : Bool} {items : List Value} (each : ∀ item ∈ items, IsKeyed item) :
      IsKeyed (.array ofTables items)
  | table {origin : Origin} {entries : Entries} (keys : (entries.map Prod.fst).Nodup)
      (each : ∀ entry ∈ entries, IsKeyed entry.2) : IsKeyed (.table origin entries)

/-- Entries have keys of their own, and so have those of all tables that are their values. -/
structure AreKeyed (entries : Entries) : Prop where
  keys : (entries.map Prod.fst).Nodup
  each : ∀ entry ∈ entries, entry.2.IsKeyed

section AreKeyed

variable {key : Key} {value : Value} {origin : Origin} {ofTables : Bool} {items : List Value}
  {entries : Entries}

theorem isKeyed_table_iff : (Value.table origin entries).IsKeyed ↔ AreKeyed entries := by
  constructor
  · rintro (_ | _ | _ | _ | _ | _ | _ | ⟨keys, each⟩)
    exact ⟨keys, each⟩
  · rintro ⟨keys, each⟩
    exact .table keys each

theorem isKeyed_array_iff :
    (Value.array ofTables items).IsKeyed ↔ ∀ item ∈ items, item.IsKeyed := by
  constructor
  · rintro (_ | _ | _ | _ | _ | _ | each)
    exact each
  · exact .array

theorem isKeyed_array_concat (hitems : ∀ item ∈ items, item.IsKeyed) (hvalue : value.IsKeyed) :
    (Value.array ofTables (items ++ [value])).IsKeyed := by
  apply isKeyed_array_iff.mpr
  intro item hitem
  rcases List.mem_append.mp hitem with hitem | hitem
  · exact hitems item hitem
  · rw [List.mem_singleton.mp hitem]
    exact hvalue

theorem AreKeyed.nil : AreKeyed [] :=
  ⟨List.nodup_nil, by simp⟩

theorem AreKeyed.of_lookup (h : AreKeyed entries) (hlookup : entries.lookup key = some value) :
    value.IsKeyed := by
  obtain ⟨before, behind, rfl, -⟩ := List.lookup_eq_some_iff.mp hlookup
  exact h.each (key, value) (by simp)

/-- A key that is not there can be added. -/
theorem AreKeyed.append (h : AreKeyed entries) (hvalue : value.IsKeyed)
    (hlookup : entries.lookup key = none) : AreKeyed (entries ++ [(key, value)]) := by
  have hkey : key ∉ entries.map Prod.fst := by
    intro hmem
    obtain ⟨entry, hentry, rfl⟩ := List.mem_map.mp hmem
    simpa using List.lookup_eq_none_iff.mp hlookup entry hentry
  constructor
  · rw [List.map_append, List.map_singleton, List.nodup_append]
    refine ⟨h.keys, by simp, ?_⟩
    rintro k hk k' hk' rfl
    rw [List.mem_singleton.mp hk'] at hk
    exact hkey hk
  · intro entry hentry
    rcases List.mem_append.mp hentry with hentry | hentry
    · exact h.each entry hentry
    · rw [List.mem_singleton.mp hentry]
      exact hvalue

@[simp] theorem map_fst_replaceEntry (key : Key) (value : Value) (entries : Entries) :
    (replaceEntry key value entries).map Prod.fst = entries.map Prod.fst := by
  induction entries with
  | nil => rfl
  | cons entry entries ih =>
    rw [replaceEntry]
    split
    · rfl
    · rw [List.map_cons, List.map_cons, ih]

theorem AreKeyed.replaceEntry (h : AreKeyed entries) (hvalue : value.IsKeyed) (key : Key) :
    AreKeyed (replaceEntry key value entries) := by
  refine ⟨by rw [map_fst_replaceEntry]; exact h.keys, ?_⟩
  obtain ⟨-, each⟩ := h
  induction entries with
  | nil => exact each
  | cons entry entries ih =>
    rw [List.forall_mem_cons] at each
    rw [Toml.replaceEntry]
    split
    · exact List.forall_mem_cons.mpr ⟨hvalue, each.2⟩
    · exact List.forall_mem_cons.mpr ⟨each.1, ih each.2⟩

theorem AreKeyed.putEntry (h : AreKeyed entries) (hvalue : value.IsKeyed) (key : Key) :
    AreKeyed (putEntry key value entries) := by
  rw [Toml.putEntry]
  split
  · exact h.replaceEntry hvalue key
  · next hnone =>
    exact h.append hvalue (Option.not_isSome_iff_eq_none.mp hnone)

end AreKeyed

section Growth

variable {after? : Origin → Option Origin} {fresh origin : Origin}
  {change : Origin → Entries → Option Value} {path header : List Key} {key : Key}
  {dottedKey : Bool} {value result : Value} {entries root : Entries}

theorem isKeyed_of_changeAt
    (hchange : ∀ origin entries result, AreKeyed entries → change origin entries = some result →
      result.IsKeyed)
    (hentries : AreKeyed entries)
    (h : changeAt after? fresh change path origin entries = some result) : result.IsKeyed := by
  induction path generalizing origin entries result with
  | nil => exact hchange origin entries result hentries h
  | cons key path ih =>
    -- What comes back from below is put at the key, and the other entries stay as they are.
    have hput : ∀ child : Value, child.IsKeyed →
        some (Value.table origin (putEntry key child entries)) = some result → result.IsKeyed := by
      rintro child hchild ⟨⟩
      exact isKeyed_table_iff.mpr (hentries.putEntry hchild key)
    rw [changeAt] at h
    split at h
    · obtain ⟨child, hchild, heq⟩ := Option.bind_eq_some_iff.mp h
      exact hput child (ih .nil hchild) heq
    · next origin' entries' hlookup =>
      have hentries' := isKeyed_table_iff.mp (hentries.of_lookup hlookup)
      obtain ⟨origin'', -, h⟩ := Option.bind_eq_some_iff.mp h
      obtain ⟨child, hchild, heq⟩ := Option.bind_eq_some_iff.mp h
      exact hput child (ih hentries' hchild) heq
    · next items hlookup =>
      have hitems := isKeyed_array_iff.mp (hentries.of_lookup hlookup)
      split at h
      · next origin' entries' hlast =>
        obtain ⟨child, hchild, heq⟩ := Option.bind_eq_some_iff.mp h
        obtain ⟨last, hlast', rfl⟩ := Option.map_eq_some_iff.mp hchild
        have hentries' := isKeyed_table_iff.mp (hitems _ (List.mem_of_getLast? hlast))
        have hothers : ∀ item ∈ items.dropLast, item.IsKeyed :=
          fun item hitem => hitems item ((List.dropLast_sublist items).subset hitem)
        exact hput _ (isKeyed_array_concat hothers (ih hentries' hlast')) heq
      · cases h
    · cases h

theorem isKeyed_of_enter (hvalue : value.IsKeyed) (hentries : AreKeyed entries)
    (h : enter dottedKey key value origin entries = some result) : result.IsKeyed := by
  rw [enter] at h
  split at h
  · next hfree =>
    cases h
    rw [Bool.and_eq_true, Option.isNone_iff_eq_none] at hfree
    exact isKeyed_table_iff.mpr (hentries.append hvalue hfree.2)
  · cases h

theorem isKeyed_of_insert (hvalue : value.IsKeyed) (hentries : AreKeyed entries)
    (h : insert path value origin entries = some result) : result.IsKeyed := by
  rw [insert] at h
  split at h
  · cases h
  · exact isKeyed_of_changeAt (fun _ _ _ => isKeyed_of_enter hvalue) hentries h

theorem isKeyed_of_openTable (hentries : AreKeyed entries)
    (h : openTable key origin entries = some result) : result.IsKeyed := by
  rw [openTable] at h
  split at h
  · next hlookup =>
    cases h
    exact isKeyed_table_iff.mpr (hentries.append (isKeyed_table_iff.mpr .nil) hlookup)
  · next inner hlookup =>
    cases h
    have hinner := isKeyed_table_iff.mp (hentries.of_lookup hlookup)
    exact isKeyed_table_iff.mpr (hentries.replaceEntry (isKeyed_table_iff.mpr hinner) key)
  · cases h

theorem isKeyed_of_openItem (hentries : AreKeyed entries)
    (h : openItem key origin entries = some result) : result.IsKeyed := by
  have hnew : (Value.table .header []).IsKeyed := isKeyed_table_iff.mpr .nil
  rw [openItem] at h
  split at h
  · next hlookup =>
    cases h
    have hfirst : (Value.array true [.table .header []]).IsKeyed :=
      isKeyed_array_iff.mpr (List.forall_mem_singleton.mpr hnew)
    exact isKeyed_table_iff.mpr (hentries.append hfirst hlookup)
  · next items hlookup =>
    cases h
    have hitems := isKeyed_array_iff.mp (hentries.of_lookup hlookup)
    apply isKeyed_table_iff.mpr
    exact hentries.replaceEntry (isKeyed_array_concat hitems hnew) key
  · cases h

theorem isKeyed_of_follow {opening : Key → Origin → Entries → Option Value}
    (hopening : ∀ key origin entries result, AreKeyed entries →
      opening key origin entries = some result → result.IsKeyed)
    (hroot : AreKeyed root) (h : follow opening path root = some result) : result.IsKeyed := by
  rw [follow] at h
  split at h
  · cases h
  · exact isKeyed_of_changeAt (hopening _) hroot h

theorem isKeyed_of_insertBelow (hvalue : value.IsKeyed) (hroot : AreKeyed root)
    (h : insertBelow header path value root = some result) : result.IsKeyed :=
  isKeyed_of_changeAt (fun _ _ _ => isKeyed_of_insert hvalue) hroot h

theorem areKeyed_of_entries? (hvalue : value.IsKeyed) (h : value.entries? = some entries) :
    AreKeyed entries := by
  cases value with
  | table origin entries' =>
    cases h
    exact isKeyed_table_iff.mp hvalue
  | _ => cases h

end Growth

end SqlTokens.Toml

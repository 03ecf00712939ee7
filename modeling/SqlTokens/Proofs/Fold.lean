/-!
# Folds that can fail

A fold that takes one item after the other, and gives up when an item cannot be taken. What each
step preserves holds in the end (`invariant_of_foldlM`). If the items are values under keys of their
own, and each part of the state hangs on a single key, then that part can be read off the value that
is looked up under its key (`lookup_of_foldlM`).
-/

namespace SqlTokens

variable {σ : Type}

theorem invariant_of_foldlM {α : Type} {take : σ → α → Option σ} (Holds : σ → Prop)
    {items : List α} {start result : σ}
    (step : ∀ s, ∀ item ∈ items, ∀ s', Holds s → take s item = some s' → Holds s')
    (h : Holds start) (hfold : items.foldlM take start = some result) : Holds result := by
  induction items generalizing start with
  | nil =>
    cases hfold
    exact h
  | cons item items ih =>
    rw [List.foldlM_cons] at hfold
    obtain ⟨next, hnext, hfold⟩ := Option.bind_eq_some_iff.mp hfold
    have hstep : ∀ s, ∀ item ∈ items, ∀ s', Holds s → take s item = some s' → Holds s' :=
      fun s item' hmem => step s item' (List.mem_cons_of_mem item hmem)
    exact ih hstep (step start item List.mem_cons_self next h hnext) hfold

/-- If it does not hang on the state whether an item can be taken, then all items can be taken one
after the other if each of them can be taken first. -/
theorem isSome_foldlM_iff {α : Type} {take : σ → α → Option σ}
    (alike : ∀ s s' item, (take s item).isSome = (take s' item).isSome) (items : List α)
    (start : σ) :
    (items.foldlM take start).isSome = true ↔ ∀ item ∈ items, (take start item).isSome = true := by
  induction items generalizing start with
  | nil => simp
  | cons item items ih =>
    rw [List.foldlM_cons, List.forall_mem_cons]
    cases htake : take start item with
    | none => simp
    | some next =>
      have hnext : (items.foldlM take next).isSome = true ↔
          ∀ item ∈ items, (take start item).isSome = true := by
        simp only [ih next, alike next start]
      simpa using hnext

section Lookup

variable {κ υ β : Type} [BEq κ] [LawfulBEq κ] {take : σ → κ × υ → Option σ}
  {entries : List (κ × υ)} {start result : σ}

/-- The part of the state that hangs on a key is what the value under this key makes of it, or it is
still as it was at the start. -/
theorem lookup_of_foldlM (key : κ) (part : σ → β) (read : υ → Option β)
    (own : ∀ s value s', (key, value) ∈ entries → take s (key, value) = some s' →
      read value = some (part s'))
    (others : ∀ s entry s', entry ∈ entries → entry.1 ≠ key → take s entry = some s' →
      part s' = part s)
    (keys : (entries.map Prod.fst).Nodup) (hfold : entries.foldlM take start = some result) :
    part result = ((entries.lookup key).bind read).getD (part start) := by
  induction entries generalizing start with
  | nil =>
    cases hfold
    rfl
  | cons entry entries ih =>
    obtain ⟨key', value⟩ := entry
    rw [List.map_cons, List.nodup_cons] at keys
    rw [List.foldlM_cons] at hfold
    obtain ⟨next, hnext, hfold⟩ := Option.bind_eq_some_iff.mp hfold
    have hrest := ih (fun s value s' hmem => own s value s' (List.mem_cons_of_mem _ hmem))
      (fun s entry s' hmem => others s entry s' (List.mem_cons_of_mem _ hmem)) keys.2 hfold
    by_cases hkey : key' = key
    · -- No later entry has this key, so the part stays as this entry leaves it.
      subst hkey
      have hnone : entries.lookup key' = none := by
        apply List.lookup_eq_none_iff.mpr
        intro entry hentry
        have hne : key' ≠ entry.1 := fun heq => keys.1 (List.mem_map.mpr ⟨entry, hentry, heq.symm⟩)
        simpa using hne
      rw [hrest, hnone, List.lookup_cons_self, Option.bind_some,
        own start value next List.mem_cons_self hnext]
      rfl
    · have hne : (key == key') = false := by simpa using Ne.symm hkey
      rw [hrest, List.lookup_cons, hne,
        others start (key', value) next List.mem_cons_self hkey hnext]

end Lookup

end SqlTokens

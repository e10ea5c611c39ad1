import Mathlib
import Encumbrance.Availability.Cache

/-! # What the actuals cache holds

    The cache's bookkeeping (notes, upkeep, admission, eviction) decides which slots stay, but
    none of it makes a slot or changes a figure: upkeep and every note only throw slots away
    (`Shrinks`). Only a fill puts a figure in a slot, and only for the scope it read; clearing
    the cache only marks slots stale. So whatever is true of every fresh slot stays true
    until a fill, and a fill keeps it when the figure it puts is true of its scope.
-/

namespace Encumbrance

namespace ActualsCache

/-! ## Section 1: Bookkeeping only throws slots away -/

/-- `c'` keeps the switch and capacity of `c`, and holds no slot `c` does not. -/
structure Shrinks (c c' : ActualsCache) : Prop where
  enabled : c'.enabled = c.enabled
  capacity : c'.capacity = c.capacity
  slots : ∀ x ∈ c'.slots, x ∈ c.slots

theorem Shrinks.refl (c : ActualsCache) : Shrinks c c := ⟨rfl, rfl, fun _ h => h⟩

theorem Shrinks.trans {c₁ c₂ c₃ : ActualsCache} (h₁ : Shrinks c₁ c₂) (h₂ : Shrinks c₂ c₃) :
    Shrinks c₁ c₃ :=
  ⟨h₂.enabled.trans h₁.enabled, h₂.capacity.trans h₁.capacity, fun x hx => h₁.slots x (h₂.slots x hx)⟩

theorem Shrinks.remembers {c c' : ActualsCache} (h : Shrinks c c') : c'.remembers = c.remembers := by
  unfold ActualsCache.remembers
  rw [h.enabled, h.capacity]

/-- A change of the bookkeeping fields alone. -/
theorem shrinks_of_slots {c c' : ActualsCache} (he : c'.enabled = c.enabled)
    (hc : c'.capacity = c.capacity) (hs : c'.slots = c.slots) : Shrinks c c' :=
  ⟨he, hc, fun _ hx => hs ▸ hx⟩

/-- A change that filters the slots. -/
theorem shrinks_of_filter {c : ActualsCache} (p : CacheSlot → Bool) {c' : ActualsCache}
    (he : c'.enabled = c.enabled) (hc : c'.capacity = c.capacity) (hs : c'.slots = c.slots.filter p) :
    Shrinks c c' :=
  ⟨he, hc, fun _ hx => List.mem_of_mem_filter (hs ▸ hx)⟩

theorem shrinks_countUse (c : ActualsCache) (s : BudgetScope) : Shrinks c (c.countUse s) := by
  unfold countUse
  split
  · exact Shrinks.refl c
  · dsimp only
    split_ifs
    · exact Shrinks.refl c
    all_goals exact shrinks_of_slots rfl rfl rfl

theorem shrinks_touch (c : ActualsCache) (tag : Nat) : Shrinks c (c.touch tag) :=
  shrinks_of_slots rfl rfl rfl

theorem shrinks_unseat (c : ActualsCache) (tag : Nat) : Shrinks c (c.unseat tag) :=
  shrinks_of_slots rfl rfl rfl

theorem shrinks_seat (c : ActualsCache) (s : BudgetScope) (tag : Nat) : Shrinks c (c.seat s tag) :=
  shrinks_of_slots rfl rfl rfl

theorem shrinks_discard (c : ActualsCache) (s : BudgetScope) (tag version : Nat) :
    Shrinks c (c.discard s tag version) :=
  shrinks_of_filter _ rfl rfl rfl

theorem shrinks_evict (c : ActualsCache) (v : BudgetScope × Nat) : Shrinks c (c.evict v) := by
  unfold evict
  refine Shrinks.trans ?_ (shrinks_unseat _ _)
  exact shrinks_of_filter _ rfl rfl rfl

/-- The search for a victim only reorders the admitted slots. -/
theorem shrinks_findVictim_go (busy : List Nat) (fuel : Nat) :
    ∀ (skips : Nat) (c : ActualsCache), Shrinks c (findVictim.go busy fuel skips c).1 := by
  induction fuel with
  | zero =>
    intro skips c
    unfold findVictim.go
    exact Shrinks.refl c
  | succ fuel ih =>
    intro skips c
    cases hadm : c.admitted with
    | nil =>
      simp only [findVictim.go, hadm]
      exact Shrinks.refl c
    | cons v rest =>
      unfold findVictim.go
      simp only [hadm]
      split
      · exact Shrinks.refl c
      · split
        · exact shrinks_touch c v.2
        · exact (shrinks_touch c v.2).trans (ih _ _)

theorem shrinks_applyRead (c : ActualsCache) (n : ReadNote) : Shrinks c (c.applyRead n) := by
  cases n with
  | hit s tag => exact (shrinks_countUse c s).trans (shrinks_touch _ tag)
  | miss s => exact shrinks_countUse c s

theorem shrinks_applyWrite (busy : List Nat) (c : ActualsCache) (n : WriteNote) :
    Shrinks c (c.applyWrite busy n) := by
  cases n with
  | drop tag => exact shrinks_unseat c tag
  | fill s tag version =>
    dsimp only [applyWrite]
    split
    · exact Shrinks.refl c
    split
    · exact shrinks_touch c tag
    split
    · exact shrinks_seat c s tag
    split
    · exact shrinks_discard c s tag version
    -- an admission may evict a victim; the search itself only reorders
    have hfind := shrinks_findVictim_go busy (maxSkips + 1) 0 c
    unfold findVictim at *
    split
    · rename_i c' v hv
      rw [hv] at hfind
      split
      · exact hfind.trans ((shrinks_evict c' v).trans (shrinks_seat _ s tag))
      · exact hfind.trans (shrinks_discard c' s tag version)
    · rename_i c' hv
      rw [hv] at hfind
      exact hfind.trans (shrinks_discard c' s tag version)

theorem shrinks_applyWrites (inFlight : List Nat) :
    ∀ (c : ActualsCache) (ns : List WriteNote), Shrinks c (applyWrites inFlight c ns)
  | c, [] => Shrinks.refl c
  | c, n :: rest =>
    (shrinks_applyWrite _ c n).trans (shrinks_applyWrites inFlight _ rest)

theorem shrinks_startCounting (c : ActualsCache) : Shrinks c c.startCounting := by
  unfold startCounting
  split
  · exact shrinks_of_slots rfl rfl rfl
  · exact Shrinks.refl _

theorem shrinks_dropStale (c : ActualsCache) : Shrinks c c.dropStale :=
  shrinks_of_filter _ rfl rfl rfl

theorem shrinks_foldl_applyRead :
    ∀ (ns : List ReadNote) (c : ActualsCache), Shrinks c (ns.foldl applyRead c)
  | [], c => Shrinks.refl c
  | n :: ns, c => (shrinks_applyRead c n).trans (shrinks_foldl_applyRead ns _)

theorem shrinks_upkeepWith (inFlight : List Nat) (c : ActualsCache) :
    Shrinks c (c.upkeepWith inFlight) := by
  unfold upkeepWith
  dsimp only
  -- read notes, then write notes, then counting and the stale slots
  refine Shrinks.trans ?_ (shrinks_dropStale _)
  refine Shrinks.trans ?_ (shrinks_startCounting _)
  refine Shrinks.trans ?_ (shrinks_applyWrites _ _ _)
  have h₁ : Shrinks c { c with reads := [] } := shrinks_of_slots rfl rfl rfl
  have h₂ := shrinks_foldl_applyRead c.reads { c with reads := [] }
  have h₃ : Shrinks (c.reads.foldl applyRead { c with reads := [] })
      { c.reads.foldl applyRead { c with reads := [] } with writes := [] } :=
    shrinks_of_slots rfl rfl rfl
  exact h₁.trans (h₂.trans h₃)

theorem shrinks_noteRead (c : ActualsCache) (n : ReadNote) : Shrinks c (c.noteRead n) := by
  unfold noteRead
  split
  · exact (shrinks_upkeepWith [] c).trans (shrinks_of_slots rfl rfl rfl)
  · exact shrinks_of_slots rfl rfl rfl

theorem shrinks_noteWrite (c : ActualsCache) (n : WriteNote) : Shrinks c (c.noteWrite n) := by
  unfold noteWrite
  split
  · exact (shrinks_upkeepWith _ c).trans (shrinks_of_slots rfl rfl rfl)
  · exact shrinks_of_slots rfl rfl rfl

theorem shrinks_hit (c : ActualsCache) (x : CacheSlot) : Shrinks c (c.hit x) := shrinks_noteRead c _

theorem shrinks_miss (c : ActualsCache) (s : BudgetScope) : Shrinks c (c.miss s) :=
  shrinks_noteRead c _

theorem shrinks_invalidate (c : ActualsCache) (s : BudgetScope) : Shrinks c (c.invalidate s) := by
  unfold invalidate
  split
  · refine Shrinks.trans ?_ (shrinks_noteWrite _ _)
    exact shrinks_of_filter _ rfl rfl rfl
  · exact Shrinks.refl c

/-! ## Section 2: Reading, filling and clearing -/

/-- What a lookup finds is a fresh slot of the scope. -/
theorem lookup_some {c : ActualsCache} {s : BudgetScope} {x : CacheSlot} (h : c.lookup s = some x) :
    x ∈ c.slots ∧ x.scope = s ∧ x.stale = false := by
  have hx := List.find?_some h
  simp only [Bool.and_eq_true, decide_eq_true_eq, Bool.not_eq_eq_eq_not, Bool.not_true] at hx
  exact ⟨List.mem_of_find?_eq_some h, hx.1, hx.2⟩

/-- A fill keeps the switch and capacity, and its slots are old ones of other scopes or a
    fresh one of its scope holding the figure read. -/
theorem mem_fill {c : ActualsCache} {s : BudgetScope} {v : Decimal} :
    (c.fill s v).enabled = c.enabled ∧ (c.fill s v).capacity = c.capacity ∧
      ∀ x ∈ (c.fill s v).slots, (x ∈ c.slots ∧ x.scope ≠ s) ∨
        (x.scope = s ∧ x.value = v ∧ x.stale = false) := by
  unfold fill
  split
  · rename_i old hold
    have hscope : old.scope = s := by simpa using List.find?_some hold
    have hw := shrinks_noteWrite { c with slots := c.slots.map fun (y : CacheSlot) =>
      if y.scope = s then { old with value := v, version := old.version + 1, stale := false } else y }
      (.fill s old.tag (old.version + 1))
    refine ⟨hw.enabled, hw.capacity, fun x hx => ?_⟩
    obtain ⟨y, hy, rfl⟩ := List.mem_map.1 (hw.slots x hx)
    by_cases hys : y.scope = s
    · exact .inr (by simp [hys, hscope])
    · exact .inl (by simp [hys, hy])
  · rename_i hnone
    have hw := shrinks_noteWrite
      { c with slots := c.slots ++ [(⟨s, v, c.nextTag, 0, false⟩ : CacheSlot)], nextTag := c.nextTag + 1 }
      (.fill s c.nextTag 0)
    refine ⟨hw.enabled, hw.capacity, fun x hx => ?_⟩
    rcases List.mem_append.1 (hw.slots x hx) with hx' | hx'
    · refine .inl ⟨hx', fun hxs => ?_⟩
      exact absurd (List.find?_eq_none.1 hnone x hx') (by simp [hxs])
    · rw [List.mem_singleton.1 hx']
      exact .inr ⟨rfl, rfl, rfl⟩

/-- Clearing marks every slot stale. -/
theorem invalidateAll_stale (c : ActualsCache) : ∀ x ∈ c.invalidateAll.slots, x.stale = true := by
  intro x hx
  obtain ⟨y, -, rfl⟩ := List.mem_map.1 hx
  rfl

/-- Forgetting a scope leaves it no slot. -/
theorem invalidate_scope {c : ActualsCache} {s : BudgetScope} :
    ∀ x ∈ (c.invalidate s).slots, x.scope ≠ s := by
  intro x hx
  unfold invalidate at hx
  split at hx
  · have hmem := (shrinks_noteWrite _ _).slots x hx
    simpa using (List.mem_filter.1 hmem).2
  · rename_i hnone
    intro hxs
    exact absurd (List.find?_eq_none.1 hnone x hx) (by simp [hxs])

end ActualsCache

end Encumbrance

import Mathlib
import Encumbrance.Control.State
import Encumbrance.Proofs.Decimal.Exact
import Encumbrance.Proofs.Ledger.Append

/-! # Positions, exactly

    A document's positions are running sums over its rows, computed in decimal arithmetic. This
    module names what they add up to as rationals: `reservedAt xs k`, the outflow of the
    reservations and releases of key `k`, and `consumedAt xs k`, the inflow of its consumptions
    and reversals. When the rows' amounts have room (`Decimal.Room`), no sum rounds or
    overflows, and `positions` returns one position per key of the rows, each holding exactly
    those two sums (`PositionsOf`).

    The functions the controller derives from positions, `deriveState`,
    `outstandingReserved` and `outstandingConsumedAgainst`, are then read off the sums. The
    state is read by a loop that stops at the first held reservation; `deriveStateFrom_eq`
    shows by induction over the positions that the stop hides nothing, so the state asks two
    questions of the positions as a collection (`deriveState_eq_any`).
-/

namespace Encumbrance

namespace EntryDraft

/-- What a draft adds to the reserved amount of key `k`: its outflow, when it is a reservation
    or a release of that key. -/
def reservedIn (k : DimensionKey) (d : EntryDraft) : ℚ :=
  if d.key = k then
    match d.entryType with
    | .reservation | .release => d.outflow.val
    | _ => 0
  else 0

/-- What a draft adds to the consumed amount of key `k`: its inflow, when it is a consumption
    or a reversal of that key. -/
def consumedIn (k : DimensionKey) (d : EntryDraft) : ℚ :=
  if d.key = k then
    match d.entryType with
    | .consumption | .reversal => -d.outflow.val
    | _ => 0
  else 0

theorem abs_outflow (d : EntryDraft) : |d.outflow.val| = |d.amount.val| := by
  unfold outflow; split <;> simp

theorem abs_reservedIn_le (k : DimensionKey) (d : EntryDraft) :
    |d.reservedIn k| ≤ |d.amount.val| := by
  unfold reservedIn
  split
  · split <;> simp [abs_outflow]
  · simp

theorem abs_consumedIn_le (k : DimensionKey) (d : EntryDraft) :
    |d.consumedIn k| ≤ |d.amount.val| := by
  unfold consumedIn
  split
  · split <;> simp [abs_outflow]
  · simp

theorem reservedIn_of_ne {k : DimensionKey} {d : EntryDraft} (h : d.key ≠ k) : d.reservedIn k = 0 := by
  simp [reservedIn, h]

theorem consumedIn_of_ne {k : DimensionKey} {d : EntryDraft} (h : d.key ≠ k) : d.consumedIn k = 0 := by
  simp [consumedIn, h]

end EntryDraft

/-- The reserved amount of key `k` over some rows. -/
def reservedAt (xs : List Entry) (k : DimensionKey) : ℚ := (xs.map fun x => x.draft.reservedIn k).sum

/-- The consumed amount of key `k` over some rows. -/
def consumedAt (xs : List Entry) (k : DimensionKey) : ℚ := (xs.map fun x => x.draft.consumedIn k).sum

@[simp] theorem reservedAt_nil (k : DimensionKey) : reservedAt [] k = 0 := rfl

@[simp] theorem consumedAt_nil (k : DimensionKey) : consumedAt [] k = 0 := rfl

@[simp] theorem reservedAt_append (xs ys : List Entry) (k : DimensionKey) :
    reservedAt (xs ++ ys) k = reservedAt xs k + reservedAt ys k := by
  simp [reservedAt]

@[simp] theorem consumedAt_append (xs ys : List Entry) (k : DimensionKey) :
    consumedAt (xs ++ ys) k = consumedAt xs k + consumedAt ys k := by
  simp [consumedAt]

@[simp] theorem reservedAt_singleton (x : Entry) (k : DimensionKey) :
    reservedAt [x] k = x.draft.reservedIn k := by
  simp [reservedAt]

@[simp] theorem consumedAt_singleton (x : Entry) (k : DimensionKey) :
    consumedAt [x] k = x.draft.consumedIn k := by
  simp [consumedAt]

/-- The total magnitude of some rows' amounts, which bounds every sum over them. -/
def magnitude (xs : List Entry) : ℚ := (xs.map fun x => |x.amount.val|).sum

theorem abs_reservedAt_le (xs : List Entry) (k : DimensionKey) :
    |reservedAt xs k| ≤ magnitude xs := by
  unfold reservedAt magnitude
  refine (List.le_sum_of_subadditive abs abs_zero.le abs_add_le _).trans ?_
  rw [List.map_map]
  exact List.sum_le_sum fun x _ => EntryDraft.abs_reservedIn_le k x.draft

theorem abs_consumedAt_le (xs : List Entry) (k : DimensionKey) :
    |consumedAt xs k| ≤ magnitude xs := by
  unfold consumedAt magnitude
  refine (List.le_sum_of_subadditive abs abs_zero.le abs_add_le _).trans ?_
  rw [List.map_map]
  exact List.sum_le_sum fun x _ => EntryDraft.abs_consumedIn_le k x.draft

/-- A key no row has adds up to nothing. -/
theorem reservedAt_of_not_mem {xs : List Entry} {k : DimensionKey} (h : ∀ x ∈ xs, x.key ≠ k) :
    reservedAt xs k = 0 :=
  List.sum_eq_zero fun q hq => by
    obtain ⟨x, hx, rfl⟩ := List.mem_map.1 hq
    exact EntryDraft.reservedIn_of_ne (h x hx)

theorem consumedAt_of_not_mem {xs : List Entry} {k : DimensionKey} (h : ∀ x ∈ xs, x.key ≠ k) :
    consumedAt xs k = 0 :=
  List.sum_eq_zero fun q hq => by
    obtain ⟨x, hx, rfl⟩ := List.mem_map.1 hq
    exact EntryDraft.consumedIn_of_ne (h x hx)

/-! ## Section 1: What a list of positions must hold -/

/-- `ps` are the positions of the rows `xs`: one per key the rows have, each holding the rows'
    exact sums for its key, at scales up to `S`. -/
structure PositionsOf (S : ℕ) (xs : List Entry) (ps : List Position) : Prop where
  nodup : (ps.map (·.key)).Nodup
  keys : ∀ k, k ∈ ps.map (·.key) ↔ ∃ x ∈ xs, x.key = k
  reserved : ∀ p ∈ ps, p.reserved.val = reservedAt xs p.key
  consumed : ∀ p ∈ ps, p.consumed.val = consumedAt xs p.key
  scales : ∀ p ∈ ps, p.reserved.scale ≤ S ∧ p.consumed.scale ≤ S

theorem positionsOf_nil (S : ℕ) : PositionsOf S [] [] :=
  ⟨List.nodup_nil, by simp, by simp, by simp, by simp⟩

/-- Positions in another order are still the positions. -/
theorem PositionsOf.perm {S : ℕ} {xs : List Entry} {ps qs : List Position}
    (h : PositionsOf S xs ps) (hp : ps.Perm qs) : PositionsOf S xs qs where
  nodup := ((hp.map _).nodup_iff).1 h.nodup
  keys k := by rw [← (hp.map _).mem_iff]; exact h.keys k
  reserved p hq := h.reserved p (hp.mem_iff.2 hq)
  consumed p hq := h.consumed p (hp.mem_iff.2 hq)
  scales p hq := h.scales p (hp.mem_iff.2 hq)

/-! ## Section 2: One row at a time -/

section Step

variable {S : ℕ} {xs : List Entry} {ps : List Position} {x : Entry}

/-- A key other than the row's keeps its sums. -/
theorem reservedAt_snoc_of_ne {k : DimensionKey} (h : x.key ≠ k) :
    reservedAt (xs ++ [x]) k = reservedAt xs k := by
  simp [EntryDraft.reservedIn_of_ne (show x.draft.key ≠ k from h)]

theorem consumedAt_snoc_of_ne {k : DimensionKey} (h : x.key ≠ k) :
    consumedAt (xs ++ [x]) k = consumedAt xs k := by
  simp [EntryDraft.consumedIn_of_ne (show x.draft.key ≠ k from h)]

/-- Putting the updated position of the row's key in place, over the old one or at the end. -/
theorem place_exact (h : PositionsOf S xs ps) (p' : Position) (hk : p'.key = x.key)
    (hr : p'.reserved.val = reservedAt (xs ++ [x]) x.key)
    (hc : p'.consumed.val = consumedAt (xs ++ [x]) x.key)
    (hs : p'.reserved.scale ≤ S ∧ p'.consumed.scale ≤ S) :
    PositionsOf S (xs ++ [x]) (if ps.any (fun q => decide (q.key = x.key)) = true then
      ps.map (fun q => if q.key = x.key then p' else q) else ps ++ [p']) := by
  have hkeys : ∀ k, (∃ y ∈ xs ++ [x], y.key = k) ↔ (∃ y ∈ xs, y.key = k) ∨ x.key = k := by
    simp [or_and_right, exists_or]
  -- every other position keeps its sums
  have hother : ∀ q ∈ ps, q.key ≠ x.key → q.reserved.val = reservedAt (xs ++ [x]) q.key ∧
      q.consumed.val = consumedAt (xs ++ [x]) q.key ∧ q.reserved.scale ≤ S ∧ q.consumed.scale ≤ S :=
    fun q hq hne => ⟨(h.reserved q hq).trans (reservedAt_snoc_of_ne (Ne.symm hne)).symm,
      (h.consumed q hq).trans (consumedAt_snoc_of_ne (Ne.symm hne)).symm, h.scales q hq⟩
  split
  · -- the key has a position already: it is replaced in place
    rename_i hany
    have hmem : x.key ∈ ps.map (·.key) := by
      obtain ⟨q, hq, hqk⟩ := List.any_eq_true.1 hany
      exact List.mem_map.2 ⟨q, hq, by simpa using hqk⟩
    have hmap : (ps.map fun q => if q.key = x.key then p' else q).map (·.key) = ps.map (·.key) := by
      rw [List.map_map]
      refine List.map_congr_left fun q _ => ?_
      by_cases hq : q.key = x.key <;> simp [hq, hk]
    refine ⟨by rw [hmap]; exact h.nodup, fun k => ?_, fun q hq => ?_, fun q hq => ?_, fun q hq => ?_⟩
    · rw [hmap, h.keys, hkeys]
      constructor
      · exact .inl
      · rintro (hk' | rfl)
        · exact hk'
        · exact (h.keys _).1 hmem
    all_goals
      obtain ⟨q₀, hq₀, rfl⟩ := List.mem_map.1 hq
      by_cases hq₀k : q₀.key = x.key
    · simpa [hq₀k, hk] using hr
    · simpa [hq₀k] using (hother q₀ hq₀ hq₀k).1
    · simpa [hq₀k, hk] using hc
    · simpa [hq₀k] using (hother q₀ hq₀ hq₀k).2.1
    · simpa [hq₀k] using hs
    · simpa [hq₀k] using (hother q₀ hq₀ hq₀k).2.2
  · -- a new key: its position goes at the end
    rename_i hany
    have hnot : x.key ∉ ps.map (·.key) := fun hmem => hany (by
      obtain ⟨q, hq, hqk⟩ := List.mem_map.1 hmem
      exact List.any_eq_true.2 ⟨q, hq, by simpa using hqk⟩)
    refine ⟨?_, fun k => ?_, fun q hq => ?_, fun q hq => ?_, fun q hq => ?_⟩
    · rw [List.map_append, List.map_singleton, hk]
      exact List.nodup_append.2 ⟨h.nodup, List.nodup_singleton _, by simpa using hnot⟩
    · rw [List.map_append, List.mem_append, h.keys, hkeys, List.map_singleton, hk]
      simp [eq_comm]
    all_goals
      rcases List.mem_append.1 hq with hq | hq
    · exact (hother q hq fun hqk => hnot (hqk ▸ List.mem_map_of_mem hq)).1
    · rw [List.mem_singleton.1 hq, hk]; exact hr
    · exact (hother q hq fun hqk => hnot (hqk ▸ List.mem_map_of_mem hq)).2.1
    · rw [List.mem_singleton.1 hq, hk]; exact hc
    · exact (hother q hq fun hqk => hnot (hqk ▸ List.mem_map_of_mem hq)).2.2
    · rw [List.mem_singleton.1 hq]; exact hs

/-- The position a row updates: its key's own, or a zero one for a key not seen yet. Either way
    it holds the sums of the rows before. -/
theorem found_position (h : PositionsOf S xs ps) (x : Entry) :
    let p := (ps.find? (·.key = x.key)).getD ⟨x.key, Decimal.zero, Decimal.zero⟩
    p.key = x.key ∧ p.reserved.val = reservedAt xs x.key ∧ p.consumed.val = consumedAt xs x.key ∧
      p.reserved.scale ≤ S ∧ p.consumed.scale ≤ S := by
  intro p
  cases hf : ps.find? (fun q => decide (q.key = x.key)) with
  | some q =>
    have hq := List.mem_of_find?_eq_some hf
    have hqk : q.key = x.key := by simpa using List.find?_some hf
    simp only [p, hf, Option.getD_some]
    exact ⟨hqk, hqk ▸ h.reserved q hq, hqk ▸ h.consumed q hq, h.scales q hq⟩
  | none =>
    -- no position for the key, so no row before had it
    have hno : ∀ y ∈ xs, y.key ≠ x.key := fun y hy hyk => by
      obtain ⟨q, hq, hqk⟩ := List.mem_map.1 ((h.keys _).2 ⟨y, hy, hyk⟩)
      exact absurd (List.find?_eq_none.1 hf q hq) (by simpa using hqk)
    simp only [p, hf, Option.getD_none]
    exact ⟨trivial, by simp [reservedAt_of_not_mem hno, Decimal.val_zero],
      by simp [consumedAt_of_not_mem hno, Decimal.val_zero], Nat.zero_le _, Nat.zero_le _⟩

/-- Adding one row keeps the positions exact, while the rows so far have room. -/
theorem addToPositions_exact (h : PositionsOf S xs ps)
    (hroom : Decimal.Room S ((xs ++ [x]).map (·.amount))) :
    ∃ ps', addToPositions ps x = .ok ps' ∧ PositionsOf S (xs ++ [x]) ps' := by
  obtain ⟨hpk, hpr, hpc, hps, hpcs⟩ := found_position h x
  unfold addToPositions
  generalize (ps.find? (·.key = x.key)).getD ⟨x.key, Decimal.zero, Decimal.zero⟩ = p at hpk hpr hpc hps hpcs
  have hS := hroom.scale_le
  have hxs : x.outflow.scale ≤ S := by
    have := hroom.scales x.amount (by simp)
    unfold Entry.outflow; split <;> exact this
  -- both sums and the row's amount fit together
  have hfit : magnitude (xs ++ [x]) * 10 ^ S < mantissaLimit := by
    have h := hroom.fits
    rw [List.map_map] at h
    exact h
  have hmag : magnitude (xs ++ [x]) = magnitude xs + |x.outflow.val| := by
    simp [magnitude, ← Entry.draft_outflow, EntryDraft.abs_outflow]
  have hroomr : (|p.reserved.val| + |x.outflow.val|) * 10 ^ S < mantissaLimit := by
    refine lt_of_le_of_lt (mul_le_mul_of_nonneg_right ?_ (by positivity)) hfit
    rw [hmag, hpr]; linarith [abs_reservedAt_le xs x.key]
  have hroomc : (|p.consumed.val| + |x.outflow.val|) * 10 ^ S < mantissaLimit := by
    refine lt_of_le_of_lt (mul_le_mul_of_nonneg_right ?_ (by positivity)) hfit
    rw [hmag, hpc]; linarith [abs_consumedAt_le xs x.key]
  cases ht : x.entryType
  -- a reservation or a release moves the reserved sum
  case reservation | release =>
    obtain ⟨c, hc, hcv, hcs⟩ := Decimal.add_exact hps hxs hS hroomr
    simp only [hc]
    refine ⟨_, by split <;> rfl, place_exact h { p with reserved := c } hpk ?_ ?_ ⟨hcs, hpcs⟩⟩
    · simp [hcv, hpr, EntryDraft.reservedIn, ht]
    · simp [hpc, EntryDraft.consumedIn, ht]
  -- a consumption or a reversal moves the consumed sum
  case consumption | reversal =>
    obtain ⟨c, hc, hcv, hcs⟩ := Decimal.sub_exact hpcs hxs hS hroomc
    simp only [hc]
    refine ⟨_, by split <;> rfl, place_exact h { p with consumed := c } hpk ?_ ?_ ⟨hps, hcs⟩⟩
    · simp [hpr, EntryDraft.reservedIn, ht]
    · simp [hcv, hpc, EntryDraft.consumedIn, ht, sub_eq_add_neg]
  -- supplements and reclasses move neither
  case reclass | supplement =>
    simp only
    refine ⟨_, by split <;> rfl, place_exact h p hpk ?_ ?_ ⟨hps, hpcs⟩⟩
    · simp [hpr, EntryDraft.reservedIn, ht]
    · simp [hpc, EntryDraft.consumedIn, ht]

end Step

/-! ## Section 3: All the rows -/

/-- Adding rows one at a time keeps the positions exact, while all the rows have room. -/
theorem foldlM_addToPositions_exact {S : ℕ} :
    ∀ {ys xs : List Entry} {ps : List Position}, PositionsOf S xs ps →
      Decimal.Room S ((xs ++ ys).map (·.amount)) →
      ∃ ps', ys.foldlM addToPositions ps = .ok ps' ∧ PositionsOf S (xs ++ ys) ps'
  | [], xs, ps, h, _ => ⟨ps, rfl, by simpa using h⟩
  | y :: ys, xs, ps, h, hroom => by
    have hsplit : xs ++ y :: ys = xs ++ [y] ++ ys := by simp
    rw [hsplit] at hroom ⊢
    -- the first row goes in with the room of the rows up to it
    have hroom₁ : Decimal.Room S ((xs ++ [y]).map (·.amount)) :=
      hroom.sublist ((List.sublist_append_left _ _).map _)
    obtain ⟨ps₁, h₁, hpos₁⟩ := addToPositions_exact h hroom₁
    obtain ⟨ps', h', hpos'⟩ := foldlM_addToPositions_exact hpos₁ hroom
    exact ⟨ps', by rw [List.foldlM_cons, h₁]; exact h', hpos'⟩

/-- With room, `positions` computes the positions exactly. -/
theorem positions_exact {S : ℕ} {xs : List Entry} (hroom : Decimal.Room S (xs.map (·.amount))) :
    ∃ ps, positions xs = .ok ps ∧ PositionsOf S xs ps := by
  obtain ⟨ps, hfold, hpos⟩ := foldlM_addToPositions_exact (positionsOf_nil S)
    (show Decimal.Room S (([] ++ xs).map Entry.amount) by simpa using hroom)
  refine ⟨_, by unfold positions; rw [hfold]; rfl, ?_⟩
  simpa using hpos.perm (List.mergeSort_perm _ _).symm

/-! ## Section 4: What the positions tell -/

/-- Stopping at the first held reservation loses nothing: the reading gives reserved when some
    position holds a reservation above zero, wherever it stands, otherwise consumed when the
    flag was set already or some position has consumption above zero, otherwise unlocked. -/
theorem deriveStateFrom_eq (consumed : Bool) (ps : List Position) :
    deriveStateFrom consumed ps =
      if ps.any (fun p => Decimal.zero < p.reserved) then .reserved
      else if consumed || ps.any (fun p => Decimal.zero < p.consumed) then .consumed
      else .unlocked := by
  induction ps generalizing consumed with
  | nil => cases consumed <;> rfl
  | cons p ps ih =>
    by_cases hres : Decimal.zero < p.reserved
    · -- the early return: this position holds a reservation
      simp [deriveStateFrom, hres]
    · -- the flag takes in this position's consumption, and the reading goes on
      rw [deriveStateFrom, if_neg hres, ih]
      simp [hres, Bool.or_assoc]

/-- The state the positions add up to, as two questions about the positions. -/
theorem deriveState_eq_any (ps : List Position) :
    deriveState ps =
      if ps.any (fun p => Decimal.zero < p.reserved) then .reserved
      else if ps.any (fun p => Decimal.zero < p.consumed) then .consumed else .unlocked := by
  rw [deriveState, deriveStateFrom_eq, Bool.false_or]

/-- Although the reading stops at the first held reservation, the state depends on the
    positions only by value and as a collection: it is reserved when some position holds a
    reservation above zero, otherwise consumed when some position has consumption above zero,
    otherwise unlocked. So neither the order of the positions nor a repeated one changes it, and
    neither does the scale of an amount. -/
theorem deriveState_ignores_order (ps : List Position) :
    deriveState ps = (if ∃ p ∈ ps, 0 < p.reserved.val then DocumentState.reserved
      else if ∃ p ∈ ps, 0 < p.consumed.val then .consumed else .unlocked) ∧
    ∀ qs : List Position, (∀ p, p ∈ qs ↔ p ∈ ps) → deriveState qs = deriveState ps := by
  -- the reading asks two questions of the positions (`deriveState_eq_any`), each on the
  -- positions' values, and `any` asks only whether some member passes
  have hval : ∀ qs : List Position, deriveState qs =
      if ∃ p ∈ qs, 0 < p.reserved.val then .reserved
      else if ∃ p ∈ qs, 0 < p.consumed.val then .consumed else .unlocked := fun qs => by
    rw [deriveState_eq_any]
    simp only [List.any_eq_true, Decimal.lt_iff_val, Decimal.val_zero, decide_eq_true_eq]
  refine ⟨hval ps, fun qs hmem => ?_⟩
  simp only [hval, hmem]

/-- The amount a list of keyed amounts gives key `k`, summed over its entries for `k`. -/
def amountAt (out : List (DimensionKey × Decimal)) (k : DimensionKey) : ℚ :=
  ((out.filter (·.1 = k)).map (·.2.val)).sum

@[simp] theorem amountAt_nil (k : DimensionKey) : amountAt [] k = 0 := rfl

section ReadOff

variable {S : ℕ} {xs : List Entry} {ps : List Position}

/-- At most one position has a given key, and none when no row has it. -/
theorem PositionsOf.filter_key (h : PositionsOf S xs ps) (k : DimensionKey) :
    (∃ p ∈ ps, p.key = k ∧ ps.filter (·.key = k) = [p]) ∨
      (ps.filter (·.key = k) = [] ∧ ∀ x ∈ xs, x.key ≠ k) := by
  have hnd : ((ps.filter (·.key = k)).map (·.key)).Nodup :=
    h.nodup.sublist (List.filter_sublist.map _)
  have hall : ∀ p ∈ ps.filter (·.key = k), p.key = k := fun p hp => by
    simpa using (List.mem_filter.1 hp).2
  have hmem : ∀ p, p ∈ ps.filter (·.key = k) → p ∈ ps := fun p hp => List.mem_of_mem_filter hp
  cases hF : ps.filter (·.key = k) with
  | nil =>
    refine .inr ⟨rfl, fun x hx hxk => ?_⟩
    obtain ⟨p, hp, hpk⟩ := List.mem_map.1 ((h.keys k).2 ⟨x, hx, hxk⟩)
    have hpF : p ∈ ps.filter (·.key = k) := List.mem_filter.2 ⟨hp, by simpa using hpk⟩
    rw [hF] at hpF
    cases hpF
  | cons p rest =>
    rw [hF] at hnd hall hmem
    cases rest with
    | nil => exact .inl ⟨p, hmem p List.mem_cons_self, hall p List.mem_cons_self, rfl⟩
    | cons q rest =>
      -- two positions of the key would repeat it
      have hpq : p.key = q.key := (hall p List.mem_cons_self).trans
        (hall q (List.mem_cons_of_mem _ List.mem_cons_self)).symm
      simp [hpq] at hnd

/-- For either sum: some position holds a positive amount exactly when some key's sum is
    positive. -/
theorem PositionsOf.any_pos (h : PositionsOf S xs ps) {amt : Position → Decimal}
    {sum : DimensionKey → ℚ} (hamt : ∀ p ∈ ps, (amt p).val = sum p.key)
    (hnone : ∀ k, (∀ x ∈ xs, x.key ≠ k) → sum k = 0) :
    (ps.any fun p => Decimal.zero < amt p) = true ↔ ∃ k, 0 < sum k := by
  constructor
  · intro hany
    obtain ⟨p, hp, hlt⟩ := List.any_eq_true.1 hany
    refine ⟨p.key, ?_⟩
    rw [← hamt p hp]
    simpa [Decimal.lt_iff_val] using hlt
  · rintro ⟨k, hk⟩
    rcases h.filter_key k with ⟨p, hp, rfl, -⟩ | ⟨-, hno⟩
    · refine List.any_eq_true.2 ⟨p, hp, ?_⟩
      simpa [Decimal.lt_iff_val, hamt p hp] using hk
    · rw [hnone k hno] at hk
      exact absurd hk (lt_irrefl 0)

/-- For either sum: the positions kept for a positive amount give each key its sum when that
    is positive, and nothing otherwise. -/
theorem PositionsOf.amountAt_filter (h : PositionsOf S xs ps) {amt : Position → Decimal}
    {sum : DimensionKey → ℚ} (hamt : ∀ p ∈ ps, (amt p).val = sum p.key)
    (hnone : ∀ k, (∀ x ∈ xs, x.key ≠ k) → sum k = 0) (k : DimensionKey) :
    amountAt ((ps.filter fun p => Decimal.zero < amt p).map fun p => (p.key, amt p)) k =
      if 0 < sum k then sum k else 0 := by
  have hfilter : ((ps.filter fun p => Decimal.zero < amt p).map fun p => (p.key, amt p)).filter
      (·.1 = k) = ((ps.filter (·.key = k)).filter fun p => Decimal.zero < amt p).map
        fun p => (p.key, amt p) := by
    rw [List.filter_map, List.filter_filter, List.filter_filter]
    congr 1
    exact List.filter_congr fun p _ => by simp [Bool.and_comm]
  unfold amountAt
  rw [hfilter]
  rcases h.filter_key k with ⟨p, hp, rfl, hF⟩ | ⟨hF, hno⟩
  · rw [hF, ← hamt p hp]
    by_cases hpos : 0 < (amt p).val <;> simp [hpos, Decimal.lt_iff_val]
  · simp [hF, hnone k hno]

/-- The state read off exact positions: reserved while some key's reserved sum is positive. -/
theorem PositionsOf.deriveState_eq_reserved (h : PositionsOf S xs ps) :
    deriveState ps = .reserved ↔ ∃ k, 0 < reservedAt xs k := by
  rw [← h.any_pos h.reserved fun _ => reservedAt_of_not_mem]
  rw [deriveState_eq_any]
  split
  · simp [*]
  · split <;> simp [*]

/-- Unlocked when no key's reserved or consumed sum is positive. -/
theorem PositionsOf.deriveState_eq_unlocked (h : PositionsOf S xs ps) :
    deriveState ps = .unlocked ↔ (∀ k, reservedAt xs k ≤ 0) ∧ ∀ k, consumedAt xs k ≤ 0 := by
  have hr := h.any_pos h.reserved fun _ => reservedAt_of_not_mem
  have hc := h.any_pos h.consumed fun _ => consumedAt_of_not_mem
  simp only [← not_lt, ← not_exists]
  rw [← hr, ← hc]
  rw [deriveState_eq_any]
  split
  · simp [*]
  · split <;> simp [*]

/-- Consumed when no key's reserved sum is positive and some key's consumed sum is. -/
theorem PositionsOf.deriveState_eq_consumed (h : PositionsOf S xs ps) :
    deriveState ps = .consumed ↔ (∀ k, reservedAt xs k ≤ 0) ∧ ∃ k, 0 < consumedAt xs k := by
  have hr := h.any_pos h.reserved fun _ => reservedAt_of_not_mem
  have hc := h.any_pos h.consumed fun _ => consumedAt_of_not_mem
  simp only [← not_lt, ← not_exists]
  rw [← hr, ← hc]
  rw [deriveState_eq_any]
  split
  · simp [*]
  · split <;> simp [*]

end ReadOff

/-! ## Section 5: The outstanding amounts -/

section Outstanding

variable {S : ℕ} {xs : List Entry}

/-- With room, the reservation still held is each key's reserved sum, where positive. -/
theorem outstandingReserved_exact (hroom : Decimal.Room S (xs.map Entry.amount)) :
    ∃ out, outstandingReserved xs = .ok out ∧
      (∀ k, amountAt out k = if 0 < reservedAt xs k then reservedAt xs k else 0) ∧
      (out = [] ↔ ∀ k, reservedAt xs k ≤ 0) := by
  obtain ⟨ps, hps, hpos⟩ := positions_exact hroom
  refine ⟨_, by simp [outstandingReserved, hps],
    hpos.amountAt_filter hpos.reserved (fun _ => reservedAt_of_not_mem), ?_⟩
  rw [List.map_eq_nil_iff, List.filter_eq_nil_iff]
  simpa [Decimal.lt_iff_val] using (hpos.any_pos hpos.reserved fun _ => reservedAt_of_not_mem).not

/-- With room, the consumption booked against a secondary is each key's consumed sum over the
    rows against it, where positive. -/
theorem outstandingConsumedAgainst_exact (hroom : Decimal.Room S (xs.map Entry.amount))
    (secondary : DocumentRef) :
    let ys := xs.filter (·.against = some secondary)
    ∃ out, outstandingConsumedAgainst xs secondary = .ok out ∧
      (∀ k, amountAt out k = if 0 < consumedAt ys k then consumedAt ys k else 0) ∧
      (out = [] ↔ ∀ k, consumedAt ys k ≤ 0) := by
  intro ys
  have hroom' : Decimal.Room S (ys.map Entry.amount) := hroom.sublist (List.filter_sublist.map _)
  obtain ⟨ps, hps, hpos⟩ := positions_exact hroom'
  refine ⟨_, by simp [outstandingConsumedAgainst, ys, hps],
    hpos.amountAt_filter hpos.consumed (fun _ => consumedAt_of_not_mem), ?_⟩
  rw [List.map_eq_nil_iff, List.filter_eq_nil_iff]
  simpa [Decimal.lt_iff_val] using (hpos.any_pos hpos.consumed fun _ => consumedAt_of_not_mem).not

/-- A computed outstanding reservation holds each key's reserved sum where positive, and it is
    empty exactly when no key's sum is. -/
theorem outstandingReserved_spec (hroom : Decimal.Room S (xs.map Entry.amount))
    {out : List (DimensionKey × Decimal)} (h : outstandingReserved xs = .ok out) :
    (∀ k, amountAt out k = if 0 < reservedAt xs k then reservedAt xs k else 0) ∧
      (out = [] ↔ ∀ k, reservedAt xs k ≤ 0) := by
  obtain ⟨out', hout', hspec⟩ := outstandingReserved_exact hroom
  rw [h] at hout'
  cases hout'
  exact hspec

/-- A computed consumption against a secondary holds each key's consumed sum against it where
    positive, and it is empty exactly when no key's sum is. -/
theorem outstandingConsumedAgainst_spec (hroom : Decimal.Room S (xs.map Entry.amount))
    {secondary : DocumentRef} {out : List (DimensionKey × Decimal)}
    (h : outstandingConsumedAgainst xs secondary = .ok out) :
    (∀ k, amountAt out k = if 0 < consumedAt (xs.filter (·.against = some secondary)) k then
        consumedAt (xs.filter (·.against = some secondary)) k else 0) ∧
      (out = [] ↔ ∀ k, consumedAt (xs.filter (·.against = some secondary)) k ≤ 0) := by
  obtain ⟨out', hout', hspec⟩ := outstandingConsumedAgainst_exact hroom secondary
  rw [h] at hout'
  cases hout'
  exact hspec

/-- What is still reserved names each key once, with the key's reserved sum, at no finer scale
    than the room's. -/
theorem outstandingReserved_keys (hroom : Decimal.Room S (xs.map Entry.amount))
    {out : List (DimensionKey × Decimal)} (h : outstandingReserved xs = .ok out) :
    (out.map (·.1)).Nodup ∧ ∀ q ∈ out, q.2.scale ≤ S ∧ q.2.val = reservedAt xs q.1 := by
  obtain ⟨ps, hps, hpos⟩ := positions_exact hroom
  simp only [outstandingReserved, hps] at h
  cases h
  refine ⟨?_, fun q hq => ?_⟩
  · rw [List.map_map]
    exact hpos.nodup.sublist (List.filter_sublist.map _)
  · obtain ⟨p, hp, rfl⟩ := List.mem_map.1 hq
    have hp' := List.mem_of_mem_filter hp
    exact ⟨(hpos.scales p hp').1, hpos.reserved p hp'⟩

/-- What is still consumed against a secondary names each key once, with the key's consumed
    sum against it, at no finer scale than the room's. -/
theorem outstandingConsumedAgainst_keys (hroom : Decimal.Room S (xs.map Entry.amount))
    {secondary : DocumentRef} {out : List (DimensionKey × Decimal)}
    (h : outstandingConsumedAgainst xs secondary = .ok out) :
    (out.map (·.1)).Nodup ∧ ∀ q ∈ out, q.2.scale ≤ S ∧
      q.2.val = consumedAt (xs.filter (·.against = some secondary)) q.1 := by
  obtain ⟨ps, hps, hpos⟩ := positions_exact
    (hroom.sublist ((List.filter_sublist (p := (·.against = some secondary))).map Entry.amount))
  simp only [outstandingConsumedAgainst, hps] at h
  cases h
  refine ⟨?_, fun q hq => ?_⟩
  · rw [List.map_map]
    exact hpos.nodup.sublist (List.filter_sublist.map _)
  · obtain ⟨p, hp, rfl⟩ := List.mem_map.1 hq
    have hp' := List.mem_of_mem_filter hp
    exact ⟨(hpos.scales p hp').2, hpos.consumed p hp'⟩

end Outstanding

/-! ## Section 6: Sums over distinct keys -/

/-- What is zero off one key weighs, summed over distinct keys, at most what it weighs at that
    key. -/
theorem sum_abs_of_single {f : DimensionKey → ℚ} {key : DimensionKey}
    (hf : ∀ k, k ≠ key → f k = 0) :
    ∀ {ks : List DimensionKey}, ks.Nodup → (ks.map fun k => |f k|).sum ≤ |f key|
  | [], _ => by simp
  | k :: ks, hnd => by
    rw [List.nodup_cons] at hnd
    rw [List.map_cons, List.sum_cons]
    by_cases hk : k = key
    · -- the key is met once: the others are other keys
      subst hk
      have hrest : (ks.map fun k => |f k|).sum = 0 := List.sum_eq_zero fun r hr => by
        obtain ⟨k', hk', rfl⟩ := List.mem_map.1 hr
        rw [hf k' fun h => hnd.1 (h ▸ hk'), abs_zero]
      rw [hrest, add_zero]
    · rw [hf k hk, abs_zero, zero_add]
      exact sum_abs_of_single hf hnd.2

/-- Per-key sums over some rows, taken at distinct keys, weigh at most the rows, when each row
    gives only its own key, and no more than its amount. -/
theorem sum_abs_sums_le {g : Entry → DimensionKey → ℚ} (hg : ∀ x k, k ≠ x.key → g x k = 0)
    (hb : ∀ x, |g x x.key| ≤ |x.amount.val|) {ks : List DimensionKey} (hnd : ks.Nodup) :
    ∀ xs : List Entry, (ks.map fun k => |(xs.map fun x => g x k).sum|).sum ≤ magnitude xs
  | [] => by simp [magnitude]
  | x :: xs => by
    calc (ks.map fun k => |((x :: xs).map fun x => g x k).sum|).sum
        ≤ (ks.map fun k => |g x k| + |(xs.map fun x => g x k).sum|).sum :=
          List.sum_le_sum fun k _ => by simpa using abs_add_le (g x k) _
      _ = (ks.map fun k => |g x k|).sum + (ks.map fun k => |(xs.map fun x => g x k).sum|).sum :=
          List.sum_map_add
      _ ≤ |x.amount.val| + magnitude xs :=
          add_le_add ((sum_abs_of_single (hg x) hnd).trans (hb x)) (sum_abs_sums_le hg hb hnd xs)
      _ = magnitude (x :: xs) := by simp [magnitude]

/-- Reserved sums at distinct keys weigh at most the rows. -/
theorem sum_abs_reservedAt_le {ks : List DimensionKey} (hnd : ks.Nodup) (xs : List Entry) :
    (ks.map fun k => |reservedAt xs k|).sum ≤ magnitude xs :=
  sum_abs_sums_le (g := fun x k => x.draft.reservedIn k)
    (fun _ _ hk => EntryDraft.reservedIn_of_ne fun h => hk h.symm)
    (fun x => EntryDraft.abs_reservedIn_le _ x.draft) hnd xs

/-- Consumed sums at distinct keys weigh at most the rows. -/
theorem sum_abs_consumedAt_le {ks : List DimensionKey} (hnd : ks.Nodup) (xs : List Entry) :
    (ks.map fun k => |consumedAt xs k|).sum ≤ magnitude xs :=
  sum_abs_sums_le (g := fun x k => x.draft.consumedIn k)
    (fun _ _ hk => EntryDraft.consumedIn_of_ne fun h => hk h.symm)
    (fun x => EntryDraft.abs_consumedIn_le _ x.draft) hnd xs

end Encumbrance

import Mathlib
import Encumbrance.Proofs.Ledger.Append
import Encumbrance.Proofs.Decimal.Exact

/-! # Ledgers built by appends

    The ledger changes only by appends, and an append writes a batch only after checking it:
    every draft is sound, and the reclass rows balance, their amounts going out adding up to
    their amounts coming in. A ledger that appends have built from the empty one
    (`Ledger.Built`) keeps two facts about its rows:

    * every row of a type with a fixed direction goes that way (`Entry.Directed`), so its
      outflow is its amount with the sign its type gives;
    * when its amounts add up exactly, the outflows of its reclass rows cancel: those of each
      batch do, since the check compared the two sums (`Ledger.Built.reclass_balanced`).
-/

namespace Encumbrance

open Decimal

/-- The ledgers that successful appends build from the empty one. -/
inductive Ledger.Built : Ledger → Prop
  | empty : Ledger.Built {}
  | append {l l' : Ledger} {ds : List EntryDraft} {es : List Entry} :
      Ledger.Built l → l.append ds = .ok (es, l') → Ledger.Built l'

/-- A row goes the way its type demands, if its type demands one. -/
def Entry.Directed (x : Entry) : Prop :=
  ∀ dir, x.entryType.fixedDirection = some dir → x.direction = dir

/-- The outflows of the reclass rows among some rows, added up exactly. -/
def reclassFlow (xs : List EntryDraft) : ℚ :=
  ((xs.filter (·.entryType = .reclass)).map fun d => d.outflow.val).sum

/-! ## Section 1: Directions -/

theorem EntryDraft.outflow_val (d : EntryDraft) :
    d.outflow.val = if d.direction = .out then d.amount.val else -d.amount.val := by
  unfold outflow
  cases d.direction <;> simp

theorem Entry.outflow_val (x : Entry) :
    x.outflow.val = if x.direction = .out then x.amount.val else -x.amount.val := by
  unfold outflow
  cases x.direction <;> simp

/-- The outflows of drafts add up to what goes out less what comes in. -/
theorem sum_outflow_val (xs : List EntryDraft) :
    (xs.map fun d => d.outflow.val).sum =
      (((xs.filter (·.direction = .out)).map (·.amount)).map val).sum -
        (((xs.filter (·.direction = .inbound)).map (·.amount)).map val).sum := by
  induction xs with
  | nil => simp
  | cons d xs ih =>
    rw [List.map_cons, List.sum_cons, ih, EntryDraft.outflow_val]
    cases hdir : d.direction <;> simp [hdir] <;> ring

namespace Ledger

/-- Every row an append writes goes the way its type demands. -/
theorem append_directed {l l' : Ledger} {ds : List EntryDraft} {es : List Entry}
    (h : l.append ds = .ok (es, l')) : ∀ x ∈ es, x.Directed :=
  fun x hx => (EntryDraft.validate_ok (append_sound h x hx)).2

theorem Built.directed {l : Ledger} (h : l.Built) : ∀ x ∈ l.entries, x.Directed := by
  induction h with
  | empty => exact fun x hx => absurd hx List.not_mem_nil
  | append _ happ ih =>
    intro x hx
    rw [append_entries happ] at hx
    rcases List.mem_append.1 hx with hx | hx
    · exact ih x hx
    · exact append_directed happ x hx

end Ledger

/-! ## Section 2: Balanced reclass rows -/

/-- A sum fails only by overflowing. -/
theorem Decimal.add_error {a b : Decimal} {e : ArithError} (h : Decimal.add a b = .error e) :
    e = .additionOverflow := by
  unfold Decimal.add at h
  split at h <;> cases h; rfl

/-- A running sum fails only by overflowing. -/
theorem Decimal.foldlM_add_error : ∀ {xs : List Decimal} {a : Decimal} {e : ArithError},
    xs.foldlM Decimal.add a = .error e → e = .additionOverflow
  | [], _, _, h => by cases h
  | x :: xs, a, e, h => by
    rw [List.foldlM_cons] at h
    cases ha : Decimal.add a x with
    | error e' => rw [ha] at h; cases h; exact Decimal.add_error ha
    | ok b => rw [ha] at h; exact Decimal.foldlM_add_error h

/-- Summing both directions in one pass, each draft onto the sum of its direction, is summing
    each direction on its own. Both overflow alike, since every overflow of a sum is the same
    error. -/
theorem foldlM_split
    {step : Decimal × Decimal → EntryDraft → Except ArithError (Decimal × Decimal)}
    (hout : ∀ o i d, d.direction = .out →
      step (o, i) d = (fun o' => (o', i)) <$> Decimal.add o d.amount)
    (hin : ∀ o i d, d.direction = .inbound →
      step (o, i) d = (fun i' => (o, i')) <$> Decimal.add i d.amount) :
    ∀ (xs : List EntryDraft) (o i : Decimal), xs.foldlM step (o, i) = do
      let o' ← ((xs.filter (·.direction = .out)).map (·.amount)).foldlM Decimal.add o
      let i' ← ((xs.filter (·.direction = .inbound)).map (·.amount)).foldlM Decimal.add i
      pure (o', i')
  | [], o, i => rfl
  | d :: xs, o, i => by
    rw [List.foldlM_cons]
    cases hdir : d.direction with
    | out =>
      rw [hout o i d hdir]
      simp only [List.filter_cons, hdir, decide_true, if_true, List.map_cons, List.foldlM_cons]
      cases ha : Decimal.add o d.amount with
      | error e => rfl
      | ok o₁ => exact foldlM_split hout hin xs o₁ i
    | inbound =>
      rw [hin o i d hdir]
      simp only [List.filter_cons, hdir, reduceCtorEq, decide_false, Bool.false_eq_true, if_false,
        decide_true, if_true, List.map_cons, List.foldlM_cons]
      cases ha : Decimal.add i d.amount with
      | error e =>
        -- the inbound sum overflows here, unless the outbound one already did: the same error
        cases ho : ((xs.filter (·.direction = .out)).map (·.amount)).foldlM Decimal.add o with
        | error e' => rw [Decimal.add_error ha, Decimal.foldlM_add_error ho]; rfl
        | ok o' => rfl
      | ok i₁ =>
        show xs.foldlM step (o, i₁) = _
        rw [foldlM_split hout hin xs o i₁]
        rfl

/-- The running sums of the amounts going out and coming in, taken the way the batch check
    takes them, are exact while everything still to come fits: their difference ends as the
    difference they started from plus the outflow of the drafts. -/
theorem foldlM_split_exact {S : ℕ} (hS : S ≤ maxScale)
    {step : Decimal × Decimal → EntryDraft → Except ArithError (Decimal × Decimal)}
    {o i o' i' : Decimal} {xs : List EntryDraft} (hfold : xs.foldlM step (o, i) = .ok (o', i'))
    (hout : ∀ o i d, d.direction = .out →
      step (o, i) d = (fun o' => (o', i)) <$> Decimal.add o d.amount)
    (hin : ∀ o i d, d.direction = .inbound →
      step (o, i) d = (fun i' => (o, i')) <$> Decimal.add i d.amount)
    (ho : o.scale ≤ S) (hi : i.scale ≤ S) (hxs : ∀ d ∈ xs, d.amount.scale ≤ S)
    (hfit : (|o.val| + |i.val| + (xs.map fun d => |d.amount.val|).sum) * 10 ^ S < mantissaLimit) :
    o'.val - i'.val = o.val - i.val + (xs.map fun d => d.outflow.val).sum := by
  -- the one pass is two sums, one per direction
  rw [foldlM_split hout hin] at hfold
  obtain ⟨o₁, ho₁, h⟩ := bind_eq_ok hfold
  obtain ⟨i₁, hi₁, h⟩ := bind_eq_ok h
  cases h
  -- each direction's amounts weigh no more than the drafts', so each sum is exact
  have hweigh : ∀ dir : Direction,
      ((((xs.filter (·.direction = dir)).map (·.amount)).map fun x => |x.val|).sum) ≤
        (xs.map fun d => |d.amount.val|).sum := fun dir => by
    rw [List.map_map]
    exact (List.filter_sublist.map _).sum_le_sum fun r hr => by
      obtain ⟨d, -, rfl⟩ := List.mem_map.1 hr
      exact abs_nonneg _
  have hscales : ∀ dir : Direction, ∀ x ∈ (xs.filter (·.direction = dir)).map (·.amount),
      x.scale ≤ S := fun dir x hx => by
    obtain ⟨d, hd, rfl⟩ := List.mem_map.1 hx
    exact hxs d (List.mem_of_mem_filter hd)
  have hfits : ∀ (a : Decimal) (dir : Direction), |a.val| ≤ |o.val| + |i.val| →
      (|a.val| + (((xs.filter (·.direction = dir)).map (·.amount)).map fun x => |x.val|).sum) *
        10 ^ S < mantissaLimit := fun a dir ha =>
    lt_of_le_of_lt (mul_le_mul_of_nonneg_right (by linarith [hweigh dir]) (by positivity)) hfit
  obtain ⟨c, hc, hcv, -⟩ := foldlM_add_exact hS ho (hscales .out)
    (hfits o .out (by linarith [abs_nonneg i.val]))
  obtain ⟨c', hc', hcv', -⟩ := foldlM_add_exact hS hi (hscales .inbound)
    (hfits i .inbound (by linarith [abs_nonneg o.val]))
  rw [ho₁] at hc
  rw [hi₁] at hc'
  cases hc
  cases hc'
  rw [hcv, hcv', sum_outflow_val]
  ring

/-- A batch that passes its checks, with room for its amounts, has reclass rows whose
    outflows cancel. -/
theorem validateBatch_balanced {ds : List EntryDraft} (h : validateBatch ds = .ok ()) {S : ℕ}
    (hroom : Room S (ds.map (·.amount))) : reclassFlow ds = 0 := by
  unfold validateBatch at h
  split at h
  · cases h
  obtain ⟨⟨⟩, -, h⟩ := bind_eq_ok h
  obtain ⟨⟨o, i⟩, hsplit, hmatch⟩ := bind_eq_ok h
  -- the reclass rows have room among the batch's amounts, so the two sums are exact
  have hroomR : Room S ((ds.filter (·.entryType = .reclass)).map (·.amount)) :=
    hroom.sublist (List.filter_sublist.map _)
  have hval := foldlM_split_exact hroomR.scale_le (liftArith_eq_ok hsplit)
    (fun o i d hd => by simp only [hd]; rfl) (fun o i d hd => by simp only [hd]; rfl)
    (Nat.zero_le S) (Nat.zero_le S) (fun d hd => hroomR.scales _ (List.mem_map_of_mem hd))
    (by simpa [List.map_map, Function.comp_def] using hroomR.fits)
  -- the check passed only if the two sums agree
  have hsame : o.sameValue i = true := by
    by_contra hne
    rw [Bool.not_eq_true] at hne
    simp only [hne, Bool.not_false, if_true] at hmatch
    cases hmatch
  rw [sameValue_iff] at hsame
  unfold reclassFlow
  simpa [hsame] using hval.symm

namespace Ledger

/-- A built ledger whose amounts have room has reclass rows whose outflows cancel. -/
theorem Built.reclass_balanced {l : Ledger} (h : l.Built) {S : ℕ}
    (hroom : Room S (l.entries.map Entry.amount)) : reclassFlow (l.entries.map Entry.draft) = 0 := by
  induction h with
  | empty => rfl
  | @append l l' ds es _ happ ih =>
    rw [append_entries happ] at hroom ⊢
    have hbefore : Room S (l.entries.map Entry.amount) :=
      hroom.sublist ((List.sublist_append_left _ _).map _)
    -- the batch's amounts are its drafts' amounts
    have hbatch : Room S (ds.map (·.amount)) := by
      rw [← append_drafts happ, List.map_map]
      exact hroom.sublist ((List.sublist_append_right _ _).map _)
    have hds := validateBatch_balanced (append_ok happ).1 hbatch
    rw [← append_drafts happ] at hds
    unfold reclassFlow at ih hds ⊢
    rw [List.map_append, List.filter_append, List.map_append, List.sum_append, ih hbefore, hds,
      add_zero]

end Ledger

end Encumbrance

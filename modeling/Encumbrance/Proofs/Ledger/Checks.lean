import Mathlib
import Encumbrance.Proofs.Ledger.Built
import Encumbrance.Proofs.Control.Run

/-! # The checks of a batch

    An append checks the whole batch before it writes any of it, in a fixed order: the batch
    must not be empty; then each draft in list order must pass its own check, where a negative
    amount is found before a direction its type forbids; then the reclass totals must agree in
    value. This module names where the checks stop (`BatchFault`) and when they all pass
    (`BatchPasses`), and proves that the append fails exactly at the fault, leaving the books as
    they were, and writes exactly the batches that pass.

    The reclass totals are what the reclass drafts take out and what they bring in, each summed
    in decimal arithmetic (`reclassTotals`). While the amounts have room the sums are exact
    (`reclassTotals_exact`); a sum past 96 bits of mantissa rounds, and one past the largest
    decimal overflows, and the overflow is the error. So the totals compared are not always the
    exact sums: a transfer out of the largest decimal and four tenths, into the largest decimal,
    is written (`Engine.rounded_transfer_written`).

    Appends keep three facts about every ledger they build: no row has a negative amount, every
    row goes the way its type demands, and every batch has reclass totals that agree.
-/

namespace Encumbrance

open Decimal

/-! ## Section 1: A draft's own check -/

namespace EntryDraft

/-- A draft passes its own check: its amount is not below zero (a negative zero passes) and it
    goes the way its type demands, if its type demands one. -/
def Sound (d : EntryDraft) : Prop :=
  0 ≤ d.amount.val ∧ ∀ dir, d.entryType.fixedDirection = some dir → d.direction = dir

/-- Why a draft fails its own check: a negative amount, or else a direction its type forbids. -/
inductive Fault (d : EntryDraft) : LedgerError → Prop
  | negative : d.amount.val < 0 → Fault d (.negativeAmount d.amount)
  | direction {dir : Direction} : 0 ≤ d.amount.val → d.entryType.fixedDirection = some dir →
      dir ≠ d.direction → Fault d (.invalidDirection d.entryType d.direction)

theorem validate_eq_ok_iff {d : EntryDraft} : d.validate = .ok () ↔ d.Sound := by
  unfold validate Sound
  by_cases hneg : d.amount.isNegative
  · simp [hneg, Decimal.isNegative_iff.1 hneg]
  · have h0 : 0 ≤ d.amount.val := not_lt.1 (mt Decimal.isNegative_iff.2 hneg)
    simp only [hneg, h0, true_and]
    cases hf : d.entryType.fixedDirection with
    | none => simp
    | some dir =>
      by_cases hd : dir = d.direction
      · simp [hd]
      · simp [hd, Ne.symm hd]

theorem validate_eq_error_iff {d : EntryDraft} {e : LedgerError} :
    d.validate = .error e ↔ d.Fault e := by
  unfold validate
  by_cases hneg : d.amount.isNegative
  · -- a negative amount is the first fault found
    have hlt := Decimal.isNegative_iff.1 hneg
    simp only [hneg, if_true, Except.error.injEq]
    constructor
    · rintro rfl; exact .negative hlt
    · rintro (_ | ⟨h0, -, -⟩)
      · rfl
      · exact absurd hlt (not_lt.2 h0)
  · have h0 : 0 ≤ d.amount.val := not_lt.1 (mt Decimal.isNegative_iff.2 hneg)
    simp only [Bool.not_eq_true] at hneg
    simp only [hneg, Bool.false_eq_true, if_false]
    constructor
    · intro h
      cases hf : d.entryType.fixedDirection with
      | none => simp [hf] at h
      | some dir =>
        by_cases hd : dir = d.direction
        · simp [hf, hd] at h
        · simp only [hf, hd, if_false, Except.error.injEq] at h
          rw [← h]
          exact .direction h0 hf hd
    · rintro (hlt | ⟨-, hf, hd⟩)
      · exact absurd hlt (not_lt.2 h0)
      · simp [hf, hd]

theorem Fault.not_sound {d : EntryDraft} {e : LedgerError} (h : d.Fault e) : ¬ d.Sound := by
  rintro ⟨h0, hdir⟩
  cases h with
  | negative hlt => exact absurd hlt (not_lt.2 h0)
  | direction _ hf hd => exact hd (hdir _ hf).symm

/-- A draft has one fault at most. -/
theorem Fault.unique {d : EntryDraft} {e e' : LedgerError} (h : d.Fault e) (h' : d.Fault e') :
    e = e' := by
  cases h with
  | negative hlt =>
    cases h' with
    | negative _ => rfl
    | direction h0 _ _ => exact absurd hlt (not_lt.2 h0)
  | direction h0 _ _ =>
    cases h' with
    | negative hlt => exact absurd hlt (not_lt.2 h0)
    | direction _ _ _ => rfl

end EntryDraft

/-! ## Section 2: The reclass totals -/

/-- The amounts of a batch's reclass drafts that go the given way, in list order. -/
def reclassAmounts (dir : Direction) (ds : List EntryDraft) : List Decimal :=
  (ds.filter fun d => d.entryType = .reclass ∧ d.direction = dir).map (·.amount)

/-- The reclass totals of a batch: what its reclass drafts take out and what they bring in,
    each summed from zero in list order. -/
def reclassTotals (ds : List EntryDraft) : Except ArithError (Decimal × Decimal) := do
  let o ← Decimal.sum (reclassAmounts .out ds)
  let i ← Decimal.sum (reclassAmounts .inbound ds)
  pure (o, i)

/-- The reclass totals of some drafts are computed and equal in value. -/
def ReclassMatched (ds : List EntryDraft) : Prop :=
  ∃ o i, reclassTotals ds = .ok (o, i) ∧ o.val = i.val

/-- While the amounts have room, the reclass totals are the exact sums. -/
theorem reclassTotals_exact {ds : List EntryDraft} {S : ℕ} (h : Room S (ds.map (·.amount))) :
    ∃ o i, reclassTotals ds = .ok (o, i) ∧ o.val = ((reclassAmounts .out ds).map val).sum ∧
      i.val = ((reclassAmounts .inbound ds).map val).sum := by
  have hsub : ∀ dir, Room S (reclassAmounts dir ds) := fun dir =>
    h.sublist (List.filter_sublist.map _)
  obtain ⟨o, ho, hov, -⟩ := sum_exact (hsub .out)
  obtain ⟨i, hi, hiv, -⟩ := sum_exact (hsub .inbound)
  exact ⟨o, i, by simp [reclassTotals, ho, hi, bind, Except.bind, pure, Except.pure], hov, hiv⟩

/-- The batch check's single pass over the reclass drafts computes the reclass totals. -/
theorem reclassTotals_eq_foldlM
    {step : Decimal × Decimal → EntryDraft → Except ArithError (Decimal × Decimal)}
    (hout : ∀ o i d, d.direction = .out →
      step (o, i) d = (fun o' => (o', i)) <$> Decimal.add o d.amount)
    (hin : ∀ o i d, d.direction = .inbound →
      step (o, i) d = (fun i' => (o, i')) <$> Decimal.add i d.amount) (ds : List EntryDraft) :
    (ds.filter (·.entryType = .reclass)).foldlM step (zero, zero) = reclassTotals ds := by
  have hsel : ∀ dir : Direction,
      ((ds.filter (·.entryType = .reclass)).filter (·.direction = dir)).map (·.amount) =
        reclassAmounts dir ds := fun dir => by
    rw [List.filter_filter, reclassAmounts]
    congr 1
    exact List.filter_congr fun d _ => by simp [and_comm]
  rw [foldlM_split hout hin, hsel, hsel]
  rfl


/-! ## Section 3: Where the checks stop -/

/-- The batch check, stage by stage: the batch must not be empty, then each draft's own check
    runs in list order, then the reclass totals are compared in value. -/
theorem validateBatch_eq (ds : List EntryDraft) :
    validateBatch ds = if ds = [] then .error (.ledger .emptyBatch) else (do
      ds.forM fun d => d.validate.mapError BudgetError.ledger
      let t ← liftArith (reclassTotals ds)
      if t.1.sameValue t.2 then pure () else throw (.ledger (.unmatchedReclass t.1 t.2))) := by
  unfold validateBatch
  by_cases h : ds = []
  · subst h; rfl
  · have he : ds.isEmpty = false := List.isEmpty_eq_false_iff.2 h
    simp only [h, he, if_false, Bool.false_eq_true]
    congr 1
    · -- the loop over the drafts stops at the first that fails its check
      clear h he
      induction ds with
      | nil => rfl
      | cons d ds ih =>
        rw [List.forIn_cons]
        show _ = (d.validate.mapError BudgetError.ledger >>= fun _ =>
          ds.forM fun d => d.validate.mapError BudgetError.ledger)
        cases d.validate with
        | error e => rfl
        | ok u => exact ih
    · funext u
      rw [reclassTotals_eq_foldlM (fun o i d hd => by simp only [hd]; rfl)
        (fun o i d hd => by simp only [hd]; rfl)]
      congr 1
      funext t
      cases t.1.sameValue t.2 <;> rfl

/-- A draft whose check passes in the batch is sound. -/
theorem EntryDraft.sound_of_check {d : EntryDraft}
    (h : d.validate.mapError BudgetError.ledger = .ok ()) : d.Sound := by
  cases hv : d.validate with
  | error e => simp only [hv, Except.mapError] at h; cases h
  | ok u => exact EntryDraft.validate_eq_ok_iff.1 hv

/-- The drafts' checks all pass exactly when every draft is sound. -/
theorem forM_validate_eq_ok {ds : List EntryDraft}
    (h : (ds.forM fun d => d.validate.mapError BudgetError.ledger) = .ok ()) :
    ∀ d ∈ ds, d.Sound := by
  induction ds with
  | nil => exact fun d hd => absurd hd List.not_mem_nil
  | cons d ds ih =>
    obtain ⟨⟨⟩, hd, hrest⟩ := bind_eq_ok h
    intro d' hd'
    rcases List.mem_cons.1 hd' with rfl | hd'
    · exact EntryDraft.sound_of_check hd
    · exact ih hrest d' hd'

theorem bind_eq_error {ε α β : Type} {x : Except ε α} {f : α → Except ε β} {e : ε}
    (h : x >>= f = .error e) : x = .error e ∨ ∃ a, x = .ok a ∧ f a = .error e := by
  cases x with
  | error e' => cases h; exact .inl rfl
  | ok a => exact .inr ⟨a, rfl, h⟩

/-- The drafts' checks stop at the first draft with a fault, every draft before it sound. -/
theorem forM_validate_eq_error {ds : List EntryDraft} {err : BudgetError}
    (h : (ds.forM fun d => d.validate.mapError BudgetError.ledger) = .error err) :
    ∃ pre d post e, ds = pre ++ d :: post ∧ (∀ p ∈ pre, p.Sound) ∧ d.Fault e ∧ err = .ledger e := by
  induction ds with
  | nil => cases h
  | cons d ds ih =>
    rcases bind_eq_error h with hd | ⟨⟨⟩, hd, hrest⟩
    · -- the first draft fails
      cases hv : d.validate with
      | error e =>
        simp only [hv, Except.mapError] at hd; cases hd
        exact ⟨[], d, ds, e, rfl, by simp, EntryDraft.validate_eq_error_iff.1 hv, rfl⟩
      | ok u => simp only [hv, Except.mapError] at hd; cases hd
    · -- the first draft passes, and a later one fails
      obtain ⟨pre, d', post, e, rfl, hpre, hf, rfl⟩ := ih hrest
      refine ⟨d :: pre, d', post, e, rfl, fun p hp => ?_, hf, rfl⟩
      rcases List.mem_cons.1 hp with rfl | hp
      · exact EntryDraft.sound_of_check hd
      · exact hpre p hp

/-- Where the checks of a batch stop, and with what error: an empty batch; the first draft that
    fails its own check, every draft before it passing; a reclass total that overflows; or
    reclass totals that differ in value. -/
inductive BatchFault : List EntryDraft → BudgetError → Prop
  | empty : BatchFault [] (.ledger .emptyBatch)
  | draft {pre post : List EntryDraft} {d : EntryDraft} {e : LedgerError} :
      (∀ p ∈ pre, p.Sound) → d.Fault e → BatchFault (pre ++ d :: post) (.ledger e)
  | overflow {ds : List EntryDraft} {a : ArithError} : ds ≠ [] → (∀ d ∈ ds, d.Sound) →
      reclassTotals ds = .error a → BatchFault ds (.overflow a)
  | unmatched {ds : List EntryDraft} {o i : Decimal} : ds ≠ [] → (∀ d ∈ ds, d.Sound) →
      reclassTotals ds = .ok (o, i) → o.val ≠ i.val → BatchFault ds (.ledger (.unmatchedReclass o i))

/-- A batch that passes its checks: it is not empty, every draft passes its own check, and the
    reclass totals are computed and equal in value. -/
structure BatchPasses (ds : List EntryDraft) : Prop where
  ne_nil : ds ≠ []
  sound : ∀ d ∈ ds, d.Sound
  matched : ReclassMatched ds

theorem fault_of_validateBatch {ds : List EntryDraft} {err : BudgetError}
    (h : validateBatch ds = .error err) : BatchFault ds err := by
  rw [validateBatch_eq] at h
  split at h
  · cases h
    subst ds
    exact .empty
  rename_i hne
  rcases bind_eq_error h with hloop | ⟨⟨⟩, hloop, h⟩
  · obtain ⟨pre, d, post, e, rfl, hpre, hf, rfl⟩ := forM_validate_eq_error hloop
    exact .draft hpre hf
  have hsound := forM_validate_eq_ok hloop
  rcases bind_eq_error h with ht | ⟨⟨o, i⟩, ht, h⟩
  · -- a reclass total overflows
    cases hT : reclassTotals ds with
    | error a => rw [hT] at ht; cases ht; exact .overflow hne hsound hT
    | ok p => rw [hT] at ht; cases ht
  · -- the totals differ in value
    have hT := liftArith_eq_ok ht
    by_cases hsame : o.sameValue i
    · simp only [hsame, if_true] at h; cases h
    · simp only [hsame, Bool.false_eq_true, if_false] at h
      cases h
      exact .unmatched hne hsound hT fun hval => hsame ((Decimal.sameValue_iff).2 hval)

theorem passes_of_validateBatch {ds : List EntryDraft} (h : validateBatch ds = .ok ()) :
    BatchPasses ds := by
  rw [validateBatch_eq] at h
  split at h
  · cases h
  rename_i hne
  obtain ⟨⟨⟩, hloop, h⟩ := bind_eq_ok h
  obtain ⟨⟨o, i⟩, ht, h⟩ := bind_eq_ok h
  refine ⟨hne, forM_validate_eq_ok hloop, o, i, liftArith_eq_ok ht, ?_⟩
  by_cases hsame : o.sameValue i
  · exact (Decimal.sameValue_iff).1 hsame
  · simp [hsame] at h

/-- Two splits of a list at an element that fails a test, everything before passing it, split
    at the same element. -/
theorem eq_of_split_first {α : Type} {P : α → Prop} :
    ∀ {pre pre' post post' : List α} {x x' : α}, pre ++ x :: post = pre' ++ x' :: post' →
      (∀ y ∈ pre, P y) → ¬ P x → (∀ y ∈ pre', P y) → ¬ P x' → x = x'
  | [], [], _, _, _, _, h, _, _, _, _ => (List.cons.inj h).1
  | [], y :: pre', _, _, _, _, h, _, hx, hpre', _ => by
    cases (List.cons.inj h).1
    exact absurd (hpre' _ List.mem_cons_self) hx
  | y :: pre, [], _, _, _, _, h, hpre, _, _, hx' => by
    cases (List.cons.inj h).1
    exact absurd (hpre _ List.mem_cons_self) hx'
  | y :: pre, y' :: pre', _, _, _, _, h, hpre, hx, hpre', hx' =>
    eq_of_split_first (List.cons.inj h).2 (fun z hz => hpre z (List.mem_cons_of_mem _ hz)) hx
      (fun z hz => hpre' z (List.mem_cons_of_mem _ hz)) hx'

/-- A batch with a fault does not pass. -/
theorem BatchFault.not_passes {ds : List EntryDraft} {err : BudgetError} (h : BatchFault ds err) :
    ¬ BatchPasses ds := by
  rintro ⟨hne, hsound, o, i, ht, hval⟩
  cases h with
  | empty => exact hne rfl
  | draft _ hf => exact hf.not_sound (hsound _ (by simp))
  | overflow _ _ ht' => rw [ht] at ht'; cases ht'
  | unmatched _ _ ht' hval' =>
    rw [ht] at ht'
    cases ht'
    exact hval' hval

/-- The checks stop at one place: a batch has one fault at most. -/
theorem BatchFault.unique {ds : List EntryDraft} {e₁ e₂ : BudgetError} (h₁ : BatchFault ds e₁)
    (h₂ : BatchFault ds e₂) : e₁ = e₂ := by
  cases h₁ with
  | empty =>
    generalize hds : ([] : List EntryDraft) = ds at h₂
    rcases h₂ with _ | _ | ⟨hne, -, -⟩ | ⟨hne, -, -, -⟩
    · rfl
    · simp at hds
    · exact absurd hds.symm hne
    · exact absurd hds.symm hne
  | @draft pre post d e hpre hf =>
    generalize hds : pre ++ d :: post = ds at h₂
    rcases h₂ with _ | ⟨hpre', hf'⟩ | ⟨-, hs, -⟩ | ⟨-, hs, -, -⟩
    · simp at hds
    · -- both splits stop at the first draft with a fault
      cases eq_of_split_first hds hpre hf.not_sound hpre' hf'.not_sound
      rw [hf.unique hf']
    · exact absurd (hs d (by rw [← hds]; simp)) hf.not_sound
    · exact absurd (hs d (by rw [← hds]; simp)) hf.not_sound
  | overflow hne hsound ht =>
    rcases h₂ with _ | ⟨-, hf'⟩ | ⟨-, -, ht'⟩ | ⟨-, -, ht', -⟩
    · exact absurd rfl hne
    · exact absurd (hsound _ (by simp)) hf'.not_sound
    · rw [ht] at ht'; cases ht'; rfl
    · rw [ht] at ht'; cases ht'
  | unmatched hne hsound ht hval =>
    rcases h₂ with _ | ⟨-, hf'⟩ | ⟨-, -, ht'⟩ | ⟨-, -, ht', -⟩
    · exact absurd rfl hne
    · exact absurd (hsound _ (by simp)) hf'.not_sound
    · rw [ht] at ht'; cases ht'
    · rw [ht] at ht'; cases ht'; rfl

/-- The batch check fails exactly at the batch's fault. -/
theorem validateBatch_eq_error_iff {ds : List EntryDraft} {err : BudgetError} :
    validateBatch ds = .error err ↔ BatchFault ds err := by
  refine ⟨fault_of_validateBatch, fun h => ?_⟩
  cases hv : validateBatch ds with
  | error err' => rw [h.unique (fault_of_validateBatch hv)]
  | ok u => exact absurd (passes_of_validateBatch hv) h.not_passes

/-- The batch check passes exactly the batches that pass every check. -/
theorem validateBatch_eq_ok_iff {ds : List EntryDraft} :
    validateBatch ds = .ok () ↔ BatchPasses ds := by
  refine ⟨passes_of_validateBatch, fun h => ?_⟩
  cases hv : validateBatch ds with
  | error err => exact absurd h (fault_of_validateBatch hv).not_passes
  | ok u => rfl

/-! ## Section 4: Appending -/

namespace Ledger

theorem append_eq_error_iff {l : Ledger} {ds : List EntryDraft} {err : BudgetError} :
    l.append ds = .error err ↔ BatchFault ds err := by
  rw [← validateBatch_eq_error_iff]
  unfold append
  cases validateBatch ds with
  | error e => simp only [bind, Except.bind, Except.error.injEq]
  | ok u => simp only [bind, Except.bind, pure, Except.pure, reduceCtorEq]

theorem append_isOk_iff {l : Ledger} {ds : List EntryDraft} :
    (∃ r, l.append ds = .ok r) ↔ BatchPasses ds := by
  rw [← validateBatch_eq_ok_iff]
  unfold append
  cases validateBatch ds with
  | error e => simp only [bind, Except.bind, reduceCtorEq, exists_false]
  | ok u => simp [bind, Except.bind, pure, Except.pure]

/-- The drafts a batch of rows was written from. -/
def batchDrafts (l : Ledger) (n : ℕ) : List EntryDraft :=
  (l.entries.filter (·.batch = n)).map Entry.draft

theorem Built.batchesFresh {l : Ledger} (h : l.Built) : l.BatchesFresh := by
  induction h with
  | empty => exact batchesFresh_empty
  | append _ happ ih => exact ih.append happ

/-- Every row of a built ledger was a sound draft. -/
theorem Built.sound {l : Ledger} (h : l.Built) : ∀ x ∈ l.entries, x.draft.Sound := by
  induction h with
  | empty => exact fun x hx => absurd hx List.not_mem_nil
  | append _ happ ih =>
    intro x hx
    rw [append_entries happ] at hx
    rcases List.mem_append.1 hx with hx | hx
    · exact ih x hx
    · exact EntryDraft.validate_eq_ok_iff.1 (append_sound happ x hx)

/-- Every batch of a built ledger passed the reclass check: the rows written under each batch
    number have reclass totals that are computed and equal in value. -/
theorem Built.matched {l : Ledger} (h : l.Built) : ∀ n, ReclassMatched (l.batchDrafts n) := by
  induction h with
  | empty => exact fun n => ⟨zero, zero, rfl, rfl⟩
  | @append l l' ds es hb happ ih =>
    intro n
    have hfresh := hb.batchesFresh
    unfold batchDrafts
    rw [append_entries happ, List.filter_append, List.map_append]
    by_cases hn : n = l.batches
    · -- the new batch: no earlier row has its number, and the rows are its drafts
      subst hn
      have hold : l.entries.filter (·.batch = l.batches) = [] :=
        List.filter_eq_nil_iff.2 fun x hx => by simpa using (hfresh x hx).ne
      have hnew : es.filter (·.batch = l.batches) = es :=
        List.filter_eq_self.2 fun x hx => by simpa using append_batch happ x hx
      rw [hold, hnew, List.map_nil, List.nil_append, append_drafts happ]
      exact (validateBatch_eq_ok_iff.1 (append_ok happ).1).matched
    · -- an earlier batch keeps its rows
      have hnew : es.filter (·.batch = n) = [] :=
        List.filter_eq_nil_iff.2 fun x hx => by simpa [append_batch happ x hx] using Ne.symm hn
      rw [hnew, List.map_nil, List.append_nil]
      exact ih n

end Ledger

namespace Engine

theorem run_write_eq_error_iff {b b' : Books} {ds : List EntryDraft} {err : BudgetError} :
    ((write ds).run).run b = (.error err, b') ↔ BatchFault ds err ∧ b' = b := by
  rw [run_write, ← Ledger.append_eq_error_iff]
  cases b.ledger.append ds with
  | error e =>
    constructor
    · intro h; cases h; exact ⟨rfl, rfl⟩
    · rintro ⟨h, rfl⟩; cases h; rfl
  | ok r =>
    constructor
    · intro h; cases h
    · rintro ⟨h, -⟩; cases h

theorem run_write_isOk_iff {b : Books} {ds : List EntryDraft} :
    (∃ es b', ((write ds).run).run b = (.ok es, b')) ↔ BatchPasses ds := by
  rw [← Ledger.append_isOk_iff, run_write]
  cases b.ledger.append ds with
  | error e =>
    constructor
    · rintro ⟨_, _, h⟩; cases h
    · rintro ⟨_, h⟩; cases h
  | ok r =>
    constructor
    · intro; exact ⟨r, rfl⟩
    · intro; exact ⟨_, _, rfl⟩

/-- A written batch: the drafts in order, each row a copy of its draft, under the ledger's next
    batch number, and nothing else of the books changed. -/
theorem run_write_ok {b b' : Books} {ds : List EntryDraft} {es : List Entry}
    (h : ((write ds).run).run b = (.ok es, b')) :
    es.map Entry.draft = ds ∧ (∀ x ∈ es, x.batch = b.ledger.batches) ∧
      b' = { b with ledger := { entries := b.ledger.entries ++ es, batches := b.ledger.batches + 1 } } := by
  rw [run_write] at h
  cases happ : b.ledger.append ds with
  | error e => rw [happ] at h; cases h
  | ok r =>
    obtain ⟨es', l'⟩ := r
    rw [happ] at h
    cases h
    obtain ⟨-, -, rfl⟩ := Ledger.append_ok happ
    exact ⟨Ledger.append_drafts happ, Ledger.append_batch happ, rfl⟩

/-- **Appending a batch.** The append fails exactly at the batch's fault, and then leaves the
    books as they were; it succeeds exactly when the batch passes every check, and then writes
    the drafts in order, each row a copy of its draft, as one batch under the ledger's next batch
    number. A ledger that appends built has only sound rows, each numbered below that next
    batch, and every batch of it has reclass totals that agree. -/
theorem write_checks_batch (b : Books) (ds : List EntryDraft) :
    (∀ err b', ((write ds).run).run b = (.error err, b') ↔ BatchFault ds err ∧ b' = b) ∧
    ((∃ es b', ((write ds).run).run b = (.ok es, b')) ↔ BatchPasses ds) ∧
    (∀ es b', ((write ds).run).run b = (.ok es, b') →
      es.map Entry.draft = ds ∧ (∀ x ∈ es, x.batch = b.ledger.batches) ∧
      b' = { b with ledger := { entries := b.ledger.entries ++ es, batches := b.ledger.batches + 1 } }) ∧
    (b.ledger.Built → (∀ x ∈ b.ledger.entries, x.draft.Sound ∧ x.batch < b.ledger.batches) ∧
      ∀ n, ReclassMatched (b.ledger.batchDrafts n)) :=
  ⟨fun _ _ => run_write_eq_error_iff, run_write_isOk_iff, fun _ _ => run_write_ok,
    fun h => ⟨fun x hx => ⟨h.sound x hx, h.batchesFresh x hx⟩, h.matched⟩⟩

end Engine

/-- An account of the operations cost center in the 2026 fiscal year. -/
def opsKey (account : String) : DimensionKey := ⟨"ACME", "FY2026", "CC-OPS", account, none, none⟩

/-- Ten, `10`. -/
def Decimal.ten : Decimal := (Decimal.make? false 10 0).getD Decimal.zero

/-- Ten to the cent, `10.00`. -/
def Decimal.tenToTheCent : Decimal := (Decimal.make? false 1000 2).getD Decimal.zero

/-- A transfer of ten from account 6100 to account 6200, the amount coming in written to the
    cent. -/
def balancedTransfer : List EntryDraft :=
  [EntryDraft.reclassing (opsKey "6100") .out Decimal.ten ⟨"Budget Transfer", "BT-2"⟩ ⟨2026, 3, 1⟩,
   EntryDraft.reclassing (opsKey "6200") .inbound Decimal.tenToTheCent ⟨"Budget Transfer", "BT-2"⟩
     ⟨2026, 3, 1⟩]

/-- The ledger holding the balanced transfer as its one batch. -/
def transferLedger : Ledger :=
  { entries := balancedTransfer.zipIdx.map fun p => Entry.ofDraft p.1 p.2 0 0, batches := 1 }

/-- The balanced transfer is written to an empty ledger, `10` and `10.00` agreeing in value, and
    the ledger it makes has sound rows and matched batches. -/
theorem Engine.transfer_ledger_sound :
    transferLedger.Built ∧
      (∀ x ∈ transferLedger.entries, x.draft.Sound ∧ x.batch < transferLedger.batches) ∧
      ∀ n, ReclassMatched (transferLedger.batchDrafts n) := by
  have hb : transferLedger.Built := .append .empty
    (show ({} : Ledger).append balancedTransfer = .ok (transferLedger.entries, transferLedger) from rfl)
  exact ⟨hb, (Engine.write_checks_batch { ledger := transferLedger } []).2.2.2 hb⟩

/-! ## Section 5: Totals that round -/

/-- The largest decimal, `2^96 - 1`. -/
def Decimal.largest : Decimal := (Decimal.make? false (Nat.pow 2 96 - 1) 0).getD Decimal.zero

/-- Four tenths, `0.4`. -/
def Decimal.fourTenths : Decimal := (Decimal.make? false 4 1).getD Decimal.zero

theorem Decimal.digitsOver_eq_one {m : ℕ} (h : mantissaLimit ≤ m) (h' : m / 10 < mantissaLimit) :
    digitsOver m = 1 := by
  rw [digitsOver, dif_neg (not_lt.2 h), digitsOver_of_lt h']

/-- Adding four tenths to the largest decimal rounds them away. -/
theorem Decimal.add_largest_fourTenths : Decimal.add largest fourTenths = .ok largest := by
  simp (disch := decide) only [Decimal.add, Decimal.combine, Decimal.fit, digitsOver_eq_one]
  decide

/-- A transfer from account 6100 to account 6200: out of the first the largest decimal and
    four tenths, into the second the largest decimal. -/
def roundedTransfer : List EntryDraft :=
  [EntryDraft.reclassing (opsKey "6100") .out largest ⟨"Budget Transfer", "BT-1"⟩ ⟨2026, 3, 1⟩,
   EntryDraft.reclassing (opsKey "6100") .out fourTenths ⟨"Budget Transfer", "BT-1"⟩ ⟨2026, 3, 1⟩,
   EntryDraft.reclassing (opsKey "6200") .inbound largest ⟨"Budget Transfer", "BT-1"⟩ ⟨2026, 3, 1⟩]

/-- The transfer's reclass totals differ by four tenths, yet the batch is written: the amount
    going out is summed in decimal arithmetic, where the four tenths round away. -/
theorem Engine.rounded_transfer_written :
    (∃ es b', ((Engine.write roundedTransfer).run).run {} = (.ok es, b')) ∧
      ((reclassAmounts .out roundedTransfer).map Decimal.val).sum ≠
        ((reclassAmounts .inbound roundedTransfer).map Decimal.val).sum := by
  have hout : reclassAmounts .out roundedTransfer = [largest, fourTenths] := rfl
  have hin : reclassAmounts .inbound roundedTransfer = [largest] := rfl
  -- the four tenths are not zero, so the exact totals differ
  have hpoint : fourTenths.val ≠ 0 := fun h => absurd (Decimal.isZero_iff_val.2 h) (by decide)
  refine ⟨Engine.run_write_isOk_iff.2 ⟨by simp [roundedTransfer], fun d hd => ?_, ?_⟩, ?_⟩
  · -- every amount is positive, and a reclass may go either way
    have hpos : ∀ x ∈ [largest, fourTenths], 0 ≤ Decimal.val x := fun x hx =>
      not_lt.1 (mt Decimal.isNegative_iff.2 (by simp at hx; rcases hx with rfl | rfl <;> decide))
    simp only [roundedTransfer, List.mem_cons, List.not_mem_nil, or_false] at hd
    rcases hd with rfl | rfl | rfl <;>
      exact ⟨hpos _ (by simp [EntryDraft.reclassing]), fun _ h => by cases h⟩
  · -- in decimal arithmetic the amount going out is the largest decimal again
    refine ⟨largest, largest, ?_, rfl⟩
    have hzero : Decimal.add Decimal.zero largest = .ok largest := rfl
    simp only [reclassTotals, hout, hin, Decimal.sum, List.foldlM_cons, List.foldlM_nil, hzero,
      bind, Except.bind, add_largest_fourTenths]
    rfl
  · rw [hout, hin]
    simpa using hpoint

end Encumbrance

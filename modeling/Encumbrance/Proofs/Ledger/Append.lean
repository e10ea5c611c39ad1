import Mathlib
import Encumbrance.Ledger.Store

/-!
# Appending a batch

The ledger changes only by `Ledger.append`, and an append either refuses the whole batch or
writes all of it. A written batch is the drafts in order, every row a copy of its draft, all
under one batch number: the ledger's count of batches so far. Since every earlier row has a
smaller batch number, the new number is used by no earlier row; `Ledger.BatchesFresh` is that
fact as an invariant, and appends keep it.

A batch that is written passed its checks: it is not empty and every draft is sound, so no
row of a ledger has a negative amount or a direction its type forbids.
-/

namespace Encumbrance

/-! ## Section 1: Running checks -/

theorem bind_eq_ok {ε α β : Type} {x : Except ε α} {f : α → Except ε β} {b : β}
    (h : x >>= f = .ok b) : ∃ a, x = .ok a ∧ f a = .ok b := by
  cases x with
  | error e => cases h
  | ok a => exact ⟨a, rfl, h⟩

theorem liftArith_eq_ok {α : Type} {x : Except ArithError α} {a : α} (h : liftArith x = .ok a) :
    x = .ok a := by
  cases x with
  | error e => cases h
  | ok b => cases h; rfl

/-- A loop whose body either goes on or gives up finishes exactly when no body gives up. -/
theorem forIn_unit_ok {ε α : Type} {xs : List α} {body : α → PUnit → Except ε (ForInStep PUnit)}
    (hbody : ∀ x, body x ⟨⟩ = .ok (.yield ⟨⟩) ∨ ∃ e, body x ⟨⟩ = .error e) :
    forIn xs ⟨⟩ body = .ok ⟨⟩ ↔ ∀ x ∈ xs, body x ⟨⟩ = .ok (.yield ⟨⟩) := by
  induction xs with
  | nil => simp; rfl
  | cons x xs ih =>
    rw [List.forIn_cons]
    rcases hbody x with h | ⟨e, h⟩
    · rw [h]
      show forIn xs ⟨⟩ body = .ok ⟨⟩ ↔ _
      simp only [List.mem_cons, forall_eq_or_imp, h, true_and]; exact ih
    · rw [h]
      show (Except.error e : Except ε PUnit) = .ok ⟨⟩ ↔ _
      simp [h]

/-- A batch that passes its checks is not empty and has only sound drafts. -/
theorem validateBatch_ok {ds : List EntryDraft} (h : validateBatch ds = .ok ()) :
    ds ≠ [] ∧ ∀ d ∈ ds, d.validate = .ok () := by
  unfold validateBatch at h
  split at h
  · simp at h; cases h
  · rename_i hne
    refine ⟨by simpa using hne, ?_⟩
    obtain ⟨⟨⟩, hfor, -⟩ := bind_eq_ok h
    intro d hd
    have hbody := (forIn_unit_ok (fun x => by
      split
      · exact .inl rfl
      · exact .inr ⟨_, rfl⟩)).1 hfor d hd
    cases hv : d.validate with
    | ok u => rfl
    | error e => rw [hv] at hbody; cases hbody

namespace EntryDraft

/-- A sound draft has no negative amount and the direction its type demands. -/
theorem validate_ok {d : EntryDraft} (h : d.validate = .ok ()) :
    d.amount.isNegative = false ∧ ∀ dir, d.entryType.fixedDirection = some dir → d.direction = dir := by
  unfold validate at h
  split at h
  · cases h
  · rename_i hneg
    refine ⟨by simpa using hneg, fun dir hdir => ?_⟩
    simp only [hdir] at h
    split at h
    · rename_i heq; exact heq.symm
    · cases h

@[simp] theorem make_key (k : DimensionKey) (t : EntryType) (a : Decimal) (s : DocumentRef)
    (p : Date) : (make k t a s p).key = k := rfl

@[simp] theorem make_entryType (k : DimensionKey) (t : EntryType) (a : Decimal) (s : DocumentRef)
    (p : Date) : (make k t a s p).entryType = t := rfl

@[simp] theorem make_amount (k : DimensionKey) (t : EntryType) (a : Decimal) (s : DocumentRef)
    (p : Date) : (make k t a s p).amount = a := rfl

@[simp] theorem make_source (k : DimensionKey) (t : EntryType) (a : Decimal) (s : DocumentRef)
    (p : Date) : (make k t a s p).source = s := rfl

@[simp] theorem make_against (k : DimensionKey) (t : EntryType) (a : Decimal) (s : DocumentRef)
    (p : Date) : (make k t a s p).against = none := rfl

@[simp] theorem bookedAgainst_key (d : EntryDraft) (doc : DocumentRef) :
    (d.bookedAgainst doc).key = d.key := rfl

@[simp] theorem bookedAgainst_entryType (d : EntryDraft) (doc : DocumentRef) :
    (d.bookedAgainst doc).entryType = d.entryType := rfl

@[simp] theorem bookedAgainst_amount (d : EntryDraft) (doc : DocumentRef) :
    (d.bookedAgainst doc).amount = d.amount := rfl

@[simp] theorem bookedAgainst_source (d : EntryDraft) (doc : DocumentRef) :
    (d.bookedAgainst doc).source = d.source := rfl

@[simp] theorem bookedAgainst_against (d : EntryDraft) (doc : DocumentRef) :
    (d.bookedAgainst doc).against = some doc := rfl

@[simp] theorem bookedAgainst_outflow (d : EntryDraft) (doc : DocumentRef) :
    (d.bookedAgainst doc).outflow = d.outflow := rfl

/-- A draft made for a type with a fixed direction flows that way. -/
theorem make_outflow (k : DimensionKey) (t : EntryType) (a : Decimal) (s : DocumentRef) (p : Date) :
    (make k t a s p).outflow = if t.fixedDirection = some .inbound then -a else a := by
  cases t <;> rfl

end EntryDraft

namespace Entry

/-- The draft a row was written from. -/
def draft (x : Entry) : EntryDraft :=
  { key := x.key, entryType := x.entryType, direction := x.direction, amount := x.amount,
    source := x.source, against := x.against, postingDate := x.postingDate }

@[simp] theorem draft_ofDraft (d : EntryDraft) (serial batch writtenAt : Nat) :
    (ofDraft d serial batch writtenAt).draft = d := rfl

@[simp] theorem draft_key (x : Entry) : x.draft.key = x.key := rfl

@[simp] theorem draft_entryType (x : Entry) : x.draft.entryType = x.entryType := rfl

@[simp] theorem draft_direction (x : Entry) : x.draft.direction = x.direction := rfl

@[simp] theorem draft_amount (x : Entry) : x.draft.amount = x.amount := rfl

@[simp] theorem draft_source (x : Entry) : x.draft.source = x.source := rfl

@[simp] theorem draft_against (x : Entry) : x.draft.against = x.against := rfl

@[simp] theorem draft_outflow (x : Entry) : x.draft.outflow = x.outflow := rfl

end Entry

namespace Ledger

/-! ## Section 2: The append -/

/-- Every row carries a batch number below the ledger's count of batches. -/
def BatchesFresh (l : Ledger) : Prop := ∀ x ∈ l.entries, x.batch < l.batches

theorem batchesFresh_empty : ({} : Ledger).BatchesFresh := fun _ h => absurd h List.not_mem_nil

/-- What a written batch is: the checked drafts, numbered on from the ledger's rows, under the
    next batch number. -/
theorem append_ok {l l' : Ledger} {ds : List EntryDraft} {es : List Entry}
    (h : l.append ds = .ok (es, l')) :
    validateBatch ds = .ok () ∧
      es = ds.zipIdx.map (fun p => Entry.ofDraft p.1 (l.size + p.2) l.batches l.batches) ∧
      l' = { entries := l.entries ++ es, batches := l.batches + 1 } := by
  unfold append at h
  obtain ⟨⟨⟩, hv, hw⟩ := bind_eq_ok h
  cases hw
  exact ⟨hv, rfl, rfl⟩

theorem append_entries {l l' : Ledger} {ds : List EntryDraft} {es : List Entry}
    (h : l.append ds = .ok (es, l')) : l'.entries = l.entries ++ es := by
  obtain ⟨-, -, rfl⟩ := append_ok h; rfl

theorem append_drafts {l l' : Ledger} {ds : List EntryDraft} {es : List Entry}
    (h : l.append ds = .ok (es, l')) : es.map Entry.draft = ds := by
  obtain ⟨-, rfl, -⟩ := append_ok h
  simp only [List.map_map]
  exact List.zipIdx_map_fst 0 ds

theorem append_batch {l l' : Ledger} {ds : List EntryDraft} {es : List Entry}
    (h : l.append ds = .ok (es, l')) : ∀ x ∈ es, x.batch = l.batches := by
  obtain ⟨-, rfl, -⟩ := append_ok h
  intro x hx
  obtain ⟨p, -, rfl⟩ := List.mem_map.1 hx
  rfl

theorem append_ne_nil {l l' : Ledger} {ds : List EntryDraft} {es : List Entry}
    (h : l.append ds = .ok (es, l')) : es ≠ [] := by
  have hds := (validateBatch_ok (append_ok h).1).1
  rw [← append_drafts h] at hds
  exact fun hes => hds (by rw [hes]; rfl)

/-- Every row written was a sound draft. -/
theorem append_sound {l l' : Ledger} {ds : List EntryDraft} {es : List Entry}
    (h : l.append ds = .ok (es, l')) : ∀ x ∈ es, x.draft.validate = .ok () := by
  intro x hx
  exact (validateBatch_ok (append_ok h).1).2 _ (append_drafts h ▸ List.mem_map_of_mem hx)

theorem BatchesFresh.append {l l' : Ledger} {ds : List EntryDraft} {es : List Entry}
    (hf : l.BatchesFresh) (h : l.append ds = .ok (es, l')) : l'.BatchesFresh := by
  obtain ⟨-, -, rfl⟩ := append_ok h
  intro x hx
  rcases List.mem_append.1 hx with hx | hx
  · exact Nat.lt_succ_of_lt (hf x hx)
  · rw [append_batch h x hx]; exact Nat.lt_succ_self _

/-- The rows a query selects after an append: the earlier ones, then the new ones it admits. -/
theorem select_append {l l' : Ledger} {ds : List EntryDraft} {es : List Entry}
    (h : l.append ds = .ok (es, l')) (q : LedgerQuery) :
    l'.select q = l.select q ++ es.filter q.admits := by
  simp [select, append_entries h, List.filter_append]

end Ledger

end Encumbrance

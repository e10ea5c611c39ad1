import Mathlib
import Encumbrance.Proofs.Control.Atomicity
import Encumbrance.Proofs.State.Batches

/-! # What a request does to the ledger

    A request leaves the ledger as it was or appends its own batch to it. So along a run the
    ledger only grows, its batch numbers stay fresh and every row in it is sound; and a
    document's history grows only by batches that requests for that document write.
-/

namespace Encumbrance

namespace Engine

/-- An append step, whatever it answers, leaves the ledger as it was or has appended its batch. -/
theorem AppendStep.ledger {α : Type} {ds : List EntryDraft} {x : EngineM (List Entry × List Shortfall)}
    (hx : AppendStep ds x) (k : List Entry × List Shortfall → α) (e : Engine) :
    (((k <$> x).run).run e).2.books.ledger = e.books.ledger ∨
      ∃ es, e.books.ledger.append ds = .ok (es, (((k <$> x).run).run e).2.books.ledger) := by
  obtain ⟨-, happ⟩ := hx.appends e
  rw [run_map]
  revert happ
  rcases (x.run).run e with ⟨err | ⟨es, overruns⟩, e'⟩
  · rintro (hl | ⟨-, es, hes⟩)
    · exact .inl hl
    · exact .inr ⟨es, hes⟩
  · intro happ
    exact .inr ⟨es, happ⟩

section History

variable {e e' : Engine} {ds : List EntryDraft} {es : List Entry}

/-- Appending a batch for document `D` grows its history by the batch, written fresh after it. -/
theorem history_append_own {D : DocumentRef} (hfresh : e.books.ledger.BatchesFresh)
    (happ : e.books.ledger.append ds = .ok (es, e'.books.ledger)) (hsrc : ∀ d ∈ ds, d.source = D) :
    Written (e.history D) ds es ∧ e'.history D = e.history D ++ es := by
  have hrow : ∀ x ∈ es, x.source = D := fun x hx =>
    hsrc _ (Ledger.append_drafts happ ▸ List.mem_map_of_mem hx)
  have hall : es.filter ({ source := some D } : LedgerQuery).admits = es :=
    List.filter_eq_self.2 fun x hx => by simp [LedgerQuery.admits, hrow x hx]
  refine ⟨⟨Ledger.append_drafts happ, Ledger.append_ne_nil happ, Ledger.append_sound happ,
    ⟨e.books.ledger.batches, Ledger.append_batch happ, fun y hy => ?_⟩⟩, ?_⟩
  · exact Nat.ne_of_lt (hfresh y (List.mem_of_mem_filter hy))
  · simp only [history, Ledger.select_append happ, hall]

/-- Appending a batch for another document leaves `D`'s history as it was. -/
theorem history_append_other {doc D : DocumentRef}
    (happ : e.books.ledger.append ds = .ok (es, e'.books.ledger)) (hsrc : ∀ d ∈ ds, d.source = doc)
    (hD : doc ≠ D) : e'.history D = e.history D := by
  have hrow : ∀ x ∈ es, x.source = doc := fun x hx =>
    hsrc _ (Ledger.append_drafts happ ▸ List.mem_map_of_mem hx)
  have hnone : es.filter ({ source := some D } : LedgerQuery).admits = [] :=
    List.filter_eq_nil_iff.2 fun x hx => by simp [LedgerQuery.admits, hrow x hx, Ne.symm hD]
  simp only [history, Ledger.select_append happ, hnone, List.append_nil]

end History

end Engine

namespace Request

/-! ## Section 1: One request -/

/-- A request leaves the ledger as it was or appends its batch. -/
theorem step_ledger (c : Request) (e : Engine) :
    (c.step e).books.ledger = e.books.ledger ∨
      ∃ ds es, c.batch? e = some ds ∧ e.books.ledger.append ds = .ok (es, (c.step e).books.ledger) := by
  unfold step
  cases hplan : c.plan? e with
  | none =>
    -- only a reload has no plan, and it writes nothing
    cases c with
    | reloadConfig cfg => exact .inl (Engine.reloadConfig_ledger cfg e)
    | event ev => cases ev <;> cases hplan
    | supplement => cases hplan
    | reclass => cases hplan
  | some P =>
    have hbatch : c.batch? e = P.drafts? := by simp [batch?, hplan]
    rw [run_of_plan hplan, hbatch]
    cases P with
    | stop r =>
      rw [Plan.run_exec_stop]
      exact .inl rfl
    | checked doc ds p k =>
      rw [Plan.run_exec_checked]
      rcases (Engine.appendStep_checked doc ds p).ledger k e with h | ⟨es, h⟩
      · exact .inl h
      · exact .inr ⟨ds, es, rfl, h⟩
    | unchecked ds k =>
      rw [Plan.run_exec_unchecked]
      rcases (Engine.appendStep_unchecked ds).ledger k e with h | ⟨es, h⟩
      · exact .inl h
      · exact .inr ⟨ds, es, rfl, h⟩

/-- Every draft of a request's batch is for the request's document. -/
theorem batch_source {c : Request} {e : Engine} {ds : List EntryDraft} (h : c.batch? e = some ds) :
    ∃ doc, c.source? = some doc ∧ ∀ d ∈ ds, d.source = doc := by
  obtain ⟨P, hP, hds⟩ := Option.bind_eq_some_iff.1 h
  obtain ⟨doc, hdoc, hfor⟩ := plan_forDocument hP
  refine ⟨doc, hdoc, ?_⟩
  cases P with
  | stop r => cases hds
  | checked _ ds' _ _ => cases hds; exact hfor.2
  | unchecked ds' _ => cases hds; exact hfor.2

/-- The ledger only grows. -/
theorem step_extends (c : Request) (e : Engine) :
    e.books.ledger.entries <+: (c.step e).books.ledger.entries := by
  rcases step_ledger c e with h | ⟨ds, es, -, happ⟩
  · rw [h]
  · rw [Ledger.append_entries happ]
    exact List.prefix_append _ _

theorem step_batchesFresh (c : Request) {e : Engine} (hfresh : e.books.ledger.BatchesFresh) :
    (c.step e).books.ledger.BatchesFresh := by
  rcases step_ledger c e with h | ⟨ds, es, -, happ⟩
  · rw [h]; exact hfresh
  · exact hfresh.append happ

/-- Every row of the ledger is sound: appends check their batches. -/
theorem step_sound (c : Request) {e : Engine}
    (hsound : ∀ x ∈ e.books.ledger.entries, x.draft.validate = .ok ()) :
    ∀ x ∈ (c.step e).books.ledger.entries, x.draft.validate = .ok () := by
  rcases step_ledger c e with h | ⟨ds, es, -, happ⟩
  · rw [h]; exact hsound
  · intro x hx
    rw [Ledger.append_entries happ] at hx
    rcases List.mem_append.1 hx with hx | hx
    · exact hsound x hx
    · exact Ledger.append_sound happ x hx

/-- A document's history after a request: as it was, or followed by a batch of the request,
    which is for that document and written fresh. -/
theorem step_history (c : Request) {e : Engine} (hfresh : e.books.ledger.BatchesFresh)
    (D : DocumentRef) :
    (c.step e).history D = e.history D ∨
      ∃ ds es, c.source? = some D ∧ c.batch? e = some ds ∧ Written (e.history D) ds es ∧
        (c.step e).history D = e.history D ++ es := by
  rcases step_ledger c e with h | ⟨ds, es, hds, happ⟩
  · exact .inl (by simp only [Engine.history, h])
  obtain ⟨doc, hdoc, hsrc⟩ := batch_source hds
  by_cases hD : doc = D
  · -- the batch is the document's own
    subst hD
    obtain ⟨hw, hhist⟩ := Engine.history_append_own hfresh happ hsrc
    exact .inr ⟨ds, es, hdoc, hds, hw, hhist⟩
  · -- another document's batch adds nothing to this history
    exact .inl (Engine.history_append_other happ hsrc hD)

end Request

end Encumbrance

import Mathlib
import Encumbrance.Proofs.State.Status
import Encumbrance.Proofs.Control.Cancellation
import Encumbrance.Proofs.Availability.Overshoot
import Encumbrance.Proofs.Availability.Transparency

/-! # Lifecycle events are idempotent

    A lifecycle event delivered twice is handled once. Each handler guards its write with a test
    of its own, and each test recognises exactly what the handler itself writes:

    * reaching the target state writes a reservation, and stops with a duplicate once the
      document's derived state is no longer unlocked;
    * submitting a secondary writes consumption against it, and stops with a duplicate once some
      consumption against it is outstanding;
    * rejecting or reopening releases every outstanding reservation, and stops as having nothing
      reserved once none is outstanding;
    * cancelling a secondary reverses every outstanding consumption against it, and stops with a
      duplicate once none is outstanding.

    An event that did not apply wrote nothing, whatever it did to the cache and the lock slots,
    so the second delivery meets twin books (`Engine.Twin`) and answers as the first did.
-/

namespace Encumbrance

open Decimal

/-- What an event that has just applied answers when it is delivered again. -/
def LifecycleEvent.repeated : LifecycleEvent → Outcome
  | .rejectedOrReopened _ _ => .skipped .nothingReserved
  | _ => .duplicate

/-- Every answer of a plan's append is an application. -/
def Plan.WritesApply : Plan Outcome → Prop
  | .stop _ => True
  | .checked _ _ _ k => ∀ r, ∃ u, k r = .applied u
  | .unchecked _ k => ∀ r, ∃ u, k r = .applied u

namespace Engine

open Books

/-! ## Section 1: A failed plan writes nothing -/

section Failure

variable {α : Type} {L : List (BudgetScope × ℚ × ℚ × ℚ)} {refuse : Bool} {doc : DocumentRef}
  {ds : List EntryDraft} {answer : List Entry × List Shortfall → α} {e e' : Engine}

/-- A gated append that fails has written nothing: a batch that passes the gate answers. -/
theorem Gated.error_ledger {err : BudgetError} (h : Gated L refuse doc ds answer e (.error err) e') :
    e'.books.ledger = e.books.ledger := by
  by_cases hpass : L = [] ∨ refuse = false
  · obtain ⟨_, _, hr, -⟩ := h.passed hpass
    cases hr
  · rw [not_or, Bool.not_eq_false] at hpass
    exact (h.refused hpass.1 hpass.2).2

/-- With room for the books after it, a plan that fails has written nothing. A checked batch
    that was written passed the gate, and an unchecked one that was written answers: every
    figure it reads afterwards has room. -/
theorem exec_error_ledger (P : Plan α) (hagree : e.CacheAgrees) {S : ℕ}
    (hroom : Room S (((P.exec).run).run e).2.books.amounts) {err : BudgetError}
    (herr : (((P.exec).run).run e).1 = .error err) :
    (((P.exec).run).run e).2.books.ledger = e.books.ledger := by
  cases P with
  | stop r => rw [Plan.run_exec_stop]
  | checked doc ds p k =>
    rw [Plan.run_exec_checked] at herr hroom ⊢
    rcases (appendStep_checked doc ds p).ledger k e with hl | ⟨es, happ⟩
    · exact hl
    rw [Plan.run_map_state] at happ hroom
    obtain ⟨hfree, hvalid, hroomB⟩ := (appendStep_checked doc ds p).written_from happ hroom
    have hgate := @checked_gated _ doc ds p k e S hagree hfree hvalid hroomB
    rw [Plan.run_exec_checked, herr] at hgate
    exact hgate.error_ledger
  | unchecked ds k =>
    rw [Plan.run_exec_unchecked] at herr hroom ⊢
    rcases (appendStep_unchecked ds).ledger k e with hl | ⟨es, happ⟩
    · exact hl
    rw [Plan.run_map_state] at happ hroom
    obtain ⟨hfree, hvalid, hroomB⟩ := (appendStep_unchecked ds).written_from happ hroom
    obtain ⟨r, e₁, hrun, -⟩ := run_appendUnchecked_ok hagree hfree hvalid hroomB k
    rw [hrun] at herr
    cases herr

/-- A plan whose writes all apply, and that did not apply, has written nothing. -/
theorem exec_ledger_of_not_applied {P : Plan Outcome} (hP : P.WritesApply) (hagree : e.CacheAgrees)
    {S : ℕ} (hroom : Room S (((P.exec).run).run e).2.books.amounts)
    (hna : ∀ u, (((P.exec).run).run e).1 ≠ .ok (.applied u)) :
    (((P.exec).run).run e).2.books.ledger = e.books.ledger := by
  rcases hres : (((P.exec).run).run e).1 with err | o
  · exact exec_error_ledger P hagree hroom hres
  -- an answer of an append would be an application
  cases P with
  | stop r => rw [Plan.run_exec_stop]
  | checked doc ds p k =>
    rw [Plan.run_exec_checked, run_map] at hres hna
    rcases hrun : ((appendChecked doc ds p).run).run e with ⟨_ | r, e₁⟩ <;> rw [hrun] at hres hna <;>
      dsimp only at hres hna
    · cases hres
    · obtain ⟨u, hu⟩ := hP r
      exact absurd (by rw [hu]) (hna u)
  | unchecked ds k =>
    rw [Plan.run_exec_unchecked, run_map] at hres hna
    rcases hrun : ((appendUnchecked ds).run).run e with ⟨_ | r, e₁⟩ <;> rw [hrun] at hres hna <;>
      dsimp only at hres hna
    · cases hres
    · obtain ⟨u, hu⟩ := hP r
      exact absurd (by rw [hu]) (hna u)

end Failure

theorem eventPlan_writesApply (e : Engine) (ev : LifecycleEvent) : (e.eventPlan ev).WritesApply := by
  cases ev <;> simp only [eventPlan, reachPlan, submitPlan, rejectPlan, cancelPlan] <;>
    repeat' split
  all_goals simp [Plan.WritesApply]

/-! ## Section 2: Delivered again after it applied, an event stops -/

section Again

variable {e e₁ : Engine} {document : SourceDocument} {u : StatusUpdate} {S : ℕ}
  {ds : List EntryDraft} {es : List Entry}

theorem room_history (hroom : Room S (e.books.ledger.entries.map Entry.amount)) (D : DocumentRef) :
    Room S ((e.history D).map Entry.amount) :=
  hroom.sublist (List.filter_sublist.map Entry.amount)

theorem room_before (hroom₁ : Room S (e₁.books.ledger.entries.map Entry.amount))
    (happ : e.books.ledger.append ds = .ok (es, e₁.books.ledger)) :
    Room S (e.books.ledger.entries.map Entry.amount) := by
  refine hroom₁.sublist ?_
  rw [Ledger.append_entries happ, List.map_append]
  exact List.sublist_append_left _ _

/-- A reservation written leaves the document's derived state other than unlocked, so the
    target state reached again is a duplicate. -/
theorem reachPlan_after_applied {context : EventContext} (hinv : e.BalanceInv)
    (hroom₁ : Room S (e₁.books.ledger.entries.map Entry.amount)) (hpos : e₁.books.ledger.RowsPositive)
    (h : ((onReachTargetState document context).run).run e = (.ok (.applied u), e₁)) :
    e₁.reachPlan document context = .stop (.ok .duplicate) := by
  have hshows := (reach_applied_shows hinv hpos h).2
  obtain ⟨_, _, _, sh, hen, hst, -, -, -, -, -, hframe, hu⟩ := run_reach_applied h
  have hres : Shows (e₁.history document.docRef) .reserved := by
    rw [hu] at hshows
    split at hshows <;> exact hshows
  obtain ⟨ps, hps, hposs⟩ := positions_exact (room_history hroom₁ document.docRef)
  simp [reachPlan, hframe.config, hen, hst, hps, hposs.deriveState_of_shows hres]

/-- The consumption a submission books is against the secondary and positive, so the
    secondary submitted again is a duplicate. -/
theorem submitPlan_after_applied {secondary : SecondaryDocument} {context : EventContext}
    (hinv : e.BalanceInv) (hroom₁ : Room S (e₁.books.ledger.entries.map Entry.amount))
    (hpos : e₁.books.ledger.RowsPositive)
    (h : ((onSecondarySubmitted document secondary context).run).run e = (.ok (.applied u), e₁)) :
    e₁.submitPlan document secondary context = .stop (.ok .duplicate) := by
  obtain ⟨slices, out, es, -, hen, hnone, -, hne, -, happ, hframe, -⟩ := run_submit_applied h
  obtain ⟨hw, hhist⟩ :=
    history_append_own (D := document.docRef) hinv.fresh happ submit_drafts_source
  -- the row of any slice consumes against the secondary, where nothing was consumed before
  obtain ⟨s, hs⟩ := List.exists_mem_of_ne_nil slices hne
  obtain ⟨x, hx, hxd⟩ := hw.exists_row (List.mem_append_right _ (List.mem_map_of_mem hs))
  have hC : 0 < consumedAt ((e₁.history document.docRef).filter
      fun y => y.against = some secondary.docRef) x.key := by
    rw [hhist, (hinv.history document.docRef).consumedAt_submit_against
      (room_history (room_before hroom₁ happ) document.docRef) hnone fun y hy => (hw.submit_rows rfl y hy).1]
    exact hw.consumedAt_batch_pos submit_drafts_ne_reversal hx (by simpa using congrArg EntryDraft.entryType hxd)
      (hpos.of_append happ x hx)
  obtain ⟨out', hout', -, hempty⟩ :=
    outstandingConsumedAgainst_exact (room_history hroom₁ document.docRef) secondary.docRef
  have hne' : out' ≠ [] := fun h0 => absurd (hempty.1 h0 x.key) (not_le.2 hC)
  simp [submitPlan, hframe.config, hen, hout', hne']

/-- A rejection releases every outstanding reservation, so rejecting again finds nothing
    reserved. -/
theorem rejectPlan_after_applied (hinv : e.BalanceInv)
    (hroom₁ : Room S (e₁.books.ledger.entries.map Entry.amount))
    (h : ((onRejectedOrReopened document).run).run e = (.ok (.applied u), e₁)) :
    e₁.rejectPlan document = .stop (.ok (.skipped .nothingReserved)) := by
  obtain ⟨_, es, hen, -, -, happ, hframe, hu⟩ := run_reject_applied h
  have hshows := (reject_applied_shows hinv (room_before hroom₁ happ) h).2
  rw [hu] at hshows
  obtain ⟨hR, -⟩ := hshows
  obtain ⟨out, hout, -, hempty⟩ := outstandingReserved_exact (room_history hroom₁ document.docRef)
  rw [hempty.2 hR] at hout
  simp [rejectPlan, hframe.config, hen, hout]

/-- A cancellation reverses all the consumption against the secondary, so cancelling it again
    is a duplicate. -/
theorem cancelPlan_after_applied {secondary : SecondaryDocument} (hinv : e.BalanceInv)
    (hroom₁ : Room S (e₁.books.ledger.entries.map Entry.amount))
    (h : ((onSecondaryCancelled document secondary).run).run e = (.ok (.applied u), e₁)) :
    e₁.cancelPlan document secondary = .stop (.ok .duplicate) := by
  obtain ⟨reversed, _, _, es, -, hen, hrev, -, -, -, happ, hframe, -⟩ := run_cancel_applied h
  obtain ⟨hw, hhist⟩ :=
    history_append_own (D := document.docRef) hinv.fresh happ cancel_drafts_source
  have hC : ∀ k, consumedAt ((e₁.history document.docRef).filter
      fun y => y.against = some secondary.docRef) k ≤ 0 := by
    intro k
    rw [hhist, hw.consumedAt_cancel rfl (fun a => decide (a = some secondary.docRef)) k,
      (hinv.history document.docRef).amountAt_reversed
        (room_history (room_before hroom₁ happ) document.docRef) hrev k]
    simp
  obtain ⟨out, hout, -, hempty⟩ :=
    outstandingConsumedAgainst_exact (room_history hroom₁ document.docRef) secondary.docRef
  rw [hempty.2 hC] at hout
  simp [cancelPlan, hframe.config, hen, hout]

/-- Delivered again after it applied, an event stops with what `LifecycleEvent.repeated`
    says. -/
theorem eventPlan_after_applied {ev : LifecycleEvent} (hinv : e.BalanceInv)
    (hroom₁ : Room S (e₁.books.ledger.entries.map Entry.amount)) (hpos : e₁.books.ledger.RowsPositive)
    (h : ((handle ev).run).run e = (.ok (.applied u), e₁)) :
    e₁.eventPlan ev = .stop (.ok ev.repeated) := by
  cases ev with
  | reachedTargetState document context => exact reachPlan_after_applied hinv hroom₁ hpos h
  | secondarySubmitted document secondary context => exact submitPlan_after_applied hinv hroom₁ hpos h
  | rejectedOrReopened document context => exact rejectPlan_after_applied hinv hroom₁ h
  | secondaryCancelled document secondary context => exact cancelPlan_after_applied hinv hroom₁ h

end Again

/-! ## Section 3: Delivered again after it did not apply, an event answers alike -/

theorem step_event (ev : LifecycleEvent) (e : Engine) :
    (Request.event ev).step e = (((handle ev).run).run e).2 :=
  Plan.run_map_state _ _ _

/-- An event that did not apply leaves a twin of the engine it started from: nothing written,
    the same scopes held, and the cache agreeing still. -/
theorem twin_of_not_applied {e : Engine} {ev : LifecycleEvent} (hagree : e.CacheAgrees) {S : ℕ}
    (hroom : Room S (((handle ev).run).run e).2.books.amounts)
    (hna : ∀ u, (((handle ev).run).run e).1 ≠ .ok (.applied u)) :
    e.Twin (((handle ev).run).run e).2 := by
  have hagree₁ := Request.step_cacheAgrees (.event ev) hagree
  rw [step_event] at hagree₁
  rw [run_handle] at hroom hna hagree₁ ⊢
  have hframe := frame_exec (e.eventPlan ev) e
  have hled := exec_ledger_of_not_applied (eventPlan_writesApply e ev) hagree hroom hna
  refine ⟨hframe.config, hframe.directory, hframe.calendar,
    ⟨hled, hframe.envelopes, hframe.posted, hframe.actualsFrom, hframe.held, hagree, ?_⟩⟩
  rw [← hframe.config]
  exact hagree₁

/-! ## Section 4: Along every run -/

/-- **Idempotence.** Run any requests from an empty ledger and an empty cache, then deliver
    one lifecycle event twice. The second delivery writes nothing. If the first applied, the
    second is a duplicate, or for a rejection finds nothing reserved; otherwise the second
    answers as the first did. The books after the first delivery have room for exact sums. -/
theorem handle_idempotent {e₀ : Engine} (h₀ : e₀.books.ledger = {}) (hc₀ : e₀.books.cache.slots = [])
    (cs : List Request) (ev : LifecycleEvent) {S : ℕ}
    (hroom : Room S (((handle ev).run).run (Request.runAll cs e₀)).2.books.amounts) :
    let first := ((handle ev).run).run (Request.runAll cs e₀)
    let second := ((handle ev).run).run first.2
    second.2.books.ledger = first.2.books.ledger ∧
      (∀ u, first.1 = .ok (.applied u) → second.1 = .ok ev.repeated) ∧
      ((∀ u, first.1 ≠ .ok (.applied u)) → second.1 = first.1) := by
  intro first second
  have hagree : (Request.runAll cs e₀).CacheAgrees :=
    Request.runAll_cacheAgrees cs (cacheAgrees_of_empty hc₀)
  by_cases happlied : ∃ u, first.1 = .ok (.applied u)
  · obtain ⟨u, hu⟩ := happlied
    -- the run before the event keeps the balance, and every row written is positive
    have hstep := step_event ev (Request.runAll cs e₀)
    have hroom₁ : Room S (first.2.books.ledger.entries.map Entry.amount) :=
      hroom.sublist (Books.ledger_sublist_amounts _)
    have hinv := Engine.BalanceInv.runAll cs (balanceInv_of_empty h₀)
      (hroom₁.sublist (by rw [← hstep]; exact (Request.step_extends _ _).sublist.map Entry.amount))
    have hpos : first.2.books.ledger.RowsPositive := by
      rw [← hstep, ← Request.runAll_append]
      exact Request.runAll_rowsPositive _ (by rw [h₀]; exact Ledger.rowsPositive_empty)
    have hsecond : second = (.ok ev.repeated, first.2) := by
      show ((handle ev).run).run first.2 = _
      rw [run_handle, eventPlan_after_applied hinv hroom₁ hpos (Prod.ext hu rfl), Plan.run_exec_stop]
    exact ⟨by rw [hsecond], fun _ _ => by rw [hsecond], fun hna => absurd hu (hna u)⟩
  · have hna : ∀ u, first.1 ≠ .ok (.applied u) := fun u hu => happlied ⟨u, hu⟩
    obtain ⟨hr, ht⟩ := (twin_of_not_applied hagree hroom hna).handle ev
    exact ⟨ht.books.ledger, fun u hu => absurd hu (hna u), fun _ => hr⟩

/-- A travel claim reserved and then rejected: rejected a second time, it finds nothing
    reserved and writes nothing. -/
theorem rejected_claim_repeats_as_nothing_reserved :
    let travel : DimensionKey := ⟨"ACME", "FY2026", "CC-OPS", "6100-Travel", none, none⟩
    let claim : SourceDocument :=
      { docRef := ⟨"Expense Claim", "EXP-1"⟩, company := some "ACME", costCenter := "CC-OPS",
        postingDate := ⟨2026, 3, 10⟩, workflowState := "Approved",
        lines := [⟨"6100-Travel", Decimal.ofNat 600⟩] }
    let e₀ : Engine :=
      { directory := [("CC-OPS", "ACME")],
        calendar := [⟨"FY2026", none, ⟨2026, 1, 1⟩, ⟨2026, 12, 31⟩⟩],
        books := { envelopes := EnvelopeBook.ofList [(travel, Decimal.ofNat 1000)] } }
    let cs : List Request := [.event (.reachedTargetState claim {})]
    let ev : LifecycleEvent := .rejectedOrReopened claim {}
    Room 0 (((handle ev).run).run (Request.runAll cs e₀)).2.books.amounts ∧
      let first := ((handle ev).run).run (Request.runAll cs e₀)
      let second := ((handle ev).run).run first.2
      second.2.books.ledger = first.2.books.ledger ∧
        (∀ u, first.1 = .ok (.applied u) → second.1 = .ok ev.repeated) ∧
        ((∀ u, first.1 ≠ .ok (.applied u)) → second.1 = first.1) := by
  intro travel claim e₀ cs ev
  have hroom : Room 0 (((handle ev).run).run (Request.runAll cs e₀)).2.books.amounts :=
    ⟨by decide, by decide +kernel, by decide +kernel⟩
  exact ⟨hroom, handle_idempotent rfl rfl cs ev hroom⟩

end Engine

end Encumbrance

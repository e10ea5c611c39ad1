import Mathlib
import Encumbrance.Proofs.State.Balance
import Encumbrance.Proofs.Control.Gate

/-! # What an applied event wrote

    A lifecycle event answers with an applied outcome only after it appended its batch. Every
    plan of a lifecycle event either stops with an answer that is not applied, or has passed
    all its guards (`Engine.reachPlan_cases` and its siblings), and then it is the append of
    one batch; an append step that answers has written that batch. So an applied outcome tells
    what stood in the engine before the event and which rows it wrote (`Engine.run_reach_applied`
    and its siblings).

    Slicing never gives a slice of zero. Every amount an operation drafts is a slice, an
    outstanding amount, an amount checked to be positive, or copied from an earlier
    reservation, and rows are checked not to be negative before they are written. So every row
    of every ledger a run reaches from an empty one moves a positive amount
    (`Ledger.RowsPositive`).
-/

namespace Encumbrance

/-! ## Section 1: Slices are never zero -/

namespace Slicer

/-- Settling the residual drops the slices of zero. -/
theorem settle_ne_zero {slices out : List Slice} {total : Decimal}
    (h : settle slices total = .ok out) : ∀ s ∈ out, s.amount.isZero = false := by
  unfold settle at h
  -- whichever slice takes the residual, the slices of zero are dropped last
  obtain ⟨adjusted, rfl⟩ : ∃ adjusted : List Slice, out = adjusted.filter fun s => !s.amount.isZero := by
    repeat' (first | (dsimp only at h) | (simp only [pure_bind] at h) | split at h |
      (obtain ⟨_, -, h⟩ := bind_eq_ok h))
    all_goals (cases h; exact ⟨_, rfl⟩)
  intro s hs
  simpa using (List.mem_filter.1 hs).2

/-- Slicing never gives a slice of zero. -/
theorem slice_ne_zero {sl : Slicer} {mode : SliceMode} {template : DimensionSource}
    {lines : List AmountLine} {allocation : Option AllocationDocument}
    {callerDefault : Option String} {slices : List Slice}
    (h : sl.slice mode template lines allocation callerDefault = .ok slices) :
    ∀ s ∈ slices, s.amount.isZero = false := by
  unfold slice at h
  -- every way through ends by settling some slices
  repeat' (first | (dsimp only at h) | split at h | (obtain ⟨_, -, h⟩ := bind_eq_ok h))
  all_goals first | cases h | exact settle_ne_zero (liftArith_eq_ok h)

end Slicer

/-! ## Section 2: An append step that answers -/

namespace Engine

/-- An append step that answers has appended its batch and kept the frame. -/
theorem AppendStep.run_ok {α : Type} {ds : List EntryDraft} {x : EngineM (List Entry × List Shortfall)}
    (hx : AppendStep ds x) {k : List Entry × List Shortfall → α} {e e' : Engine} {a : α}
    (h : ((k <$> x).run).run e = (.ok a, e')) :
    ∃ es sh, a = k (es, sh) ∧ e.books.ledger.append ds = .ok (es, e'.books.ledger) ∧ Frame e e' := by
  obtain ⟨hframe, happ⟩ := hx.appends e
  rw [run_map] at h
  rcases hrun : (x.run).run e with ⟨err | ⟨es, sh⟩, e₁⟩ <;> rw [hrun] at h hframe happ
  · cases h
  · obtain ⟨h₁, rfl⟩ := Prod.mk.inj h
    cases h₁
    exact ⟨es, sh, rfl, happ, hframe⟩

/-! ## Section 3: The plans of the lifecycle events, case by case -/

section Cases

variable (e : Engine) (document : SourceDocument)

/-- Reaching the target state stops without applying, or passes every guard. -/
theorem reachPlan_cases (context : EventContext) :
    (∃ r, e.reachPlan document context = .stop r ∧ ∀ u, r ≠ .ok (.applied u)) ∨
      ∃ ps slices, e.config.enableBudgetLock = true ∧
        document.workflowState = e.config.lockOnState ∧
        positions (e.history document.docRef) = .ok ps ∧ deriveState ps = .unlocked ∧
        e.slicer.slice .document document.source document.lines document.allocation
          context.defaultFiscalPeriod = .ok slices ∧ slices ≠ [] := by
  unfold reachPlan
  split
  · exact .inl ⟨_, rfl, fun _ h => by cases h⟩
  rename_i hen
  split
  · exact .inl ⟨_, rfl, fun _ h => by cases h⟩
  rename_i hstate
  split
  · exact .inl ⟨_, rfl, fun _ h => by cases h⟩
  rename_i ps hps
  split
  · exact .inl ⟨_, rfl, fun _ h => by cases h⟩
  rename_i hun
  split
  · exact .inl ⟨_, rfl, fun _ h => by cases h⟩
  rename_i slices hsl
  split
  · exact .inl ⟨_, rfl, fun _ h => by cases h⟩
  rename_i hne
  exact .inr ⟨ps, slices, by simpa using hen, not_not.1 hstate, hps, not_not.1 hun, hsl,
    by simpa using hne⟩

/-- Submitting a secondary stops without applying, or passes every guard. -/
theorem submitPlan_cases (secondary : SecondaryDocument) (context : EventContext) :
    (∃ r, e.submitPlan document secondary context = .stop r ∧ ∀ u, r ≠ .ok (.applied u)) ∨
      ∃ slices out, e.config.enableBudgetLock = true ∧
        outstandingConsumedAgainst (e.history document.docRef) secondary.docRef = .ok [] ∧
        e.slicer.slice .secondary (document.sourceAt secondary.postingDate) secondary.lines
          document.allocation context.defaultFiscalPeriod = .ok slices ∧ slices ≠ [] ∧
        outstandingReserved (e.history document.docRef) = .ok out := by
  unfold submitPlan
  split
  · exact .inl ⟨_, rfl, fun _ h => by cases h⟩
  rename_i hen
  split
  · exact .inl ⟨_, rfl, fun _ h => by cases h⟩
  rename_i consumed hcons
  split
  · exact .inl ⟨_, rfl, fun _ h => by cases h⟩
  rename_i hnone
  split
  · exact .inl ⟨_, rfl, fun _ h => by cases h⟩
  rename_i slices hsl
  split
  · exact .inl ⟨_, rfl, fun _ h => by cases h⟩
  rename_i hne
  split
  · exact .inl ⟨_, rfl, fun _ h => by cases h⟩
  rename_i out hout
  have hnil : consumed = [] := by simpa using hnone
  subst hnil
  exact .inr ⟨slices, out, by simpa using hen, hcons, hsl, by simpa using hne, hout⟩

/-- Rejecting stops without applying, or finds a reservation outstanding. -/
theorem rejectPlan_cases :
    (∃ r, e.rejectPlan document = .stop r ∧ ∀ u, r ≠ .ok (.applied u)) ∨
      ∃ out, e.config.enableBudgetLock = true ∧
        outstandingReserved (e.history document.docRef) = .ok out ∧ out ≠ [] := by
  unfold rejectPlan
  split
  · exact .inl ⟨_, rfl, fun _ h => by cases h⟩
  rename_i hen
  split
  · exact .inl ⟨_, rfl, fun _ h => by cases h⟩
  rename_i out hout
  split
  · exact .inl ⟨_, rfl, fun _ h => by cases h⟩
  rename_i hne
  exact .inr ⟨out, by simpa using hen, hout, by simpa using hne⟩

/-- Cancelling a secondary stops without applying, or finds consumption to reverse. -/
theorem cancelPlan_cases (secondary : SecondaryDocument) :
    (∃ r, e.cancelPlan document secondary = .stop r ∧ ∀ u, r ≠ .ok (.applied u)) ∨
      ∃ reversed others restore, e.config.enableBudgetLock = true ∧
        outstandingConsumedAgainst (e.history document.docRef) secondary.docRef = .ok reversed ∧
        reversed ≠ [] ∧
        positions ((e.history document.docRef).filter (·.against ≠ some secondary.docRef)) =
          .ok others ∧
        restoreOf (e.history document.docRef) (others.any fun p => Decimal.zero < p.consumed) =
          .ok restore := by
  unfold cancelPlan
  split
  · exact .inl ⟨_, rfl, fun _ h => by cases h⟩
  rename_i hen
  split
  · exact .inl ⟨_, rfl, fun _ h => by cases h⟩
  rename_i reversed hrev
  split
  · exact .inl ⟨_, rfl, fun _ h => by cases h⟩
  rename_i hne
  split
  · exact .inl ⟨_, rfl, fun _ h => by cases h⟩
  rename_i others hothers
  split
  · exact .inl ⟨_, rfl, fun _ h => by cases h⟩
  rename_i restore hrestore
  exact .inr ⟨reversed, others, restore, by simpa using hen, hrev, by simpa using hne, hothers,
    hrestore⟩

end Cases

section Unchecked

variable {e : Engine} {document : SourceDocument}

/-- With its guards passed, submitting a secondary releases what is outstanding and books the
    consumption, against the secondary, in one unchecked append. -/
theorem submitPlan_eq_unchecked {secondary : SecondaryDocument} {context : EventContext}
    {slices : List Slice} {out : List (DimensionKey × Decimal)}
    (hen : e.config.enableBudgetLock = true)
    (hcons : outstandingConsumedAgainst (e.history document.docRef) secondary.docRef = .ok [])
    (hsl : e.slicer.slice .secondary (document.sourceAt secondary.postingDate) secondary.lines
      document.allocation context.defaultFiscalPeriod = .ok slices) (hne : slices ≠ [])
    (hout : outstandingReserved (e.history document.docRef) = .ok out) :
    e.submitPlan document secondary context = .unchecked ((out.map fun (k, amount) =>
        (EntryDraft.make k .release amount document.docRef secondary.postingDate).bookedAgainst
          secondary.docRef) ++
      slices.map fun s =>
        (EntryDraft.make s.key .consumption s.amount document.docRef
          secondary.postingDate).bookedAgainst secondary.docRef)
      fun (entries, overruns) =>
        .applied { document := document.docRef, status := .consumed, entries, overruns } := by
  simp [submitPlan, hen, hcons, hsl, hne, hout]

/-- With a reservation outstanding, rejecting releases it in one unchecked append. -/
theorem rejectPlan_eq_unchecked {out : List (DimensionKey × Decimal)}
    (hen : e.config.enableBudgetLock = true)
    (hout : outstandingReserved (e.history document.docRef) = .ok out) (hne : out ≠ []) :
    e.rejectPlan document = .unchecked (out.map fun (k, amount) =>
        EntryDraft.make k .release amount document.docRef document.postingDate)
      fun (entries, _) =>
        .applied { document := document.docRef, status := .released, entries, overruns := [] } := by
  simp [rejectPlan, hen, hout, hne]

/-- With consumption to reverse, cancelling reverses it and restores what `restoreOf` gives, in
    one unchecked append. -/
theorem cancelPlan_eq_unchecked {secondary : SecondaryDocument}
    {reversed restore : List (DimensionKey × Decimal)} {others : List Position}
    (hen : e.config.enableBudgetLock = true)
    (hrev : outstandingConsumedAgainst (e.history document.docRef) secondary.docRef = .ok reversed)
    (hne : reversed ≠ [])
    (hothers : positions ((e.history document.docRef).filter (·.against ≠ some secondary.docRef)) =
      .ok others)
    (hrestore : restoreOf (e.history document.docRef)
      (others.any fun p => Decimal.zero < p.consumed) = .ok restore) :
    e.cancelPlan document secondary = .unchecked ((reversed.map fun (k, amount) =>
        (EntryDraft.make k .reversal amount document.docRef secondary.postingDate).bookedAgainst
          secondary.docRef) ++
      restore.map fun (k, amount) =>
        EntryDraft.make k .reservation amount document.docRef document.postingDate)
      fun (entries, overruns) =>
        .applied { document := document.docRef,
                   status := if !restore.isEmpty then
                       (if overruns.isEmpty then .locked else .overrunAllowed)
                     else if others.any fun p => Decimal.zero < p.consumed then .consumed
                     else .released,
                   entries, overruns } := by
  simp only [cancelPlan, hothers, hrestore]
  simp [hen, hrev, hne]

end Unchecked

/-! ## Section 4: What an applied event found and wrote -/

section Applied

variable {e e' : Engine} {document : SourceDocument} {u : StatusUpdate}

/-- Reaching the target state applied: the document was unlocked, and its slices were reserved. -/
theorem run_reach_applied {context : EventContext}
    (h : ((onReachTargetState document context).run).run e = (.ok (.applied u), e')) :
    ∃ ps slices es sh, e.config.enableBudgetLock = true ∧
      document.workflowState = e.config.lockOnState ∧
      positions (e.history document.docRef) = .ok ps ∧ deriveState ps = .unlocked ∧
      e.slicer.slice .document document.source document.lines document.allocation
        context.defaultFiscalPeriod = .ok slices ∧ slices ≠ [] ∧
      e.books.ledger.append (slices.map fun s =>
        EntryDraft.make s.key .reservation s.amount document.docRef document.postingDate) =
        .ok (es, e'.books.ledger) ∧ Frame e e' ∧
      u = { document := document.docRef, status := if sh.isEmpty then .locked else .overrunAllowed,
            entries := es, overruns := sh } := by
  rw [run_onReachTargetState] at h
  rcases reachPlan_cases e document context with
    ⟨r, hr, hna⟩ | ⟨ps, slices, hen, hst, hps, hun, hsl, hne⟩
  · rw [hr, Plan.run_exec_stop, Prod.mk.injEq] at h
    exact absurd h.1 (hna u)
  · rw [reachPlan_eq_checked hen hst hps hun hsl hne, Plan.run_exec_checked] at h
    obtain ⟨es, sh, hu, happ, hframe⟩ := (appendStep_checked _ _ _).run_ok h
    exact ⟨ps, slices, es, sh, hen, hst, hps, hun, hsl, hne, happ, hframe, Outcome.applied.inj hu⟩

/-- Submitting a secondary applied: nothing was consumed against it, and the outstanding
    reservation was released and the slices consumed against it. -/
theorem run_submit_applied {secondary : SecondaryDocument} {context : EventContext}
    (h : ((onSecondarySubmitted document secondary context).run).run e = (.ok (.applied u), e')) :
    ∃ slices out es sh, e.config.enableBudgetLock = true ∧
      outstandingConsumedAgainst (e.history document.docRef) secondary.docRef = .ok [] ∧
      e.slicer.slice .secondary (document.sourceAt secondary.postingDate) secondary.lines
        document.allocation context.defaultFiscalPeriod = .ok slices ∧ slices ≠ [] ∧
      outstandingReserved (e.history document.docRef) = .ok out ∧
      e.books.ledger.append ((out.map fun (k, amount) =>
          (EntryDraft.make k .release amount document.docRef secondary.postingDate).bookedAgainst
            secondary.docRef) ++
        slices.map fun s =>
          (EntryDraft.make s.key .consumption s.amount document.docRef
            secondary.postingDate).bookedAgainst secondary.docRef) = .ok (es, e'.books.ledger) ∧
      Frame e e' ∧
      u = { document := document.docRef, status := .consumed, entries := es, overruns := sh } := by
  rw [run_onSecondarySubmitted] at h
  rcases submitPlan_cases e document secondary context with
    ⟨r, hr, hna⟩ | ⟨slices, out, hen, hcons, hsl, hne, hout⟩
  · rw [hr, Plan.run_exec_stop, Prod.mk.injEq] at h
    exact absurd h.1 (hna u)
  · rw [submitPlan_eq_unchecked hen hcons hsl hne hout, Plan.run_exec_unchecked] at h
    obtain ⟨es, sh, hu, happ, hframe⟩ := (appendStep_unchecked _).run_ok h
    exact ⟨slices, out, es, sh, hen, hcons, hsl, hne, hout, happ, hframe, Outcome.applied.inj hu⟩

/-- Rejecting applied: a reservation was outstanding, and it was released. -/
theorem run_reject_applied (h : ((onRejectedOrReopened document).run).run e = (.ok (.applied u), e')) :
    ∃ out es, e.config.enableBudgetLock = true ∧
      outstandingReserved (e.history document.docRef) = .ok out ∧ out ≠ [] ∧
      e.books.ledger.append (out.map fun (k, amount) =>
        EntryDraft.make k .release amount document.docRef document.postingDate) =
        .ok (es, e'.books.ledger) ∧ Frame e e' ∧
      u = { document := document.docRef, status := .released, entries := es, overruns := [] } := by
  rw [run_onRejectedOrReopened] at h
  rcases rejectPlan_cases e document with ⟨r, hr, hna⟩ | ⟨out, hen, hout, hne⟩
  · rw [hr, Plan.run_exec_stop, Prod.mk.injEq] at h
    exact absurd h.1 (hna u)
  · rw [rejectPlan_eq_unchecked hen hout hne, Plan.run_exec_unchecked] at h
    obtain ⟨es, sh, hu, happ, hframe⟩ := (appendStep_unchecked _).run_ok h
    exact ⟨out, es, hen, hout, hne, happ, hframe, Outcome.applied.inj hu⟩

/-- Cancelling a secondary applied: there was consumption against it to reverse, and it was
    reversed together with what `restoreOf` restores. -/
theorem run_cancel_applied {secondary : SecondaryDocument}
    (h : ((onSecondaryCancelled document secondary).run).run e = (.ok (.applied u), e')) :
    ∃ reversed others restore es sh, e.config.enableBudgetLock = true ∧
      outstandingConsumedAgainst (e.history document.docRef) secondary.docRef = .ok reversed ∧
      reversed ≠ [] ∧
      positions ((e.history document.docRef).filter (·.against ≠ some secondary.docRef)) =
        .ok others ∧
      restoreOf (e.history document.docRef) (others.any fun p => Decimal.zero < p.consumed) =
        .ok restore ∧
      e.books.ledger.append ((reversed.map fun (k, amount) =>
          (EntryDraft.make k .reversal amount document.docRef secondary.postingDate).bookedAgainst
            secondary.docRef) ++
        restore.map fun (k, amount) =>
          EntryDraft.make k .reservation amount document.docRef document.postingDate) =
        .ok (es, e'.books.ledger) ∧ Frame e e' ∧
      u = { document := document.docRef,
            status := if !restore.isEmpty then (if sh.isEmpty then .locked else .overrunAllowed)
              else if others.any fun p => Decimal.zero < p.consumed then .consumed
              else .released,
            entries := es, overruns := sh } := by
  rw [run_onSecondaryCancelled] at h
  rcases cancelPlan_cases e document secondary with
    ⟨r, hr, hna⟩ | ⟨reversed, others, restore, hen, hrev, hne, hothers, hrestore⟩
  · rw [hr, Plan.run_exec_stop, Prod.mk.injEq] at h
    exact absurd h.1 (hna u)
  · rw [cancelPlan_eq_unchecked hen hrev hne hothers hrestore, Plan.run_exec_unchecked] at h
    obtain ⟨es, sh, hu, happ, hframe⟩ := (appendStep_unchecked _).run_ok h
    exact ⟨reversed, others, restore, es, sh, hen, hrev, hne, hothers, hrestore, happ, hframe,
      Outcome.applied.inj hu⟩

end Applied

end Engine

/-! ## Section 5: Every row moves a positive amount -/

/-- Every row of the ledger moves a positive amount. -/
def Ledger.RowsPositive (l : Ledger) : Prop := ∀ x ∈ l.entries, 0 < x.amount.val

theorem Ledger.rowsPositive_empty : ({} : Ledger).RowsPositive := fun _ h => absurd h List.not_mem_nil

/-- What is still reserved is positive, key by key. -/
theorem outstandingReserved_pos {xs : List Entry} {out : List (DimensionKey × Decimal)}
    (h : outstandingReserved xs = .ok out) : ∀ q ∈ out, 0 < q.2.val := by
  unfold outstandingReserved at h
  obtain ⟨ps, -, h⟩ := bind_eq_ok h
  cases h
  intro q hq
  obtain ⟨p, hp, rfl⟩ := List.mem_map.1 hq
  simpa [Decimal.lt_iff_val] using (List.mem_filter.1 hp).2

/-- What is still consumed against a secondary is positive, key by key. -/
theorem outstandingConsumedAgainst_pos {xs : List Entry} {secondary : DocumentRef}
    {out : List (DimensionKey × Decimal)} (h : outstandingConsumedAgainst xs secondary = .ok out) :
    ∀ q ∈ out, 0 < q.2.val := by
  unfold outstandingConsumedAgainst at h
  obtain ⟨ps, -, h⟩ := bind_eq_ok h
  cases h
  intro q hq
  obtain ⟨p, hp, rfl⟩ := List.mem_map.1 hq
  simpa [Decimal.lt_iff_val] using (List.mem_filter.1 hp).2

/-- The last reservation is made of reservation rows of the history. -/
theorem mem_lastReservation {H : List Entry} {q : DimensionKey × Decimal}
    (hq : q ∈ lastReservation H) : ∃ x ∈ H, x.entryType = .reservation ∧ q = (x.key, x.amount) := by
  unfold lastReservation at hq
  split at hq
  · cases hq
  · obtain ⟨x, hx, rfl⟩ := List.mem_map.1 hq
    obtain ⟨hxH, hxt⟩ := List.mem_filter.1 hx
    exact ⟨x, hxH, (by simpa using hxt : _ ∧ _).2, rfl⟩

/-- What a cancellation restores is read off rows of the history, key and amount. -/
theorem restoreOf_rows {H : List Entry} {other : Bool} {restore : List (DimensionKey × Decimal)}
    (hrestore : Engine.restoreOf H other = .ok restore) :
    ∀ q ∈ restore, ∃ x ∈ H, q = (x.key, x.amount) := by
  intro q hq
  rcases Engine.restoreOf_eq hrestore with h0 | ⟨-, -, hl⟩
  · rw [h0] at hq
    cases hq
  · rw [hl] at hq
    obtain ⟨x, hx, -, rfl⟩ := mem_lastReservation hq
    exact ⟨x, hx, rfl⟩

theorem Decimal.isZero_eq_false_iff {d : Decimal} : d.isZero = false ↔ d.val ≠ 0 := by
  rw [Bool.eq_false_iff, ne_eq, Decimal.isZero_iff_val]

namespace Request

/-- Every draft of a request's batch moves an amount other than zero, while every row of the
    ledger moves a positive one. -/
theorem batch_ne_zero {c : Request} {e : Engine} (hpos : e.books.ledger.RowsPositive)
    {ds : List EntryDraft} (h : c.batch? e = some ds) : ∀ d ∈ ds, d.amount.val ≠ 0 := by
  -- a slice, or an amount read off a position that is positive
  have hslice : ∀ {sl : Slicer} {mode template lines allocation callerDefault} {slices : List Slice},
      sl.slice mode template lines allocation callerDefault = .ok slices →
        ∀ s ∈ slices, s.amount.val ≠ 0 := fun hsl s hs =>
    Decimal.isZero_eq_false_iff.1 (Slicer.slice_ne_zero hsl s hs)
  have hkeyed : ∀ {out : List (DimensionKey × Decimal)}, (∀ q ∈ out, 0 < q.2.val) →
      ∀ q ∈ out, q.2.val ≠ 0 := fun hout q hq => (hout q hq).ne'
  cases c with
  | event ev =>
    cases ev <;> simp only [batch?, plan?, Option.bind_some, Plan.drafts?_map] at h
    case reachedTargetState document context =>
      rcases Engine.reachPlan_cases e document context with
        ⟨r, hr, -⟩ | ⟨ps, slices, hen, hst, hps, hun, hsl, hne⟩
      · rw [hr] at h; cases h
      rw [Engine.reachPlan_eq_checked hen hst hps hun hsl hne] at h
      cases h
      simpa using hslice hsl
    case secondarySubmitted document secondary context =>
      rcases Engine.submitPlan_cases e document secondary context with
        ⟨r, hr, -⟩ | ⟨slices, out, hen, hcons, hsl, hne, hout⟩
      · rw [hr] at h; cases h
      rw [Engine.submitPlan_eq_unchecked hen hcons hsl hne hout] at h
      cases h
      intro d hd
      rcases List.mem_append.1 hd with hd | hd <;> obtain ⟨q, hq, rfl⟩ := List.mem_map.1 hd
      · simpa using hkeyed (outstandingReserved_pos hout) q hq
      · simpa using hslice hsl q hq
    case rejectedOrReopened document context =>
      rcases Engine.rejectPlan_cases e document with ⟨r, hr, -⟩ | ⟨out, hen, hout, hne⟩
      · rw [hr] at h; cases h
      rw [Engine.rejectPlan_eq_unchecked hen hout hne] at h
      cases h
      intro d hd
      obtain ⟨q, hq, rfl⟩ := List.mem_map.1 hd
      simpa using hkeyed (outstandingReserved_pos hout) q hq
    case secondaryCancelled document secondary context =>
      rcases Engine.cancelPlan_cases e document secondary with
        ⟨r, hr, -⟩ | ⟨reversed, others, restore, hen, hrev, hne, hothers, hrestore⟩
      · rw [hr] at h; cases h
      rw [Engine.cancelPlan_eq_unchecked hen hrev hne hothers hrestore] at h
      cases h
      -- what is restored is nothing or the last reservation, rows of the ledger
      have hres : ∀ q ∈ restore, q.2.val ≠ 0 := fun q hq => by
        obtain ⟨x, hx, rfl⟩ := restoreOf_rows hrestore q hq
        exact (hpos x (List.mem_of_mem_filter hx)).ne'
      intro d hd
      rcases List.mem_append.1 hd with hd | hd <;> obtain ⟨q, hq, rfl⟩ := List.mem_map.1 hd
      · simpa using hkeyed (outstandingConsumedAgainst_pos hrev) q hq
      · simpa using hres q hq
  | supplement k amount source postingDate =>
    simp only [batch?, plan?, Option.bind_some, Plan.drafts?_map, Engine.supplementPlan] at h
    split at h
    · cases h
    · rename_i hle
      cases h
      rw [Decimal.le_iff_val, Decimal.val_zero] at hle
      simpa using (lt_of_not_ge hle).ne'
  | reclass source target amount doc postingDate principal =>
    simp only [batch?, plan?, Option.bind_some, Plan.drafts?_map, Engine.reclassPlan] at h
    split at h
    · cases h
    split at h
    · cases h
    · rename_i hle _
      cases h
      rw [Decimal.le_iff_val, Decimal.val_zero] at hle
      simpa [EntryDraft.reclassing] using (lt_of_not_ge hle).ne'
  | reloadConfig config => cases h

/-- A request keeps every row positive: it appends checked drafts of amounts other than zero. -/
theorem step_rowsPositive (c : Request) {e : Engine} (hpos : e.books.ledger.RowsPositive) :
    (c.step e).books.ledger.RowsPositive := by
  rcases c.step_ledger e with h | ⟨ds, es, hds, happ⟩
  · rw [h]; exact hpos
  intro x hx
  rw [Ledger.append_entries happ] at hx
  rcases List.mem_append.1 hx with hx | hx
  · exact hpos x hx
  · have hd : x.draft ∈ ds := Ledger.append_drafts happ ▸ List.mem_map_of_mem hx
    have hnn : 0 ≤ x.amount.val := by
      simpa using EntryDraft.amount_nonneg (Ledger.append_sound happ x hx)
    exact lt_of_le_of_ne hnn (Ne.symm (batch_ne_zero hpos hds _ hd))

/-- Every run keeps every row positive. -/
theorem runAll_rowsPositive (cs : List Request) :
    ∀ {e : Engine}, e.books.ledger.RowsPositive → (runAll cs e).books.ledger.RowsPositive := by
  induction cs with
  | nil => exact fun h => h
  | cons c cs ih => exact fun h => ih (c.step_rowsPositive h)

end Request

end Encumbrance

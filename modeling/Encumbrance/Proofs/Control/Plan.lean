import Mathlib
import Encumbrance.Proofs.Control.Run

/-! # Operations as plans

    Every operation of the controller reads the engine, decides, and then either stops with a
    result or appends one batch, checked against availability or not. Nothing is written before
    that single append. This module makes the decision a value: a `Plan` computed purely from
    the state the operation starts in, and proves each operation equal to carrying out its plan.

    Later proofs reason about the plans, which are plain functions of the state, and about the
    two append steps, whose effects `Encumbrance.Proofs.Control.Run` describes.

    Requests to the engine are collected as `Request`s: the four lifecycle events, supplements,
    reclasses and reloads of the settings, with a run of them from a starting engine.
-/

namespace Encumbrance

/-- What an operation decides before it writes: to stop with a result, or to append a batch,
    checked for a document and principal or unchecked, answering from the rows written and the
    overruns found. -/
inductive Plan (α : Type) where
  | stop (r : Except BudgetError α)
  | checked (doc : DocumentRef) (drafts : List EntryDraft) (principal : Principal)
      (answer : List Entry × List Shortfall → α)
  | unchecked (drafts : List EntryDraft) (answer : List Entry × List Shortfall → α)

namespace Plan

variable {α : Type}

/-- Carries a plan out. -/
def exec : Plan α → EngineM α
  | stop r => liftExcept r
  | checked doc ds p k => do let r ← Engine.appendChecked doc ds p; pure (k r)
  | unchecked ds k => do let r ← Engine.appendUnchecked ds; pure (k r)

/-- The batch a plan appends, if it gets that far. -/
def drafts? : Plan α → Option (List EntryDraft)
  | stop _ => none
  | checked _ ds _ _ | unchecked ds _ => some ds

/-- The same plan with its answer passed through `f`. -/
def map {β : Type} (f : α → β) : Plan α → Plan β
  | stop r => stop (f <$> r)
  | checked doc ds p k => checked doc ds p (f ∘ k)
  | unchecked ds k => unchecked ds (f ∘ k)

@[simp] theorem drafts?_map {β : Type} (f : α → β) (P : Plan α) : (P.map f).drafts? = P.drafts? := by
  cases P <;> rfl

theorem run_exec_stop (r : Except BudgetError α) (e : Engine) :
    (((stop r).exec).run).run e = (r, e) := by
  cases r <;> rfl

theorem run_exec_map {β : Type} (f : α → β) (P : Plan α) (e : Engine) :
    (((P.map f).exec).run).run e = ((f <$> P.exec).run).run e := by
  rw [run_map]
  cases P with
  | stop r => cases r <;> rfl
  | checked doc ds p k =>
    simp only [map, exec, run_bind, run_pure]
    rcases ((Engine.appendChecked doc ds p).run).run e with ⟨_ | _, _⟩ <;> rfl
  | unchecked ds k =>
    simp only [map, exec, run_bind, run_pure]
    rcases ((Engine.appendUnchecked ds).run).run e with ⟨_ | _, _⟩ <;> rfl

end Plan

namespace Engine

/-! ## Section 1: The plans of the lifecycle events -/

/-- Reaching the target state: reserve the document's slices, once. -/
def reachPlan (e : Engine) (document : SourceDocument) (context : EventContext) : Plan Outcome :=
  if !e.config.enableBudgetLock then .stop (.ok (.skipped .disabled))
  else if document.workflowState ≠ e.config.lockOnState then
    .stop (.ok (.skipped .notTargetState))
  else match positions (e.history document.docRef) with
  | .error a => .stop (.error (.overflow a))
  | .ok ps =>
    if deriveState ps ≠ .unlocked then .stop (.ok .duplicate)
    else match e.slicer.slice .document document.source document.lines document.allocation
        context.defaultFiscalPeriod with
    | .error err => .stop (.error err)
    | .ok slices =>
      if slices.isEmpty then .stop (.ok (.skipped .zeroAmount))
      else .checked document.docRef (slices.map fun s =>
          EntryDraft.make s.key .reservation s.amount document.docRef document.postingDate)
        context.principal fun (entries, overruns) =>
          .applied { document := document.docRef,
                     status := if overruns.isEmpty then .locked else .overrunAllowed,
                     entries, overruns }

/-- Submitting a secondary document: release what is reserved and book the consumption, both
    against the secondary. -/
def submitPlan (e : Engine) (document : SourceDocument) (secondary : SecondaryDocument)
    (context : EventContext) : Plan Outcome :=
  if !e.config.enableBudgetLock then .stop (.ok (.skipped .disabled))
  else match outstandingConsumedAgainst (e.history document.docRef) secondary.docRef with
  | .error a => .stop (.error (.overflow a))
  | .ok consumed =>
    if !consumed.isEmpty then .stop (.ok .duplicate)
    else match e.slicer.slice .secondary (document.sourceAt secondary.postingDate)
        secondary.lines document.allocation context.defaultFiscalPeriod with
    | .error err => .stop (.error err)
    | .ok slices =>
      if slices.isEmpty then .stop (.ok (.skipped .zeroAmount))
      else match outstandingReserved (e.history document.docRef) with
      | .error a => .stop (.error (.overflow a))
      | .ok outstanding =>
        .unchecked ((outstanding.map fun (k, amount) =>
            (EntryDraft.make k .release amount document.docRef secondary.postingDate).bookedAgainst
              secondary.docRef) ++
          slices.map fun s =>
            (EntryDraft.make s.key .consumption s.amount document.docRef
              secondary.postingDate).bookedAgainst secondary.docRef)
          fun (entries, overruns) =>
            .applied { document := document.docRef, status := .consumed, entries, overruns }

/-- Rejecting or reopening: release what is reserved. -/
def rejectPlan (e : Engine) (document : SourceDocument) : Plan Outcome :=
  if !e.config.enableBudgetLock then .stop (.ok (.skipped .disabled))
  else match outstandingReserved (e.history document.docRef) with
  | .error a => .stop (.error (.overflow a))
  | .ok outstanding =>
    if outstanding.isEmpty then .stop (.ok (.skipped .nothingReserved))
    else .unchecked (outstanding.map fun (k, amount) =>
        EntryDraft.make k .release amount document.docRef document.postingDate)
      fun (entries, _) =>
        .applied { document := document.docRef, status := .released, entries, overruns := [] }

/-- What a cancellation restores: nothing while other consumption remains or a reservation is
    still outstanding, and otherwise the document's last reservation. -/
def restoreOf (history : List Entry) (otherConsumption : Bool) :
    Except ArithError (List (DimensionKey × Decimal)) :=
  if otherConsumption then .ok []
  else match outstandingReserved history with
    | .error a => .error a
    | .ok outstanding => .ok (if !outstanding.isEmpty then [] else lastReservation history)

/-- Cancelling a secondary document: reverse its consumption and maybe restore the last
    reservation. -/
def cancelPlan (e : Engine) (document : SourceDocument) (secondary : SecondaryDocument) :
    Plan Outcome :=
  if !e.config.enableBudgetLock then .stop (.ok (.skipped .disabled))
  else match outstandingConsumedAgainst (e.history document.docRef) secondary.docRef with
  | .error a => .stop (.error (.overflow a))
  | .ok reversed =>
    if reversed.isEmpty then .stop (.ok .duplicate)
    else match positions ((e.history document.docRef).filter (·.against ≠ some secondary.docRef)) with
    | .error a => .stop (.error (.overflow a))
    | .ok others =>
      match restoreOf (e.history document.docRef) (others.any fun p => Decimal.zero < p.consumed) with
      | .error a => .stop (.error (.overflow a))
      | .ok restore =>
        .unchecked ((reversed.map fun (k, amount) =>
            (EntryDraft.make k .reversal amount document.docRef secondary.postingDate).bookedAgainst
              secondary.docRef) ++
          restore.map fun (k, amount) =>
            EntryDraft.make k .reservation amount document.docRef document.postingDate)
          fun (entries, overruns) =>
            .applied { document := document.docRef,
                       status := if !restore.isEmpty then
                           (if overruns.isEmpty then .locked else .overrunAllowed)
                         else if others.any fun p => Decimal.zero < p.consumed then .consumed
                         else .released,
                       entries, overruns }

/-! ## Section 2: Budget changes -/

/-- Adding budget to a key. -/
def supplementPlan (k : DimensionKey) (amount : Decimal) (source : DocumentRef)
    (postingDate : Date) : Plan (List Entry) :=
  if amount ≤ Decimal.zero then
    .stop (.error (.invalidAmount ("amount must be positive, got " ++ amount.toText)))
  else .unchecked [EntryDraft.make k .supplement amount source postingDate] (·.1)

/-- Moving budget between keys. -/
def reclassPlan (source target : DimensionKey) (amount : Decimal) (doc : DocumentRef)
    (postingDate : Date) (principal : Principal) : Plan (List Entry) :=
  if amount ≤ Decimal.zero then
    .stop (.error (.invalidAmount ("amount must be positive, got " ++ amount.toText)))
  else if source = target then
    .stop (.error (.invalidAmount ("cannot reclass " ++ source.toText ++ " into itself")))
  else .checked doc [EntryDraft.reclassing source .out amount doc postingDate,
      EntryDraft.reclassing target .inbound amount doc postingDate] principal (·.1)

/-! ## Section 3: Each operation carries out its plan -/

theorem run_onReachTargetState (document : SourceDocument) (context : EventContext) (e : Engine) :
    ((onReachTargetState document context).run).run e =
      (((reachPlan e document context).exec).run).run e := by
  simp only [onReachTargetState, reachPlan, run_bind, run_get]
  split
  · rfl
  split
  · rfl
  simp only [positionsOf]
  cases positions (e.history document.docRef) with
  | error a => rfl
  | ok ps =>
    simp only [run_bind, run_arith_ok]
    split
    · rfl
    cases e.slicer.slice .document document.source document.lines document.allocation
        context.defaultFiscalPeriod with
    | error err => rfl
    | ok slices =>
      simp only [run_bind, run_liftExcept_ok]
      split
      · rfl
      · simp only [Plan.exec, run_bind]

theorem run_onSecondarySubmitted (document : SourceDocument) (secondary : SecondaryDocument)
    (context : EventContext) (e : Engine) :
    ((onSecondarySubmitted document secondary context).run).run e =
      (((submitPlan e document secondary context).exec).run).run e := by
  simp only [onSecondarySubmitted, submitPlan, run_bind, run_get]
  split
  · rfl
  cases outstandingConsumedAgainst (e.history document.docRef) secondary.docRef with
  | error a => rfl
  | ok consumed =>
    simp only [run_bind, run_arith_ok]
    split
    · rfl
    cases e.slicer.slice .secondary (document.sourceAt secondary.postingDate) secondary.lines
        document.allocation context.defaultFiscalPeriod with
    | error err => rfl
    | ok slices =>
      simp only [run_bind, run_liftExcept_ok]
      split
      · rfl
      cases outstandingReserved (e.history document.docRef) with
      | error a => rfl
      | ok outstanding => simp only [run_bind, run_arith_ok, Plan.exec]

theorem run_onRejectedOrReopened (document : SourceDocument) (e : Engine) :
    ((onRejectedOrReopened document).run).run e = (((rejectPlan e document).exec).run).run e := by
  simp only [onRejectedOrReopened, rejectPlan, run_bind, run_get]
  split
  · rfl
  cases outstandingReserved (e.history document.docRef) with
  | error a => rfl
  | ok outstanding =>
    simp only [run_bind, run_arith_ok]
    split
    · rfl
    · simp only [Plan.exec, run_bind]

theorem run_onSecondaryCancelled (document : SourceDocument) (secondary : SecondaryDocument)
    (e : Engine) :
    ((onSecondaryCancelled document secondary).run).run e =
      (((cancelPlan e document secondary).exec).run).run e := by
  simp only [onSecondaryCancelled, cancelPlan, run_bind, run_get]
  split
  · rfl
  cases outstandingConsumedAgainst (e.history document.docRef) secondary.docRef with
  | error a => rfl
  | ok reversed =>
    simp only [run_bind, run_arith_ok]
    split
    · rfl
    simp only [positionsOf]
    cases positions ((e.history document.docRef).filter (·.against ≠ some secondary.docRef)) with
    | error a => rfl
    | ok others =>
      simp only [run_bind, run_arith_ok, restoreOf]
      split
      · simp only [run_pure, Plan.exec, run_bind]
      · cases outstandingReserved (e.history document.docRef) with
        | error a => rfl
        | ok outstanding =>
          simp only [run_bind, run_arith_ok]
          split <;> simp only [run_pure, Plan.exec, run_bind]

/-- The plan a lifecycle event follows from a state. -/
def eventPlan (e : Engine) : LifecycleEvent → Plan Outcome
  | .reachedTargetState d c => e.reachPlan d c
  | .secondarySubmitted d s c => e.submitPlan d s c
  | .rejectedOrReopened d _ => e.rejectPlan d
  | .secondaryCancelled d s _ => e.cancelPlan d s

theorem run_handle (ev : LifecycleEvent) (e : Engine) :
    ((handle ev).run).run e = (((e.eventPlan ev).exec).run).run e := by
  cases ev <;> simp only [handle, eventPlan, run_onReachTargetState, run_onSecondarySubmitted,
    run_onRejectedOrReopened, run_onSecondaryCancelled]

theorem run_supplement (k : DimensionKey) (amount : Decimal) (source : DocumentRef)
    (postingDate : Date) (e : Engine) :
    ((supplement k amount source postingDate).run).run e =
      (((supplementPlan k amount source postingDate).exec).run).run e := by
  by_cases h : amount ≤ Decimal.zero
  · simp only [supplement, supplementPlan, ensurePositive, h, if_true, run_bind, run_throw]
    rfl
  · simp only [supplement, supplementPlan, ensurePositive, h, if_false, run_bind, run_pure,
      Plan.exec]

theorem run_reclass (source target : DimensionKey) (amount : Decimal) (doc : DocumentRef)
    (postingDate : Date) (principal : Principal) (e : Engine) :
    ((reclass source target amount doc postingDate principal).run).run e =
      (((reclassPlan source target amount doc postingDate principal).exec).run).run e := by
  by_cases h : amount ≤ Decimal.zero
  · simp only [reclass, reclassPlan, ensurePositive, h, if_true, run_bind, run_throw]
    rfl
  by_cases hst : source = target
  · simp only [reclass, reclassPlan, ensurePositive, h, hst, if_true, if_false, run_bind, run_pure,
      run_throw]
    rfl
  · simp only [reclass, reclassPlan, ensurePositive, h, hst, if_false, run_bind, run_pure,
      Plan.exec]

end Engine

/-! ## Section 4: Commands -/

/-- A request made of the engine. -/
inductive Request where
  | event (ev : LifecycleEvent)
  | supplement (key : DimensionKey) (amount : Decimal) (source : DocumentRef) (postingDate : Date)
  | reclass (source target : DimensionKey) (amount : Decimal) (doc : DocumentRef)
      (postingDate : Date) (principal : Principal)
  | reloadConfig (config : BudgetConfig)

/-- What the engine answers to a command. -/
inductive Reply where
  | outcome (o : Outcome)
  | entries (es : List Entry)
  | reloaded (r : Except ConfigError Unit)

namespace Reply

/-- The rows a reply reports written: those of an applied event or of a budget change. -/
def written? : Reply → Option (List Entry)
  | outcome (.applied u) => some u.entries
  | entries es => some es
  | _ => none

end Reply

namespace Request

/-- Runs a command. -/
def run : Request → EngineM Reply
  | event ev => Reply.outcome <$> Engine.handle ev
  | supplement k a s p => Reply.entries <$> Engine.supplement k a s p
  | reclass s t a d p pr => Reply.entries <$> Engine.reclass s t a d p pr
  | reloadConfig c => Reply.reloaded <$> ExceptT.lift (Engine.reloadConfig c)

/-- The plan a command follows from a state; a reload has none. -/
def plan? : Request → Engine → Option (Plan Reply)
  | event (.reachedTargetState d c), e => some ((e.reachPlan d c).map .outcome)
  | event (.secondarySubmitted d s c), e => some ((e.submitPlan d s c).map .outcome)
  | event (.rejectedOrReopened d _), e => some ((e.rejectPlan d).map .outcome)
  | event (.secondaryCancelled d s _), e => some ((e.cancelPlan d s).map .outcome)
  | supplement k a s p, _ => some ((Engine.supplementPlan k a s p).map .entries)
  | reclass s t a d p pr, _ => some ((Engine.reclassPlan s t a d p pr).map .entries)
  | reloadConfig _, _ => none

/-- A command with a plan carries it out. -/
theorem run_of_plan {c : Request} {e : Engine} {P : Plan Reply} (h : c.plan? e = some P) :
    ((c.run).run).run e = ((P.exec).run).run e := by
  cases c with
  | event ev =>
    cases ev <;> simp only [plan?, Option.some.injEq] at h <;> subst h <;>
      simp only [run, Engine.handle, run_map, Plan.run_exec_map, Engine.run_onReachTargetState,
        Engine.run_onSecondarySubmitted, Engine.run_onRejectedOrReopened,
        Engine.run_onSecondaryCancelled]
  | supplement k a s p =>
    simp only [plan?, Option.some.injEq] at h; subst h
    simp only [run, run_map, Plan.run_exec_map, Engine.run_supplement]
  | reclass s t a d p pr =>
    simp only [plan?, Option.some.injEq] at h; subst h
    simp only [run, run_map, Plan.run_exec_map, Engine.run_reclass]
  | reloadConfig c => cases h

/-- The batch a command appends from a state, if it gets that far. -/
def batch? (c : Request) (e : Engine) : Option (List EntryDraft) := (c.plan? e).bind Plan.drafts?

/-- The document a command writes rows for. -/
def source? : Request → Option DocumentRef
  | event ev => some ev.document.docRef
  | supplement _ _ s _ => some s
  | reclass _ _ _ d _ _ => some d
  | reloadConfig _ => none

/-- The engine after a command. -/
def step (c : Request) (e : Engine) : Engine := (((c.run).run).run e).2

/-- The engine after a list of commands, the first first. -/
def runAll (cs : List Request) (e : Engine) : Engine := cs.foldl (fun e c => c.step e) e

end Request

end Encumbrance

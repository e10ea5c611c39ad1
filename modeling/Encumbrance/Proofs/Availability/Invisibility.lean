import Mathlib
import Encumbrance.Proofs.Availability.Transparency
import Encumbrance.Proofs.Availability.Overshoot

/-! # The actuals cache is invisible

    A call made of the controller is a request, which may write, or one of its reads: a key's
    availability, its standing against an amount, or a document's summary. This module shows
    that no sequence of calls can tell a controller that caches actual spend from one that reads
    it live.

    Twin engines (`Engine.Twin`) differ only in their caches and lock slots, with both caches
    agreeing with the live figures. Every lifecycle event answers alike from twins and leaves
    twins (`Engine.Twin.handle`); so do supplements and reclasses, which carry out plans of the
    same kind, the reads, which take a scope's lock and read through the cache, and a reload of
    the settings, which marks every cached figure stale. A controller built over the ledger with
    a cache and one built without are twins, so they answer every sequence of calls alike
    (`Engine.cache_invisible`). Along the way every figure the cache serves is the scope's live
    consumption total.
-/

namespace Encumbrance

/-- A call made of the controller: a request, which may write, or one of its reads. -/
inductive Call where
  | request (r : Request)
  | availability (k : DimensionKey)
  | check (k : DimensionKey) (amount : Decimal)
  | summary (d : DocumentRef)

/-- What the controller answers to a call. -/
inductive Answer where
  | reply (r : Reply)
  | standing (a : Availability)
  | summary (s : DocumentSummary)

namespace Call

/-- Makes a call. -/
def run : Call → EngineM Answer
  | request r => Answer.reply <$> r.run
  | availability k => Answer.standing <$> Engine.availability k
  | check k amount => Answer.standing <$> Engine.checkAvailability k amount
  | summary d => Answer.summary <$> Engine.summary d

/-- The engine after a call. -/
def step (c : Call) (e : Engine) : Engine := (((c.run).run).run e).2

/-- The engine after a list of calls, the first first. -/
def runAll (cs : List Call) (e : Engine) : Engine := cs.foldl (fun e c => c.step e) e

/-- What the engine answers to calls made one after another. -/
def answers : List Call → Engine → List (Except BudgetError Answer)
  | [], _ => []
  | c :: cs, e => (((c.run).run).run e).1 :: answers cs (c.step e)

end Call

/-! ## Section 1: How the reads and a reload run -/

namespace Engine

open Books

theorem run_checkAvailability (k : DimensionKey) (amount : Decimal) (e : Engine) :
    ((checkAvailability k amount).run).run e =
      ((onBooks (withScopes [e.scopeOf k] (check (e.scopeOf k) amount))).run).run e := by
  simp only [checkAvailability, run_bind, run_get]

theorem run_reloadRequest (c : BudgetConfig) (e : Engine) :
    (((Request.reloadConfig c).run).run).run e =
      (.ok (.reloaded ((reloadConfig c).run e).1), ((reloadConfig c).run e).2) := rfl

/-- A read under a scope lock changes only the cache and the lock slots. -/
theorem withScopes_actualsFrom {α : Type} {P : α → Prop} {work : BooksM α} (hw : Reads P work)
    (scopes : List BudgetScope) (b : Books) :
    (((withScopes scopes work).run).run b).2.actualsFrom = b.actualsFrom := by
  rcases h : b.locks.acquire scopes with ⟨blocked, t⟩ | t
  · rw [run_withScopes_conflict h]
  · rw [run_withScopes_free h]
    obtain ⟨c, hc, -⟩ := hw { b with locks := t }
    simp only [hc]

/-! ## Section 2: Every call answers alike from twins -/

variable {e e' : Engine}

/-- A reload answers from the settings alone, and leaves twins: both caches are then stale. -/
theorem Twin.reloadConfig (h : e.Twin e') (c : BudgetConfig) :
    ((reloadConfig c).run e').1 = ((reloadConfig c).run e).1 ∧
      Twin ((reloadConfig c).run e).2 ((reloadConfig c).run e').2 := by
  simp only [Engine.reloadConfig]
  split
  · exact ⟨rfl, h⟩
  · exact ⟨rfl, rfl, h.directory, h.calendar,
      ⟨h.books.ledger, h.books.envelopes, h.books.posted, h.books.actualsFrom, h.books.held,
        cacheAgrees_of_stale (ActualsCache.invalidateAll_stale _),
        cacheAgrees_of_stale (ActualsCache.invalidateAll_stale _)⟩⟩

theorem plan?_event (ev : LifecycleEvent) (e : Engine) :
    (Request.event ev).plan? e = some ((e.eventPlan ev).map .outcome) := by
  cases ev <;> rfl

/-- Twins plan every request alike. -/
theorem Twin.plan? (h : e.Twin e') (c : Request) : c.plan? e' = c.plan? e := by
  cases c with
  | event ev => rw [plan?_event, plan?_event, h.eventPlan]
  | supplement | reclass | reloadConfig => rfl

/-- Every request answers alike from twins and leaves twins. -/
theorem Twin.request (h : e.Twin e') (c : Request) :
    (((c.run).run).run e').1 = (((c.run).run).run e).1 ∧ Twin (c.step e) (c.step e') := by
  unfold Request.step
  cases hplan : c.plan? e with
  | none =>
    -- only a reload has no plan
    cases c with
    | reloadConfig cfg =>
      rw [run_reloadRequest, run_reloadRequest]
      obtain ⟨hr, ht⟩ := h.reloadConfig cfg
      exact ⟨by rw [hr], ht⟩
    | event ev => cases ev <;> cases hplan
    | supplement => cases hplan
    | reclass => cases hplan
  | some P =>
    have hplan' : c.plan? e' = some P := by rw [h.plan? c, hplan]
    rw [Request.run_of_plan hplan, Request.run_of_plan hplan']
    exact h.exec (Request.plan_checksNoSpending hplan)

/-- A key's standing reads the scope under its lock, through the cache. -/
theorem Twin.checkAvailability (h : e.Twin e') (k : DimensionKey) (amount : Decimal) :
    (((checkAvailability k amount).run).run e').1 = (((checkAvailability k amount).run).run e).1 ∧
      Twin (((checkAvailability k amount).run).run e).2
        (((checkAvailability k amount).run).run e').2 := by
  rw [run_checkAvailability, run_checkAvailability]
  unfold scopeOf
  rw [h.config]
  exact h.onBooks (Blind.withScopes (blind_check k amount) _)

/-- A summary reads the document's history and changes nothing. -/
theorem Twin.summary (h : e.Twin e') (d : DocumentRef) :
    (((summary d).run).run e').1 = (((summary d).run).run e).1 ∧
      Twin (((summary d).run).run e).2 (((summary d).run).run e').2 := by
  simp only [Engine.summary, positionsOf, run_bind, run_get, h.history]
  cases positions (e.history d) <;> exact ⟨rfl, h⟩

/-- Every call answers alike from twins and leaves twins. -/
theorem Twin.call (h : e.Twin e') (c : Call) :
    (((c.run).run).run e').1 = (((c.run).run).run e).1 ∧ Twin (c.step e) (c.step e') := by
  cases c with
  | request r => exact Twin.map (h.request r) _
  | availability k => exact Twin.map (h.checkAvailability k Decimal.zero) _
  | check k amount => exact Twin.map (h.checkAvailability k amount) _
  | summary d => exact Twin.map (h.summary d) _

/-- Twins answer every sequence of calls alike, and stay twins. -/
theorem Twin.answers (h : e.Twin e') (cs : List Call) :
    Call.answers cs e' = Call.answers cs e ∧ Twin (Call.runAll cs e) (Call.runAll cs e') := by
  induction cs generalizing e e' with
  | nil => exact ⟨rfl, h⟩
  | cons c cs ih =>
    obtain ⟨hr, ht⟩ := h.call c
    obtain ⟨hrs, hts⟩ := ih ht
    exact ⟨by rw [Call.answers, Call.answers, hr, hrs], hts⟩

/-! ## Section 3: Where actual spend comes from -/

/-- No call changes where actual spend is read from. -/
theorem step_actualsFrom (c : Call) (e : Engine) : (c.step e).books.actualsFrom = e.books.actualsFrom := by
  cases c with
  | request r =>
    show (((Answer.reply <$> r.run).run).run e).2.books.actualsFrom = _
    rw [Plan.run_map_state]
    cases hplan : r.plan? e with
    | none =>
      cases r with
      | reloadConfig cfg =>
        rw [run_reloadRequest]
        simp only [Engine.reloadConfig]
        split <;> rfl
      | event ev => cases ev <;> cases hplan
      | supplement => cases hplan
      | reclass => cases hplan
    | some P =>
      rw [Request.run_of_plan hplan]
      exact (frame_exec P e).actualsFrom
  | availability k =>
    show (((Answer.standing <$> checkAvailability k Decimal.zero).run).run e).2.books.actualsFrom = _
    rw [Plan.run_map_state, run_checkAvailability, run_onBooks]
    exact withScopes_actualsFrom (reads_check _ _) _ _
  | check k amount =>
    show (((Answer.standing <$> checkAvailability k amount).run).run e).2.books.actualsFrom = _
    rw [Plan.run_map_state, run_checkAvailability, run_onBooks]
    exact withScopes_actualsFrom (reads_check _ _) _ _
  | summary d =>
    show (((Answer.summary <$> summary d).run).run e).2.books.actualsFrom = _
    rw [Plan.run_map_state]
    simp only [Engine.summary, positionsOf, run_bind, run_get]
    cases positions (e.history d) <;> rfl

theorem runAll_actualsFrom (cs : List Call) (e : Engine) :
    (Call.runAll cs e).books.actualsFrom = e.books.actualsFrom := by
  induction cs generalizing e with
  | nil => rfl
  | cons c cs ih => exact (ih (c.step e)).trans (step_actualsFrom c e)

/-! ## Section 4: Caching or reading live -/

/-- A controller built over the ledger, with a cache or without, starts with nothing cached:
    the two are twins. -/
theorem ledgerBacked_twin (config : BudgetConfig) (ledger : Ledger) (envelopes : EnvelopeBook)
    (directory : List (String × String)) (calendar : FiscalCalendar) (ttl ttl' : Nat) :
    (ledgerBacked config ledger envelopes directory calendar ttl).Twin
      (ledgerBacked config ledger envelopes directory calendar ttl') :=
  ⟨rfl, rfl, rfl, ⟨rfl, rfl, rfl, rfl, rfl, cacheAgrees_of_empty rfl, cacheAgrees_of_empty rfl⟩⟩

/-- **The actuals cache is invisible.** Build two controllers over the same settings, ledger,
    envelopes and reference data, with actual spend read from the ledger: one caches the figures
    for `ttl` seconds, the other reads them live. Every sequence of calls (lifecycle events,
    supplements, reclasses, reloads of the settings, availability and standing reads and
    document summaries, failing or not) gets the same answers from both. And after any number
    of those calls, the actual spend the caching controller reads for the scope of any key is
    that scope's live consumption total. -/
theorem cache_invisible (config : BudgetConfig) (ledger : Ledger) (envelopes : EnvelopeBook)
    (directory : List (String × String)) (calendar : FiscalCalendar) (ttl : Nat) (calls : List Call) :
    Call.answers calls (ledgerBacked config ledger envelopes directory calendar ttl) =
        Call.answers calls (ledgerBacked config ledger envelopes directory calendar 0) ∧
      ∀ (n : Nat) (k : DimensionKey),
        let e := Call.runAll (calls.take n) (ledgerBacked config ledger envelopes directory calendar ttl)
        (((actual (e.scopeOf k)).run).run e.books).1 =
          (e.books.ledger.consumedTotal (e.scopeOf k)).mapError BudgetError.overflow := by
  have htwin := ledgerBacked_twin config ledger envelopes directory calendar ttl 0
  refine ⟨((htwin.answers calls).1).symm, fun n k => ?_⟩
  -- the cache agrees with the live figures after every prefix of the calls
  have hagree := ((htwin.answers (calls.take n)).2).books.agrees
  have hfrom : (Call.runAll (calls.take n)
      (ledgerBacked config ledger envelopes directory calendar ttl)).books.actualsFrom = .ledger :=
    runAll_actualsFrom _ _
  dsimp only
  unfold Engine.scopeOf
  rw [run_actual_live hagree List.not_mem_nil]
  simp only [Books.liveActual, hfrom]

end Engine

end Encumbrance

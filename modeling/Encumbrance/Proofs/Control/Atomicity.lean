import Mathlib
import Encumbrance.Proofs.Control.Plan
import Encumbrance.Proofs.Control.Demand

/-! # Every operation is atomic

    An operation either writes nothing or appends exactly one batch, and the rows it reports
    are that batch. The argument has three parts.

    * The two append steps are *write-once* (`Engine.AppendStep`): they keep the engine's frame
      and change the ledger at most by appending their batch, and a held scope of the batch
      fails them with a write conflict before anything else runs.
    * Every plan stops without reporting rows, or runs one append step and reports the rows it
      wrote, all drafted for the operation's document (`Plan.ForDocument`).
    * A batch appended to a ledger whose batch numbers are all below its count of batches gets a
      number no earlier row has.

    An arithmetic overflow aborts an operation where it happens. The unchecked append reads
    availability after it wrote, so an overflow there keeps the batch: that is the one way an
    operation can fail and still have written, and the statements below set it apart.
-/

namespace Encumbrance

namespace Engine

/-- An append step for the batch `ds`: it keeps the frame and appends at most once, and a held
    scope of the batch fails it with a write conflict before anything else. -/
structure AppendStep (ds : List EntryDraft) (x : EngineM (List Entry × List Shortfall)) : Prop where
  appends : ∀ e, Frame e ((x.run).run e).2 ∧
    Appended ds e.books.ledger ((x.run).run e).2.books.ledger ((x.run).run e).1
  conflict : ∀ {e : Engine} {needs : List (BudgetScope × Decimal)} {blocked : BudgetScope}
    {t : LockTable}, ds.foldlM (addDemand e.config.controlByAccount) [] = .ok needs →
    e.books.locks.acquire (needs.map (·.1)) = .error (blocked, t) →
    (x.run).run e =
      (.error (.writeConflict blocked.toText), { e with books := { e.books with locks := t } })

theorem appendStep_checked (doc : DocumentRef) (ds : List EntryDraft) (p : Principal) :
    AppendStep ds (appendChecked doc ds p) :=
  ⟨appendChecked_appends doc ds p, run_appendChecked_conflict⟩

theorem appendStep_unchecked (ds : List EntryDraft) : AppendStep ds (appendUnchecked ds) :=
  ⟨appendUnchecked_appends ds, run_appendUnchecked_conflict⟩

end Engine

namespace Plan

variable {α : Type}

theorem run_exec_checked (doc : DocumentRef) (ds : List EntryDraft) (p : Principal)
    (k : List Entry × List Shortfall → α) (e : Engine) :
    (((checked doc ds p k).exec).run).run e = ((k <$> Engine.appendChecked doc ds p).run).run e := by
  simp only [exec, run_bind, run_map]
  rcases ((Engine.appendChecked doc ds p).run).run e with ⟨_ | _, _⟩ <;> rfl

theorem run_exec_unchecked (ds : List EntryDraft) (k : List Entry × List Shortfall → α)
    (e : Engine) :
    (((unchecked ds k).exec).run).run e = ((k <$> Engine.appendUnchecked ds).run).run e := by
  simp only [exec, run_bind, run_map]
  rcases ((Engine.appendUnchecked ds).run).run e with ⟨_ | _, _⟩ <;> rfl

/-- A plan for a document: stopping reports no rows, appending reports exactly the rows written,
    and every row drafted is the document's. -/
def ForDocument (doc : DocumentRef) : Plan Reply → Prop
  | stop r => ∀ rep, r = .ok rep → rep.written? = none
  | checked _ ds _ k | unchecked ds k => (∀ x, (k x).written? = some x.1) ∧ ∀ d ∈ ds, d.source = doc

end Plan

namespace Engine

/-! ## Section 1: Every plan is for its document -/

theorem reachPlan_forDocument (e : Engine) (document : SourceDocument) (context : EventContext) :
    ((e.reachPlan document context).map .outcome).ForDocument document.docRef := by
  unfold reachPlan
  repeat' split
  all_goals simp [Plan.map, Plan.ForDocument, Reply.written?, List.forall_mem_map, -List.mem_map]

theorem submitPlan_forDocument (e : Engine) (document : SourceDocument)
    (secondary : SecondaryDocument) (context : EventContext) :
    ((e.submitPlan document secondary context).map .outcome).ForDocument document.docRef := by
  unfold submitPlan
  repeat' split
  all_goals simp [Plan.map, Plan.ForDocument, Reply.written?, List.forall_mem_append,
    List.forall_mem_map, -List.mem_map, -List.mem_append]

theorem rejectPlan_forDocument (e : Engine) (document : SourceDocument) :
    ((e.rejectPlan document).map .outcome).ForDocument document.docRef := by
  unfold rejectPlan
  repeat' split
  all_goals simp [Plan.map, Plan.ForDocument, Reply.written?, List.forall_mem_map, -List.mem_map]

theorem cancelPlan_forDocument (e : Engine) (document : SourceDocument)
    (secondary : SecondaryDocument) :
    ((e.cancelPlan document secondary).map .outcome).ForDocument document.docRef := by
  unfold cancelPlan
  repeat' split
  all_goals simp [Plan.map, Plan.ForDocument, Reply.written?, List.forall_mem_append,
    List.forall_mem_map, -List.mem_map, -List.mem_append]

theorem supplementPlan_forDocument (k : DimensionKey) (amount : Decimal) (source : DocumentRef)
    (postingDate : Date) :
    ((supplementPlan k amount source postingDate).map .entries).ForDocument source := by
  unfold supplementPlan
  split <;> simp [Plan.map, Plan.ForDocument, Reply.written?]

theorem reclassPlan_forDocument (source target : DimensionKey) (amount : Decimal)
    (doc : DocumentRef) (postingDate : Date) (principal : Principal) :
    ((reclassPlan source target amount doc postingDate principal).map .entries).ForDocument doc := by
  unfold reclassPlan
  repeat' split
  all_goals simp [Plan.map, Plan.ForDocument, Reply.written?, EntryDraft.reclassing]

end Engine

namespace Request

/-- Every request with a plan plans for its own document. -/
theorem plan_forDocument {c : Request} {e : Engine} {P : Plan Reply} (h : c.plan? e = some P) :
    ∃ doc, c.source? = some doc ∧ P.ForDocument doc := by
  cases c with
  | event ev =>
    cases ev <;> simp only [plan?, Option.some.injEq] at h <;> subst h
    · exact ⟨_, rfl, Engine.reachPlan_forDocument _ _ _⟩
    · exact ⟨_, rfl, Engine.submitPlan_forDocument _ _ _ _⟩
    · exact ⟨_, rfl, Engine.rejectPlan_forDocument _ _⟩
    · exact ⟨_, rfl, Engine.cancelPlan_forDocument _ _ _⟩
  | supplement k a s p =>
    simp only [plan?, Option.some.injEq] at h; subst h
    exact ⟨_, rfl, Engine.supplementPlan_forDocument _ _ _ _⟩
  | reclass s t a d p pr =>
    simp only [plan?, Option.some.injEq] at h; subst h
    exact ⟨_, rfl, Engine.reclassPlan_forDocument _ _ _ _ _ _⟩
  | reloadConfig c => cases h

end Request

namespace Engine

/-! ## Section 2: What atomicity asks of one run -/

/-- What atomicity asks of an operation for the document `doc` that would append the batch
    `batch`, run from `e` and answering `r` in `e'`:

    * a failure other than an overflow leaves the ledger as it was;
    * an answer that reports no rows leaves the ledger as it was, and one that reports rows
      `es` appended exactly them, as a non-empty batch of the document whose batch number no
      earlier row has;
    * when a scope of the batch is held, the operation fails with a write conflict naming the
      least held scope of the batch, and leaves the ledger and the held scopes as they were. -/
structure Atomic (doc : Option DocumentRef) (batch : Option (List EntryDraft)) (e : Engine)
    (r : Except BudgetError Reply) (e' : Engine) : Prop where
  failed : ∀ err, r = .error err → err.isOverflow = false → e'.books.ledger = e.books.ledger
  answered : ∀ rep, r = .ok rep → match rep.written? with
    | none => e'.books.ledger = e.books.ledger
    | some es => e'.books.ledger.entries = e.books.ledger.entries ++ es ∧ es ≠ [] ∧
        ∀ x ∈ es, x.batch = e.books.ledger.batches ∧
          (∀ y ∈ e.books.ledger.entries, y.batch ≠ x.batch) ∧ doc = some x.source
  conflict : ∀ ds needs, batch = some ds →
    ds.foldlM (addDemand e.config.controlByAccount) [] = .ok needs →
    (∃ d ∈ ds, BudgetScope.ofKey d.key e.config.controlByAccount ∈ e.books.locks.held) →
    ∃ blocked, r = .error (.writeConflict blocked.toText) ∧
      (∃ d ∈ ds, BudgetScope.ofKey d.key e.config.controlByAccount = blocked) ∧
      blocked ∈ e.books.locks.held ∧
      (∀ d ∈ ds, BudgetScope.ofKey d.key e.config.controlByAccount ∈ e.books.locks.held →
        blocked.cmp (BudgetScope.ofKey d.key e.config.controlByAccount) ≠ .gt) ∧
      e'.books.ledger = e.books.ledger ∧ e'.books.locks.held = e.books.locks.held

/-- A plan that stops changes nothing, and reports no rows. -/
theorem atomic_stop {doc : DocumentRef} {r : Except BudgetError Reply}
    (hr : (Plan.stop r).ForDocument doc) (e : Engine) : Atomic (some doc) none e r e where
  failed _ _ _ := rfl
  answered rep hrep := by rw [hr rep hrep]
  conflict _ _ h := by cases h

/-- A plan that appends is atomic when its answers report the rows written and its drafts are
    the document's. -/
theorem atomic_append {doc : DocumentRef} {ds : List EntryDraft}
    {x : EngineM (List Entry × List Shortfall)} {k : List Entry × List Shortfall → Reply}
    (hx : AppendStep ds x) (hk : ∀ a, (k a).written? = some a.1) (hsrc : ∀ d ∈ ds, d.source = doc)
    (e : Engine) (hfresh : e.books.ledger.BatchesFresh) :
    Atomic (some doc) (some ds) e (((k <$> x).run).run e).1 (((k <$> x).run).run e).2 := by
  obtain ⟨-, happ⟩ := hx.appends e
  rw [run_map]
  refine ⟨fun err herr hov => ?_, fun rep hrep => ?_, fun ds' needs hds hneeds hheld => ?_⟩
  · -- a failure of the step itself; only an overflow after the append keeps rows
    revert happ herr
    rcases ((x.run).run e) with ⟨err' | a, e'⟩
    · rintro (hl | ⟨hov', -⟩) ⟨⟩
      · exact hl
      · rw [hov] at hov'; cases hov'
    · intro _ h; cases h
  · revert happ hrep
    rcases ((x.run).run e) with ⟨err' | ⟨es, overruns⟩, e'⟩
    · intro _ h; cases h
    · rintro happ ⟨⟩
      simp only [hk]
      refine ⟨Ledger.append_entries happ, Ledger.append_ne_nil happ, fun y hy => ?_⟩
      have hbatch := Ledger.append_batch happ y hy
      refine ⟨hbatch, fun z hz => hbatch ▸ (Nat.ne_of_lt (hfresh z hz)), ?_⟩
      -- the row was drafted from one of the batch's drafts, all of them the document's
      have hdraft : y.draft ∈ ds := Ledger.append_drafts happ ▸ List.mem_map_of_mem hy
      exact congrArg some (hsrc _ hdraft).symm
  · cases hds
    obtain ⟨d, hd, hdheld⟩ := hheld
    have hmem : BudgetScope.ofKey d.key e.config.controlByAccount ∈ needs.map (·.1) :=
      (mem_demandScopes hneeds _).2 ⟨d, hd, rfl⟩
    obtain ⟨blocked, t, hacq⟩ := LockTable.acquire_error_of_held hmem hdheld
    obtain ⟨hbmem, hbheld, hleast, hheld'⟩ := LockTable.acquire_error hacq
    rw [hx.conflict hneeds hacq]
    refine ⟨blocked, rfl, (mem_demandScopes hneeds _).1 hbmem, hbheld, fun d' hd' hheld' => ?_,
      rfl, hheld'⟩
    exact hleast _ ((mem_demandScopes hneeds _).2 ⟨d', hd', rfl⟩) hheld'

/-- A reload of the settings leaves the ledger alone. -/
theorem reloadConfig_ledger (c : BudgetConfig) (e : Engine) :
    ((reloadConfig c).run e).2.books.ledger = e.books.ledger := by
  simp only [reloadConfig]
  split <;> rfl

/-- A reload of the settings writes nothing. -/
theorem atomic_reloadConfig (c : BudgetConfig) (e : Engine) :
    Atomic none none e ((((Request.reloadConfig c).run).run).run e).1
      ((((Request.reloadConfig c).run).run).run e).2 := by
  have hrun : ((((Request.reloadConfig c).run).run).run e) =
      (.ok (.reloaded ((reloadConfig c).run e).1), ((reloadConfig c).run e).2) := rfl
  rw [hrun]
  refine ⟨fun _ h => ?_, fun rep hrep => ?_, fun _ _ h => ?_⟩
  · cases h
  · cases hrep
    exact reloadConfig_ledger c e
  · cases h

/-! ## Section 3: Atomicity of every request -/

/-- **Atomicity.** From a ledger whose batch numbers are all below its count of batches, every
    request is atomic: it fails, is a duplicate or is skipped without writing (an overflow
    after the append apart), or appends exactly the rows it reports as one fresh non-empty
    batch of its document; and a held scope of its batch fails it with a write conflict on the
    least held scope, with the ledger and the held scopes as they were. -/
theorem request_atomic (c : Request) (e : Engine) (hfresh : e.books.ledger.BatchesFresh) :
    Atomic c.source? (c.batch? e) e (((c.run).run).run e).1 (((c.run).run).run e).2 := by
  cases hplan : c.plan? e with
  | none =>
    -- only a reload has no plan
    cases c with
    | reloadConfig cfg => exact atomic_reloadConfig cfg e
    | event ev => cases ev <;> cases hplan
    | supplement => cases hplan
    | reclass => cases hplan
  | some P =>
    obtain ⟨doc, hdoc, hfor⟩ := Request.plan_forDocument hplan
    have hbatch : c.batch? e = P.drafts? := by simp [Request.batch?, hplan]
    rw [Request.run_of_plan hplan, hdoc, hbatch]
    cases P with
    | stop r =>
      rw [Plan.run_exec_stop]
      exact atomic_stop hfor e
    | checked doc' ds p k =>
      rw [Plan.run_exec_checked]
      exact atomic_append (appendStep_checked doc' ds p) hfor.1 hfor.2 e hfresh
    | unchecked ds k =>
      rw [Plan.run_exec_unchecked]
      exact atomic_append (appendStep_unchecked ds) hfor.1 hfor.2 e hfresh

/-- Atomicity at three engines: a fresh one, where a supplement writes; one whose ledger holds
    a first claim's reservation, where a second claim is reserved; and the same one with the
    claims' scope held from outside, where the second claim fails with a write conflict naming
    a held scope and leaves the ledger and the held scopes as they were. -/
theorem request_atomic_fresh :
    let travel : DimensionKey := ⟨"ACME", "FY2026", "CC-OPS", "6100-Travel", none, none⟩
    let supplement : Request := .supplement default Decimal.cent ⟨"Budget", "B-1"⟩ ⟨2026, 1, 1⟩
    let claim₁ : SourceDocument :=
      { docRef := ⟨"Expense Claim", "EXP-1"⟩, company := some "ACME", costCenter := "CC-OPS",
        postingDate := ⟨2026, 3, 10⟩, workflowState := "Approved",
        lines := [⟨"6100-Travel", Decimal.ofNat 300⟩] }
    let claim₂ : SourceDocument :=
      { docRef := ⟨"Expense Claim", "EXP-2"⟩, company := some "ACME", costCenter := "CC-OPS",
        postingDate := ⟨2026, 3, 11⟩, workflowState := "Approved",
        lines := [⟨"6100-Travel", Decimal.ofNat 200⟩] }
    let reserve₂ : Request := .event (.reachedTargetState claim₂ {})
    let e₀ : Engine :=
      { directory := [("CC-OPS", "ACME")],
        calendar := [⟨"FY2026", none, ⟨2026, 1, 1⟩, ⟨2026, 12, 31⟩⟩],
        books := { envelopes := EnvelopeBook.ofList [(travel, Decimal.ofNat 1000)] } }
    let e₁ := (Request.event (.reachedTargetState claim₁ {})).step e₀
    let e₂ : Engine := { e₁ with books := { e₁.books with locks := { held := [e₁.scopeOf travel] } } }
    -- a fresh engine, where a supplement writes
    (({} : Engine).books.ledger.BatchesFresh ∧
      Atomic supplement.source? (supplement.batch? {}) {} (((supplement.run).run).run {}).1
        (((supplement.run).run).run {}).2) ∧
    -- a ledger that holds a first claim's reservation, where a second claim is reserved
    (e₁.books.ledger.entries.length = 1 ∧ e₁.books.ledger.BatchesFresh ∧
      Atomic reserve₂.source? (reserve₂.batch? e₁) e₁ (((reserve₂.run).run).run e₁).1
        (((reserve₂.run).run).run e₁).2) ∧
    -- the same ledger with the travel scope held from outside: the second claim conflicts
    (e₂.books.ledger.BatchesFresh ∧
      (∃ ds needs, reserve₂.batch? e₂ = some ds ∧
        ds.foldlM (addDemand e₂.config.controlByAccount) [] = .ok needs ∧
        ∃ d ∈ ds, BudgetScope.ofKey d.key e₂.config.controlByAccount ∈ e₂.books.locks.held) ∧
      ∃ blocked, (((reserve₂.run).run).run e₂).1 = .error (.writeConflict blocked.toText) ∧
        blocked ∈ e₂.books.locks.held ∧
        (((reserve₂.run).run).run e₂).2.books.ledger = e₂.books.ledger ∧
        (((reserve₂.run).run).run e₂).2.books.locks.held = e₂.books.locks.held) := by
  intro travel supplement claim₁ claim₂ reserve₂ e₀ e₁ e₂
  have hfresh₁ : e₁.books.ledger.BatchesFresh := by
    unfold Ledger.BatchesFresh
    decide +kernel
  -- the second claim's batch and its demand, evaluated by the kernel
  have hsome : (reserve₂.batch? e₂).isSome = true := by decide +kernel
  have hok : (((reserve₂.batch? e₂).getD []).foldlM
      (addDemand e₂.config.controlByAccount) []).isOk = true := by decide +kernel
  have hheld : ∃ d ∈ (reserve₂.batch? e₂).getD [],
      BudgetScope.ofKey d.key e₂.config.controlByAccount ∈ e₂.books.locks.held := by
    decide +kernel
  obtain ⟨ds, hds⟩ := Option.isSome_iff_exists.1 hsome
  rw [hds, Option.getD_some] at hok hheld
  cases hdem : ds.foldlM (addDemand e₂.config.controlByAccount) [] with
  | error err =>
    rw [hdem] at hok
    cases hok
  | ok needs =>
    obtain ⟨blocked, hr, -, hb, -, hl, hh⟩ :=
      (request_atomic reserve₂ e₂ hfresh₁).conflict ds needs hds hdem hheld
    exact ⟨⟨Ledger.batchesFresh_empty, request_atomic supplement {} Ledger.batchesFresh_empty⟩,
      ⟨by decide +kernel, hfresh₁, request_atomic reserve₂ e₁ hfresh₁⟩,
      ⟨hfresh₁, ⟨ds, needs, hds, hdem, hheld⟩, blocked, hr, hb, hl, hh⟩⟩

end Engine

end Encumbrance

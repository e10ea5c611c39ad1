import Mathlib
import Encumbrance.Proofs.State.Balance
import Encumbrance.Proofs.Control.Unchecked

/-! # No scope is overdrawn

    Along any run of reservations, rejections, supplements and moves of budget made by
    principals who may not overrun, no scope of a key ever has less than nothing available.

    A batch with no spending rows moves what a scope has available by exactly its demand on the
    scope, the other way (`Books.availableVal_append`). Releases and supplements give budget
    back: they have no positive demand anywhere. A checked batch for a principal who may not
    overrun is written only when no scope falls short (`Engine.Gated`), and then every scope
    with a positive demand had at least that much (`Books.demand_le_of_shortfalls_nil`). So
    each step keeps every scope at or above zero (`Plan.solvent_exec`), and so does every run
    from an empty ledger (`Request.runAll_solvent`).
-/

namespace Encumbrance

open Decimal

/-! ## Section 1: What a batch moves -/

theorem sum_map_neg_outflow (xs : List Entry) :
    (xs.map fun x => (-x.outflow).val).sum = -(xs.map fun x => x.outflow.val).sum := by
  induction xs with
  | nil => simp
  | cons x xs ih =>
    rw [List.map_cons, List.sum_cons, ih, val_negate, List.map_cons, List.sum_cons]
    ring

/-- Without spending rows, a scope's allocation rows and reservation rows are all its rows. -/
theorem sum_outflow_of_no_spending {xs : List Entry} (hx : ∀ x ∈ xs, x.entryType ∉ consumedTypes)
    (s : BudgetScope) :
    ((xs.filter ({ scope := some s, types := allocationTypes } : LedgerQuery).admits).map
        fun x => x.outflow.val).sum +
      ((xs.filter ({ scope := some s, types := reservedTypes } : LedgerQuery).admits).map
        fun x => x.outflow.val).sum =
      ((xs.filter fun x => s.contains x.key).map fun x => x.outflow.val).sum := by
  induction xs with
  | nil => simp
  | cons x xs ih =>
    have ih := ih fun y hy => hx y (List.mem_cons_of_mem _ hy)
    have hx' := hx x List.mem_cons_self
    by_cases hs : s.contains x.key = true
    · -- a row of the scope is an allocation or a reservation row, not both
      cases ht : x.entryType <;>
        simp [LedgerQuery.admits, hs, ht, allocationTypes, reservedTypes, consumedTypes] at hx' ih ⊢ <;>
        linarith
    · simp [LedgerQuery.admits, hs, ih]

/-- A batch's demand on a scope is what the rows written from it take out of the scope. -/
theorem scopeDemand_rows {ds : List EntryDraft} {es : List Entry} (h : es.map Entry.draft = ds)
    (s : BudgetScope) :
    scopeDemand (outflows ds) s = ((es.filter fun x => s.contains x.key).map fun x => x.outflow.val).sum := by
  subst h
  simp [scopeDemand, outflows, List.filter_map, Function.comp_def]

namespace Books

/-- What a scope has available reads only the envelopes, the ledger, the postings and where
    actuals come from. -/
theorem availableVal_congr {b b' : Books} (henv : b'.envelopes = b.envelopes)
    (hposted : b'.posted = b.posted) (hfrom : b'.actualsFrom = b.actualsFrom)
    (hl : b'.ledger = b.ledger) (s : BudgetScope) : b'.availableVal s = b.availableVal s := by
  unfold availableVal actualVal
  rw [henv, hposted, hfrom, hl]

/-- Appending a batch with no spending rows takes from what each scope has available exactly
    the batch's demand on it. -/
theorem availableVal_append {b b' : Books} {ds : List EntryDraft} {es : List Entry}
    (henv : b'.envelopes = b.envelopes) (hposted : b'.posted = b.posted)
    (hfrom : b'.actualsFrom = b.actualsFrom) (happ : b.ledger.append ds = .ok (es, b'.ledger))
    (hspend : ∀ d ∈ ds, d.entryType ∉ consumedTypes) (s : BudgetScope) :
    b'.availableVal s = b.availableVal s - scopeDemand (outflows ds) s := by
  have hrows : ∀ x ∈ es, x.entryType ∉ consumedTypes := fun x hx =>
    Entry.draft_entryType x ▸ hspend x.draft (Ledger.append_drafts happ ▸ List.mem_map_of_mem hx)
  -- no row is spending, so the actual spend stays as it was
  have hC : es.filter ({ scope := some s, types := consumedTypes } : LedgerQuery).admits = [] := by
    refine List.filter_eq_nil_iff.2 fun x hx hadm => hrows x hx ?_
    have hmem : s.contains x.key = true ∧ x.entryType ∈ consumedTypes := by
      simpa [LedgerQuery.admits, consumedTypes] using hadm
    exact hmem.2
  rw [scopeDemand_rows (Ledger.append_drafts happ), ← sum_outflow_of_no_spending hrows s]
  unfold availableVal actualVal
  rw [henv, hposted, hfrom]
  cases b.actualsFrom <;>
    simp only [Ledger.totalVal_append happ, hC, sum_map_neg_outflow, List.map_nil, List.sum_nil,
      add_zero] <;> ring

end Books

/-- Sound releases and supplements give budget back: their demand on a scope is not positive. -/
theorem scopeDemand_nonpos_of_giving {ds : List EntryDraft} (hvalid : ∀ d ∈ ds, d.validate = .ok ())
    (hgive : ∀ d ∈ ds, d.entryType = .release ∨ d.entryType = .supplement) (s : BudgetScope) :
    scopeDemand (outflows ds) s ≤ 0 := by
  unfold scopeDemand
  refine (List.sum_le_sum (g := fun _ => (0 : ℚ)) fun p hp => ?_).trans (by simp)
  obtain ⟨d, hd, rfl⟩ := List.mem_map.1 (List.mem_of_mem_filter hp)
  have hin : d.entryType.fixedDirection = some .inbound := by
    rcases hgive d hd with ht | ht <;> rw [ht] <;> rfl
  rw [EntryDraft.outflow_val_of_fixed (hvalid d hd) hin, if_pos rfl]
  exact neg_nonpos.2 (EntryDraft.amount_nonneg (hvalid d hd))

/-- Writing releases and supplements lowers no scope's available figure. -/
theorem Books.availableVal_le_of_giving {b b' : Books} {ds : List EntryDraft} {es : List Entry}
    (henv : b'.envelopes = b.envelopes) (hposted : b'.posted = b.posted)
    (hfrom : b'.actualsFrom = b.actualsFrom) (happ : b.ledger.append ds = .ok (es, b'.ledger))
    (hgive : ∀ d ∈ ds, d.entryType = .release ∨ d.entryType = .supplement) (s : BudgetScope) :
    b.availableVal s ≤ b'.availableVal s := by
  -- a written batch passed its checks, so every draft is sound
  have hvalid := (validateBatch_ok (Ledger.append_ok happ).1).2
  have hspend : ∀ d ∈ ds, d.entryType ∉ consumedTypes := fun d hd => by
    rcases hgive d hd with ht | ht <;> simp [ht, consumedTypes]
  rw [Books.availableVal_append henv hposted hfrom happ hspend]
  linarith [scopeDemand_nonpos_of_giving hvalid hgive s]

/-! ## Section 2: What passing the gate promises -/

/-- Where no scope falls short, every scope of a key asked for a positive amount has at least
    that much available. -/
theorem Books.demand_le_of_shortfalls_nil {b : Books} {byAccount : Bool}
    {xs : List (DimensionKey × ℚ)} (h : b.shortfallsFor byAccount xs = []) {k : DimensionKey}
    (hpos : 0 < scopeDemand xs (BudgetScope.ofKey k byAccount)) :
    scopeDemand xs (BudgetScope.ofKey k byAccount) ≤ b.availableVal (BudgetScope.ofKey k byAccount) := by
  -- some key asked for lies in the scope, so the scope is among those checked
  obtain ⟨p, hp, hin⟩ : ∃ p ∈ xs, (BudgetScope.ofKey k byAccount).contains p.1 = true := by
    by_contra hnone
    rw [scopeDemand_eq_zero fun p hp => Bool.eq_false_iff.2 fun hc => hnone ⟨p, hp, hc⟩] at hpos
    exact lt_irrefl _ hpos
  have hchecked : BudgetScope.ofKey k byAccount ∈
      LockTable.ordered (xs.map fun p => BudgetScope.ofKey p.1 byAccount) :=
    LockTable.mem_ordered.2 (List.mem_map.2 ⟨p, hp, BudgetScope.contains_ofKey_iff.1 hin⟩)
  by_contra hlt
  have hshort : BudgetScope.ofKey k byAccount ∈
      (LockTable.ordered (xs.map fun p => BudgetScope.ofKey p.1 byAccount)).filter fun S =>
        0 < scopeDemand xs S ∧ b.availableVal S < scopeDemand xs S :=
    List.mem_filter.2 ⟨hchecked, by simp [hpos, not_le.1 hlt]⟩
  rw [shortfallsFor, List.map_eq_nil_iff] at h
  rw [h] at hshort
  exact List.not_mem_nil hshort

namespace Ledger

/-- An append writes at least one row. -/
theorem append_ne_self {l l' : Ledger} {ds : List EntryDraft} {es : List Entry}
    (h : l.append ds = .ok (es, l')) : l' ≠ l := by
  intro hl
  have hentries := append_entries h
  rw [hl] at hentries
  exact append_ne_nil h (by simpa using hentries)

end Ledger

namespace Engine

/-- An append step that wrote found all its batch's scopes free: a held one would have failed
    it before it wrote. -/
theorem AppendStep.free_of_growth {ds : List EntryDraft} {x : EngineM (List Entry × List Shortfall)}
    (hx : AppendStep ds x) {e : Engine} {needs : List (BudgetScope × Decimal)}
    (hneeds : ds.foldlM (addDemand e.config.controlByAccount) [] = .ok needs)
    (hgrew : ((x.run).run e).2.books.ledger ≠ e.books.ledger) :
    ∀ d ∈ ds, e.scopeOf d.key ∉ e.books.locks.held := by
  intro d hd hheld
  obtain ⟨blocked, t, hacq⟩ :=
    LockTable.acquire_error_of_held ((mem_demandScopes hneeds _).2 ⟨d, hd, rfl⟩) hheld
  rw [hx.conflict hneeds hacq] at hgrew
  exact hgrew rfl

/-- A batch an append step wrote, with room for the books after it, found its scopes free,
    passed its checks and had room before. -/
theorem AppendStep.written_from {ds : List EntryDraft} {x : EngineM (List Entry × List Shortfall)}
    (hx : AppendStep ds x) {e : Engine} {es : List Entry}
    (happ : e.books.ledger.append ds = .ok (es, ((x.run).run e).2.books.ledger)) {S : ℕ}
    (hroom : Room S ((x.run).run e).2.books.amounts) :
    (∀ d ∈ ds, e.scopeOf d.key ∉ e.books.locks.held) ∧ validateBatch ds = .ok () ∧
      Room S (e.books.amounts ++ ds.map EntryDraft.amount) := by
  have hframe := (hx.appends e).1
  have hroomB : Room S (e.books.amounts ++ ds.map EntryDraft.amount) :=
    hroom.perm (Books.amounts_append_perm hframe.envelopes hframe.posted happ)
  obtain ⟨needs, hneeds, -, -⟩ :=
    demand_exact e.config.controlByAccount (hroomB.sublist (List.sublist_append_right _ _))
  exact ⟨hx.free_of_growth hneeds (Ledger.append_ne_self happ), (Ledger.append_ok happ).1, hroomB⟩

end Engine

/-! ## Section 3: Requests that cannot overrun -/

namespace Plan

/-- A plan that cannot take a scope below zero, for the overrun role `role`: its checked batch
    is checked for a principal without that role, and its unchecked batch only gives budget
    back. -/
def NoOverrun {α : Type} (role : String) : Plan α → Prop
  | stop _ => True
  | checked _ _ p _ => p.hasRole role = false
  | unchecked ds _ => ∀ d ∈ ds, d.entryType = .release ∨ d.entryType = .supplement

end Plan

namespace Engine

variable {role : String}

theorem reachPlan_noOverrun (e : Engine) (document : SourceDocument) {context : EventContext}
    (h : context.principal.hasRole role = false) :
    ((e.reachPlan document context).map Reply.outcome).NoOverrun role := by
  unfold reachPlan
  repeat' split
  all_goals simp [Plan.map, Plan.NoOverrun, h]

theorem rejectPlan_noOverrun (e : Engine) (document : SourceDocument) :
    ((e.rejectPlan document).map Reply.outcome).NoOverrun role := by
  unfold rejectPlan
  repeat' split
  all_goals simp [Plan.map, Plan.NoOverrun, EntryDraft.make]
  -- the releases
  rintro _ _ _ _ rfl
  exact .inl rfl

theorem supplementPlan_noOverrun (k : DimensionKey) (amount : Decimal) (source : DocumentRef)
    (postingDate : Date) : ((supplementPlan k amount source postingDate).map Reply.entries).NoOverrun role := by
  unfold supplementPlan
  split <;> simp [Plan.map, Plan.NoOverrun, EntryDraft.make]

theorem reclassPlan_noOverrun (source target : DimensionKey) (amount : Decimal) (doc : DocumentRef)
    (postingDate : Date) {principal : Principal} (h : principal.hasRole role = false) :
    ((reclassPlan source target amount doc postingDate principal).map Reply.entries).NoOverrun role := by
  unfold reclassPlan
  repeat' split
  all_goals simp [Plan.map, Plan.NoOverrun, h]

end Engine

namespace Request

/-- The requests that cannot take a scope below zero, for the overrun role `role`: reaching the
    locking state and moving budget by a principal without that role, rejecting or reopening a
    document, and supplementing a key. -/
def noOverrun (role : String) : Request → Bool
  | event (.reachedTargetState _ context) => !context.principal.hasRole role
  | event (.rejectedOrReopened _ _) => true
  | supplement _ _ _ _ => true
  | reclass _ _ _ _ _ principal => !principal.hasRole role
  | _ => false

theorem plan_noOverrun {c : Request} {role : String} (hc : c.noOverrun role = true) (e : Engine) :
    ∃ P, c.plan? e = some P ∧ P.NoOverrun role := by
  cases c with
  | event ev =>
    cases ev with
    | reachedTargetState document context =>
      exact ⟨_, rfl, Engine.reachPlan_noOverrun e document (by simpa [noOverrun] using hc)⟩
    | rejectedOrReopened document context => exact ⟨_, rfl, Engine.rejectPlan_noOverrun e document⟩
    | secondarySubmitted => simp [noOverrun] at hc
    | secondaryCancelled => simp [noOverrun] at hc
  | supplement k amount source postingDate =>
    exact ⟨_, rfl, Engine.supplementPlan_noOverrun k amount source postingDate⟩
  | reclass source target amount doc postingDate principal =>
    exact ⟨_, rfl, Engine.reclassPlan_noOverrun source target amount doc postingDate
      (by simpa [noOverrun] using hc)⟩
  | reloadConfig => simp [noOverrun] at hc

end Request

/-! ## Section 4: One step -/

namespace Engine

/-- No scope of a key has less than nothing available. -/
def Solvent (e : Engine) : Prop :=
  ∀ k, 0 ≤ e.books.availableVal (BudgetScope.ofKey k e.config.controlByAccount)

/-- Carrying out a plan keeps the frame. -/
theorem frame_exec {α : Type} (P : Plan α) (e : Engine) : Frame e (((P.exec).run).run e).2 := by
  cases P with
  | stop r =>
    rw [Plan.run_exec_stop]
    exact Frame.refl e
  | checked doc ds p k =>
    rw [Plan.run_exec_checked, Plan.run_map_state]
    exact (appendChecked_appends doc ds p e).1
  | unchecked ds k =>
    rw [Plan.run_exec_unchecked, Plan.run_map_state]
    exact (appendUnchecked_appends ds e).1

variable {e e' : Engine} {ds : List EntryDraft}

/-- A step that keeps the frame and appends at most a batch with no spending rows keeps every
    scope solvent, when each scope the batch asks a positive amount of had that much. -/
theorem solvent_of_step (hframe : Frame e e') (hspend : ∀ d ∈ ds, d.entryType ∉ consumedTypes)
    (hsolvent : e.Solvent)
    (hled : e'.books.ledger = e.books.ledger ∨ ∃ es, e.books.ledger.append ds = .ok (es, e'.books.ledger))
    (hcover : ∀ es, e.books.ledger.append ds = .ok (es, e'.books.ledger) → ∀ k,
      0 < scopeDemand (outflows ds) (BudgetScope.ofKey k e.config.controlByAccount) →
      scopeDemand (outflows ds) (BudgetScope.ofKey k e.config.controlByAccount) ≤
        e.books.availableVal (BudgetScope.ofKey k e.config.controlByAccount)) :
    e'.Solvent := by
  intro k
  rw [hframe.config]
  rcases hled with hl | ⟨es, happ⟩
  · rw [Books.availableVal_congr hframe.envelopes hframe.posted hframe.actualsFrom hl]
    exact hsolvent k
  · rw [Books.availableVal_append hframe.envelopes hframe.posted hframe.actualsFrom happ hspend]
    by_cases hpos : 0 < scopeDemand (outflows ds) (BudgetScope.ofKey k e.config.controlByAccount)
    · linarith [hcover es happ k hpos]
    · linarith [hsolvent k, not_lt.1 hpos]

/-- Giving budget back keeps every scope solvent. -/
theorem solvent_unchecked {α : Type} {k : List Entry × List Shortfall → α}
    (hgive : ∀ d ∈ ds, d.entryType = .release ∨ d.entryType = .supplement) (hsolvent : e.Solvent) :
    ((((Plan.unchecked ds k).exec).run).run e).2.Solvent := by
  have hframe := frame_exec (.unchecked ds k) e
  rw [Plan.run_exec_unchecked] at hframe ⊢
  refine solvent_of_step hframe (fun d hd => ?_) hsolvent
    ((appendStep_unchecked ds).ledger k e) fun es happ j hpos => ?_
  · rcases hgive d hd with ht | ht <;> simp [ht, consumedTypes]
  · -- a written batch passed its checks, so it has no positive demand
    have hvalid := (validateBatch_ok (Ledger.append_ok happ).1).2
    exact absurd hpos (not_lt.2 (scopeDemand_nonpos_of_giving hvalid hgive _))

/-- A checked batch for a principal who may not overrun keeps every scope solvent: it is
    written only when no scope falls short. -/
theorem solvent_checked {α : Type} {doc : DocumentRef} {p : Principal}
    {k : List Entry × List Shortfall → α} (hrole : p.hasRole e.config.overrunRole = false)
    (hspend : ∀ d ∈ ds, d.entryType ∉ consumedTypes) (hagree : e.CacheAgrees)
    (hsolvent : e.Solvent) {S : ℕ}
    (hroom : Room S ((((Plan.checked doc ds p k).exec).run).run e).2.books.amounts) :
    ((((Plan.checked doc ds p k).exec).run).run e).2.Solvent := by
  have hframe := frame_exec (.checked doc ds p k) e
  rw [Plan.run_exec_checked] at hframe hroom ⊢
  refine solvent_of_step hframe hspend hsolvent ((appendStep_checked doc ds p).ledger k e)
    fun es happ j hpos => ?_
  -- the books and the batch have room, so the gate law applies
  rw [Plan.run_map_state] at happ hroom
  obtain ⟨hfree, hvalid, hroomB⟩ := (appendStep_checked doc ds p).written_from happ hroom
  have hgate := @checked_gated _ doc ds p k e S hagree hfree hvalid hroomB
  rw [Plan.run_exec_checked, Plan.run_map_state] at hgate
  -- with a shortfall the principal would have been refused, and nothing written
  have hnil : e.books.shortfallsFor e.config.controlByAccount (outflows ds) = [] := by
    by_contra hL
    exact Ledger.append_ne_self happ (hgate.refused hL (by simp [hrole])).2
  exact Books.demand_le_of_shortfalls_nil hnil hpos

/-- Carrying out a plan that cannot overrun, with no spending rows in its checked batch, keeps
    every scope solvent. -/
theorem solvent_exec {α : Type} {P : Plan α} (hP : P.NoOverrun e.config.overrunRole)
    (hno : P.ChecksNoSpending) (hagree : e.CacheAgrees) (hsolvent : e.Solvent) {S : ℕ}
    (hroom : Room S (((P.exec).run).run e).2.books.amounts) : (((P.exec).run).run e).2.Solvent := by
  cases P with
  | stop r =>
    rw [Plan.run_exec_stop]
    exact hsolvent
  | checked doc ds p k => exact solvent_checked hP hno hagree hsolvent hroom
  | unchecked ds k => exact solvent_unchecked hP hsolvent

end Engine

/-! ## Section 5: Along every run -/

namespace Request

variable {S : ℕ}

/-- The amounts the books hold before a request with a plan are among those after it. -/
theorem amounts_sublist_step {c : Request} {e : Engine} {P : Plan Reply} (hplan : c.plan? e = some P) :
    e.books.amounts.Sublist (c.step e).books.amounts := by
  have hframe := Engine.frame_exec P e
  rw [← run_of_plan hplan] at hframe
  unfold Books.amounts
  rw [step, hframe.envelopes, hframe.posted]
  exact ((List.Sublist.refl _).append ((step_extends c e).sublist.map _)).append (List.Sublist.refl _)

/-- A request that cannot overrun keeps every scope solvent and the settings as they were. -/
theorem step_solvent {c : Request} {e : Engine} (hc : c.noOverrun e.config.overrunRole = true)
    (hagree : e.CacheAgrees) (hsolvent : e.Solvent) (hroom : Room S (c.step e).books.amounts) :
    (c.step e).Solvent ∧ (c.step e).config = e.config := by
  obtain ⟨P, hplan, hP⟩ := plan_noOverrun hc e
  have hstep : c.step e = (((P.exec).run).run e).2 := by rw [step, run_of_plan hplan]
  rw [hstep] at hroom ⊢
  exact ⟨Engine.solvent_exec hP (plan_checksNoSpending hplan) hagree hsolvent hroom,
    (Engine.frame_exec P e).config⟩

/-- Every run of requests that cannot overrun keeps every scope solvent, while the final books
    have room for exact sums. -/
theorem runAll_solvent (cs : List Request) {e : Engine}
    (hcs : ∀ c ∈ cs, c.noOverrun e.config.overrunRole = true) (hagree : e.CacheAgrees)
    (hsolvent : e.Solvent) (hroom : Room S (runAll cs e).books.amounts) :
    (runAll cs e).Solvent ∧ (runAll cs e).config = e.config := by
  -- induction from the end of the run: the books before the last request have room too
  induction cs using List.reverseRecOn with
  | nil => exact ⟨hsolvent, rfl⟩
  | append_singleton cs c ih =>
    rw [runAll_append] at hroom ⊢
    have hc := hcs c (List.mem_append_right _ (List.mem_singleton_self c))
    obtain ⟨P, hplan, -⟩ := plan_noOverrun hc (runAll cs e)
    obtain ⟨hsol, hcfg⟩ := ih (fun c' hc' => hcs c' (List.mem_append_left _ hc'))
      (hroom.sublist (amounts_sublist_step hplan))
    obtain ⟨hsol', hcfg'⟩ :=
      step_solvent (by rw [hcfg]; exact hc) (runAll_cacheAgrees cs hagree) hsol hroom
    exact ⟨hsol', hcfg'.trans hcfg⟩

end Request

/-! ## Section 6: From an empty ledger -/

namespace Engine

/-- With actuals read from the ledger, an empty ledger and no envelope below zero, no scope is
    below zero. -/
theorem solvent_of_empty {e : Engine} (h₀ : e.books.ledger = {})
    (hfrom : e.books.actualsFrom = .ledger) (henv : ∀ x ∈ e.books.envelopes.entries, 0 ≤ x.2.val) :
    e.Solvent := by
  intro k
  have hnone : ∀ (s : BudgetScope) types (w : Entry → Decimal), e.books.ledger.totalVal s types w = 0 := by
    intro s types w
    simp [Ledger.totalVal, Ledger.select, h₀]
  simp only [Books.availableVal, Books.actualVal, hfrom, hnone, add_zero, sub_zero, scopeSumVal]
  refine List.sum_nonneg fun v hv => ?_
  obtain ⟨x, hx, rfl⟩ := List.mem_map.1 hv
  exact henv x (List.mem_of_mem_filter hx)

/-- **No overshoot.** Start from an empty ledger and an empty cache, with actuals read from the
    ledger and no envelope below zero, and run any requests that reach the locking state, reject
    or reopen a document, supplement a key or move budget, no principal of which holds the
    overrun role. Then what the scope of any key has available, read as the engine reads it, is
    not below zero, while the final books have room for exact sums. -/
theorem available_never_negative {e₀ : Engine} (h₀ : e₀.books.ledger = {})
    (hc₀ : e₀.books.cache.slots = []) (hfrom : e₀.books.actualsFrom = .ledger)
    (henv : ∀ x ∈ e₀.books.envelopes.entries, 0 ≤ x.2.val) (cs : List Request)
    (hcs : ∀ c ∈ cs, c.noOverrun e₀.config.overrunRole = true) {S : ℕ}
    (hroom : Room S (Request.runAll cs e₀).books.amounts) (k : DimensionKey) :
    ∃ av c, ((Books.available (BudgetScope.ofKey k e₀.config.controlByAccount)).run).run
        (Request.runAll cs e₀).books = (.ok av, { (Request.runAll cs e₀).books with cache := c }) ∧
      0 ≤ av.val := by
  obtain ⟨hsolvent, hcfg⟩ := Request.runAll_solvent cs hcs (cacheAgrees_of_empty hc₀)
    (solvent_of_empty h₀ hfrom henv) hroom
  -- the cache agrees with the live figures all along the run, so the read is exact
  have hagree := Request.runAll_cacheAgrees cs (cacheAgrees_of_empty hc₀)
  unfold CacheAgrees at hagree
  rw [hcfg] at hagree
  obtain ⟨av, c, hrun, -, hav, -⟩ := Books.run_available_exact hagree List.not_mem_nil hroom
  refine ⟨av, c, hrun, ?_⟩
  rw [hav]
  simpa [hcfg] using hsolvent k

/-- Two claims on a travel envelope of 1000: the first reserves 600, the second asks 500 and is
    refused, the first is rejected and 50 is added. Travel is not below zero. -/
theorem refused_claim_keeps_travel_solvent :
    let travel : DimensionKey := ⟨"ACME", "FY2026", "CC-OPS", "6100-Travel", none, none⟩
    let claim₁ : SourceDocument :=
      { docRef := ⟨"Expense Claim", "EXP-1"⟩, company := some "ACME", costCenter := "CC-OPS",
        postingDate := ⟨2026, 3, 10⟩, workflowState := "Approved",
        lines := [⟨"6100-Travel", Decimal.ofNat 600⟩] }
    let claim₂ : SourceDocument :=
      { docRef := ⟨"Expense Claim", "EXP-2"⟩, company := some "ACME", costCenter := "CC-OPS",
        postingDate := ⟨2026, 3, 11⟩, workflowState := "Approved",
        lines := [⟨"6100-Travel", Decimal.ofNat 500⟩] }
    let e₀ : Engine :=
      { directory := [("CC-OPS", "ACME")],
        calendar := [⟨"FY2026", none, ⟨2026, 1, 1⟩, ⟨2026, 12, 31⟩⟩],
        books := { envelopes := EnvelopeBook.ofList [(travel, Decimal.ofNat 1000)] } }
    let cs : List Request :=
      [.event (.reachedTargetState claim₁ {}), .event (.reachedTargetState claim₂ {}),
        .event (.rejectedOrReopened claim₁ {}),
        .supplement travel (Decimal.ofNat 50) ⟨"Budget", "B-1"⟩ ⟨2026, 3, 12⟩]
    Room 0 (Request.runAll cs e₀).books.amounts ∧
      ∃ av c, ((Books.available (BudgetScope.ofKey travel e₀.config.controlByAccount)).run).run
          (Request.runAll cs e₀).books = (.ok av, { (Request.runAll cs e₀).books with cache := c }) ∧
        0 ≤ av.val := by
  intro travel claim₁ claim₂ e₀ cs
  have hroom : Room 0 (Request.runAll cs e₀).books.amounts :=
    ⟨by decide, by decide +kernel, by decide +kernel⟩
  exact ⟨hroom, available_never_negative rfl rfl rfl (by decide +kernel) cs (by decide +kernel)
    hroom travel⟩

end Engine

end Encumbrance

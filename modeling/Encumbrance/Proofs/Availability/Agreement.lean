import Mathlib
import Encumbrance.Proofs.Availability.Cache
import Encumbrance.Proofs.Control.Atomicity
import Encumbrance.Proofs.Dimension.Placement

/-! # The cache never serves a stale figure

    The actuals cache keeps one figure of spend per budget scope, and a read that finds a
    fresh slot answers from it without looking at the source. Such a read is right only when
    the slot holds what the source says now. This module shows that this agreement holds
    along every run of the engine.

    * Only a miss fills a slot, with the figure it has just read live, and only for the scope
      of a key at the engine's control setting; the rest of the cache's bookkeeping only drops
      slots (`ActualsCache.Shrinks`). So reads keep agreement (`Books.KeepsAgree`).
    * A batch with spending rows changes the live figures of their scopes, and of no other
      scope a slot can be for. Agreement then holds with those scopes set apart, and the
      unchecked append forgets the cached figures of every scope of its batch, which restores
      it. The checked append writes no spending.
    * A reload of the settings, which may change the control setting, marks every slot stale.
-/

namespace Encumbrance

namespace Books

/-! ## Section 1: Agreement -/

/-- Every fresh slot of a remembering cache is for the scope of some key at the control
    setting `byAccount`, and, unless its scope is set apart in `T`, holds the live figure. -/
def CacheAgrees (byAccount : Bool) (T : List BudgetScope) (b : Books) : Prop :=
  b.cache.remembers = true → ∀ x ∈ b.cache.slots, x.stale = false →
    (∃ k, x.scope = BudgetScope.ofKey k byAccount) ∧ (x.scope ∉ T → b.liveActual x.scope = .ok x.value)

variable {byAccount : Bool} {T : List BudgetScope} {b : Books}

/-- Setting more scopes apart asks less. -/
theorem CacheAgrees.mono (h : CacheAgrees byAccount T b) {T' : List BudgetScope}
    (hT : ∀ s ∈ T, s ∈ T') : CacheAgrees byAccount T' b := by
  intro hrem x hx hst
  obtain ⟨hk, hlive⟩ := h hrem x hx hst
  exact ⟨hk, fun hx' => hlive fun hxT => hx' (hT _ hxT)⟩

/-- A cache with no fresh slot agrees with anything. -/
theorem cacheAgrees_of_stale (h : ∀ x ∈ b.cache.slots, x.stale = true) :
    CacheAgrees byAccount T b := fun _ x hx hst => absurd (h x hx) (by simp [hst])

/-- Agreement does not read the lock table. -/
theorem cacheAgrees_locks (t : LockTable) :
    CacheAgrees byAccount T { b with locks := t } ↔ CacheAgrees byAccount T b := Iff.rfl

/-- Bookkeeping that only drops slots keeps agreement. -/
theorem CacheAgrees.shrink (h : CacheAgrees byAccount T b) {c : ActualsCache}
    (hs : b.cache.Shrinks c) : CacheAgrees byAccount T { b with cache := c } := by
  intro hrem x hx hst
  have hrem' : b.cache.remembers = true := hs.remembers ▸ hrem
  exact h hrem' x (hs.slots x hx) hst

/-- Filling the slot of a key's scope with its live figure keeps agreement. -/
theorem CacheAgrees.fill (h : CacheAgrees byAccount T b) {c : ActualsCache} (hs : b.cache.Shrinks c)
    {k : DimensionKey} {v : Decimal} (hv : b.liveActual (BudgetScope.ofKey k byAccount) = .ok v) :
    CacheAgrees byAccount T { b with cache := c.fill (BudgetScope.ofKey k byAccount) v } := by
  obtain ⟨hen, hcap, hmem⟩ := ActualsCache.mem_fill (c := c) (s := BudgetScope.ofKey k byAccount) (v := v)
  intro hrem x hx hst
  have hrem' : b.cache.remembers = true := by
    rw [← hs.remembers]
    simpa [ActualsCache.remembers, hen, hcap] using hrem
  rcases hmem x hx with ⟨hxc, -⟩ | ⟨hxs, hxv, -⟩
  · exact h hrem' x (hs.slots x hxc) hst
  · exact ⟨⟨k, hxs⟩, fun _ => by rw [hxs, hxv]; exact hv⟩

/-! ## Section 2: Reads keep agreement -/

/-- `x` keeps agreement, whatever is set apart. -/
def KeepsAgree (byAccount : Bool) {α : Type} (x : BooksM α) : Prop :=
  ∀ T b, CacheAgrees byAccount T b → CacheAgrees byAccount T ((x.run).run b).2

section Combinators

variable {α β : Type}

theorem keepsAgree_pure (a : α) : KeepsAgree byAccount (pure a : BooksM α) := fun _ _ h => h

theorem keepsAgree_get : KeepsAgree byAccount (get : BooksM Books) := fun _ _ h => h

theorem keepsAgree_throw (err : BudgetError) : KeepsAgree byAccount (throw err : BooksM α) :=
  fun _ _ h => h

theorem keepsAgree_arith (x : Except ArithError α) : KeepsAgree byAccount (arith x : BooksM α) := by
  intro T b h
  cases x <;> exact h

/-- Agreement after `x` carries over what follows when that keeps it. -/
theorem CacheAgrees.bind {x : BooksM α} {f : α → BooksM β} (hx : CacheAgrees byAccount T ((x.run).run b).2)
    (hf : ∀ a, KeepsAgree byAccount (f a)) : CacheAgrees byAccount T (((x >>= f).run).run b).2 := by
  rw [run_bind]
  rcases hr : (x.run).run b with ⟨err | a, b'⟩
  · rw [hr] at hx; exact hx
  · rw [hr] at hx; exact hf a T b' hx

theorem KeepsAgree.bind {x : BooksM α} {f : α → BooksM β} (hx : KeepsAgree byAccount x)
    (hf : ∀ a, KeepsAgree byAccount (f a)) : KeepsAgree byAccount (x >>= f) :=
  fun T b h => CacheAgrees.bind (hx T b h) hf

theorem KeepsAgree.mapM {f : α → BooksM β} :
    ∀ {xs : List α}, (∀ a ∈ xs, KeepsAgree byAccount (f a)) → KeepsAgree byAccount (xs.mapM f)
  | [], _ => keepsAgree_pure _
  | x :: xs, hf => by
    rw [List.mapM_cons]
    exact (hf x List.mem_cons_self).bind fun _ =>
      (KeepsAgree.mapM fun a ha => hf a (List.mem_cons_of_mem _ ha)).bind fun _ => keepsAgree_pure _

theorem KeepsAgree.filterMapM {f : α → BooksM (Option β)} :
    ∀ {xs : List α}, (∀ a ∈ xs, KeepsAgree byAccount (f a)) → KeepsAgree byAccount (xs.filterMapM f)
  | [], _ => keepsAgree_pure _
  | x :: xs, hf => by
    rw [List.filterMapM_cons]
    have hrest : KeepsAgree byAccount (xs.filterMapM f) :=
      KeepsAgree.filterMapM fun a ha => hf a (List.mem_cons_of_mem _ ha)
    refine (hf x List.mem_cons_self).bind fun o => ?_
    cases o with
    | none => exact hrest
    | some _ => exact hrest.bind fun _ => keepsAgree_pure _

end Combinators

/-- Reading the spend of a key's scope keeps agreement: a miss fills the slot with the figure
    it has just read. -/
theorem keepsAgree_actual (k : DimensionKey) :
    KeepsAgree byAccount (actual (BudgetScope.ofKey k byAccount)) := by
  intro T b h
  simp only [actual, run_bind, run_get]
  split
  · cases b.liveActual (BudgetScope.ofKey k byAccount) <;> exact h
  · split
    · exact h.shrink (ActualsCache.shrinks_hit _ _)
    · cases hv : b.liveActual (BudgetScope.ofKey k byAccount) with
      | error e => exact h.shrink (ActualsCache.shrinks_miss _ _)
      | ok v => exact h.fill (ActualsCache.shrinks_miss _ _) hv

theorem keepsAgree_allocated (s : BudgetScope) : KeepsAgree byAccount (allocated s) :=
  keepsAgree_get.bind fun _ => (keepsAgree_arith _).bind fun _ => (keepsAgree_arith _).bind fun _ =>
    keepsAgree_arith _

theorem keepsAgree_reserved (s : BudgetScope) : KeepsAgree byAccount (reserved s) :=
  keepsAgree_get.bind fun _ => keepsAgree_arith _

theorem keepsAgree_available (k : DimensionKey) :
    KeepsAgree byAccount (available (BudgetScope.ofKey k byAccount)) :=
  (keepsAgree_allocated _).bind fun _ => (keepsAgree_actual k).bind fun _ =>
    (keepsAgree_arith _).bind fun _ => (keepsAgree_reserved _).bind fun _ => keepsAgree_arith _

theorem keepsAgree_check (k : DimensionKey) (requested : Decimal) :
    KeepsAgree byAccount (check (BudgetScope.ofKey k byAccount) requested) := by
  unfold check
  refine (keepsAgree_allocated _).bind fun a => (keepsAgree_actual k).bind fun u =>
    (keepsAgree_reserved _).bind fun r => (keepsAgree_arith _).bind fun rest =>
      (keepsAgree_arith _).bind fun available => ?_
  dsimp only
  split
  · exact (keepsAgree_pure _).bind fun _ => keepsAgree_pure _
  · exact (keepsAgree_arith _).bind fun _ => keepsAgree_pure _

theorem keepsAgree_overrunOf (k : DimensionKey) (before : Decimal) :
    KeepsAgree byAccount (Engine.overrunOf (BudgetScope.ofKey k byAccount) before) := by
  unfold Engine.overrunOf
  refine (keepsAgree_available k).bind fun after => ?_
  split
  · exact (keepsAgree_arith _).bind fun _ => keepsAgree_pure _
  · exact keepsAgree_pure _

/-- Work under scope locks keeps agreement when the work does. -/
theorem KeepsAgree.withScopes {α : Type} {work : BooksM α} (hw : KeepsAgree byAccount work)
    (scopes : List BudgetScope) : KeepsAgree byAccount (withScopes scopes work) := by
  intro T b h
  rcases hacq : b.locks.acquire scopes with ⟨blocked, t⟩ | t
  · rw [run_withScopes_conflict hacq]
    exact h
  · rw [run_withScopes_free hacq]
    exact hw T { b with locks := t } h

/-! ## Section 3: Writing and forgetting -/

/-- Appending a batch leaves the live spend of a scope alone when no spending row of the
    batch lies in it. -/
theorem liveActual_append {ds : List EntryDraft} {es : List Entry} {l : Ledger}
    (happ : b.ledger.append ds = .ok (es, l)) {s : BudgetScope}
    (hs : ∀ d ∈ ds, d.entryType ∈ consumedTypes → s.contains d.key = false) :
    { b with ledger := l }.liveActual s = b.liveActual s := by
  unfold liveActual
  cases b.actualsFrom with
  | posted => rfl
  | ledger =>
    -- the batch's rows of the scope's spending are none
    have hnone : es.filter ({ scope := some s, types := consumedTypes } : LedgerQuery).admits = [] := by
      refine List.filter_eq_nil_iff.2 fun x hx hadm => ?_
      have hd : x.draft ∈ ds := Ledger.append_drafts happ ▸ List.mem_map_of_mem hx
      have htype : x.entryType ∈ consumedTypes := by
        simpa [LedgerQuery.admits, consumedTypes] using (Bool.and_eq_true_iff.1 hadm).2
      have hcont : s.contains x.key = true := by
        simpa [LedgerQuery.admits] using (Bool.and_eq_true_iff.1 hadm).1
      simpa [hcont] using hs _ hd htype
    simp only [Ledger.consumedTotal, Ledger.total, Ledger.select_append happ, hnone, List.append_nil]

/-- Writing a batch keeps agreement once the scopes of its rows are set apart. -/
theorem CacheAgrees.write (h : CacheAgrees byAccount T b) (ds : List EntryDraft) :
    CacheAgrees byAccount (T ++ ds.map fun d => BudgetScope.ofKey d.key byAccount)
      (((Engine.write ds).run).run b).2 := by
  rw [Engine.run_write]
  rcases happ : b.ledger.append ds with err | ⟨es, l⟩
  · exact h.mono fun s hs => List.mem_append_left _ hs
  · intro hrem x hx hst
    obtain ⟨⟨k, hk⟩, hlive⟩ := h hrem x hx hst
    refine ⟨⟨k, hk⟩, fun hxT => ?_⟩
    have hT : x.scope ∉ T := fun hxT' => hxT (List.mem_append_left _ hxT')
    -- a spending row in the slot's scope would make that scope one of the batch's
    have hout : ∀ d ∈ ds, d.entryType ∈ consumedTypes → x.scope.contains d.key = false := by
      intro d hd _
      rw [hk, Bool.eq_false_iff]
      intro hcont
      refine hxT (List.mem_append_right _ (List.mem_map.2 ⟨d, hd, ?_⟩))
      rw [hk]
      exact BudgetScope.contains_ofKey_iff.1 hcont
    show ({ b with ledger := l } : Books).liveActual x.scope = .ok x.value
    rw [liveActual_append happ hout]
    exact hlive hT

/-- Writing a batch with no spending row keeps agreement. -/
theorem keepsAgree_write {ds : List EntryDraft} (hno : ∀ d ∈ ds, d.entryType ∉ consumedTypes) :
    KeepsAgree byAccount (Engine.write ds) := by
  intro T b h
  rw [Engine.run_write]
  rcases happ : b.ledger.append ds with err | ⟨es, l⟩
  · exact h
  · intro hrem x hx hst
    obtain ⟨hk, hlive⟩ := h hrem x hx hst
    refine ⟨hk, fun hxT => ?_⟩
    show ({ b with ledger := l } : Books).liveActual x.scope = .ok x.value
    rw [liveActual_append happ fun d hd ht => absurd ht (hno d hd)]
    exact hlive hxT

/-- A batch that neither consumes nor reverses has no spending row. -/
theorem not_mem_consumedTypes_of_not_any {ds : List EntryDraft}
    (htouch : ¬(ds.any fun d => d.entryType = .consumption || d.entryType = .reversal) = true) :
    ∀ d ∈ ds, d.entryType ∉ consumedTypes := by
  intro d hdm hcons
  refine htouch (List.any_eq_true.2 ⟨d, hdm, ?_⟩)
  simp only [consumedTypes, List.mem_cons, List.not_mem_nil, or_false] at hcons
  rcases hcons with h | h <;> simp [h]

/-- Forgetting a scope's figure takes it out of the scopes set apart. -/
theorem CacheAgrees.forget (h : CacheAgrees byAccount T b) (s : BudgetScope) :
    CacheAgrees byAccount (T.filter (· ≠ s)) (((Books.invalidate s).run).run b).2 := by
  simp only [Books.invalidate, run_modify]
  split
  · rename_i hrem
    intro _ x hx hst
    have hs := ActualsCache.shrinks_invalidate b.cache s
    obtain ⟨hk, hlive⟩ := h hrem x (hs.slots x hx) hst
    refine ⟨hk, fun hxT => hlive fun hxT' => hxT ?_⟩
    exact List.mem_filter.2 ⟨hxT', by simpa using ActualsCache.invalidate_scope x hx⟩
  · rename_i hforget
    intro hrem
    exact absurd hrem hforget

/-- Forgetting the figures of some scopes, one after another. -/
theorem CacheAgrees.forgetAll (scopes : List BudgetScope) :
    ∀ {T b}, CacheAgrees byAccount T b →
      CacheAgrees byAccount (T.filter (· ∉ scopes))
        (((forIn scopes ⟨⟩ fun s _ => do Books.invalidate s; pure (ForInStep.yield ⟨⟩) :
          BooksM PUnit).run).run b).2 := by
  induction scopes with
  | nil =>
    intro T b h
    have hT : T.filter (· ∉ ([] : List BudgetScope)) = T := by simp
    rw [hT]
    exact h
  | cons s rest ih =>
    intro T b h
    rw [List.forIn_cons, run_bind, run_bind]
    have hs := h.forget s
    rcases hr : ((Books.invalidate s).run).run b with ⟨err | ⟨⟩, b'⟩
    · -- forgetting never fails
      simp only [Books.invalidate, run_modify] at hr
      cases hr
    · rw [hr] at hs
      refine (ih hs).mono fun t ht => ?_
      simp only [List.mem_filter, decide_eq_true_eq, List.mem_cons, not_or] at ht ⊢
      exact ⟨ht.1.1, ht.1.2, ht.2⟩

/-- An append followed by forgetting every scope of the batch's demand, as the unchecked append
    does after spending rows, leaves the cache in agreement: the scopes the write sets apart are
    all among those forgotten. -/
theorem CacheAgrees.write_forgetAll {ds : List EntryDraft} {needs : List (BudgetScope × Decimal)}
    {es : List Entry} {l : Ledger} (h : CacheAgrees byAccount [] b)
    (hd : ds.foldlM (Engine.addDemand byAccount) [] = .ok needs)
    (happ : b.ledger.append ds = .ok (es, l)) :
    CacheAgrees byAccount []
      (((forIn (needs.map (·.1)) ⟨⟩ fun s _ => do Books.invalidate s; pure (ForInStep.yield ⟨⟩) :
        BooksM PUnit).run).run { b with ledger := l }).2 := by
  have h2 := (h.write ds).forgetAll (needs.map (·.1))
  rw [Engine.run_write, happ, List.nil_append, Engine.filter_not_mem_demandScopes hd] at h2
  exact h2

/-- An append with no spending row leaves the cache in agreement. -/
theorem CacheAgrees.write_of_not_spending {ds : List EntryDraft} {es : List Entry} {l : Ledger}
    (h : CacheAgrees byAccount [] b)
    (htouch : ¬(ds.any fun d => d.entryType = .consumption || d.entryType = .reversal) = true)
    (happ : b.ledger.append ds = .ok (es, l)) :
    CacheAgrees byAccount [] { b with ledger := l } := by
  have h2 := keepsAgree_write (not_mem_consumedTypes_of_not_any htouch) [] b h
  rw [Engine.run_write, happ] at h2
  exact h2

end Books

namespace Engine

open Books

/-! ## Section 4: Every request keeps agreement -/

/-- The engine's cache agrees with the live figures at the engine's control setting. -/
def CacheAgrees (e : Engine) : Prop := Books.CacheAgrees e.config.controlByAccount [] e.books

/-- An empty cache agrees. -/
theorem cacheAgrees_of_empty {e : Engine} (h : e.books.cache.slots = []) : e.CacheAgrees :=
  cacheAgrees_of_stale fun _ hx => absurd (h ▸ hx) List.not_mem_nil

/-- The checked append keeps agreement when its batch has no spending rows: it only reads
    and writes. -/
theorem cacheAgrees_appendChecked {doc : DocumentRef} {ds : List EntryDraft} {p : Principal}
    (hno : ∀ d ∈ ds, d.entryType ∉ consumedTypes) {e : Engine} (h : e.CacheAgrees) :
    Books.CacheAgrees e.config.controlByAccount [] (((appendChecked doc ds p).run).run e).2.books := by
  unfold appendChecked
  rw [run_bind, run_demand]
  rcases hd : ds.foldlM (addDemand e.config.controlByAccount) [] with a | needs
  · exact h
  simp only [run_arith_ok, run_bind, run_get, run_onBooks]
  refine KeepsAgree.withScopes ?_ _ [] _ h
  refine (KeepsAgree.mapM fun n hn => ?_).bind fun checks => ?_
  · -- every scope checked is the scope of a draft's key
    obtain ⟨d, -, hds⟩ :=
      (mem_demandScopes hd n.1).1 (List.mem_map_of_mem (List.mem_of_mem_filter hn))
    rw [← hds]
    exact keepsAgree_check d.key n.2
  · split
    · exact (keepsAgree_throw _).bind fun _ => (keepsAgree_write hno).bind fun _ => keepsAgree_pure _
    · exact (keepsAgree_write hno).bind fun _ => keepsAgree_pure _

/-- The unchecked append keeps agreement: the scopes its spending rows change are scopes of
    its batch, and it forgets the cached figures of all of them after writing. -/
theorem cacheAgrees_appendUnchecked (ds : List EntryDraft) {e : Engine} (h : e.CacheAgrees) :
    Books.CacheAgrees e.config.controlByAccount [] (((appendUnchecked ds).run).run e).2.books := by
  unfold appendUnchecked
  rw [run_bind, run_demand]
  rcases hd : ds.foldlM (addDemand e.config.controlByAccount) [] with a | needs
  · exact h
  simp only [run_arith_ok, run_onBooks]
  have hof := demandScopes_ofKey hd
  have hov : ∀ (before : List Decimal), ∀ x ∈ (needs.map (·.1)).zip before,
      KeepsAgree e.config.controlByAccount (overrunOf x.1 x.2) := by
    intro before x hx
    obtain ⟨k, hk⟩ := hof x.1 (List.of_mem_zip hx).1
    rw [hk]
    exact keepsAgree_overrunOf k x.2
  have hav : KeepsAgree e.config.controlByAccount ((needs.map (·.1)).mapM available) :=
    KeepsAgree.mapM fun s hs => by
      obtain ⟨k, rfl⟩ := hof s hs
      exact keepsAgree_available k
  rcases hacq : e.books.locks.acquire (needs.map (·.1)) with ⟨blocked, t⟩ | t
  · rw [run_withScopes_conflict hacq]
    exact h
  rw [run_withScopes_free hacq]
  refine (cacheAgrees_locks _).2 ?_
  have h0 : Books.CacheAgrees e.config.controlByAccount [] { e.books with locks := t } :=
    (cacheAgrees_locks t).2 h
  generalize { e.books with locks := t } = b₀ at h0 ⊢
  rw [run_bind]
  have h1 := hav [] b₀ h0
  split
  · rename_i before b₁ hr1
    rw [hr1] at h1
    rw [run_bind, run_write]
    rcases happ : b₁.ledger.append ds with err | ⟨es, l⟩
    · exact h1
    dsimp only
    split
    · -- spending rows: their scopes are set apart by the write and forgotten after it
      exact (h1.write_forgetAll hd happ).bind fun _ =>
        (KeepsAgree.filterMapM (hov before)).bind fun _ => keepsAgree_pure _
    · -- no spending rows: the write changes no live figure
      rename_i htouch
      exact ((KeepsAgree.filterMapM (hov before)).bind fun _ => keepsAgree_pure _) [] _
        (h1.write_of_not_spending htouch happ)
  · rename_i hr1
    rw [hr1] at h1
    exact h1

/-- A reload keeps agreement: taking new settings marks every slot stale. -/
theorem cacheAgrees_reloadConfig (c : BudgetConfig) {e : Engine} (h : e.CacheAgrees) :
    ((reloadConfig c).run e).2.CacheAgrees := by
  simp only [reloadConfig]
  split
  · exact h
  · exact cacheAgrees_of_stale (ActualsCache.invalidateAll_stale _)

end Engine

/-! ## Section 5: Along every run -/

namespace Plan

/-- A plan whose checked batch, if it has one, has no spending rows. -/
def ChecksNoSpending {α : Type} : Plan α → Prop
  | checked _ ds _ _ => ∀ d ∈ ds, d.entryType ∉ consumedTypes
  | _ => True

theorem run_map_state {α β : Type} (f : α → β) (x : EngineM α) (e : Engine) :
    (((f <$> x).run).run e).2 = ((x.run).run e).2 := by
  rw [run_map]
  rcases (x.run).run e with ⟨_ | _, _⟩ <;> rfl

end Plan

namespace Engine

theorem reachPlan_checksNoSpending (e : Engine) (document : SourceDocument) (context : EventContext) :
    ((e.reachPlan document context).map Reply.outcome).ChecksNoSpending := by
  unfold reachPlan
  repeat' split
  all_goals simp [Plan.map, Plan.ChecksNoSpending, consumedTypes]

theorem submitPlan_checksNoSpending (e : Engine) (document : SourceDocument)
    (secondary : SecondaryDocument) (context : EventContext) :
    ((e.submitPlan document secondary context).map Reply.outcome).ChecksNoSpending := by
  unfold submitPlan
  repeat' split
  all_goals simp [Plan.map, Plan.ChecksNoSpending]

theorem rejectPlan_checksNoSpending (e : Engine) (document : SourceDocument) :
    ((e.rejectPlan document).map Reply.outcome).ChecksNoSpending := by
  unfold rejectPlan
  repeat' split
  all_goals simp [Plan.map, Plan.ChecksNoSpending]

theorem cancelPlan_checksNoSpending (e : Engine) (document : SourceDocument)
    (secondary : SecondaryDocument) :
    ((e.cancelPlan document secondary).map Reply.outcome).ChecksNoSpending := by
  unfold cancelPlan
  repeat' split
  all_goals simp [Plan.map, Plan.ChecksNoSpending]

theorem supplementPlan_checksNoSpending (k : DimensionKey) (amount : Decimal) (source : DocumentRef)
    (postingDate : Date) : ((supplementPlan k amount source postingDate).map Reply.entries).ChecksNoSpending := by
  unfold supplementPlan
  split <;> simp [Plan.map, Plan.ChecksNoSpending]

theorem reclassPlan_checksNoSpending (source target : DimensionKey) (amount : Decimal)
    (doc : DocumentRef) (postingDate : Date) (principal : Principal) :
    ((reclassPlan source target amount doc postingDate principal).map Reply.entries).ChecksNoSpending := by
  unfold reclassPlan
  repeat' split
  all_goals simp [Plan.map, Plan.ChecksNoSpending, EntryDraft.reclassing, consumedTypes]

end Engine

namespace Request

/-- Only reservations and reclasses are checked; neither is spending. -/
theorem plan_checksNoSpending {c : Request} {e : Engine} {P : Plan Reply} (h : c.plan? e = some P) :
    P.ChecksNoSpending := by
  cases c with
  | event ev =>
    cases ev <;> simp only [plan?, Option.some.injEq] at h <;> subst h
    · exact Engine.reachPlan_checksNoSpending _ _ _
    · exact Engine.submitPlan_checksNoSpending _ _ _ _
    · exact Engine.rejectPlan_checksNoSpending _ _
    · exact Engine.cancelPlan_checksNoSpending _ _ _
  | supplement k a s p =>
    simp only [plan?, Option.some.injEq] at h; subst h
    exact Engine.supplementPlan_checksNoSpending _ _ _ _
  | reclass s t a d p pr =>
    simp only [plan?, Option.some.injEq] at h; subst h
    exact Engine.reclassPlan_checksNoSpending _ _ _ _ _ _
  | reloadConfig c => cases h

/-- Every request keeps agreement. -/
theorem step_cacheAgrees (c : Request) {e : Engine} (h : e.CacheAgrees) : (c.step e).CacheAgrees := by
  unfold step
  cases hplan : c.plan? e with
  | none =>
    -- only a reload has no plan
    cases c with
    | reloadConfig cfg => exact Engine.cacheAgrees_reloadConfig cfg h
    | event ev => cases ev <;> cases hplan
    | supplement => cases hplan
    | reclass => cases hplan
  | some P =>
    have hno := plan_checksNoSpending hplan
    rw [run_of_plan hplan]
    cases P with
    | stop r =>
      rw [Plan.run_exec_stop]
      exact h
    | checked doc ds p k =>
      rw [Plan.run_exec_checked, Plan.run_map_state]
      unfold Engine.CacheAgrees
      rw [(Engine.appendChecked_appends doc ds p e).1.config]
      exact Engine.cacheAgrees_appendChecked hno h
    | unchecked ds k =>
      rw [Plan.run_exec_unchecked, Plan.run_map_state]
      unfold Engine.CacheAgrees
      rw [(Engine.appendUnchecked_appends ds e).1.config]
      exact Engine.cacheAgrees_appendUnchecked ds h

/-- Agreement holds along every run that starts with it. -/
theorem runAll_cacheAgrees (cs : List Request) : ∀ {e : Engine}, e.CacheAgrees → (runAll cs e).CacheAgrees := by
  induction cs with
  | nil => exact fun h => h
  | cons c cs ih => exact fun h => ih (step_cacheAgrees c h)

end Request

end Encumbrance

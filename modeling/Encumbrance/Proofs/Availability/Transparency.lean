import Mathlib
import Encumbrance.Proofs.Control.Unchecked

/-! # No answer shows the cache

    The engine keeps two kinds of bookkeeping that no answer should show: the actuals cache
    and the slots of the lock table. Books that differ only there, with the same scopes held
    and both caches agreeing with the live figures, are twins (`Books.Twin`). Through an
    agreeing cache a read answers the live figure, so every read, check and append answers
    alike from twins and leaves twins behind (`Books.Blind`, `Engine.Twin.appendChecked`,
    `Engine.Twin.appendUnchecked`), and so does every lifecycle event (`Engine.Twin.handle`).

    A request run again after a failure that wrote nothing meets twin books, whatever the
    failure left in the cache and the lock table, and so it answers as it did.
-/

namespace Encumbrance

namespace LockTable

variable {t t' u : LockTable} {scopes : List BudgetScope}

/-- Whether an attempt to take scopes succeeds, and what it holds after, reads only the held
    scopes. -/
theorem acquire_error_congr (h : t'.held = t.held) {blocked : BudgetScope}
    (ha : t.acquire scopes = .error (blocked, u)) :
    ∃ u', t'.acquire scopes = .error (blocked, u') ∧ u'.held = u.held := by
  simp only [acquire, withSlots_held] at ha ⊢
  rw [h]
  split at ha
  · cases ha
    exact ⟨_, rfl, by simp [h]⟩
  · cases ha

theorem acquire_ok_congr (h : t'.held = t.held) (ha : t.acquire scopes = .ok u) :
    ∃ u', t'.acquire scopes = .ok u' ∧ u'.held = u.held := by
  simp only [acquire, withSlots_held] at ha ⊢
  rw [h]
  split at ha
  · cases ha
  · cases ha
    exact ⟨_, rfl, by simp⟩

end LockTable

namespace Books

variable {byAccount : Bool} {b b' : Books}

/-! ## Section 1: Twin books -/

/-- `b'` is `b` with another cache and other lock slots: the same ledger, envelopes, postings,
    source of actuals and held scopes, with both caches agreeing with the live figures. -/
structure Twin (byAccount : Bool) (b b' : Books) : Prop where
  ledger : b'.ledger = b.ledger
  envelopes : b'.envelopes = b.envelopes
  posted : b'.posted = b.posted
  actualsFrom : b'.actualsFrom = b.actualsFrom
  held : b'.locks.held = b.locks.held
  agrees : CacheAgrees byAccount [] b
  agrees' : CacheAgrees byAccount [] b'

theorem Twin.refl (h : CacheAgrees byAccount [] b) : Twin byAccount b b :=
  ⟨rfl, rfl, rfl, rfl, rfl, h, h⟩

/-- Twins read the same live spend. -/
theorem Twin.liveActual (h : Twin byAccount b b') (s : BudgetScope) :
    b'.liveActual s = b.liveActual s := by
  unfold Books.liveActual
  rw [h.actualsFrom, h.posted, h.ledger]

/-- Work that only reads and keeps agreement leaves twins twins. -/
theorem Twin.reads {α : Type} {P : α → Prop} {x : BooksM α} (hx : Reads P x)
    (ha : KeepsAgree byAccount x) (h : Twin byAccount b b') :
    Twin byAccount ((x.run).run b).2 ((x.run).run b').2 := by
  obtain ⟨c, hc, -⟩ := hx b
  obtain ⟨c', hc', -⟩ := hx b'
  have hagree := ha [] b h.agrees
  have hagree' := ha [] b' h.agrees'
  rw [hc] at hagree ⊢
  rw [hc'] at hagree' ⊢
  exact ⟨h.ledger, h.envelopes, h.posted, h.actualsFrom, h.held, hagree, hagree'⟩

/-! ## Section 2: Blind work -/

/-- `x` answers alike from books that `R` relates, and leaves books that `R` relates. -/
def Keeps (R : Books → Books → Prop) {α : Type} (x : BooksM α) : Prop :=
  ∀ ⦃b b'⦄, R b b' → ((x.run).run b').1 = ((x.run).run b).1 ∧ R ((x.run).run b).2 ((x.run).run b').2

/-- `x` answers alike from twins and leaves twins. -/
def Blind (byAccount : Bool) {α : Type} (x : BooksM α) : Prop :=
  ∀ ⦃b b'⦄, Twin byAccount b b' →
    ((x.run).run b').1 = ((x.run).run b).1 ∧ Twin byAccount ((x.run).run b).2 ((x.run).run b').2

section Combinators

variable {α β : Type} {R : Books → Books → Prop}

theorem keeps_pure (a : α) : Keeps R (pure a : BooksM α) := fun _ _ h => ⟨rfl, h⟩

theorem keeps_throw (err : BudgetError) : Keeps R (throw err : BooksM α) :=
  fun _ _ h => ⟨rfl, h⟩

theorem keeps_arith (x : Except ArithError α) : Keeps R (arith x : BooksM α) := by
  intro b b' h
  cases x <;> exact ⟨rfl, h⟩

theorem Keeps.bind {x : BooksM α} {f : α → BooksM β} (hx : Keeps R x)
    (hf : ∀ a, Keeps R (f a)) : Keeps R (x >>= f) := by
  intro b b' h
  obtain ⟨hr, ht⟩ := hx h
  rw [run_bind, run_bind]
  rcases hb : (x.run).run b with ⟨err | a, b₁⟩ <;> rcases hb' : (x.run).run b' with ⟨err' | a', b₁'⟩ <;>
    rw [hb, hb'] at hr ht <;> cases hr
  · exact ⟨rfl, ht⟩
  · exact hf a ht

/-- Reading the books and going on from what related books share. -/
theorem Keeps.get_bind {f : Books → BooksM α} (hf : ∀ ⦃b b'⦄, R b b' → f b' = f b)
    (hkeeps : ∀ b, Keeps R (f b)) : Keeps R (get >>= f) := by
  intro b b' h
  rw [run_bind, run_bind, run_get, run_get]
  dsimp only
  rw [hf h]
  exact hkeeps b h

theorem Keeps.mapM {f : α → BooksM β} :
    ∀ {xs : List α}, (∀ a ∈ xs, Keeps R (f a)) → Keeps R (xs.mapM f)
  | [], _ => keeps_pure _
  | x :: xs, hf => by
    rw [List.mapM_cons]
    exact (hf x List.mem_cons_self).bind fun _ =>
      (Keeps.mapM fun a ha => hf a (List.mem_cons_of_mem _ ha)).bind fun _ => keeps_pure _

theorem Keeps.filterMapM {f : α → BooksM (Option β)} :
    ∀ {xs : List α}, (∀ a ∈ xs, Keeps R (f a)) → Keeps R (xs.filterMapM f)
  | [], _ => keeps_pure _
  | x :: xs, hf => by
    rw [List.filterMapM_cons]
    have hrest : Keeps R (xs.filterMapM f) :=
      Keeps.filterMapM fun a ha => hf a (List.mem_cons_of_mem _ ha)
    refine (hf x List.mem_cons_self).bind fun o => ?_
    cases o with
    | none => exact hrest
    | some _ => exact hrest.bind fun _ => keeps_pure _

-- blind work is work that keeps twins
theorem blind_pure (a : α) : Blind byAccount (pure a : BooksM α) := keeps_pure a

theorem blind_throw (err : BudgetError) : Blind byAccount (throw err : BooksM α) := keeps_throw err

theorem blind_arith (x : Except ArithError α) : Blind byAccount (arith x : BooksM α) := keeps_arith x

theorem Blind.bind {x : BooksM α} {f : α → BooksM β} (hx : Blind byAccount x)
    (hf : ∀ a, Blind byAccount (f a)) : Blind byAccount (x >>= f) := Keeps.bind hx hf

theorem Blind.get_bind {f : Books → BooksM α} (hf : ∀ ⦃b b'⦄, Twin byAccount b b' → f b' = f b)
    (hblind : ∀ b, Blind byAccount (f b)) : Blind byAccount (get >>= f) := Keeps.get_bind hf hblind

theorem Blind.mapM {f : α → BooksM β} {xs : List α} (hf : ∀ a ∈ xs, Blind byAccount (f a)) :
    Blind byAccount (xs.mapM f) := Keeps.mapM hf

theorem Blind.filterMapM {f : α → BooksM (Option β)} {xs : List α}
    (hf : ∀ a ∈ xs, Blind byAccount (f a)) : Blind byAccount (xs.filterMapM f) := Keeps.filterMapM hf

end Combinators

/-! ## Section 3: Reads and checks -/

/-- Through an agreeing cache, reading a key's scope answers the live figure. -/
theorem run_actual_live {T : List BudgetScope} (h : CacheAgrees byAccount T b) {k : DimensionKey}
    (hT : BudgetScope.ofKey k byAccount ∉ T) :
    (((actual (BudgetScope.ofKey k byAccount)).run).run b).1 =
      (b.liveActual (BudgetScope.ofKey k byAccount)).mapError BudgetError.overflow := by
  cases hv : b.liveActual (BudgetScope.ofKey k byAccount) with
  | ok v =>
    obtain ⟨c, hc⟩ := run_actual_of_agrees h hT hv
    rw [hc]
    rfl
  | error err =>
    simp only [actual, run_bind, run_get]
    split
    · rw [hv]
      rfl
    · rename_i hrem
      split
      · -- a fresh slot holds a figure the live read gives, and it gives none
        rename_i x hx
        obtain ⟨hmem, hscope, hst⟩ := ActualsCache.lookup_some hx
        have hlive := (h (by simpa using hrem) x hmem hst).2 (hscope ▸ hT)
        rw [hscope, hv] at hlive
        cases hlive
      · rw [hv]
        rfl

theorem blind_actual (k : DimensionKey) : Blind byAccount (actual (BudgetScope.ofKey k byAccount)) := by
  intro b b' h
  refine ⟨?_, h.reads (reads_actual _) (keepsAgree_actual k)⟩
  rw [run_actual_live h.agrees' List.not_mem_nil, run_actual_live h.agrees List.not_mem_nil,
    h.liveActual]

theorem blind_allocated (s : BudgetScope) : Blind byAccount (allocated s) :=
  Blind.get_bind (fun _ _ h => by rw [h.envelopes, h.ledger]) fun _ =>
    (blind_arith _).bind fun _ => (blind_arith _).bind fun _ => blind_arith _

theorem blind_reserved (s : BudgetScope) : Blind byAccount (reserved s) :=
  Blind.get_bind (fun _ _ h => by rw [h.ledger]) fun _ => blind_arith _

theorem blind_available (k : DimensionKey) :
    Blind byAccount (available (BudgetScope.ofKey k byAccount)) :=
  (blind_allocated _).bind fun _ => (blind_actual k).bind fun _ =>
    (blind_arith _).bind fun _ => (blind_reserved _).bind fun _ => blind_arith _

theorem blind_check (k : DimensionKey) (requested : Decimal) :
    Blind byAccount (check (BudgetScope.ofKey k byAccount) requested) := by
  unfold check
  refine (blind_allocated _).bind fun a => (blind_actual k).bind fun u =>
    (blind_reserved _).bind fun r => (blind_arith _).bind fun rest =>
      (blind_arith _).bind fun available => ?_
  dsimp only
  split
  · exact (blind_pure _).bind fun _ => blind_pure _
  · exact (blind_arith _).bind fun _ => blind_pure _

theorem blind_overrunOf (k : DimensionKey) (before : Decimal) :
    Blind byAccount (Engine.overrunOf (BudgetScope.ofKey k byAccount) before) := by
  unfold Engine.overrunOf
  refine (blind_available k).bind fun after => ?_
  split
  · exact (blind_arith _).bind fun _ => blind_pure _
  · exact blind_pure _

/-! ## Section 4: Locks and writes -/

/-- Work under scope locks is blind when the work is: whether the scopes are free reads only
    the held scopes. -/
theorem Blind.withScopes {α : Type} {work : BooksM α} (hw : Blind byAccount work)
    (scopes : List BudgetScope) : Blind byAccount (withScopes scopes work) := by
  intro b b' h
  rcases hacq : b.locks.acquire scopes with ⟨blocked, t⟩ | t
  · obtain ⟨t', hacq', hheld⟩ := LockTable.acquire_error_congr h.held hacq
    rw [run_withScopes_conflict hacq, run_withScopes_conflict hacq']
    exact ⟨rfl, h.ledger, h.envelopes, h.posted, h.actualsFrom, hheld, h.agrees, h.agrees'⟩
  · obtain ⟨t', hacq', hheld⟩ := LockTable.acquire_ok_congr h.held hacq
    rw [run_withScopes_free hacq, run_withScopes_free hacq']
    have htwin : Twin byAccount { b with locks := t } { b' with locks := t' } :=
      ⟨h.ledger, h.envelopes, h.posted, h.actualsFrom, hheld, h.agrees, h.agrees'⟩
    obtain ⟨hr, ht⟩ := hw htwin
    refine ⟨hr, ht.ledger, ht.envelopes, ht.posted, ht.actualsFrom, ?_, ht.agrees, ht.agrees'⟩
    simp only [LockTable.release_held, ht.held, hr]

/-- Writing a batch with no spending rows is blind. -/
theorem blind_write {ds : List EntryDraft} (hno : ∀ d ∈ ds, d.entryType ∉ consumedTypes) :
    Blind byAccount (Engine.write ds) := by
  intro b b' h
  have hagree := keepsAgree_write hno [] b h.agrees
  have hagree' := keepsAgree_write hno [] b' h.agrees'
  rw [Engine.run_write, Engine.run_write, h.ledger]
  rw [Engine.run_write] at hagree hagree'
  rw [h.ledger] at hagree'
  rcases happ : b.ledger.append ds with err | ⟨es, l⟩
  · exact ⟨rfl, h⟩
  · rw [happ] at hagree hagree'
    exact ⟨rfl, rfl, h.envelopes, h.posted, h.actualsFrom, h.held, hagree, hagree'⟩

end Books

namespace Plan

theorem checksNoSpending_map {α β : Type} (f : α → β) (P : Plan α) :
    (P.map f).ChecksNoSpending ↔ P.ChecksNoSpending := by
  cases P <;> rfl

end Plan

/-! ## Section 5: Twin engines -/

namespace Engine

open Books

variable {e e' : Engine}

/-- `e'` is `e` with another cache and other lock slots. -/
structure Twin (e e' : Engine) : Prop where
  config : e'.config = e.config
  directory : e'.directory = e.directory
  calendar : e'.calendar = e.calendar
  books : Books.Twin e.config.controlByAccount e.books e'.books

theorem Twin.refl (h : e.CacheAgrees) : e.Twin e := ⟨rfl, rfl, rfl, Books.Twin.refl h⟩

theorem Twin.history (h : e.Twin e') (D : DocumentRef) : e'.history D = e.history D := by
  unfold Engine.history
  rw [h.books.ledger]

theorem Twin.slicer (h : e.Twin e') : e'.slicer = e.slicer := by
  unfold Engine.slicer
  rw [h.config, h.directory, h.calendar]

/-- Blind work over the books answers alike from twin engines and leaves twins. -/
theorem Twin.onBooks (h : e.Twin e') {α : Type} {x : BooksM α}
    (hx : Blind e.config.controlByAccount x) :
    (((onBooks x).run).run e').1 = (((onBooks x).run).run e).1 ∧
      Twin (((onBooks x).run).run e).2 (((onBooks x).run).run e').2 := by
  rw [run_onBooks, run_onBooks]
  obtain ⟨hr, ht⟩ := hx h.books
  exact ⟨hr, h.config, h.directory, h.calendar, ht⟩

/-- Passing the answer on keeps answering alike. -/
theorem Twin.map {α β : Type} {x : EngineM α} {e₁ e₁' : Engine}
    (hx : ((x.run).run e₁').1 = ((x.run).run e₁).1 ∧ Twin ((x.run).run e₁).2 ((x.run).run e₁').2)
    (f : α → β) :
    (((f <$> x).run).run e₁').1 = (((f <$> x).run).run e₁).1 ∧
      Twin (((f <$> x).run).run e₁).2 (((f <$> x).run).run e₁').2 := by
  obtain ⟨hr, ht⟩ := hx
  rw [run_map, run_map]
  rcases hb : (x.run).run e₁ with ⟨err | a, e₂⟩ <;> rcases hb' : (x.run).run e₁' with ⟨err' | a', e₂'⟩ <;>
    rw [hb, hb'] at hr ht <;> cases hr <;> exact ⟨rfl, ht⟩

/-- The checked append of a batch with no spending rows answers alike from twins. -/
theorem Twin.appendChecked (h : e.Twin e') {doc : DocumentRef} {ds : List EntryDraft}
    {p : Principal} (hno : ∀ d ∈ ds, d.entryType ∉ consumedTypes) :
    (((appendChecked doc ds p).run).run e').1 = (((appendChecked doc ds p).run).run e).1 ∧
      Twin (((appendChecked doc ds p).run).run e).2 (((appendChecked doc ds p).run).run e').2 := by
  unfold Engine.appendChecked
  rw [run_bind, run_demand, run_bind, run_demand, h.config]
  rcases hd : ds.foldlM (addDemand e.config.controlByAccount) [] with a | needs
  · exact ⟨rfl, h⟩
  simp only [run_arith_ok, run_bind, run_get, h.config]
  refine h.onBooks (Blind.withScopes ?_ _)
  refine (Blind.mapM fun n hn => ?_).bind fun checks => ?_
  · -- every scope checked is the scope of a draft's key
    obtain ⟨d, -, hds⟩ :=
      (mem_demandScopes hd n.1).1 (List.mem_map_of_mem (List.mem_of_mem_filter hn))
    rw [← hds]
    exact blind_check d.key n.2
  · split
    · exact (blind_throw _).bind fun _ => (blind_write hno).bind fun _ => blind_pure _
    · exact (blind_write hno).bind fun _ => blind_pure _

/-- The unchecked append answers alike from twins: after a write of spending rows both forget
    the figures of every scope of the batch before they read again. -/
theorem Twin.appendUnchecked (h : e.Twin e') (ds : List EntryDraft) :
    (((appendUnchecked ds).run).run e').1 = (((appendUnchecked ds).run).run e).1 ∧
      Twin (((appendUnchecked ds).run).run e).2 (((appendUnchecked ds).run).run e').2 := by
  unfold Engine.appendUnchecked
  rw [run_bind, run_demand, run_bind, run_demand, h.config]
  rcases hd : ds.foldlM (addDemand e.config.controlByAccount) [] with a | needs
  · exact ⟨rfl, h⟩
  simp only [run_arith_ok]
  refine h.onBooks (Blind.withScopes ?_ _)
  -- every scope of the demand is a key's scope
  have hof := demandScopes_ofKey hd
  refine (Blind.mapM fun s hs => ?_).bind fun before => ?_
  · obtain ⟨k, rfl⟩ := hof s hs
    exact blind_available k
  have hov : Blind e.config.controlByAccount
      (((needs.map (·.1)).zip before).filterMapM fun x => overrunOf x.1 x.2) := by
    refine Blind.filterMapM fun x hx => ?_
    obtain ⟨k, hk⟩ := hof x.1 (List.of_mem_zip hx).1
    rw [hk]
    exact blind_overrunOf k x.2
  intro b b' hb
  rw [run_bind, run_bind, run_write, run_write, hb.ledger]
  rcases happ : b.ledger.append ds with err | ⟨es, l⟩
  · exact ⟨rfl, hb⟩
  dsimp only
  have happ' : b'.ledger.append ds = .ok (es, l) := by rw [hb.ledger, happ]
  split
  · -- spending rows: both forget every scope of the batch, and agree again
    obtain ⟨c, hc⟩ := run_forIn_invalidate (needs.map (·.1)) { b with ledger := l }
    obtain ⟨c', hc'⟩ := run_forIn_invalidate (needs.map (·.1)) { b' with ledger := l }
    have h2 := hb.agrees.write_forgetAll hd happ
    have h2' := hb.agrees'.write_forgetAll hd happ'
    rw [hc] at h2
    rw [hc'] at h2'
    rw [run_bind, run_bind, hc, hc']
    exact (hov.bind fun _ => blind_pure _)
      ⟨rfl, hb.envelopes, hb.posted, hb.actualsFrom, hb.held, h2, h2'⟩
  · -- no spending rows: the write changes no live figure
    rename_i htouch
    exact (hov.bind fun _ => blind_pure _)
      ⟨rfl, hb.envelopes, hb.posted, hb.actualsFrom, hb.held,
        hb.agrees.write_of_not_spending htouch happ, hb.agrees'.write_of_not_spending htouch happ'⟩

/-- Carrying out a plan whose checked batch has no spending rows answers alike from twins. -/
theorem Twin.exec (h : e.Twin e') {α : Type} {P : Plan α} (hno : P.ChecksNoSpending) :
    (((P.exec).run).run e').1 = (((P.exec).run).run e).1 ∧
      Twin (((P.exec).run).run e).2 (((P.exec).run).run e').2 := by
  cases P with
  | stop r =>
    rw [Plan.run_exec_stop, Plan.run_exec_stop]
    exact ⟨rfl, h⟩
  | checked doc ds p k =>
    rw [Plan.run_exec_checked, Plan.run_exec_checked]
    exact Twin.map (h.appendChecked hno) k
  | unchecked ds k =>
    rw [Plan.run_exec_unchecked, Plan.run_exec_unchecked]
    exact Twin.map (h.appendUnchecked ds) k

/-- No lifecycle event checks a batch with spending rows. -/
theorem eventPlan_checksNoSpending (e : Engine) (ev : LifecycleEvent) :
    (e.eventPlan ev).ChecksNoSpending := by
  rw [← Plan.checksNoSpending_map Reply.outcome]
  cases ev with
  | reachedTargetState document context => exact reachPlan_checksNoSpending e document context
  | secondarySubmitted document secondary context =>
    exact submitPlan_checksNoSpending e document secondary context
  | rejectedOrReopened document context => exact rejectPlan_checksNoSpending e document
  | secondaryCancelled document secondary context =>
    exact cancelPlan_checksNoSpending e document secondary

/-- Twins plan alike: a plan reads the settings, the reference data and the histories. -/
theorem Twin.eventPlan (h : e.Twin e') (ev : LifecycleEvent) : e'.eventPlan ev = e.eventPlan ev := by
  cases ev <;>
    simp only [Engine.eventPlan, reachPlan, submitPlan, rejectPlan, cancelPlan, h.config,
      h.history, h.slicer]

/-- **No answer shows the cache.** Every lifecycle event answers alike from twin engines, and
    leaves twins behind. -/
theorem Twin.handle (h : e.Twin e') (ev : LifecycleEvent) :
    (((handle ev).run).run e').1 = (((handle ev).run).run e).1 ∧
      Twin (((handle ev).run).run e).2 (((handle ev).run).run e').2 := by
  rw [run_handle, run_handle, h.eventPlan ev]
  exact h.exec (eventPlan_checksNoSpending e ev)

end Engine

end Encumbrance

import Mathlib
import Encumbrance.Proofs.Availability.Invisibility
import Encumbrance.Proofs.Control.Idempotence

/-! # What an event reads and writes

    A lifecycle event of a document reads the settings, the document's own history and the
    figures of the scopes its batch falls in, and it writes one batch of rows for the document in
    those scopes. So two engines that agree on these, the ledgers being otherwise anything, answer
    the event alike up to the identifiers and clock readings of the rows written, and agree on
    them again afterwards (`Engine.Alike.handle`); and an event of another document whose batch
    falls in other scopes leaves all of it as it was (`Engine.Alike.handle_other`).

    Engines agree on a document `D` and a set `T` of scopes of keys (`Engine.Alike`) when

    * they have the same settings, reference data, envelopes, postings and held scopes, and
      each one's cache agrees with its own live figures;
    * the rows of every scope of `T` are the same drafts in the same order (`Ledger.rowsIn`);
    * the histories of `D` are alike (`HistoryAlike`): the same drafts in the same order, and the
      same last reservation, which is all the events read of a history beyond its drafts.

    Agreement is symmetric and transitive, so it chains along runs.
-/

namespace Encumbrance

open Books

/-! ## Section 1: The rows of a scope -/

namespace Ledger

/-- The drafts of the rows whose key a scope holds, in the order they were written. -/
def rowsIn (l : Ledger) (s : BudgetScope) : List EntryDraft :=
  (l.entries.filter fun x => s.contains x.key).map Entry.draft

theorem rowsIn_append {l l' : Ledger} {ds : List EntryDraft} {es : List Entry}
    (h : l.append ds = .ok (es, l')) (s : BudgetScope) :
    l'.rowsIn s = l.rowsIn s ++ ds.filter fun d => s.contains d.key := by
  rw [rowsIn, rowsIn, append_entries h, List.filter_append, List.map_append, ← append_drafts h,
    List.filter_map]
  rfl

/-- A total over a scope reads the drafts of the scope's rows only. -/
theorem total_rowsIn (l : Ledger) (s : BudgetScope) (types : List EntryType)
    (w : EntryDraft → Decimal) :
    l.total s types (fun x => w x.draft) =
      Decimal.sum (((l.rowsIn s).filter fun d => types.isEmpty || types.contains d.entryType).map w) := by
  simp only [total, select, rowsIn, List.filter_map, List.filter_filter, List.map_map]
  congr 2
  refine List.filter_congr fun x _ => ?_
  simp only [LedgerQuery.admits, Option.all, Bool.true_and, Function.comp_apply,
    Entry.draft_entryType]
  exact Bool.and_comm _ _

variable {l l' : Ledger} {s : BudgetScope}

/-- Ledgers with the same rows in a scope have the same totals over it. -/
theorem total_congr (h : l'.rowsIn s = l.rowsIn s) (types : List EntryType) (w : EntryDraft → Decimal) :
    l'.total s types (fun x => w x.draft) = l.total s types (fun x => w x.draft) := by
  rw [total_rowsIn, total_rowsIn, h]

theorem reservedTotal_congr (h : l'.rowsIn s = l.rowsIn s) : l'.reservedTotal s = l.reservedTotal s :=
  total_congr h reservedTypes EntryDraft.outflow

theorem allocationAdjustment_congr (h : l'.rowsIn s = l.rowsIn s) :
    l'.allocationAdjustment s = l.allocationAdjustment s :=
  total_congr h allocationTypes fun d => -d.outflow

theorem consumedTotal_congr (h : l'.rowsIn s = l.rowsIn s) : l'.consumedTotal s = l.consumedTotal s :=
  total_congr h consumedTypes fun d => -d.outflow

end Ledger

/-! ## Section 2: Histories read alike -/

theorem addToPositions_congr {x y : Entry} (h : x.draft = y.draft) (ps : List Position) :
    addToPositions ps x = addToPositions ps y := by
  have hk : x.key = y.key := by simpa using congrArg EntryDraft.key h
  have ht : x.entryType = y.entryType := by simpa using congrArg EntryDraft.entryType h
  have ho : x.outflow = y.outflow := by simpa using congrArg EntryDraft.outflow h
  simp only [addToPositions, hk, ht, ho]

theorem foldlM_addToPositions_congr :
    ∀ {h h' : List Entry}, h'.map Entry.draft = h.map Entry.draft → ∀ ps : List Position,
      h'.foldlM addToPositions ps = h.foldlM addToPositions ps
  | [], [], _, _ => rfl
  | x :: h, y :: h', hd, ps => by
    simp only [List.map_cons, List.cons.injEq] at hd
    rw [List.foldlM_cons, List.foldlM_cons, addToPositions_congr hd.1]
    cases addToPositions ps x with
    | error _ => rfl
    | ok ps' => exact foldlM_addToPositions_congr hd.2 ps'
  | [], _ :: _, hd, _ => by cases hd
  | _ :: _, [], hd, _ => by cases hd

/-- The positions of some rows read only their drafts. -/
theorem positions_congr {h h' : List Entry} (hd : h'.map Entry.draft = h.map Entry.draft) :
    positions h' = positions h := by
  simp only [positions, foldlM_addToPositions_congr hd []]

theorem map_draft_filter {h h' : List Entry} (hd : h'.map Entry.draft = h.map Entry.draft)
    (p : EntryDraft → Bool) :
    (h'.filter fun x => p x.draft).map Entry.draft = (h.filter fun x => p x.draft).map Entry.draft := by
  have := congrArg (List.filter p) hd
  simp only [List.filter_map] at this
  exact this

/-- A batch numbered apart from the rows before it becomes the last reservation when it
    reserves, and leaves the last reservation as it was otherwise. -/
theorem lastReservation_append_batch {H es : List Entry} {b : Nat} (hH : ∀ y ∈ H, y.batch ≠ b)
    (hes : ∀ x ∈ es, x.batch = b) (hsound : ∀ x ∈ es, x.draft.validate = .ok ()) :
    lastReservation (H ++ es) =
      if ∃ x ∈ es, x.entryType = .reservation then
        ((es.map Entry.draft).filter (·.entryType = .reservation)).map fun d => (d.key, d.amount)
      else lastReservation H := by
  split
  · rename_i hres
    obtain ⟨x, hx, hxt⟩ := hres
    exact Written.lastReservation_append
      ⟨rfl, List.ne_nil_of_mem hx, hsound, ⟨b, hes, hH⟩⟩ ⟨x, hx, hxt⟩
  · rename_i hnone
    exact lastReservation_append_of_forall fun x hx ht => hnone ⟨x, hx, ht⟩

/-- Two histories that the events of their document read alike: the same drafts in the same
    order and the same last reservation. Only the identifiers and clock readings of the rows,
    and the numbers of their batches, may differ. -/
structure HistoryAlike (h h' : List Entry) : Prop where
  drafts : h'.map Entry.draft = h.map Entry.draft
  last : lastReservation h' = lastReservation h

namespace HistoryAlike

variable {h h' h'' : List Entry}

theorem refl (h : List Entry) : HistoryAlike h h := ⟨rfl, rfl⟩

theorem symm (hA : HistoryAlike h h') : HistoryAlike h' h := ⟨hA.drafts.symm, hA.last.symm⟩

theorem trans (hA : HistoryAlike h h') (hB : HistoryAlike h' h'') : HistoryAlike h h'' :=
  ⟨hB.drafts.trans hA.drafts, hB.last.trans hA.last⟩

theorem positions (hA : HistoryAlike h h') : Encumbrance.positions h' = Encumbrance.positions h :=
  positions_congr hA.drafts

theorem outstandingReserved (hA : HistoryAlike h h') :
    Encumbrance.outstandingReserved h' = Encumbrance.outstandingReserved h := by
  simp only [Encumbrance.outstandingReserved, hA.positions]

theorem outstandingConsumedAgainst (hA : HistoryAlike h h') (secondary : DocumentRef) :
    Encumbrance.outstandingConsumedAgainst h' secondary =
      Encumbrance.outstandingConsumedAgainst h secondary := by
  have hp : Encumbrance.positions (h'.filter (·.against = some secondary)) =
      Encumbrance.positions (h.filter (·.against = some secondary)) :=
    positions_congr (map_draft_filter hA.drafts fun d => decide (d.against = some secondary))
  simp only [Encumbrance.outstandingConsumedAgainst, hp]

/-- The positions of the rows booked against other secondaries than one. -/
theorem positions_others (hA : HistoryAlike h h') (secondary : DocumentRef) :
    Encumbrance.positions (h'.filter (·.against ≠ some secondary)) =
      Encumbrance.positions (h.filter (·.against ≠ some secondary)) :=
  positions_congr (map_draft_filter hA.drafts fun d => decide (d.against ≠ some secondary))

theorem restoreOf (hA : HistoryAlike h h') (otherConsumption : Bool) :
    Engine.restoreOf h' otherConsumption = Engine.restoreOf h otherConsumption := by
  simp only [Engine.restoreOf, hA.outstandingReserved, hA.last]

/-- Histories alike stay alike when each gets a batch of the same drafts, numbered apart from
    the rows before it. -/
theorem append (hA : HistoryAlike h h') {es es' : List Entry} {b b' : Nat}
    (hd : es'.map Entry.draft = es.map Entry.draft)
    (hH : ∀ y ∈ h, y.batch ≠ b) (hes : ∀ x ∈ es, x.batch = b) (hsound : ∀ x ∈ es, x.draft.validate = .ok ())
    (hH' : ∀ y ∈ h', y.batch ≠ b') (hes' : ∀ x ∈ es', x.batch = b')
    (hsound' : ∀ x ∈ es', x.draft.validate = .ok ()) :
    HistoryAlike (h ++ es) (h' ++ es') := by
  refine ⟨by rw [List.map_append, List.map_append, hA.drafts, hd], ?_⟩
  -- whether a batch reserves reads its drafts only
  have hres : (∃ x ∈ es', x.entryType = .reservation) ↔ ∃ x ∈ es, x.entryType = .reservation := by
    have hmem : ∀ t, (∃ x ∈ es', x.entryType = t) ↔ ∃ x ∈ es, x.entryType = t := fun t => by
      simpa using congrArg (fun ds : List EntryDraft => ∃ d ∈ ds, d.entryType = t) hd
    exact hmem .reservation
  rw [lastReservation_append_batch hH hes hsound, lastReservation_append_batch hH' hes' hsound', hd,
    hA.last]
  simp only [hres]

end HistoryAlike

/-! ## Section 3: Books read alike -/

namespace Books

variable {byAccount : Bool} {T : Set BudgetScope} {D : DocumentRef} {b b' b'' : Books}

/-- Books that read alike on the scopes of `T` and on the history of `D`: the same rows in
    each scope of `T` and alike histories of `D`, under batch numbers fresh in each, the same
    envelopes, postings, source of actuals and held scopes, and caches that agree with their
    own live figures. -/
structure Alike (byAccount : Bool) (T : Set BudgetScope) (D : DocumentRef) (b b' : Books) : Prop where
  rows : ∀ s ∈ T, b'.ledger.rowsIn s = b.ledger.rowsIn s
  history : HistoryAlike (b.ledger.select { source := some D }) (b'.ledger.select { source := some D })
  fresh : b.ledger.BatchesFresh
  fresh' : b'.ledger.BatchesFresh
  envelopes : b'.envelopes = b.envelopes
  posted : b'.posted = b.posted
  actualsFrom : b'.actualsFrom = b.actualsFrom
  held : b'.locks.held = b.locks.held
  agrees : CacheAgrees byAccount [] b
  agrees' : CacheAgrees byAccount [] b'

theorem Alike.refl (hfresh : b.ledger.BatchesFresh) (hagree : CacheAgrees byAccount [] b) :
    Alike byAccount T D b b :=
  ⟨fun _ _ => rfl, .refl _, hfresh, hfresh, rfl, rfl, rfl, rfl, hagree, hagree⟩

theorem Alike.symm (h : Alike byAccount T D b b') : Alike byAccount T D b' b :=
  ⟨fun s hs => (h.rows s hs).symm, h.history.symm, h.fresh', h.fresh, h.envelopes.symm,
    h.posted.symm, h.actualsFrom.symm, h.held.symm, h.agrees', h.agrees⟩

theorem Alike.trans (h : Alike byAccount T D b b') (h' : Alike byAccount T D b' b'') :
    Alike byAccount T D b b'' :=
  ⟨fun s hs => (h'.rows s hs).trans (h.rows s hs), h.history.trans h'.history, h.fresh, h'.fresh',
    h'.envelopes.trans h.envelopes, h'.posted.trans h.posted, h'.actualsFrom.trans h.actualsFrom,
    h'.held.trans h.held, h.agrees, h'.agrees'⟩

/-- Books alike read the same live spend in the scopes of `T`. -/
theorem Alike.liveActual (h : Alike byAccount T D b b') {s : BudgetScope} (hs : s ∈ T) :
    b'.liveActual s = b.liveActual s := by
  unfold Books.liveActual
  rw [h.actualsFrom, h.posted, Ledger.consumedTotal_congr (h.rows s hs)]

/-- Work that only reads and keeps agreement leaves books alike. -/
theorem Alike.reads {α : Type} {P : α → Prop} {x : BooksM α} (hx : Reads P x)
    (ha : KeepsAgree byAccount x) (h : Alike byAccount T D b b') :
    Alike byAccount T D ((x.run).run b).2 ((x.run).run b').2 := by
  obtain ⟨c, hc, -⟩ := hx b
  obtain ⟨c', hc', -⟩ := hx b'
  have hagree := ha [] b h.agrees
  have hagree' := ha [] b' h.agrees'
  rw [hc] at hagree ⊢
  rw [hc'] at hagree' ⊢
  exact ⟨h.rows, h.history, h.fresh, h.fresh', h.envelopes, h.posted, h.actualsFrom, h.held,
    hagree, hagree'⟩

/-! ### The reads of a scope of `T` -/

variable {k : DimensionKey}

theorem keeps_actual (hk : BudgetScope.ofKey k byAccount ∈ T) :
    Keeps (Alike byAccount T D) (actual (BudgetScope.ofKey k byAccount)) := by
  intro b b' h
  refine ⟨?_, h.reads (reads_actual _) (keepsAgree_actual k)⟩
  rw [run_actual_live h.agrees' List.not_mem_nil, run_actual_live h.agrees List.not_mem_nil,
    h.liveActual hk]

theorem keeps_allocated {s : BudgetScope} (hs : s ∈ T) : Keeps (Alike byAccount T D) (allocated s) :=
  Keeps.get_bind (fun _ _ h => by rw [h.envelopes, Ledger.allocationAdjustment_congr (h.rows s hs)])
    fun _ => (keeps_arith _).bind fun _ => (keeps_arith _).bind fun _ => keeps_arith _

theorem keeps_reserved {s : BudgetScope} (hs : s ∈ T) : Keeps (Alike byAccount T D) (reserved s) :=
  Keeps.get_bind (fun _ _ h => by rw [Ledger.reservedTotal_congr (h.rows s hs)]) fun _ => keeps_arith _

theorem keeps_available (hk : BudgetScope.ofKey k byAccount ∈ T) :
    Keeps (Alike byAccount T D) (available (BudgetScope.ofKey k byAccount)) :=
  (keeps_allocated hk).bind fun _ => (keeps_actual hk).bind fun _ =>
    (keeps_arith _).bind fun _ => (keeps_reserved hk).bind fun _ => keeps_arith _

theorem keeps_check (hk : BudgetScope.ofKey k byAccount ∈ T) (requested : Decimal) :
    Keeps (Alike byAccount T D) (check (BudgetScope.ofKey k byAccount) requested) := by
  unfold check
  refine (keeps_allocated hk).bind fun a => (keeps_actual hk).bind fun u =>
    (keeps_reserved hk).bind fun r => (keeps_arith _).bind fun rest =>
      (keeps_arith _).bind fun available => ?_
  dsimp only
  split
  · exact (keeps_pure _).bind fun _ => keeps_pure _
  · exact (keeps_arith _).bind fun _ => keeps_pure _

theorem keeps_overrunOf (hk : BudgetScope.ofKey k byAccount ∈ T) (before : Decimal) :
    Keeps (Alike byAccount T D) (Engine.overrunOf (BudgetScope.ofKey k byAccount) before) := by
  unfold Engine.overrunOf
  refine (keeps_available hk).bind fun after => ?_
  split
  · exact (keeps_arith _).bind fun _ => keeps_pure _
  · exact keeps_pure _

/-! ### Answers alike up to a view -/

/-- `x` answers alike up to `f` from books that `R` relates, and leaves books that `R` relates. -/
def KeepsUpTo (R : Books → Books → Prop) {α β : Type} (f : α → β) (x : BooksM α) : Prop :=
  ∀ ⦃b b'⦄, R b b' →
    ((x.run).run b').1.map f = ((x.run).run b).1.map f ∧ R ((x.run).run b).2 ((x.run).run b').2

section UpTo

variable {α β γ δ : Type} {R : Books → Books → Prop}

theorem Keeps.bind_upTo {x : BooksM α} {g : α → BooksM β} {f : β → γ} (hx : Keeps R x)
    (hg : ∀ a, KeepsUpTo R f (g a)) : KeepsUpTo R f (x >>= g) := by
  intro b b' h
  obtain ⟨hr, ht⟩ := hx h
  rw [run_bind, run_bind]
  rcases hb : (x.run).run b with ⟨err | a, b₁⟩ <;> rcases hb' : (x.run).run b' with ⟨err' | a', b₁'⟩ <;>
    rw [hb, hb'] at hr ht <;> cases hr
  · exact ⟨rfl, ht⟩
  · exact hg a ht

/-- Answering a value made from the first answer keeps answering alike when the value's view
    reads only the first answer's view. -/
theorem KeepsUpTo.bind_pure {x : BooksM α} {f : α → β} {g : α → γ} {f' : γ → δ}
    (hx : KeepsUpTo R f x) (hg : ∀ a a', f a' = f a → f' (g a') = f' (g a)) :
    KeepsUpTo R f' (x >>= fun a => pure (g a)) := by
  intro b b' h
  obtain ⟨hr, ht⟩ := hx h
  rw [run_bind, run_bind]
  rcases hb : (x.run).run b with ⟨err | a, b₁⟩ <;> rcases hb' : (x.run).run b' with ⟨err' | a', b₁'⟩ <;>
    rw [hb, hb'] at hr ht <;> simp only [Except.map, reduceCtorEq, Except.error.injEq,
      Except.ok.injEq] at hr
  · exact ⟨by rw [hr], ht⟩
  · exact ⟨congrArg Except.ok (hg a a' hr), ht⟩

end UpTo

/-- Work under scope locks keeps books alike when the work does: whether the scopes are free
    reads only the held scopes. -/
theorem KeepsUpTo.withScopes_alike {α β : Type} {f : α → β} {work : BooksM α}
    (hw : KeepsUpTo (Alike byAccount T D) f work) (scopes : List BudgetScope) :
    KeepsUpTo (Alike byAccount T D) f (withScopes scopes work) := by
  intro b b' h
  rcases hacq : b.locks.acquire scopes with ⟨blocked, t⟩ | t
  · obtain ⟨t', hacq', hheld⟩ := LockTable.acquire_error_congr h.held hacq
    rw [run_withScopes_conflict hacq, run_withScopes_conflict hacq']
    exact ⟨rfl, h.rows, h.history, h.fresh, h.fresh', h.envelopes, h.posted, h.actualsFrom, hheld,
      h.agrees, h.agrees'⟩
  · obtain ⟨t', hacq', hheld⟩ := LockTable.acquire_ok_congr h.held hacq
    rw [run_withScopes_free hacq, run_withScopes_free hacq']
    have hlocked : Alike byAccount T D { b with locks := t } { b' with locks := t' } :=
      ⟨h.rows, h.history, h.fresh, h.fresh', h.envelopes, h.posted, h.actualsFrom, hheld, h.agrees,
        h.agrees'⟩
    obtain ⟨hr, ht⟩ := hw hlocked
    refine ⟨hr, ht.rows, ht.history, ht.fresh, ht.fresh', ht.envelopes, ht.posted, ht.actualsFrom, ?_,
      ht.agrees, ht.agrees'⟩
    simp only [LockTable.release_held, ht.held]

theorem Keeps.withScopes_alike {α : Type} {work : BooksM α} (hw : Keeps (Alike byAccount T D) work)
    (scopes : List BudgetScope) : Keeps (Alike byAccount T D) (withScopes scopes work) := by
  intro b b' h
  have hup : KeepsUpTo (Alike byAccount T D) id work := fun _ _ h => by
    obtain ⟨hr, ht⟩ := hw h
    exact ⟨by rw [hr], ht⟩
  obtain ⟨hr, ht⟩ := hup.withScopes_alike scopes h
  refine ⟨?_, ht⟩
  -- the view is the identity
  revert hr
  cases ((withScopes scopes work).run).run b' |>.1 <;> cases ((withScopes scopes work).run).run b |>.1 <;>
    simp [Except.map]

/-! ### Writes -/

/-- Books alike stay alike when each appends the same drafts, whatever their caches become,
    as long as those agree. -/
theorem Alike.append (h : Alike byAccount T D b b') {ds : List EntryDraft} {es es' : List Entry}
    {l l' : Ledger} (happ : b.ledger.append ds = .ok (es, l)) (happ' : b'.ledger.append ds = .ok (es', l'))
    {c c' : ActualsCache} (hagree : CacheAgrees byAccount [] { b with ledger := l, cache := c })
    (hagree' : CacheAgrees byAccount [] { b' with ledger := l', cache := c' }) :
    Alike byAccount T D { b with ledger := l, cache := c } { b' with ledger := l', cache := c' } := by
  have hd : es'.map Entry.draft = es.map Entry.draft := by
    rw [Ledger.append_drafts happ, Ledger.append_drafts happ']
  refine ⟨fun s hs => ?_, ?_, h.fresh.append happ, h.fresh'.append happ', h.envelopes, h.posted,
    h.actualsFrom, h.held, hagree, hagree'⟩
  · show l'.rowsIn s = l.rowsIn s
    rw [Ledger.rowsIn_append happ, Ledger.rowsIn_append happ', h.rows s hs]
  · show HistoryAlike (l.select _) (l'.select _)
    rw [Ledger.select_append happ, Ledger.select_append happ']
    -- a query reads the drafts of the rows only
    refine h.history.append (map_draft_filter hd fun d =>
        ({ source := some D } : LedgerQuery).admits (Entry.ofDraft d 0 0 0))
      (fun y hy => (h.fresh y (List.mem_of_mem_filter hy)).ne)
      (fun x hx => Ledger.append_batch happ x (List.mem_of_mem_filter hx))
      (fun x hx => Ledger.append_sound happ x (List.mem_of_mem_filter hx))
      (fun y hy => (h.fresh' y (List.mem_of_mem_filter hy)).ne)
      (fun x hx => Ledger.append_batch happ' x (List.mem_of_mem_filter hx))
      (fun x hx => Ledger.append_sound happ' x (List.mem_of_mem_filter hx))

/-- Whether an append goes through reads only its drafts. -/
theorem append_error_of_error {l l' : Ledger} {ds : List EntryDraft} {err : BudgetError}
    (h : l.append ds = .error err) : l'.append ds = .error err := by
  unfold Ledger.append at h ⊢
  cases hv : validateBatch ds with
  | error e =>
    rw [hv] at h
    exact h
  | ok _ =>
    rw [hv] at h
    cases h

/-- An append that goes through on one ledger goes through on every other. -/
theorem append_ok_of_ok {l l₁ : Ledger} {ds : List EntryDraft} {es : List Entry}
    (h : l.append ds = .ok (es, l₁)) (l' : Ledger) : ∃ es' l₁', l'.append ds = .ok (es', l₁') := by
  rcases h' : l'.append ds with err | ⟨es', l₁'⟩
  · rw [append_error_of_error h'] at h
    cases h
  · exact ⟨es', l₁', rfl⟩

/-- Writing a batch with no spending rows answers alike up to the rows' identifiers. -/
theorem keepsUpTo_write {ds : List EntryDraft} (hno : ∀ d ∈ ds, d.entryType ∉ consumedTypes) :
    KeepsUpTo (Alike byAccount T D) (List.map Entry.draft) (Engine.write ds) := by
  intro b b' h
  have hagree := keepsAgree_write hno [] b h.agrees
  have hagree' := keepsAgree_write hno [] b' h.agrees'
  rw [Engine.run_write] at hagree hagree' ⊢
  rw [Engine.run_write]
  rcases happ : b.ledger.append ds with err | ⟨es, l⟩
  · rw [append_error_of_error happ]
    exact ⟨rfl, h⟩
  · obtain ⟨es', l', happ'⟩ := append_ok_of_ok happ b'.ledger
    rw [happ] at hagree
    rw [happ'] at hagree' ⊢
    refine ⟨?_, h.append happ happ' hagree hagree'⟩
    simp [Except.map, Ledger.append_drafts happ, Ledger.append_drafts happ']

end Books

/-! ## Section 4: Answers up to the rows' identifiers -/

/-- A row with its identifiers and clock reading set aside. -/
def Entry.erase (x : Entry) : Entry := Entry.ofDraft x.draft 0 0 0

/-- An outcome with the identifiers and clock readings of its rows set aside. -/
def Outcome.erase : Outcome → Outcome
  | .applied u => .applied { u with entries := u.entries.map Entry.erase }
  | o => o

/-- What an append answers, with the rows written seen as their drafts. -/
def eraseRows (r : List Entry × List Shortfall) : List EntryDraft × List Shortfall :=
  (r.1.map Entry.draft, r.2)

theorem map_erase_congr {es es' : List Entry} (h : es'.map Entry.draft = es.map Entry.draft) :
    es'.map Entry.erase = es.map Entry.erase := by
  have hview : ∀ xs : List Entry, xs.map Entry.erase = (xs.map Entry.draft).map fun d => Entry.ofDraft d 0 0 0 :=
    fun xs => by rw [List.map_map]; rfl
  rw [hview, hview, h]

namespace Books

/-- Work that keeps books alike, answered with rows of the same drafts, answers alike up to
    the rows' identifiers. -/
theorem Keeps.answer_rows {R : Books → Books → Prop} {y : BooksM (List Shortfall)} (hy : Keeps R y)
    {B B' : Books} (h : R B B') {es es' : List Entry} (hes : es'.map Entry.draft = es.map Entry.draft) :
    (((y >>= fun o => pure (es', o)).run).run B').1.map eraseRows =
        (((y >>= fun o => pure (es, o)).run).run B).1.map eraseRows ∧
      R (((y >>= fun o => pure (es, o)).run).run B).2 (((y >>= fun o => pure (es', o)).run).run B').2 := by
  obtain ⟨hr, ht⟩ := hy h
  rw [run_bind, run_bind]
  rcases hb : (y.run).run B with ⟨err | o, B₁⟩ <;> rcases hb' : (y.run).run B' with ⟨err' | o', B₁'⟩ <;>
    rw [hb, hb'] at hr ht <;> cases hr
  · exact ⟨rfl, ht⟩
  · exact ⟨congrArg Except.ok (by simp [eraseRows, hes]), ht⟩

end Books

namespace Plan

/-- A plan whose answer sees the rows it writes only through their drafts. -/
def Natural : Plan Outcome → Prop
  | stop _ => True
  | checked _ _ _ k | unchecked _ k => ∀ es es' sh, es'.map Entry.draft = es.map Entry.draft →
      (k (es', sh)).erase = (k (es, sh)).erase

end Plan

namespace Engine

theorem reachPlan_natural (e : Engine) (document : SourceDocument) (context : EventContext) :
    (e.reachPlan document context).Natural := by
  unfold reachPlan
  repeat' split
  all_goals first
    | trivial
    | exact fun es es' sh h => by simp [Outcome.erase, map_erase_congr h]

theorem submitPlan_natural (e : Engine) (document : SourceDocument) (secondary : SecondaryDocument)
    (context : EventContext) : (e.submitPlan document secondary context).Natural := by
  unfold submitPlan
  repeat' split
  all_goals first
    | trivial
    | exact fun es es' sh h => by simp [Outcome.erase, map_erase_congr h]

theorem rejectPlan_natural (e : Engine) (document : SourceDocument) : (e.rejectPlan document).Natural := by
  unfold rejectPlan
  repeat' split
  all_goals first
    | trivial
    | exact fun es es' sh h => by simp [Outcome.erase, map_erase_congr h]

theorem cancelPlan_natural (e : Engine) (document : SourceDocument) (secondary : SecondaryDocument) :
    (e.cancelPlan document secondary).Natural := by
  unfold cancelPlan
  repeat' split
  all_goals first
    | trivial
    | exact fun es es' sh h => by simp [Outcome.erase, map_erase_congr h]

theorem eventPlan_natural (e : Engine) (ev : LifecycleEvent) : (e.eventPlan ev).Natural := by
  cases ev with
  | reachedTargetState document context => exact reachPlan_natural e document context
  | secondarySubmitted document secondary context => exact submitPlan_natural e document secondary context
  | rejectedOrReopened document context => exact rejectPlan_natural e document
  | secondaryCancelled document secondary context => exact cancelPlan_natural e document secondary

/-! ## Section 5: Engines read alike -/

open Books

variable {T : Set BudgetScope} {D : DocumentRef} {e e' e'' : Engine}

/-- Engines that read alike on the scopes of `T` and the history of `D`, with the same settings
    and reference data. -/
structure Alike (T : Set BudgetScope) (D : DocumentRef) (e e' : Engine) : Prop where
  config : e'.config = e.config
  directory : e'.directory = e.directory
  calendar : e'.calendar = e.calendar
  books : Books.Alike e.config.controlByAccount T D e.books e'.books

theorem Alike.refl (hfresh : e.books.ledger.BatchesFresh) (hagree : e.CacheAgrees) : e.Alike T D e :=
  ⟨rfl, rfl, rfl, Books.Alike.refl hfresh hagree⟩

theorem Alike.symm (h : e.Alike T D e') : e'.Alike T D e :=
  ⟨h.config.symm, h.directory.symm, h.calendar.symm, h.config ▸ h.books.symm⟩

theorem Alike.trans (h : e.Alike T D e') (h' : e'.Alike T D e'') : e.Alike T D e'' :=
  ⟨h'.config.trans h.config, h'.directory.trans h.directory, h'.calendar.trans h.calendar,
    h.books.trans (h.config ▸ h'.books)⟩

theorem Alike.history (h : e.Alike T D e') : HistoryAlike (e.history D) (e'.history D) :=
  h.books.history

theorem Alike.slicer (h : e.Alike T D e') : e'.slicer = e.slicer := by
  unfold Engine.slicer
  rw [h.config, h.directory, h.calendar]

/-- The engine on the right of an agreement keeps its cache in agreement with its figures. -/
theorem Alike.cacheAgrees' (h : e.Alike T D e') : e'.CacheAgrees := by
  unfold CacheAgrees
  rw [h.config]
  exact h.books.agrees'

/-- Alike engines report the same standing of a key whose scope is one of `T`. -/
theorem Alike.checkAvailability (h : e.Alike T D e') {k : DimensionKey} (hk : e.scopeOf k ∈ T)
    (amount : Decimal) :
    (((checkAvailability k amount).run).run e').1 = (((checkAvailability k amount).run).run e).1 := by
  have hs : e'.scopeOf k = e.scopeOf k := by rw [scopeOf, scopeOf, h.config]
  unfold Engine.checkAvailability
  simp only [run_bind, run_get]
  rw [hs, run_onBooks, run_onBooks]
  exact ((Keeps.withScopes_alike (keeps_check hk amount) [e.scopeOf k]) h.books).1

/-- Alike engines plan an event of the document alike: a plan reads the settings, the
    reference data and the document's history. -/
theorem Alike.eventPlan (h : e.Alike T D e') {ev : LifecycleEvent} (hD : ev.document.docRef = D) :
    e'.eventPlan ev = e.eventPlan ev := by
  have hA := h.history
  cases ev <;> simp only [LifecycleEvent.document] at hD <;> subst hD <;>
    simp only [Engine.eventPlan, reachPlan, submitPlan, rejectPlan, cancelPlan, h.config, h.slicer,
      hA.positions, hA.outstandingReserved, hA.outstandingConsumedAgainst, hA.positions_others,
      hA.restoreOf]

/-- Work over the books that keeps books alike up to a view keeps engines alike. -/
theorem Alike.onBooks (h : e.Alike T D e') {α β : Type} {f : α → β} {x : BooksM α}
    (hx : KeepsUpTo (Books.Alike e.config.controlByAccount T D) f x) :
    (((onBooks x).run).run e').1.map f = (((onBooks x).run).run e).1.map f ∧
      Alike T D (((onBooks x).run).run e).2 (((onBooks x).run).run e').2 := by
  rw [run_onBooks, run_onBooks]
  obtain ⟨hr, ht⟩ := hx h.books
  exact ⟨hr, h.config, h.directory, h.calendar, ht⟩

/-- The checked append of a batch with no spending rows, in scopes of `T`, answers alike up to
    the rows' identifiers. -/
theorem Alike.appendChecked (h : e.Alike T D e') {doc : DocumentRef} {ds : List EntryDraft}
    {p : Principal} (hno : ∀ d ∈ ds, d.entryType ∉ consumedTypes) (hT : ∀ d ∈ ds, e.scopeOf d.key ∈ T) :
    (((appendChecked doc ds p).run).run e').1.map eraseRows =
        (((appendChecked doc ds p).run).run e).1.map eraseRows ∧
      Alike T D (((appendChecked doc ds p).run).run e).2 (((appendChecked doc ds p).run).run e').2 := by
  unfold Engine.appendChecked
  rw [run_bind, run_demand, run_bind, run_demand, h.config]
  rcases hd : ds.foldlM (addDemand e.config.controlByAccount) [] with a | needs
  · exact ⟨rfl, h⟩
  simp only [run_arith_ok, run_bind, run_get, h.config]
  refine h.onBooks (KeepsUpTo.withScopes_alike ?_ _)
  refine (Keeps.mapM fun n hn => ?_).bind_upTo fun checks => ?_
  · -- every scope checked is the scope of a draft's key, one of `T`
    obtain ⟨d, hdm, hds⟩ :=
      (mem_demandScopes hd n.1).1 (List.mem_map_of_mem (List.mem_of_mem_filter hn))
    rw [← hds]
    exact keeps_check (hT d hdm) n.2
  · have hview : ∀ (sh : List Shortfall) (es es' : List Entry), es'.map Entry.draft = es.map Entry.draft →
        eraseRows (es', sh) = eraseRows (es, sh) := fun _ _ _ h => by simp [eraseRows, h]
    split
    · exact (keeps_throw _).bind_upTo fun _ => (keepsUpTo_write hno).bind_pure (hview _)
    · exact (keepsUpTo_write hno).bind_pure (hview _)

/-- The unchecked append of a batch in scopes of `T` answers alike up to the rows'
    identifiers: after a write of spending rows both forget the figures of every scope of the
    batch before they read again. -/
theorem Alike.appendUnchecked (h : e.Alike T D e') {ds : List EntryDraft}
    (hT : ∀ d ∈ ds, e.scopeOf d.key ∈ T) :
    (((appendUnchecked ds).run).run e').1.map eraseRows = (((appendUnchecked ds).run).run e).1.map eraseRows ∧
      Alike T D (((appendUnchecked ds).run).run e).2 (((appendUnchecked ds).run).run e').2 := by
  unfold Engine.appendUnchecked
  rw [run_bind, run_demand, run_bind, run_demand, h.config]
  rcases hd : ds.foldlM (addDemand e.config.controlByAccount) [] with a | needs
  · exact ⟨rfl, h⟩
  simp only [run_arith_ok]
  refine h.onBooks (KeepsUpTo.withScopes_alike ?_ _)
  -- every scope of the demand is a draft's scope, one of `T`
  have hof : ∀ s ∈ needs.map (·.1), ∃ k, s = BudgetScope.ofKey k e.config.controlByAccount ∧ s ∈ T := by
    intro s hs
    obtain ⟨d, hdm, hds⟩ := (mem_demandScopes hd s).1 hs
    exact ⟨d.key, hds.symm, hds ▸ hT d hdm⟩
  refine (Keeps.mapM fun s hs => ?_).bind_upTo fun before => ?_
  · obtain ⟨k, rfl, hk⟩ := hof s hs
    exact keeps_available hk
  have hov : Keeps (Books.Alike e.config.controlByAccount T D)
      (((needs.map (·.1)).zip before).filterMapM fun x => overrunOf x.1 x.2) := by
    refine Keeps.filterMapM fun x hx => ?_
    obtain ⟨k, hks, hk⟩ := hof x.1 (List.of_mem_zip hx).1
    rw [hks]
    exact keeps_overrunOf (hks ▸ hk) x.2
  intro b b' hb
  rw [run_bind, run_bind, run_write, run_write]
  rcases happ : b.ledger.append ds with err | ⟨es, l⟩
  · rw [append_error_of_error happ]
    exact ⟨rfl, hb⟩
  obtain ⟨es', l', happ'⟩ := append_ok_of_ok happ b'.ledger
  have hes : es'.map Entry.draft = es.map Entry.draft := by
    rw [Ledger.append_drafts happ, Ledger.append_drafts happ']
  rw [happ']
  dsimp only
  split
  · -- spending rows: both forget every scope of the batch, and agree again
    obtain ⟨c, hc⟩ := run_forIn_invalidate (needs.map (·.1)) { b with ledger := l }
    obtain ⟨c', hc'⟩ := run_forIn_invalidate (needs.map (·.1)) { b' with ledger := l' }
    have h2 := hb.agrees.write_forgetAll hd happ
    have h2' := hb.agrees'.write_forgetAll hd happ'
    rw [hc] at h2
    rw [hc'] at h2'
    rw [run_bind, run_bind, hc, hc']
    exact hov.answer_rows (hb.append happ happ' h2 h2') hes
  · -- no spending rows: the write changes no live figure
    rename_i htouch
    exact hov.answer_rows (hb.append happ happ' (hb.agrees.write_of_not_spending htouch happ)
      (hb.agrees'.write_of_not_spending htouch happ')) hes

/-- Passing what an append answers on through a continuation that sees the rows only through
    their drafts keeps answering alike up to identifiers. -/
theorem Alike.map_natural {x : EngineM (List Entry × List Shortfall)} {e₁ e₁' : Engine}
    (hx : ((x.run).run e₁').1.map eraseRows = ((x.run).run e₁).1.map eraseRows ∧
      Alike T D ((x.run).run e₁).2 ((x.run).run e₁').2)
    {k : List Entry × List Shortfall → Outcome}
    (hk : ∀ es es' sh, es'.map Entry.draft = es.map Entry.draft → (k (es', sh)).erase = (k (es, sh)).erase) :
    (((k <$> x).run).run e₁').1.map Outcome.erase = (((k <$> x).run).run e₁).1.map Outcome.erase ∧
      Alike T D (((k <$> x).run).run e₁).2 (((k <$> x).run).run e₁').2 := by
  obtain ⟨hr, ht⟩ := hx
  rw [run_map, run_map]
  rcases hb : (x.run).run e₁ with ⟨err | ⟨es, sh⟩, e₂⟩ <;>
    rcases hb' : (x.run).run e₁' with ⟨err' | ⟨es', sh'⟩, e₂'⟩ <;>
    rw [hb, hb'] at hr ht <;>
    simp only [Except.map, eraseRows, reduceCtorEq, Except.error.injEq, Except.ok.injEq,
      Prod.mk.injEq] at hr
  · subst hr
    exact ⟨rfl, ht⟩
  · obtain ⟨hes, rfl⟩ := hr
    exact ⟨congrArg Except.ok (hk es es' _ hes), ht⟩

/-- Carrying out a plan whose checked batch has no spending rows, whose rows fall in scopes of
    `T` and whose answer sees the rows through their drafts answers alike up to identifiers. -/
theorem Alike.exec (h : e.Alike T D e') {P : Plan Outcome} (hno : P.ChecksNoSpending)
    (hT : ∀ ds, P.drafts? = some ds → ∀ d ∈ ds, e.scopeOf d.key ∈ T) (hnat : P.Natural) :
    (((P.exec).run).run e').1.map Outcome.erase = (((P.exec).run).run e).1.map Outcome.erase ∧
      Alike T D (((P.exec).run).run e).2 (((P.exec).run).run e').2 := by
  cases P with
  | stop r =>
    rw [Plan.run_exec_stop, Plan.run_exec_stop]
    exact ⟨rfl, h⟩
  | checked doc ds p k =>
    rw [Plan.run_exec_checked, Plan.run_exec_checked]
    exact Alike.map_natural (h.appendChecked hno (hT ds rfl)) hnat
  | unchecked ds k =>
    rw [Plan.run_exec_unchecked, Plan.run_exec_unchecked]
    exact Alike.map_natural (h.appendUnchecked (hT ds rfl)) hnat

/-- **An event reads only its own.** Engines that read alike on the history of an event's
    document and on the scopes its batch falls in answer the event alike, up to the identifiers
    and clock readings of the rows written, and read alike afterwards. -/
theorem Alike.handle (h : e.Alike T D e') {ev : LifecycleEvent} (hD : ev.document.docRef = D)
    (hT : ∀ ds, (e.eventPlan ev).drafts? = some ds → ∀ d ∈ ds, e.scopeOf d.key ∈ T) :
    (((handle ev).run).run e').1.map Outcome.erase = (((handle ev).run).run e).1.map Outcome.erase ∧
      Alike T D (((handle ev).run).run e).2 (((handle ev).run).run e').2 := by
  rw [run_handle, run_handle, h.eventPlan hD]
  exact h.exec (eventPlan_checksNoSpending e ev) hT (eventPlan_natural e ev)

/-- **Events of other documents in other scopes pass by.** An event of another document whose
    batch falls outside the scopes of `T`, all of them scopes of keys, leaves the engine alike
    on `T` and `D` to what it was. -/
theorem alike_handle_other (hfresh : e.books.ledger.BatchesFresh) (hagree : e.CacheAgrees)
    (hTk : ∀ s ∈ T, ∃ k, s = BudgetScope.ofKey k e.config.controlByAccount)
    {ev : LifecycleEvent} (hD : ev.document.docRef ≠ D)
    (hT : ∀ ds, (e.eventPlan ev).drafts? = some ds → ∀ d ∈ ds, e.scopeOf d.key ∉ T) :
    e.Alike T D (((handle ev).run).run e).2 := by
  have hframe : Frame e (((handle ev).run).run e).2 := by
    rw [run_handle]
    exact frame_exec _ e
  rw [← step_event] at hframe ⊢
  -- the ledger either stays or grows by the event's batch, which is for another document and
  -- in no scope of `T`
  have hkeep : (∀ s ∈ T, ((Request.event ev).step e).books.ledger.rowsIn s = e.books.ledger.rowsIn s) ∧
      ((Request.event ev).step e).history D = e.history D := by
    rcases Request.step_ledger (.event ev) e with hl | ⟨ds, es, hds, happ⟩
    · exact ⟨fun s _ => by rw [hl], by simp only [history, hl]⟩
    have hds' : (e.eventPlan ev).drafts? = some ds := by
      simpa [Request.batch?, plan?_event] using hds
    obtain ⟨doc, hdoc, hsrc⟩ := Request.batch_source hds
    simp only [Request.source?, Option.some.injEq] at hdoc
    refine ⟨fun s hs => ?_, history_append_other happ hsrc (hdoc ▸ hD)⟩
    rw [Ledger.rowsIn_append happ s, List.filter_eq_nil_iff.2 fun d hd hc => ?_, List.append_nil]
    obtain ⟨k, rfl⟩ := hTk s hs
    rw [BudgetScope.contains_ofKey_iff] at hc
    exact hT ds hds' d hd (by rw [scopeOf, hc]; exact hs)
  have hagree₁ := Request.step_cacheAgrees (.event ev) hagree
  unfold CacheAgrees at hagree₁
  rw [hframe.config] at hagree₁
  refine ⟨hframe.config, hframe.directory, hframe.calendar,
    ⟨hkeep.1, ?_, hfresh, Request.step_batchesFresh _ hfresh, hframe.envelopes, hframe.posted,
      hframe.actualsFrom, hframe.held, hagree, hagree₁⟩⟩
  have hhist := hkeep.2
  unfold history at hhist
  rw [hhist]
  exact .refl _

end Engine

end Encumbrance

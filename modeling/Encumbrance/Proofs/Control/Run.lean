import Mathlib
import Encumbrance.Control.Controller
import Encumbrance.Proofs.Ledger.Locks

/-! # Running engine operations

    Engine operations are computations in `ExceptT BudgetError (StateM _)`. This module gives
    them a small calculus: how `pure`, `bind`, `get`, `set`, `throw` and `tryCatch` run from a
    state, and then what the building blocks of the controller do to the books.

    * **Reads.** Computing availability changes nothing but the actuals cache (`Books.Reads`),
      and reads compose.
    * **Writes.** `Engine.write` appends one batch or leaves the ledger alone.
    * **Locks.** `Books.withScopes` either meets a held scope and fails with a write conflict
      before its work runs, or runs its work and gives the scopes back, so the held scopes are
      the same afterwards either way.
-/

namespace Encumbrance

/-! ## Section 1: The monad -/

section Run

variable {ε σ α β : Type}

theorem run_bind (x : ExceptT ε (StateM σ) α) (f : α → ExceptT ε (StateM σ) β) (s : σ) :
    ((x >>= f).run).run s = match (x.run).run s with
      | (.ok a, s') => ((f a).run).run s'
      | (.error e, s') => (.error e, s') := by
  simp only [ExceptT.run_bind, StateT.run_bind]
  rcases (x.run).run s with ⟨_ | a, s'⟩ <;> rfl

theorem run_map (f : α → β) (x : ExceptT ε (StateM σ) α) (s : σ) :
    ((f <$> x).run).run s = match (x.run).run s with
      | (.ok a, s') => (.ok (f a), s')
      | (.error e, s') => (.error e, s') := by
  simp only [ExceptT.run_map, StateT.run_map]
  rcases (x.run).run s with ⟨_ | a, s'⟩ <;> rfl

@[simp] theorem run_pure (a : α) (s : σ) :
    ((pure a : ExceptT ε (StateM σ) α).run).run s = (.ok a, s) := rfl

@[simp] theorem run_get (s : σ) : ((get : ExceptT ε (StateM σ) σ).run).run s = (.ok s, s) := rfl

@[simp] theorem run_set (s s' : σ) :
    ((set s' : ExceptT ε (StateM σ) PUnit).run).run s = (.ok ⟨⟩, s') := rfl

@[simp] theorem run_modify (f : σ → σ) (s : σ) :
    ((modify f : ExceptT ε (StateM σ) PUnit).run).run s = (.ok ⟨⟩, f s) := rfl

@[simp] theorem run_throw (e : ε) (s : σ) :
    ((throw e : ExceptT ε (StateM σ) α).run).run s = (.error e, s) := rfl

theorem run_tryCatch (x : ExceptT ε (StateM σ) α) (h : ε → ExceptT ε (StateM σ) α) (s : σ) :
    ((tryCatch x h).run).run s = match (x.run).run s with
      | (.ok a, s') => (.ok a, s')
      | (.error e, s') => ((h e).run).run s' := by
  show ((ExceptT.tryCatch x h).run).run s = _
  simp only [ExceptT.tryCatch, ExceptT.run, ExceptT.mk, StateT.run_bind]
  rcases StateT.run x s with ⟨_ | a, s'⟩ <;> rfl

@[simp] theorem run_arith_ok (a : α) (s : σ) :
    ((arith (.ok a) : ExceptT BudgetError (StateM σ) α).run).run s = (.ok a, s) := rfl

@[simp] theorem run_arith_error (e : ArithError) (s : σ) :
    ((arith (.error e) : ExceptT BudgetError (StateM σ) α).run).run s =
      (.error (.overflow e), s) := rfl

@[simp] theorem run_liftExcept_ok (a : α) (s : σ) :
    ((liftExcept (.ok a : Except ε α) : ExceptT ε (StateM σ) α).run).run s = (.ok a, s) := rfl

@[simp] theorem run_liftExcept_error (e : ε) (s : σ) :
    ((liftExcept (.error e : Except ε α) : ExceptT ε (StateM σ) α).run).run s = (.error e, s) :=
  rfl

end Run

/-! ## Section 2: Reads -/

/-- An arithmetic overflow, which aborts an operation where it happens. -/
def BudgetError.isOverflow : BudgetError → Bool
  | .overflow _ => true
  | _ => false

namespace Books

/-- `x` changes nothing of the books but the actuals cache, fails only by overflowing, and
    returns a value with property `P`. -/
def Reads {α : Type} (P : α → Prop) (x : BooksM α) : Prop :=
  ∀ b, ∃ c, ((x.run).run b).2 = { b with cache := c } ∧
    match ((x.run).run b).1 with
    | .ok a => P a
    | .error err => err.isOverflow

theorem Reads.pure {α : Type} {P : α → Prop} {a : α} (h : P a) : Reads P (pure a) :=
  fun b => ⟨b.cache, rfl, h⟩

theorem Reads.bind {α β : Type} {P : β → Prop} {Q : α → Prop} {x : BooksM α} {f : α → BooksM β}
    (hx : Reads Q x) (hf : ∀ a, Q a → Reads P (f a)) : Reads P (x >>= f) := by
  intro b
  obtain ⟨c, hc, hres⟩ := hx b
  rw [run_bind]
  rcases h : (x.run).run b with ⟨err | a, b'⟩
  · rw [h] at hc hres; exact ⟨c, hc, hres⟩
  · rw [h] at hc hres
    obtain ⟨c', hc', hres'⟩ := hf a hres b'
    simp only at hc
    exact ⟨c', by rw [hc', hc], hres'⟩

theorem reads_get : Reads (fun _ => True) (get : BooksM Books) := fun b => ⟨b.cache, rfl, trivial⟩

theorem reads_arith {α : Type} (x : Except ArithError α) : Reads (fun _ => True) (arith x) := by
  intro b
  cases x with
  | ok a => exact ⟨b.cache, rfl, trivial⟩
  | error e => exact ⟨b.cache, rfl, rfl⟩

theorem Reads.mapM {α β : Type} {f : α → BooksM β} (hf : ∀ a, Reads (fun _ => True) (f a)) :
    ∀ xs : List α, Reads (fun _ => True) (xs.mapM f)
  | [] => Reads.pure trivial
  | x :: xs => by
    rw [List.mapM_cons]
    exact (hf x).bind fun _ _ => (Reads.mapM hf xs).bind fun _ _ => Reads.pure trivial

theorem Reads.filterMapM {α β : Type} {f : α → BooksM (Option β)}
    (hf : ∀ a, Reads (fun _ => True) (f a)) : ∀ xs : List α, Reads (fun _ => True) (xs.filterMapM f)
  | [] => Reads.pure trivial
  | x :: xs => by
    rw [List.filterMapM_cons]
    refine (hf x).bind fun o _ => ?_
    cases o with
    | none => exact Reads.filterMapM hf xs
    | some _ => exact (Reads.filterMapM hf xs).bind fun _ _ => Reads.pure trivial

theorem Reads.forIn {α : Type} {f : α → PUnit → BooksM (ForInStep PUnit)}
    (hf : ∀ a, Reads (fun _ => True) (f a ⟨⟩)) : ∀ xs : List α, Reads (fun _ => True) (forIn xs ⟨⟩ f)
  | [] => Reads.pure trivial
  | x :: xs => by
    rw [List.forIn_cons]
    refine (hf x).bind fun step _ => ?_
    cases step with
    | done _ => exact Reads.pure trivial
    | yield _ => exact Reads.forIn hf xs

/-- Reading a scope's actual spend only notes the read in the cache and fills its slot. -/
theorem reads_actual (s : BudgetScope) : Reads (fun _ => True) (actual s) := by
  intro b
  simp only [actual, run_bind, run_get]
  split
  · cases b.liveActual s with
    | ok v => exact ⟨b.cache, rfl, trivial⟩
    | error e => exact ⟨b.cache, rfl, rfl⟩
  · split
    · exact ⟨_, rfl, trivial⟩
    · cases b.liveActual s with
      | ok v => exact ⟨_, rfl, trivial⟩
      | error e => exact ⟨_, rfl, rfl⟩

theorem reads_allocated (s : BudgetScope) : Reads (fun _ => True) (allocated s) :=
  reads_get.bind fun _ _ => (reads_arith _).bind fun _ _ => (reads_arith _).bind fun _ _ =>
    reads_arith _

theorem reads_reserved (s : BudgetScope) : Reads (fun _ => True) (reserved s) :=
  reads_get.bind fun _ _ => reads_arith _

theorem reads_available (s : BudgetScope) : Reads (fun _ => True) (available s) :=
  (reads_allocated s).bind fun _ _ => (reads_actual s).bind fun _ _ =>
    (reads_arith _).bind fun _ _ => (reads_reserved s).bind fun _ _ => reads_arith _

theorem reads_check (s : BudgetScope) (requested : Decimal) :
    Reads (fun _ => True) (check s requested) := by
  unfold check
  refine (reads_allocated s).bind fun a _ => (reads_actual s).bind fun u _ =>
    (reads_reserved s).bind fun r _ => (reads_arith _).bind fun rest _ =>
      (reads_arith _).bind fun available _ => ?_
  dsimp only
  split
  · exact (Reads.pure trivial : Reads (fun _ => True) _).bind fun _ _ => Reads.pure trivial
  · exact (reads_arith _).bind fun _ _ => Reads.pure trivial

theorem reads_invalidate (s : BudgetScope) : Reads (fun _ => True) (invalidate s) := by
  intro b
  simp only [invalidate, run_modify]
  split
  · exact ⟨_, rfl, trivial⟩
  · exact ⟨b.cache, rfl, trivial⟩

theorem reads_overrunOf (s : BudgetScope) (before : Decimal) :
    Reads (fun _ => True) (Engine.overrunOf s before) := by
  unfold Engine.overrunOf
  refine (reads_available s).bind fun after _ => ?_
  split
  · exact (reads_arith _).bind fun _ _ => Reads.pure trivial
  · exact Reads.pure trivial

/-! ## Section 3: Locks -/

/-- Whether a piece of work aborted on an overflow, which keeps its scopes' slots. -/
def aborted {α : Type} : Except BudgetError α → Bool
  | .error err => err.isOverflow
  | .ok _ => false

/-- A held scope among those asked for fails the work before it starts. -/
theorem run_withScopes_conflict {α : Type} {scopes : List BudgetScope} {work : BooksM α}
    {b : Books} {blocked : BudgetScope} {t : LockTable}
    (h : b.locks.acquire scopes = .error (blocked, t)) :
    ((withScopes scopes work).run).run b =
      (.error (.writeConflict blocked.toText), { b with locks := t }) := by
  simp only [withScopes, run_bind, run_get, h, run_set, run_throw]

/-- With the scopes free the work runs under them, and they are given back whatever it
    returns. -/
theorem run_withScopes_free {α : Type} {scopes : List BudgetScope} {work : BooksM α}
    {b : Books} {t : LockTable} (h : b.locks.acquire scopes = .ok t) :
    ((withScopes scopes work).run).run b =
      (((work.run).run { b with locks := t }).1,
        { ((work.run).run { b with locks := t }).2 with
          locks := ((work.run).run { b with locks := t }).2.locks.release scopes
            (aborted ((work.run).run { b with locks := t }).1) }) := by
  simp only [withScopes, run_bind, run_get, h, run_set, run_tryCatch]
  rcases (work.run).run { b with locks := t } with ⟨err | a, b'⟩
  · cases err <;> rfl
  · rfl

/-- The scopes held after `withScopes` are those held before, whatever the work did, as long
    as the work leaves the lock table alone. -/
theorem withScopes_held {α : Type} {scopes : List BudgetScope} {work : BooksM α} (b : Books)
    (hwork : ∀ b', ((work.run).run b').2.locks = b'.locks) :
    (((withScopes scopes work).run).run b).2.locks.held = b.locks.held := by
  rcases h : b.locks.acquire scopes with ⟨blocked, t⟩ | t
  · rw [run_withScopes_conflict h]
    exact (LockTable.acquire_error h).2.2.2
  · rw [run_withScopes_free h, hwork]
    exact LockTable.release_acquire h _

end Books

namespace Engine

/-! ## Section 4: Writing a batch and running over the books -/

theorem run_write (ds : List EntryDraft) (b : Books) :
    ((write ds).run).run b = match b.ledger.append ds with
      | .ok (es, l) => (.ok es, { b with ledger := l })
      | .error err => (.error err, b) := by
  simp only [write, run_bind, run_get]
  rcases b.ledger.append ds with err | ⟨es, l⟩ <;> rfl

theorem run_onBooks {α : Type} (x : BooksM α) (e : Engine) :
    ((onBooks x).run).run e = (((x.run).run e.books).1, { e with books := ((x.run).run e.books).2 }) :=
  rfl

theorem run_demand (ds : List EntryDraft) (e : Engine) :
    ((demand ds).run).run e =
      ((arith (ds.foldlM (addDemand e.config.controlByAccount) []) : EngineM _).run).run e :=
  rfl

/-! ## Section 5: The two append steps -/

/-- What a step that may append the batch `ds` did to the ledger, given what it returned: the
    rows it returns were appended as that batch, and a failure other than an overflow appended
    nothing. An overflow after the append keeps it. -/
def Appended {α : Type} (ds : List EntryDraft) (l l' : Ledger) :
    Except BudgetError (List Entry × α) → Prop
  | .ok (es, _) => l.append ds = .ok (es, l')
  | .error err => l' = l ∨ (err.isOverflow ∧ ∃ es, l.append ds = .ok (es, l'))

/-- `e'` keeps what no append step changes: the settings, the reference data, the envelopes,
    the postings, where actuals come from, and the held scopes. -/
structure Frame (e e' : Engine) : Prop where
  config : e'.config = e.config
  directory : e'.directory = e.directory
  calendar : e'.calendar = e.calendar
  envelopes : e'.books.envelopes = e.books.envelopes
  posted : e'.books.posted = e.books.posted
  actualsFrom : e'.books.actualsFrom = e.books.actualsFrom
  held : e'.books.locks.held = e.books.locks.held

theorem Frame.refl (e : Engine) : Frame e e := ⟨rfl, rfl, rfl, rfl, rfl, rfl, rfl⟩

theorem Frame.trans {e₁ e₂ e₃ : Engine} (h₁ : Frame e₁ e₂) (h₂ : Frame e₂ e₃) : Frame e₁ e₃ :=
  ⟨h₂.config.trans h₁.config, h₂.directory.trans h₁.directory, h₂.calendar.trans h₁.calendar,
    h₂.envelopes.trans h₁.envelopes, h₂.posted.trans h₁.posted,
    h₂.actualsFrom.trans h₁.actualsFrom, h₂.held.trans h₁.held⟩

end Engine

namespace Books

open Engine

/-- `x` changes the books only in the cache and by appending `ds` at most once. -/
def WritesOnce {α : Type} (ds : List EntryDraft) (x : BooksM (List Entry × α)) : Prop :=
  ∀ b, ∃ c l, ((x.run).run b).2 = { b with cache := c, ledger := l } ∧
    Appended ds b.ledger l ((x.run).run b).1

theorem Reads.writesOnce {α β : Type} {Q : α → Prop} {ds : List EntryDraft} {x : BooksM α}
    {f : α → BooksM (List Entry × β)} (hx : Reads Q x) (hf : ∀ a, Q a → WritesOnce ds (f a)) :
    WritesOnce ds (x >>= f) := by
  intro b
  obtain ⟨c, hc, hres⟩ := hx b
  rw [run_bind]
  rcases h : (x.run).run b with ⟨err | a, b'⟩
  · rw [h] at hc
    exact ⟨c, b.ledger, hc, .inl rfl⟩
  · rw [h] at hc hres
    simp only at hc
    obtain ⟨c', l, hc', hl⟩ := hf a hres b'
    subst hc
    exact ⟨c', l, hc', hl⟩

theorem writesOnce_throw_bind {α β : Type} {ds : List EntryDraft} {err : BudgetError}
    {f : α → BooksM (List Entry × β)} : WritesOnce ds (throw err >>= f) :=
  fun b => ⟨b.cache, b.ledger, rfl, .inl rfl⟩

/-- Appending a batch and then only reading, returning the rows written. -/
theorem writesOnce_write {α : Type} {ds : List EntryDraft} {y : List Entry → BooksM (List Entry × α)}
    (hy : ∀ es, Reads (fun r => r.1 = es) (y es)) : WritesOnce ds (write ds >>= y) := by
  intro b
  rw [run_bind, run_write]
  rcases happ : b.ledger.append ds with err | ⟨es, l⟩
  · exact ⟨b.cache, b.ledger, rfl, .inl rfl⟩
  · dsimp only
    obtain ⟨c, hc, hres⟩ := hy es { b with ledger := l }
    refine ⟨c, l, hc, ?_⟩
    revert hres
    rcases ((y es).run).run { b with ledger := l } with ⟨err | ⟨es', z⟩, b'⟩
    · intro hres; exact Or.inr ⟨hres, es, happ⟩
    · rintro rfl; exact happ

end Books

namespace Engine

open Books

/-- Write-once work run over the books under a set of scopes keeps the engine's frame and
    appends as the work does; a write conflict appends nothing. -/
theorem onBooks_withScopes {α : Type} {ds : List EntryDraft} {scopes : List BudgetScope}
    {work : BooksM (List Entry × α)} (hw : WritesOnce ds work) (e : Engine) :
    Frame e (((onBooks (withScopes scopes work)).run).run e).2 ∧
      Appended ds e.books.ledger (((onBooks (withScopes scopes work)).run).run e).2.books.ledger
        (((onBooks (withScopes scopes work)).run).run e).1 := by
  rw [run_onBooks]
  rcases h : e.books.locks.acquire scopes with ⟨blocked, t⟩ | t
  · rw [run_withScopes_conflict h]
    exact ⟨⟨rfl, rfl, rfl, rfl, rfl, rfl, (LockTable.acquire_error h).2.2.2⟩, .inl rfl⟩
  · rw [run_withScopes_free h]
    obtain ⟨c, l, hst, happ⟩ := hw { e.books with locks := t }
    rw [hst]
    exact ⟨⟨rfl, rfl, rfl, rfl, rfl, rfl, LockTable.release_acquire h _⟩, happ⟩

/-- The checked append keeps the frame and appends its batch at most once. -/
theorem appendChecked_appends (doc : DocumentRef) (ds : List EntryDraft) (p : Principal)
    (e : Engine) :
    Frame e (((appendChecked doc ds p).run).run e).2 ∧
      Appended ds e.books.ledger (((appendChecked doc ds p).run).run e).2.books.ledger
        (((appendChecked doc ds p).run).run e).1 := by
  unfold appendChecked
  rw [run_bind, run_demand]
  rcases ds.foldlM (addDemand e.config.controlByAccount) [] with a | needs
  · exact ⟨Frame.refl e, .inl rfl⟩
  · simp only [run_arith_ok, run_bind, run_get]
    refine onBooks_withScopes ?_ e
    refine (Reads.mapM (fun (n : BudgetScope × Decimal) => reads_check n.1 n.2) _).writesOnce
      fun checks _ => ?_
    split
    · exact writesOnce_throw_bind
    · exact writesOnce_write fun es => Reads.pure rfl

/-- The unchecked append keeps the frame and appends its batch at most once. -/
theorem appendUnchecked_appends (ds : List EntryDraft) (e : Engine) :
    Frame e (((appendUnchecked ds).run).run e).2 ∧
      Appended ds e.books.ledger (((appendUnchecked ds).run).run e).2.books.ledger
        (((appendUnchecked ds).run).run e).1 := by
  unfold appendUnchecked
  rw [run_bind, run_demand]
  rcases ds.foldlM (addDemand e.config.controlByAccount) [] with a | needs
  · exact ⟨Frame.refl e, .inl rfl⟩
  · simp only [run_arith_ok]
    refine onBooks_withScopes ?_ e
    refine (Reads.mapM reads_available _).writesOnce fun before _ => writesOnce_write fun es => ?_
    have hov : ∀ x : BudgetScope × Decimal, Reads (fun _ => True) (overrunOf x.1 x.2) :=
      fun x => reads_overrunOf x.1 x.2
    split
    · exact (Reads.forIn (fun s => (reads_invalidate s).bind fun _ _ => Reads.pure trivial) _).bind
        fun _ _ => (Reads.filterMapM hov _).bind fun _ _ => Reads.pure rfl
    · exact (Reads.filterMapM hov _).bind fun _ _ => Reads.pure rfl

/-- A held scope among the batch's fails the checked append with a write conflict before any
    check is made; only the lock slots change. -/
theorem run_appendChecked_conflict {doc : DocumentRef} {ds : List EntryDraft} {p : Principal}
    {e : Engine} {needs : List (BudgetScope × Decimal)} {blocked : BudgetScope} {t : LockTable}
    (hd : ds.foldlM (addDemand e.config.controlByAccount) [] = .ok needs)
    (ha : e.books.locks.acquire (needs.map (·.1)) = .error (blocked, t)) :
    ((appendChecked doc ds p).run).run e =
      (.error (.writeConflict blocked.toText), { e with books := { e.books with locks := t } }) := by
  unfold appendChecked
  rw [run_bind, run_demand, hd]
  simp only [run_arith_ok, run_bind, run_get, run_onBooks]
  rw [run_withScopes_conflict ha]

/-- The same for the unchecked append. -/
theorem run_appendUnchecked_conflict {ds : List EntryDraft} {e : Engine}
    {needs : List (BudgetScope × Decimal)} {blocked : BudgetScope} {t : LockTable}
    (hd : ds.foldlM (addDemand e.config.controlByAccount) [] = .ok needs)
    (ha : e.books.locks.acquire (needs.map (·.1)) = .error (blocked, t)) :
    ((appendUnchecked ds).run).run e =
      (.error (.writeConflict blocked.toText), { e with books := { e.books with locks := t } }) := by
  unfold appendUnchecked
  rw [run_bind, run_demand, hd]
  simp only [run_arith_ok, run_onBooks]
  rw [run_withScopes_conflict ha]

end Engine

end Encumbrance

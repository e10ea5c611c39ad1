import Mathlib
import Encumbrance.Proofs.Availability.Overshoot
import Encumbrance.Proofs.Control.Applied

/-! # Overruns report what the write did

    An applied event reports as overruns the scopes its batch left below zero and lower than
    they were. Two paths build that report. The checked append, which reserves, predicts it
    before writing: the scopes of the batch whose demand is positive and above what they have
    (`Books.shortfallsFor`). The unchecked append, which releases, consumes, reverses and
    restores, measures it: it reads what each scope of the batch has before and after the
    write, and keeps the scopes that went below zero and down (`Books.overrunsAmong`).

    Both paths tell the truth about the write (`Engine.ReportsOverruns`): the overruns name,
    in ascending scope order, exactly the scopes of keys the write left below zero and lower,
    each with the drop, the figure before and how far below zero it went. A reservation has no
    spending rows, so its write takes from every scope exactly the demand on it
    (`Books.availableVal_append`), and the prediction is the measurement
    (`Books.shortfallsFor_eq_overrunsAmong`). A scope holding no key of the batch keeps its
    figure (`Books.availableVal_append_of_not_mem`), so the batch's scopes are the only ones
    a write can overrun. A rejection only releases, which raises every figure, so it reports
    nothing and leaves nothing to report. In every state that requests reach from an empty
    cache, the cache agrees with the live figures, and every applied event reports its
    overruns truly (`Engine.overruns_reported`).
-/

namespace Encumbrance

open Decimal

/-! ## Section 1: The overruns a write shows -/

namespace Books

variable {b b' : Books}

theorem mem_overrunsAmong {scopes : List BudgetScope} {x : BudgetScope × ℚ × ℚ × ℚ} :
    x ∈ b.overrunsAmong b' scopes ↔ ∃ s ∈ scopes,
      (b'.availableVal s < 0 ∧ b'.availableVal s < b.availableVal s) ∧
        x = (s, b.availableVal s - b'.availableVal s, b.availableVal s, -b'.availableVal s) := by
  simp only [overrunsAmong, List.mem_filterMap, overrunVal]
  refine exists_congr fun s => and_congr_right fun _ => ?_
  split <;> simp_all [eq_comm]

/-- The scopes of the overruns are the scopes that went below zero and down, in their order. -/
theorem map_fst_overrunsAmong (scopes : List BudgetScope) :
    (b.overrunsAmong b' scopes).map Prod.fst =
      scopes.filter fun s => b'.availableVal s < 0 ∧ b'.availableVal s < b.availableVal s := by
  induction scopes with
  | nil => rfl
  | cons s scopes ih =>
    rw [overrunsAmong, List.filterMap_cons, ← overrunsAmong, List.filter_cons, overrunVal]
    by_cases h : b'.availableVal s < 0 ∧ b'.availableVal s < b.availableVal s
    · simp only [h, and_self, if_true, decide_true, List.map_cons, ih]
    · simp only [h, if_false, decide_false, Bool.false_eq_true, ih]

/-- Where a write takes from each scope a demand `D`, the scopes it leaves below zero and lower
    are those whose demand is positive and above what they had: the shortfalls the checked
    append predicts. -/
theorem overrunsAmong_of_drop (D : BudgetScope → ℚ)
    (hD : ∀ s, b'.availableVal s = b.availableVal s - D s) :
    ∀ scopes : List BudgetScope, b.overrunsAmong b' scopes =
      (scopes.filter fun S => 0 < D S ∧ b.availableVal S < D S).map
        fun S => (S, D S, b.availableVal S, D S - b.availableVal S)
  | [] => rfl
  | s :: scopes => by
    rw [overrunsAmong, List.filterMap_cons, ← overrunsAmong, overrunsAmong_of_drop D hD scopes,
      overrunVal, hD s, List.filter_cons]
    by_cases h : 0 < D s ∧ b.availableVal s < D s
    · have hdrop : b.availableVal s - D s < 0 ∧ b.availableVal s - D s < b.availableVal s :=
        ⟨by linarith [h.2], by linarith [h.1]⟩
      simp only [hdrop, h, and_self, if_true, decide_true, List.map_cons, sub_sub_cancel,
        neg_sub]
    · have hdrop : ¬(b.availableVal s - D s < 0 ∧ b.availableVal s - D s < b.availableVal s) :=
        fun h' => h ⟨by linarith [h'.2], by linarith [h'.1]⟩
      simp only [hdrop, h, if_false, decide_false, Bool.false_eq_true]

/-- A batch with no spending rows leaves as overruns exactly the shortfalls of its outflows. -/
theorem shortfallsFor_eq_overrunsAmong {ds : List EntryDraft} {es : List Entry}
    (henv : b'.envelopes = b.envelopes) (hposted : b'.posted = b.posted)
    (hfrom : b'.actualsFrom = b.actualsFrom) (happ : b.ledger.append ds = .ok (es, b'.ledger))
    (hspend : ∀ d ∈ ds, d.entryType ∉ consumedTypes) (byAccount : Bool) :
    b.shortfallsFor byAccount (outflows ds) =
      b.overrunsAmong b' (LockTable.ordered (ds.map fun d => BudgetScope.ofKey d.key byAccount)) := by
  rw [overrunsAmong_of_drop (scopeDemand (outflows ds))
    (availableVal_append henv hposted hfrom happ hspend)]
  simp only [shortfallsFor, outflows, List.map_map]
  rfl

/-- A write leaves the figure of every scope that holds none of its rows' keys. -/
theorem availableVal_append_of_not_mem {l : Ledger} {ds : List EntryDraft} {es : List Entry}
    (happ : b.ledger.append ds = .ok (es, l)) {byAccount : Bool} {k : DimensionKey}
    (hk : ∀ d ∈ ds, BudgetScope.ofKey d.key byAccount ≠ BudgetScope.ofKey k byAccount) :
    ({ b with ledger := l } : Books).availableVal (BudgetScope.ofKey k byAccount) =
      b.availableVal (BudgetScope.ofKey k byAccount) := by
  -- no row written lies in the scope, whatever types a total reads
  have hnone : ∀ types : List EntryType,
      es.filter ({ scope := some (BudgetScope.ofKey k byAccount), types } : LedgerQuery).admits =
        [] := by
    intro types
    refine List.filter_eq_nil_iff.2 fun x hx hadm => ?_
    have hd : x.draft ∈ ds := Ledger.append_drafts happ ▸ List.mem_map_of_mem hx
    have hin : (BudgetScope.ofKey k byAccount).contains x.key = true := by
      simp only [LedgerQuery.admits, Option.all_some, Bool.and_eq_true] at hadm
      exact hadm.1.2
    exact hk x.draft hd (by simpa using BudgetScope.contains_ofKey_iff.1 hin)
  unfold availableVal actualVal
  cases b.actualsFrom <;>
    simp only [Ledger.totalVal_append happ, hnone, List.map_nil, List.sum_nil, add_zero]

end Books

/-- The overruns an outcome reports: those of an applied event, none otherwise. -/
def Outcome.overruns : Outcome → List Shortfall
  | .applied u => u.overruns
  | _ => []

/-! ## Section 2: The report law -/

namespace Engine

/-- The overrun report of a write from `e` to `e'`: the overruns name, once each and in
    ascending scope order, exactly the scopes of keys that the write left below zero and lower
    than they were; each reports the drop as requested, the figure before as available, and
    how far below zero the scope went as shortfall. -/
structure ReportsOverruns (e e' : Engine) (overruns : List Shortfall) : Prop where
  ascending : (overruns.map (·.scope)).Pairwise fun a b => a.cmp b = .lt
  ofKeys : ∀ r ∈ overruns, ∃ k, r.scope = e.scopeOf k
  exactly : ∀ k, e.scopeOf k ∈ overruns.map (·.scope) ↔
    e'.books.availableVal (e.scopeOf k) < 0 ∧
      e'.books.availableVal (e.scopeOf k) < e.books.availableVal (e.scopeOf k)
  measured : ∀ r ∈ overruns,
    r.requested.val = e.books.availableVal r.scope - e'.books.availableVal r.scope ∧
      r.available.val = e.books.availableVal r.scope ∧
      r.shortfall.val = -e'.books.availableVal r.scope

/-- Scopes in lock order come strictly ascending. -/
theorem ordered_ascending (scopes : List BudgetScope) :
    (LockTable.ordered scopes).Pairwise fun a b => a.cmp b = .lt := by
  refine ((LockTable.ordered_pairwise scopes).and (LockTable.nodup_ordered scopes)).imp ?_
  rintro a b ⟨hle, hne⟩
  cases h : a.cmp b
  · rfl
  · exact absurd (Std.LawfulEqCmp.eq_of_compare h) hne
  · exact absurd h hle

variable {e e' : Engine}

/-- Overruns listing, among the scopes of a written batch in lock order, those the write shows
    are the overrun report of the write. -/
theorem reportsOverruns_of_vals {ds : List EntryDraft} {es : List Entry} {sh : List Shortfall}
    (hframe : Frame e e') (happ : e.books.ledger.append ds = .ok (es, e'.books.ledger))
    (hsh : sh.map Shortfall.vals = e.books.overrunsAmong e'.books
      (LockTable.ordered (ds.map fun d => e.scopeOf d.key))) :
    ReportsOverruns e e' sh := by
  have hscopes : sh.map (·.scope) = (LockTable.ordered (ds.map fun d => e.scopeOf d.key)).filter
      fun s => e'.books.availableVal s < 0 ∧ e'.books.availableVal s < e.books.availableVal s := by
    rw [← Books.map_fst_overrunsAmong, ← hsh, List.map_map]
    rfl
  -- only the batch's scopes move
  have hstill : ∀ k, e.scopeOf k ∉ ds.map (fun d => e.scopeOf d.key) →
      e'.books.availableVal (e.scopeOf k) = e.books.availableVal (e.scopeOf k) := by
    intro k hk
    rw [Books.availableVal_congr (b := { e.books with ledger := e'.books.ledger }) hframe.envelopes
      hframe.posted hframe.actualsFrom rfl]
    exact Books.availableVal_append_of_not_mem happ fun d hd hdk =>
      hk (List.mem_map.2 ⟨d, hd, hdk⟩)
  refine ⟨?_, fun r hr => ?_, fun k => ?_, fun r hr => ?_⟩
  · rw [hscopes]
    exact (ordered_ascending _).filter _
  · have hmem : r.scope ∈ sh.map (·.scope) := List.mem_map_of_mem hr
    rw [hscopes] at hmem
    obtain ⟨d, -, hd⟩ := List.mem_map.1 (LockTable.mem_ordered.1 (List.mem_of_mem_filter hmem))
    exact ⟨d.key, hd.symm⟩
  · rw [hscopes, List.mem_filter, LockTable.mem_ordered, decide_eq_true_iff]
    refine ⟨fun h => h.2, fun h => ⟨?_, h⟩⟩
    by_contra hk
    rw [hstill k hk] at h
    exact lt_irrefl _ h.2
  · obtain ⟨s, -, -, hs⟩ := Books.mem_overrunsAmong.1 (hsh ▸ List.mem_map_of_mem hr :
      r.vals ∈ e.books.overrunsAmong e'.books _)
    simp only [Shortfall.vals, Prod.mk.injEq] at hs
    obtain ⟨rfl, hq, ha, hsf⟩ := hs
    exact ⟨hq, ha, hsf⟩

/-- A report that names no scope is true when the write lowered no scope below zero. -/
theorem reportsOverruns_nil (h : ∀ k, ¬(e'.books.availableVal (e.scopeOf k) < 0 ∧
    e'.books.availableVal (e.scopeOf k) < e.books.availableVal (e.scopeOf k))) :
    ReportsOverruns e e' [] :=
  ⟨List.Pairwise.nil, fun _ h => absurd h List.not_mem_nil, fun k => by simpa using h k,
    fun _ h => absurd h List.not_mem_nil⟩

/-- A true report is empty when the write lowered no scope below zero. -/
theorem ReportsOverruns.eq_nil {sh : List Shortfall} (hr : ReportsOverruns e e' sh)
    (h : ∀ k, ¬(e'.books.availableVal (e.scopeOf k) < 0 ∧
      e'.books.availableVal (e.scopeOf k) < e.books.availableVal (e.scopeOf k))) : sh = [] := by
  refine List.eq_nil_iff_forall_not_mem.2 fun r hmem => ?_
  obtain ⟨k, hk⟩ := hr.ofKeys r hmem
  exact h k ((hr.exactly k).1 (hk ▸ List.mem_map_of_mem hmem))

/-! ## Section 3: Both append paths report truly -/

/-- What a step that answered through `k` ran to: the answer it passed on. -/
theorem run_map_ok {α β : Type} {k : α → β} {x : EngineM α} {b : β}
    (h : ((k <$> x).run).run e = (.ok b, e')) : ∃ a, (x.run).run e = (.ok a, e') ∧ b = k a := by
  rw [run_map] at h
  rcases hx : (x.run).run e with ⟨_ | a, e₁⟩ <;> rw [hx] at h
  · cases h
  · obtain ⟨h₁, rfl⟩ := Prod.mk.inj h
    cases h₁
    exact ⟨a, rfl, rfl⟩

variable {S : ℕ}

/-- A checked append of a batch without spending rows that answered, from an agreeing cache
    and with room in the books after it, reports its overruns truly, and reports none for a
    principal without the overrun role. -/
theorem checked_reports {α : Type} {doc : DocumentRef} {ds : List EntryDraft} {p : Principal}
    {k : List Entry × List Shortfall → α} {a : α} (hagree : e.CacheAgrees)
    (hspend : ∀ d ∈ ds, d.entryType ∉ consumedTypes)
    (h : ((k <$> appendChecked doc ds p).run).run e = (.ok a, e'))
    (hroom : Room S e'.books.amounts) :
    ∃ es sh, a = k (es, sh) ∧ ReportsOverruns e e' sh ∧
      (p.hasRole e.config.overrunRole = false → sh = []) := by
  obtain ⟨⟨es, sh⟩, hrun, rfl⟩ := run_map_ok h
  obtain ⟨hframe, happ⟩ := (appendStep_checked doc ds p).appends e
  rw [hrun] at hframe happ
  change Frame e e' at hframe
  change e.books.ledger.append ds = .ok (es, e'.books.ledger) at happ
  obtain ⟨hfree, hvalid, hroomB⟩ := (appendStep_checked doc ds p).written_from
    (by rw [hrun]; exact happ) (by rw [hrun]; exact hroom)
  have hgate := @appendChecked_gated doc ds p e S hagree hfree hvalid hroomB
  rw [hrun] at hgate
  -- a refusal would have been an error, so the batch passed the gate
  have hpass : e.books.shortfallsFor e.config.controlByAccount (outflows ds) = [] ∨
      (!p.hasRole e.config.overrunRole) = false := by
    by_contra hno
    obtain ⟨hL, hrefuse⟩ := not_or.1 hno
    obtain ⟨⟨sh', hsh', -⟩, -⟩ := hgate.refused hL (by simpa using hrefuse)
    cases hsh'
  obtain ⟨es', sh', hanswer, hL, -⟩ := hgate.passed hpass
  cases hanswer
  have hvals : sh.map Shortfall.vals = e.books.overrunsAmong e'.books
      (LockTable.ordered (ds.map fun d => e.scopeOf d.key)) := by
    rw [hL, Books.shortfallsFor_eq_overrunsAmong hframe.envelopes hframe.posted hframe.actualsFrom
      happ hspend]
    rfl
  refine ⟨es, sh, rfl, reportsOverruns_of_vals hframe happ hvals, fun hrole => ?_⟩
  -- without the role there were no shortfalls to pass with
  rcases hpass with hnil | hrefuse
  · rw [hnil] at hL
    exact List.map_eq_nil_iff.1 hL
  · simp [hrole] at hrefuse

/-- An unchecked append that answered, from an agreeing cache and with room in the books after
    it, reports its overruns truly. -/
theorem unchecked_reports {α : Type} {ds : List EntryDraft} {k : List Entry × List Shortfall → α}
    {a : α} (hagree : e.CacheAgrees) (h : ((k <$> appendUnchecked ds).run).run e = (.ok a, e'))
    (hroom : Room S e'.books.amounts) :
    ∃ es sh, a = k (es, sh) ∧ e.books.ledger.append ds = .ok (es, e'.books.ledger) ∧
      Frame e e' ∧ ReportsOverruns e e' sh := by
  obtain ⟨⟨es, sh⟩, hrun, rfl⟩ := run_map_ok h
  obtain ⟨hframe, happ⟩ := (appendStep_unchecked ds).appends e
  rw [hrun] at hframe happ
  change Frame e e' at hframe
  change e.books.ledger.append ds = .ok (es, e'.books.ledger) at happ
  obtain ⟨hfree, hvalid, hroomB⟩ := (appendStep_unchecked ds).written_from
    (by rw [hrun]; exact happ) (by rw [hrun]; exact hroom)
  obtain ⟨es₁, l, happ₁, sh₁, hrun₁, hvals⟩ := appendUnchecked_reports hagree hfree hvalid hroomB
  rw [hrun] at hrun₁
  cases hrun₁
  -- the same append wrote the same ledger
  rw [happ] at happ₁
  cases happ₁
  have hafter : ∀ s, ({ e.books with ledger := e'.books.ledger } : Books).availableVal s =
      e'.books.availableVal s := fun s =>
    (Books.availableVal_congr (b := { e.books with ledger := e'.books.ledger }) hframe.envelopes
      hframe.posted hframe.actualsFrom rfl s).symm
  simp only [Books.overrunsAmong, Books.overrunVal, hafter] at hvals
  exact ⟨es, sh, rfl, happ, hframe, reportsOverruns_of_vals hframe happ hvals⟩

/-! ## Section 4: Applied events -/

/-- Every applied lifecycle event, from an engine whose cache agrees with the live figures and
    with room in the books after it, reports its overruns truly; reaching the locking state
    reports none for a principal without the overrun role. -/
theorem handle_reports (hagree : e.CacheAgrees) {ev : LifecycleEvent} {u : StatusUpdate}
    (happ : ((handle ev).run).run e = (.ok (.applied u), e')) (hroom : Room S e'.books.amounts) :
    ReportsOverruns e e' u.overruns ∧
      ∀ d c, ev = .reachedTargetState d c →
        c.principal.hasRole e.config.overrunRole = false → u.overruns = [] := by
  cases ev with
  | reachedTargetState document context =>
    change ((onReachTargetState document context).run).run e = _ at happ
    rw [run_onReachTargetState] at happ
    rcases reachPlan_cases e document context with
      ⟨r, hr, hna⟩ | ⟨ps, slices, hen, hst, hps, hun, hsl, hne⟩
    · rw [hr, Plan.run_exec_stop] at happ
      exact absurd (Prod.mk.inj happ).1 (hna u)
    rw [reachPlan_eq_checked hen hst hps hun hsl hne, Plan.run_exec_checked] at happ
    -- a reservation has no spending rows
    have hspend : ∀ d ∈ slices.map (fun s => EntryDraft.make s.key .reservation s.amount
        document.docRef document.postingDate), d.entryType ∉ consumedTypes := by
      intro d hd
      obtain ⟨s, -, rfl⟩ := List.mem_map.1 hd
      simp [consumedTypes]
    obtain ⟨es, sh, hu, hreport, hnone⟩ := checked_reports hagree hspend happ hroom
    cases hu
    refine ⟨hreport, fun d c hev hrole => ?_⟩
    cases hev
    exact hnone hrole
  | secondarySubmitted document secondary context =>
    change ((onSecondarySubmitted document secondary context).run).run e = _ at happ
    rw [run_onSecondarySubmitted] at happ
    rcases submitPlan_cases e document secondary context with
      ⟨r, hr, hna⟩ | ⟨slices, out, hen, hcons, hsl, hne, hout⟩
    · rw [hr, Plan.run_exec_stop] at happ
      exact absurd (Prod.mk.inj happ).1 (hna u)
    rw [submitPlan_eq_unchecked hen hcons hsl hne hout, Plan.run_exec_unchecked] at happ
    obtain ⟨es, sh, hu, -, -, hreport⟩ := unchecked_reports hagree happ hroom
    cases hu
    exact ⟨hreport, fun _ _ hev => by cases hev⟩
  | rejectedOrReopened document context =>
    change ((onRejectedOrReopened document).run).run e = _ at happ
    rw [run_onRejectedOrReopened] at happ
    rcases rejectPlan_cases e document with ⟨r, hr, hna⟩ | ⟨out, hen, hout, hne⟩
    · rw [hr, Plan.run_exec_stop] at happ
      exact absurd (Prod.mk.inj happ).1 (hna u)
    rw [rejectPlan_eq_unchecked hen hout hne, Plan.run_exec_unchecked] at happ
    obtain ⟨es, sh, hu, happend, hframe, -⟩ := unchecked_reports hagree happ hroom
    cases hu
    -- releases give budget back: no figure goes down
    have hrise : ∀ k, ¬(e'.books.availableVal (e.scopeOf k) < 0 ∧
        e'.books.availableVal (e.scopeOf k) < e.books.availableVal (e.scopeOf k)) := fun k hk =>
      (not_lt.2 (Books.availableVal_le_of_giving hframe.envelopes hframe.posted
        hframe.actualsFrom happend (fun d hd => by
          obtain ⟨q, -, rfl⟩ := List.mem_map.1 hd
          exact .inl rfl) (e.scopeOf k))) hk.2
    exact ⟨reportsOverruns_nil hrise, fun _ _ hev => by cases hev⟩
  | secondaryCancelled document secondary context =>
    change ((onSecondaryCancelled document secondary).run).run e = _ at happ
    rw [run_onSecondaryCancelled] at happ
    rcases cancelPlan_cases e document secondary with
      ⟨r, hr, hna⟩ | ⟨reversed, others, restore, hen, hrev, hne, hothers, hrestore⟩
    · rw [hr, Plan.run_exec_stop] at happ
      exact absurd (Prod.mk.inj happ).1 (hna u)
    rw [cancelPlan_eq_unchecked hen hrev hne hothers hrestore, Plan.run_exec_unchecked] at happ
    obtain ⟨es, sh, hu, -, -, hreport⟩ := unchecked_reports hagree happ hroom
    cases hu
    exact ⟨hreport, fun _ _ hev => by cases hev⟩

/-! ## Section 5: Along runs -/

/-- **Overruns are reported truly.** In every state a run of requests reaches from an engine
    with an empty cache, a lifecycle event that applies reports as overruns, in ascending scope
    order, exactly the scopes of keys it left below zero and lower than they were, each with
    the drop as requested, the figure before as available and how far below zero it went as
    shortfall, whether the append that wrote it was checked or not; reaching the locking state
    reports none for a principal without the overrun role. Exact arithmetic is room in the
    books after the event. -/
theorem overruns_reported {e₀ : Engine} (hfresh : e₀.books.cache.slots = []) (cs : List Request)
    {ev : LifecycleEvent} {u : StatusUpdate} {e' : Engine}
    (happ : ((handle ev).run).run (Request.runAll cs e₀) = (.ok (.applied u), e'))
    (hroom : Room S e'.books.amounts) :
    ReportsOverruns (Request.runAll cs e₀) e' u.overruns ∧
      ∀ d c, ev = .reachedTargetState d c →
        c.principal.hasRole (Request.runAll cs e₀).config.overrunRole = false →
          u.overruns = [] :=
  -- the cache agrees with the live figures all along the run
  handle_reports (Request.runAll_cacheAgrees cs (cacheAgrees_of_empty hfresh)) happ hroom

/-- An order reserves the one cent its key was given, and its invoice then consumes two: the
    invoice reports the key's scope overrun, short by the cent it went below zero. -/
theorem invoice_over_reservation_reports_overrun :
    ∃ u e', ((handle (.secondarySubmitted
          { docRef := ⟨"Purchase Order", "PO-1"⟩, company := some "ACME",
            fiscalPeriod := some "FY2026", costCenter := "CC-OPS", postingDate := ⟨2026, 1, 1⟩,
            workflowState := "Approved", lines := [⟨"6100", Decimal.cent⟩] }
          { docRef := ⟨"Purchase Invoice", "PINV-1"⟩, postingDate := ⟨2026, 1, 2⟩,
            lines := [⟨"6100", Decimal.cent⟩, ⟨"6100", Decimal.cent⟩] } {})).run).run
        (Request.runAll [.supplement ⟨"ACME", "FY2026", "CC-OPS", "6100", none, none⟩ Decimal.cent
            ⟨"Budget", "B-1"⟩ ⟨2026, 1, 1⟩,
          .event (.reachedTargetState
            { docRef := ⟨"Purchase Order", "PO-1"⟩, company := some "ACME",
              fiscalPeriod := some "FY2026", costCenter := "CC-OPS", postingDate := ⟨2026, 1, 1⟩,
              workflowState := "Approved", lines := [⟨"6100", Decimal.cent⟩] } {})] {}) =
        (.ok (.applied u), e') ∧
      Decimal.Room 2 e'.books.amounts ∧ u.overruns.map (·.shortfall.toText) = ["0.01"] ∧
      ReportsOverruns (Request.runAll [.supplement ⟨"ACME", "FY2026", "CC-OPS", "6100", none, none⟩
          Decimal.cent ⟨"Budget", "B-1"⟩ ⟨2026, 1, 1⟩,
        .event (.reachedTargetState
          { docRef := ⟨"Purchase Order", "PO-1"⟩, company := some "ACME",
            fiscalPeriod := some "FY2026", costCenter := "CC-OPS", postingDate := ⟨2026, 1, 1⟩,
            workflowState := "Approved", lines := [⟨"6100", Decimal.cent⟩] } {})] {})
        e' u.overruns := by
  -- the run is evaluated once, by the kernel, and its result named
  generalize hrun : ((handle _).run).run _ = r
  have hshort : r.1.toOption.map (·.overruns.map (·.shortfall.toText)) = some ["0.01"] := by
    rw [← hrun]
    decide +kernel
  have hroom : Decimal.Room 2 r.2.books.amounts := by
    rw [← hrun]
    exact ⟨by decide, by decide +kernel, by decide +kernel⟩
  rcases r with ⟨_ | _ | _ | _, e'⟩ <;> simp [Except.toOption, Outcome.overruns] at hshort
  obtain ⟨r, hone, htext⟩ := hshort
  exact ⟨_, e', rfl, hroom, by simp [hone, htext], (overruns_reported rfl _ hrun hroom).1⟩

end Engine

end Encumbrance

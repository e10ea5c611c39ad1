import Mathlib
import Encumbrance.Control.Dispatch
import Encumbrance.Proofs.Control.Locality

/-! # Dispatch is serializable

    Workers share one engine. Every event is sent to its document's shard, and the worker of a
    shard takes its jobs one at a time, first come first served; how the workers' turns
    interleave is up to the scheduler (`Pool.run`). Two facts hold of every interleaving:

    * the events of a document are handled in the order they were sent, since they all wait on
      one queue (`Pool.Handled.prefix_doc`);
    * when the events of different documents touch disjoint scopes along the one-worker run
      (`Dispatcher.Apart`), every reply is the one the one-worker run gives, up to the
      identifiers and clock readings of the rows written, and once every queue is drained every
      key reads the standing the one-worker run leaves.

    The second rests on `Engine.Alike`: for each document `D`, the shared engine reads like the
    one-worker engine on `D`'s history and on the scopes that no other document touches, as long
    as the two have handled the same events of `D`. An event of `D` keeps that
    (`Engine.Alike.handle`) and so does an event of another document (`Engine.alike_handle_other`).
-/

namespace Encumbrance

open Dispatcher

/-! ## Section 1: Dispatch is handling -/

namespace Dispatcher

variable {task : Nat} {ev : LifecycleEvent}

/-- Dispatch leaves the engine as handling does: a failure only changes how it is reported. -/
theorem run_dispatch_state (task : Nat) (ev : LifecycleEvent) (e : Engine) :
    (((dispatch task ev).run).run e).2 = (((Engine.handle ev).run).run e).2 := by
  unfold dispatch
  rw [run_tryCatch]
  rcases ((Engine.handle ev).run).run e with ⟨err | o, e₁⟩
  · cases err <;> rfl
  · rfl

/-- Dispatch reports alike what handling answers alike, up to the rows' identifiers. -/
theorem dispatch_erase_congr {e e' : Engine}
    (h : (((Engine.handle ev).run).run e').1.map Outcome.erase =
      (((Engine.handle ev).run).run e).1.map Outcome.erase) :
    (((dispatch task ev).run).run e').1.map Outcome.erase =
      (((dispatch task ev).run).run e).1.map Outcome.erase := by
  unfold dispatch
  rw [run_tryCatch, run_tryCatch]
  rcases hb : ((Engine.handle ev).run).run e with ⟨err | o, e₁⟩ <;>
    rcases hb' : ((Engine.handle ev).run).run e' with ⟨err' | o', e₁'⟩ <;>
    rw [hb, hb'] at h <;>
    simp only [Except.map, reduceCtorEq, Except.error.injEq, Except.ok.injEq] at h
  · subst err'
    cases err <;> rfl
  · exact congrArg Except.ok h

end Dispatcher

/-! ## Section 2: Queues -/

namespace Pool

/-- A pool with nothing queued and nothing replied. -/
def idle (e : Engine) : Pool := ⟨e, fun _ => [], []⟩

/-- Handles a job on the shared engine and records its reply, the queues left as they are. -/
def serve (p : Pool) (job : Job) : Pool :=
  { p with engine := (((dispatch job.task job.event).run).run p.engine).2,
           replies := p.replies ++ [(job.task, (((dispatch job.task job.event).run).run p.engine).1)] }

theorem work_nil {p : Pool} {j : Nat} (h : p.queues j = []) : p.work j = p := by
  unfold work
  rw [h]

/-- A worker with a job waiting serves it and takes it off its queue. -/
theorem work_cons {p : Pool} {j : Nat} {job : Job} {rest : List Job} (h : p.queues j = job :: rest) :
    p.work j = ⟨(p.serve job).engine, fun i => if i = j then rest else p.queues i, (p.serve job).replies⟩ := by
  unfold work
  rw [h]
  rfl

theorem run_cons (p : Pool) (j : Nat) (schedule : List Nat) : p.run (j :: schedule) = (p.work j).run schedule :=
  rfl

/-- Serving reads the engine and the replies only. -/
theorem foldl_serve_with (q : Nat → List Job) :
    ∀ (js : List Job) (p : Pool),
      js.foldl serve ⟨p.engine, q, p.replies⟩ = ⟨(js.foldl serve p).engine, q, (js.foldl serve p).replies⟩
  | [], _ => rfl
  | job :: js, p => foldl_serve_with q js (p.serve job)

/-- Serving adds the jobs' tasks to the replies, in the order served. -/
theorem foldl_serve_tasks :
    ∀ (js : List Job) (p : Pool), (js.foldl serve p).replies.map Prod.fst = p.replies.map Prod.fst ++ js.map Job.task
  | [], _ => by simp
  | job :: js, p => by
    rw [List.foldl_cons, foldl_serve_tasks js (p.serve job)]
    simp [serve]

/-- Serving only adds replies. -/
theorem replies_prefix_foldl_serve :
    ∀ (js : List Job) (p : Pool), p.replies <+: (js.foldl serve p).replies
  | [], _ => List.prefix_refl _
  | job :: js, p => (List.prefix_append _ _).trans (replies_prefix_foldl_serve js (p.serve job))

/-- A worker whose queue starts with some jobs serves exactly those in as many turns. -/
theorem run_replicate {j : Nat} {rest : List Job} :
    ∀ {js : List Job} {p : Pool}, p.queues j = js ++ rest →
      p.run (List.replicate js.length j) = ⟨(js.foldl serve p).engine,
        fun i => if i = j then rest else p.queues i, (js.foldl serve p).replies⟩
  | [], p, h => by
    have hq : (fun i => if i = j then rest else p.queues i) = p.queues :=
      funext fun i => by split <;> simp_all
    simp only [List.length_nil, List.replicate_zero, List.foldl_nil, hq]
    rfl
  | job :: js, p, h => by
    rw [List.cons_append] at h
    rw [List.length_cons, List.replicate_succ, run_cons, work_cons h]
    -- the worker's queue is now the rest of the jobs followed by `rest`
    have h₁ : (⟨(p.serve job).engine, fun i => if i = j then js ++ rest else p.queues i,
        (p.serve job).replies⟩ : Pool).queues j = js ++ rest := by simp
    rw [run_replicate h₁, foldl_serve_with, List.foldl_cons]
    congr 1
    funext i
    split <;> simp_all

end Pool

/-! ### The jobs handled so far -/

section Handled

variable {w : Dispatcher} {events : List LifecycleEvent} {e : Engine}

/-- The pool after some turns: the jobs handled so far, in the order handled, account for its
    engine and replies, and each shard's queue holds what was sent there and is not yet handled. -/
structure Pool.Handled (w : Dispatcher) (events : List LifecycleEvent) (e : Engine) (p : Pool)
    (done : List Job) : Prop where
  engine : p.engine = (done.foldl Pool.serve (Pool.idle e)).engine
  replies : p.replies = (done.foldl Pool.serve (Pool.idle e)).replies
  queues : ∀ j, done.filter (fun job => w.shardFor job.event.document.docRef == j) ++ p.queues j =
    (jobs events).filter fun job => w.shardFor job.event.document.docRef == j

theorem Pool.handled_submitAll : (w.submitAll events e).Handled w events e [] :=
  ⟨rfl, rfl, fun _ => rfl⟩

/-- A turn serves the first job of its shard's queue, if there is one. -/
theorem Pool.Handled.work {p : Pool} {done : List Job} (h : p.Handled w events e done) (j : Nat) :
    ∃ done', (p.work j).Handled w events e done' := by
  cases hq : p.queues j with
  | nil =>
    rw [Pool.work_nil hq]
    exact ⟨done, h⟩
  | cons job rest =>
    -- the job was sent to shard `j`
    have hjob : w.shardFor job.event.document.docRef = j := by
      have hmem : job ∈ (jobs events).filter fun job => w.shardFor job.event.document.docRef == j := by
        rw [← h.queues j, hq]
        simp
      simpa using (List.mem_filter.1 hmem).2
    refine ⟨done ++ [job], ?_, ?_, fun i => ?_⟩
    · rw [Pool.work_cons hq, List.foldl_append, List.foldl_cons, List.foldl_nil]
      simp only [Pool.serve, h.engine]
    · rw [Pool.work_cons hq, List.foldl_append, List.foldl_cons, List.foldl_nil]
      simp only [Pool.serve, h.engine, h.replies]
    · rw [Pool.work_cons hq, ← h.queues i, List.filter_append]
      by_cases hij : i = j
      · subst hij
        simp [hq, hjob]
      · simp [hij, Ne.symm hij, hjob]

/-- Whatever the schedule, the pool is accounted for by the jobs handled. -/
theorem Pool.Handled.run : ∀ (schedule : List Nat) {p : Pool} {done : List Job},
    p.Handled w events e done → ∃ done', (p.run schedule).Handled w events e done'
  | [], _, done, h => ⟨done, h⟩
  | j :: schedule, _, _, h => by
    obtain ⟨done', h'⟩ := h.work j
    exact Pool.Handled.run schedule h'

/-- **Per-document order.** The events of a document are handled in the order they were sent:
    those handled are the first ones sent. -/
theorem Pool.Handled.prefix_doc {p : Pool} {done : List Job} (h : p.Handled w events e done)
    (D : DocumentRef) :
    done.filter (·.event.document.docRef = D) <+: (jobs events).filter (·.event.document.docRef = D) := by
  -- all of `D`'s events wait on the one shard of `D`
  have hq := congrArg (List.filter (·.event.document.docRef = D)) (h.queues (w.shardFor D))
  have hsub : ∀ l : List Job, (l.filter fun job => w.shardFor job.event.document.docRef == w.shardFor D).filter
      (·.event.document.docRef = D) = l.filter (·.event.document.docRef = D) := fun l => by
    rw [List.filter_filter]
    refine List.filter_congr fun job _ => ?_
    by_cases hd : job.event.document.docRef = D <;> simp [hd]
  rw [List.filter_append, hsub, hsub] at hq
  exact ⟨_, hq⟩

/-- Every job handled was sent. -/
theorem Pool.Handled.mem {p : Pool} {done : List Job} (h : p.Handled w events e done) {job : Job}
    (hjob : job ∈ done) : job ∈ jobs events := by
  have hmem : job ∈ done.filter (·.event.document.docRef = job.event.document.docRef) :=
    List.mem_filter.2 ⟨hjob, by simp⟩
  exact List.mem_of_mem_filter ((h.prefix_doc _).subset hmem)

/-- Once every queue is drained, every job sent has been handled, each once. -/
theorem Pool.Handled.perm_of_drained {p : Pool} {done : List Job} (h : p.Handled w events e done)
    (hq : ∀ j, p.queues j = []) : done.Perm (jobs events) := by
  classical
  refine List.perm_iff_count.2 fun job => ?_
  have hj := h.queues (w.shardFor job.event.document.docRef)
  rw [hq, List.append_nil] at hj
  rw [← List.count_filter (p := fun job' => w.shardFor job'.event.document.docRef ==
      w.shardFor job.event.document.docRef) (by simp), hj, List.count_filter (by simp)]

end Handled

/-! ## Section 3: The one-worker run -/

namespace Dispatcher

theorem getElem?_jobs (events : List LifecycleEvent) (i : Nat) :
    (jobs events)[i]? = events[i]?.map fun ev => ⟨i, ev⟩ := by
  simp [jobs, Function.comp_def]

theorem mem_jobs {events : List LifecycleEvent} {job : Job} :
    job ∈ jobs events ↔ ∃ i ev, events[i]? = some ev ∧ job = ⟨i, ev⟩ := by
  rw [List.mem_iff_getElem?]
  constructor
  · rintro ⟨i, hi⟩
    rw [getElem?_jobs, Option.map_eq_some_iff] at hi
    obtain ⟨ev, hev, rfl⟩ := hi
    exact ⟨i, ev, hev, rfl⟩
  · rintro ⟨i, ev, hev, rfl⟩
    exact ⟨i, by rw [getElem?_jobs, hev]; rfl⟩

theorem map_task_jobs (events : List LifecycleEvent) : (jobs events).map Job.task = List.range events.length := by
  simp [jobs, List.map_map, Function.comp_def, List.range_eq_range']

theorem nodup_jobs (events : List LifecycleEvent) : (jobs events).Nodup :=
  List.Nodup.of_map Job.task (map_task_jobs events ▸ List.nodup_range)

theorem jobs_take (events : List LifecycleEvent) (k : Nat) : jobs (events.take k) = (jobs events).take k := by
  apply List.ext_getElem?
  intro i
  rw [getElem?_jobs, List.getElem?_take, List.getElem?_take, getElem?_jobs]
  split <;> simp

/-- One worker handles the events one after another, in the order they were sent. -/
theorem serial_eq (events : List LifecycleEvent) (e : Engine) :
    serial events e = ⟨((jobs events).foldl Pool.serve (Pool.idle e)).engine, fun _ => [],
      ((jobs events).foldl Pool.serve (Pool.idle e)).replies⟩ := by
  -- with one shard, every job waits on shard 0
  have hq : ((spawn 1).submitAll events e).queues 0 = jobs events ++ [] := by
    simp [submitAll, shardFor, spawn, Nat.mod_one]
  have hlen : events.length = (jobs events).length := by simp [jobs]
  have hp : (spawn 1).submitAll events e =
      ⟨(Pool.idle e).engine, ((spawn 1).submitAll events e).queues, (Pool.idle e).replies⟩ := rfl
  unfold serial
  rw [hlen, Pool.run_replicate hq, hp, Pool.foldl_serve_with]
  congr 1
  funext i
  split
  · rfl
  · rename_i hi
    simp [submitAll, shardFor, spawn, Nat.mod_one, Ne.symm hi]

/-- The engine one worker has reached when it comes to event `k`. -/
def serialBefore (events : List LifecycleEvent) (e : Engine) (k : Nat) : Engine :=
  (serial (events.take k) e).engine

theorem serialBefore_eq (events : List LifecycleEvent) (e : Engine) (k : Nat) :
    serialBefore events e k = (((jobs events).take k).foldl Pool.serve (Pool.idle e)).engine := by
  rw [serialBefore, serial_eq, jobs_take]

theorem serialBefore_zero (events : List LifecycleEvent) (e : Engine) : serialBefore events e 0 = e := by
  rw [serialBefore_eq]
  rfl

/-- One worker comes to event `i + 1` by handling event `i`. -/
theorem serialBefore_succ {events : List LifecycleEvent} {e : Engine} {i : Nat} {ev : LifecycleEvent}
    (h : events[i]? = some ev) :
    serialBefore events e (i + 1) = (((Engine.handle ev).run).run (serialBefore events e i)).2 := by
  rw [serialBefore_eq, serialBefore_eq, List.take_add_one, getElem?_jobs, h, List.foldl_append]
  simp only [Option.map_some, Option.toList_some, List.foldl_cons, List.foldl_nil, Pool.serve,
    run_dispatch_state]

/-- Past the last event the run stays where it ended. -/
theorem serialBefore_of_length_le {events : List LifecycleEvent} {e : Engine} {k : Nat}
    (h : events.length ≤ k) : serialBefore events e (k + 1) = serialBefore events e k := by
  unfold serialBefore
  rw [List.take_of_length_le (by omega), List.take_of_length_le h]

theorem serialBefore_length (events : List LifecycleEvent) (e : Engine) :
    serialBefore events e events.length = (serial events e).engine := by
  rw [serialBefore, List.take_length]

/-- What one worker replies to event `i`: the reply it gives from where it has come to. -/
theorem mem_serial_replies {events : List LifecycleEvent} {e : Engine} {i : Nat} {ev : LifecycleEvent}
    (h : events[i]? = some ev) :
    (i, (((dispatch i ev).run).run (serialBefore events e i)).1) ∈ (serial events e).replies := by
  rw [serial_eq]
  dsimp only
  rw [← List.take_append_drop (i + 1) (jobs events), List.foldl_append]
  refine (Pool.replies_prefix_foldl_serve _ _).subset ?_
  rw [List.take_add_one, getElem?_jobs, h, List.foldl_append, serialBefore_eq]
  simp [Pool.serve]

/-- What handling preserves holds all along the one-worker run. -/
theorem serialBefore_induction (P : Engine → Prop)
    (hstep : ∀ e ev, P e → P (((Engine.handle ev).run).run e).2) (events : List LifecycleEvent)
    {e : Engine} (he : P e) : ∀ k, P (serialBefore events e k)
  | 0 => by rw [serialBefore_zero]; exact he
  | k + 1 => by
    rcases hk : events[k]? with _ | ev
    · rw [serialBefore_of_length_le (List.getElem?_eq_none_iff.1 hk)]
      exact serialBefore_induction P hstep events he k
    · rw [serialBefore_succ hk]
      exact hstep _ _ (serialBefore_induction P hstep events he k)

end Dispatcher

/-! ### What handling keeps -/

namespace Engine

theorem handle_config (ev : LifecycleEvent) (e : Engine) : (((handle ev).run).run e).2.config = e.config := by
  rw [run_handle]
  exact (frame_exec _ e).config

theorem handle_batchesFresh (ev : LifecycleEvent) {e : Engine} (h : e.books.ledger.BatchesFresh) :
    (((handle ev).run).run e).2.books.ledger.BatchesFresh := by
  rw [← step_event]
  exact Request.step_batchesFresh _ h

theorem handle_cacheAgrees (ev : LifecycleEvent) {e : Engine} (h : e.CacheAgrees) :
    (((handle ev).run).run e).2.CacheAgrees := by
  rw [← step_event]
  exact Request.step_cacheAgrees _ h

/-- The scopes an event reads and writes from an engine: those of the rows its plan would write,
    whose standing it checks first. -/
def touches (e : Engine) (ev : LifecycleEvent) : List BudgetScope :=
  ((e.eventPlan ev).drafts?.getD []).map fun d => e.scopeOf d.key

theorem scopeOf_mem_touches {e : Engine} {ev : LifecycleEvent} {ds : List EntryDraft} {d : EntryDraft}
    (h : (e.eventPlan ev).drafts? = some ds) (hd : d ∈ ds) : e.scopeOf d.key ∈ e.touches ev := by
  simp only [touches, h, Option.getD_some]
  exact List.mem_map_of_mem hd

end Engine

/-! ## Section 4: Documents apart -/

/-- In a list without repeats, what stands before an element is determined by the element. -/
theorem eq_of_append_singleton_prefix {α : Type} {A B C : List α} {x : α} (h : A ++ [x] <+: B ++ x :: C)
    (hnd : (B ++ x :: C).Nodup) : A = B := by
  have hA : A <+: B ++ x :: C := (List.prefix_append A [x]).trans h
  have hB : B <+: B ++ x :: C := List.prefix_append _ _
  -- the element stands right after each of them
  have hxA : (B ++ x :: C)[A.length]? = some x := by
    obtain ⟨t, ht⟩ := h
    rw [← ht]
    simp
  have hxB : (B ++ x :: C)[B.length]? = some x := by simp
  obtain ⟨hA', hxA'⟩ := List.getElem?_eq_some_iff.1 hxA
  obtain ⟨hB', hxB'⟩ := List.getElem?_eq_some_iff.1 hxB
  have hlen : A.length = B.length := hnd.getElem_inj_iff.1 (hxA'.trans hxB'.symm)
  calc A = (B ++ x :: C).take A.length := List.prefix_iff_eq_take.1 hA
    _ = (B ++ x :: C).take B.length := by rw [hlen]
    _ = B := (List.prefix_iff_eq_take.1 hB).symm

namespace Dispatcher

variable {events : List LifecycleEvent} {e₀ : Engine}

/-- The scopes a job touches along the one-worker run. -/
def touched (events : List LifecycleEvent) (e₀ : Engine) (job : Job) : List BudgetScope :=
  (serialBefore events e₀ job.task).touches job.event

/-- The events of different documents touch disjoint scopes along the one-worker run. -/
def Apart (events : List LifecycleEvent) (e₀ : Engine) : Prop :=
  ∀ a ∈ jobs events, ∀ b ∈ jobs events, a.event.document.docRef ≠ b.event.document.docRef →
    ∀ s ∈ touched events e₀ a, s ∉ touched events e₀ b

/-- The scopes of keys that no event of a document other than `D` touches along the one-worker
    run. -/
def ownScopes (events : List LifecycleEvent) (e₀ : Engine) (D : DocumentRef) : Set BudgetScope :=
  {s | (∃ k, s = BudgetScope.ofKey k e₀.config.controlByAccount) ∧
    ∀ b ∈ jobs events, b.event.document.docRef ≠ D → s ∉ touched events e₀ b}

/-- How many of the first `k` events are for document `D`. -/
def sentFor (events : List LifecycleEvent) (D : DocumentRef) (k : Nat) : Nat :=
  (((jobs events).take k).filter (·.event.document.docRef = D)).length

theorem sentFor_succ {D : DocumentRef} {i : Nat} {ev : LifecycleEvent} (h : events[i]? = some ev) :
    sentFor events D (i + 1) = sentFor events D i + if ev.document.docRef = D then 1 else 0 := by
  unfold sentFor
  rw [List.take_add_one, getElem?_jobs, h]
  by_cases hD : ev.document.docRef = D <;> simp [hD]

theorem sentFor_mono (D : DocumentRef) {k m : Nat} (h : k ≤ m) : sentFor events D k ≤ sentFor events D m :=
  ((List.take_prefix_take_left h).sublist.filter _).length_le

/-- Between two points of the run where as many events of `D` have been sent, none is for `D`. -/
theorem not_sentFor_between {D : DocumentRef} {m k : Nat} (hcount : sentFor events D k = sentFor events D m)
    {t : Nat} {ev : LifecycleEvent} (h : events[t]? = some ev) (hmt : m ≤ t) (htk : t < k) :
    ev.document.docRef ≠ D := by
  intro hD
  have hsucc := sentFor_succ (D := D) h
  rw [if_pos hD] at hsucc
  have h₁ := @sentFor_mono events D _ _ hmt
  have h₂ := @sentFor_mono events D _ _ (show t + 1 ≤ k from htk)
  omega

theorem config_serialBefore (k : Nat) : (serialBefore events e₀ k).config = e₀.config :=
  serialBefore_induction (fun e => e.config = e₀.config)
    (fun e ev h => (Engine.handle_config ev e).trans h) events rfl k

theorem batchesFresh_serialBefore (h : e₀.books.ledger.BatchesFresh) (k : Nat) :
    (serialBefore events e₀ k).books.ledger.BatchesFresh :=
  serialBefore_induction (fun e => e.books.ledger.BatchesFresh) (fun _ ev h => Engine.handle_batchesFresh ev h)
    events h k

theorem cacheAgrees_serialBefore (h : e₀.CacheAgrees) (k : Nat) : (serialBefore events e₀ k).CacheAgrees :=
  serialBefore_induction (fun e => e.CacheAgrees) (fun _ ev h => Engine.handle_cacheAgrees ev h) events h k

/-- The scope of a key, taken on the one-worker run, is a scope of `ownScopes` as soon as no other
    document's event touches it. -/
theorem scopeOf_mem_ownScopes {D : DocumentRef} (k : Nat) {key : DimensionKey}
    (h : ∀ b ∈ jobs events, b.event.document.docRef ≠ D →
      (serialBefore events e₀ k).scopeOf key ∉ touched events e₀ b) :
    (serialBefore events e₀ k).scopeOf key ∈ ownScopes events e₀ D :=
  ⟨⟨key, by rw [Engine.scopeOf, config_serialBefore]⟩, h⟩

/-- Under `Apart`, what an event touches belongs to its own document. -/
theorem touched_mem_ownScopes (happ : Apart events e₀) {i : Nat} {ev : LifecycleEvent}
    (h : events[i]? = some ev) {ds : List EntryDraft} (hds : ((serialBefore events e₀ i).eventPlan ev).drafts? = some ds)
    {d : EntryDraft} (hd : d ∈ ds) :
    (serialBefore events e₀ i).scopeOf d.key ∈ ownScopes events e₀ ev.document.docRef :=
  scopeOf_mem_ownScopes i fun b hb hD =>
    happ ⟨i, ev⟩ (mem_jobs.2 ⟨i, ev, h, rfl⟩) b hb (Ne.symm hD) _ (Engine.scopeOf_mem_touches hds hd)

/-- An event sent as `i`, handled on an engine that reads like the one-worker engine at `i` on the
    event's own document, passes by every other document: the engine stays alike on that
    document's history and own scopes. -/
theorem passes_by {i : Nat} {ev : LifecycleEvent} (hev : events[i]? = some ev) {e : Engine}
    (hA : (serialBefore events e₀ i).Alike (ownScopes events e₀ ev.document.docRef) ev.document.docRef e)
    {D : DocumentRef} (hD : ev.document.docRef ≠ D) :
    e.Alike (ownScopes events e₀ D) D (((Engine.handle ev).run).run e).2 := by
  refine Engine.alike_handle_other hA.books.fresh' hA.cacheAgrees' (fun s hs => ?_) hD
    fun ds hds d hd hmem => ?_
  · obtain ⟨key, rfl⟩ := hs.1
    exact ⟨key, by rw [hA.config, config_serialBefore]⟩
  · -- the engine plans the event as the one-worker engine does, so its rows fall in scopes the
    -- event touches along the one-worker run
    rw [hA.eventPlan rfl] at hds
    have hscope : e.scopeOf d.key = (serialBefore events e₀ i).scopeOf d.key := by
      rw [Engine.scopeOf, Engine.scopeOf, hA.config]
    exact hmem.2 ⟨i, ev⟩ (mem_jobs.2 ⟨i, ev, hev, rfl⟩) hD (hscope ▸ Engine.scopeOf_mem_touches hds hd)

/-- Along a stretch of the one-worker run with no event of `D`, the engine stays alike on `D`'s
    history and on `D`'s own scopes. -/
theorem alike_serialBefore (hfresh : e₀.books.ledger.BatchesFresh) (hagree : e₀.CacheAgrees)
    (D : DocumentRef) {m : Nat} :
    ∀ k, m ≤ k → sentFor events D k = sentFor events D m →
      (serialBefore events e₀ m).Alike (ownScopes events e₀ D) D (serialBefore events e₀ k) := by
  intro k hmk
  induction k, hmk using Nat.le_induction with
  | base =>
    intro _
    exact .refl (batchesFresh_serialBefore hfresh m) (cacheAgrees_serialBefore hagree m)
  | succ k hmk ih =>
    intro hcount
    have hcount' : sentFor events D k = sentFor events D m :=
      le_antisymm (hcount ▸ sentFor_mono D (Nat.le_succ k)) (sentFor_mono D hmk)
    rcases hk : events[k]? with _ | ev
    · rw [serialBefore_of_length_le (List.getElem?_eq_none_iff.1 hk)]
      exact ih hcount'
    · -- event `k` is another document's
      have hD := not_sentFor_between hcount hk hmk (Nat.lt_succ_self k)
      rw [serialBefore_succ hk]
      exact (ih hcount').trans (passes_by hk
        (.refl (batchesFresh_serialBefore hfresh k) (cacheAgrees_serialBefore hagree k)) hD)

end Dispatcher

/-! ## Section 5: The shared engine mirrors the one-worker run -/

namespace Dispatcher

variable {events : List LifecycleEvent} {e₀ : Engine}

/-- A job handled next after the others of its document is the next of them sent: the events of
    its document handled before it are those sent before it. -/
theorem filter_done_eq {done : List Job} {i : Nat} {ev : LifecycleEvent} (hev : events[i]? = some ev)
    (hpre : (done ++ [Job.mk i ev]).filter (·.event.document.docRef = ev.document.docRef) <+:
      (jobs events).filter (·.event.document.docRef = ev.document.docRef)) :
    done.filter (·.event.document.docRef = ev.document.docRef) =
      ((jobs events).take i).filter (·.event.document.docRef = ev.document.docRef) := by
  have hi : i < (jobs events).length := by simpa [jobs] using (List.getElem?_eq_some_iff.1 hev).1
  have hjob : (jobs events)[i] = ⟨i, ev⟩ := by
    have h := getElem?_jobs events i
    rw [hev, List.getElem?_eq_getElem hi] at h
    simpa using h
  -- the jobs of the document split at this one
  have hsplit : (jobs events).filter (·.event.document.docRef = ev.document.docRef) =
      ((jobs events).take i).filter (·.event.document.docRef = ev.document.docRef) ++
        ⟨i, ev⟩ :: ((jobs events).drop (i + 1)).filter (·.event.document.docRef = ev.document.docRef) := by
    conv_lhs => rw [← List.take_append_drop i (jobs events), List.drop_eq_getElem_cons hi, hjob]
    simp [List.filter_append]
  rw [List.filter_append, hsplit] at hpre
  simp only [List.filter_cons, List.filter_nil] at hpre
  exact eq_of_append_singleton_prefix hpre (hsplit ▸ (nodup_jobs events).filter _)

/-- The shared engine after serving `done` mirrors the one-worker run: for each document it reads
    like the one-worker engine at every point where the two have handled the same events of the
    document, and each reply it gave is the one-worker reply up to the rows' identifiers. -/
structure Mirrors (events : List LifecycleEvent) (e₀ : Engine) (done : List Job) : Prop where
  alike : ∀ D k, k ≤ events.length →
    sentFor events D k = (done.filter (·.event.document.docRef = D)).length →
    (serialBefore events e₀ k).Alike (ownScopes events e₀ D) D (done.foldl Pool.serve (Pool.idle e₀)).engine
  replies : ∀ x ∈ (done.foldl Pool.serve (Pool.idle e₀)).replies, ∃ i ev, events[i]? = some ev ∧ x.1 = i ∧
    x.2.map Outcome.erase = (((dispatch i ev).run).run (serialBefore events e₀ i)).1.map Outcome.erase

theorem mirrors_nil (hfresh : e₀.books.ledger.BatchesFresh) (hagree : e₀.CacheAgrees) :
    Mirrors events e₀ [] := by
  refine ⟨fun D k _ hk => ?_, fun x hx => absurd hx List.not_mem_nil⟩
  -- no event of `D` comes before `k`, so the one-worker run has not left the start on `D`'s part
  have h0 : sentFor events D 0 = 0 := by simp [sentFor]
  rw [List.filter_nil, List.length_nil] at hk
  have hA := alike_serialBefore hfresh hagree D k (Nat.zero_le k) (hk.trans h0.symm)
  rw [serialBefore_zero] at hA
  exact hA.symm

/-- **Serving a job keeps the mirror.** The job is the next event of its document: the shared
    engine reads like the one-worker engine where that one comes to it, so both answer it alike
    and read alike after it; for every other document the event passes by. -/
theorem Mirrors.serve (happ : Apart events e₀) (hfresh : e₀.books.ledger.BatchesFresh)
    (hagree : e₀.CacheAgrees) {done : List Job} {job : Job} (h : Mirrors events e₀ done)
    (hpre : ∀ D, (done ++ [job]).filter (·.event.document.docRef = D) <+:
      (jobs events).filter (·.event.document.docRef = D)) :
    Mirrors events e₀ (done ++ [job]) := by
  -- the job was sent as event `i`
  obtain ⟨i, ev, hev, rfl⟩ : ∃ i ev, events[i]? = some ev ∧ job = ⟨i, ev⟩ :=
    mem_jobs.1 (List.mem_of_mem_filter ((hpre job.event.document.docRef).subset (by simp)))
  have hi : i < events.length := (List.getElem?_eq_some_iff.1 hev).1
  have hbefore : sentFor events ev.document.docRef i =
      (done.filter (·.event.document.docRef = ev.document.docRef)).length := by
    rw [sentFor, filter_done_eq hev (hpre _)]
  have hA := h.alike _ i hi.le hbefore
  obtain ⟨hres, hnext⟩ := hA.handle rfl fun ds hds d hd => touched_mem_ownScopes happ hev hds hd
  rw [← serialBefore_succ hev] at hnext
  have hengine : ((done ++ [Job.mk i ev]).foldl Pool.serve (Pool.idle e₀)).engine =
      (((Engine.handle ev).run).run (done.foldl Pool.serve (Pool.idle e₀)).engine).2 := by
    simp [List.foldl_append, Pool.serve, run_dispatch_state]
  refine ⟨fun D k hk hcount => ?_, fun x hx => ?_⟩
  · rw [hengine]
    rw [List.filter_append, List.length_append] at hcount
    by_cases hD : ev.document.docRef = D
    · -- `k` comes after event `i` with no other event of `D` in between
      subst hD
      have hsucc := sentFor_succ (D := ev.document.docRef) hev
      rw [if_pos rfl] at hsucc
      simp only [List.filter_cons, List.filter_nil, decide_true, if_true, List.length_singleton] at hcount
      have hik : i + 1 ≤ k := by
        by_contra hlt
        have := @sentFor_mono events ev.document.docRef _ _ (show k ≤ i by omega)
        omega
      exact (alike_serialBefore hfresh hagree _ k hik (by omega)).symm.trans hnext
    · -- for another document the event passes by
      simp only [List.filter_cons, List.filter_nil, hD, decide_false, Bool.false_eq_true, if_false,
        List.length_nil, add_zero] at hcount
      exact (h.alike D k hk hcount).trans (passes_by hev hA hD)
  · rw [List.foldl_append, List.foldl_cons, List.foldl_nil, Pool.serve] at hx
    rcases List.mem_append.1 hx with hx | hx
    · exact h.replies x hx
    · rw [List.mem_singleton] at hx
      subst hx
      exact ⟨i, ev, hev, rfl, dispatch_erase_congr hres⟩

/-- Serving jobs in any order that keeps each document's events in the order sent keeps the
    shared engine mirroring the one-worker run. -/
theorem mirrors (happ : Apart events e₀) (hfresh : e₀.books.ledger.BatchesFresh)
    (hagree : e₀.CacheAgrees) (done : List Job)
    (hpre : ∀ D, done.filter (·.event.document.docRef = D) <+: (jobs events).filter (·.event.document.docRef = D)) :
    Mirrors events e₀ done := by
  induction done using List.reverseRecOn with
  | nil => exact mirrors_nil hfresh hagree
  | append_singleton done job ih =>
    refine (ih fun D => ?_).serve happ hfresh hagree hpre
    refine List.IsPrefix.trans ?_ (hpre D)
    rw [List.filter_append]
    exact List.prefix_append _ _

/-- The tasks of some jobs that were sent, kept for the events of one document. -/
theorem filter_tasks {js : List Job} (hjs : ∀ job ∈ js, job ∈ jobs events) (D : DocumentRef) :
    (js.map Job.task).filter (fun i => (events[i]?.map fun ev => ev.document.docRef) = some D) =
      (js.filter (·.event.document.docRef = D)).map Job.task := by
  rw [List.filter_map]
  congr 1
  refine List.filter_congr fun job hjob => ?_
  obtain ⟨i, ev, hev, rfl⟩ := mem_jobs.1 (hjs job hjob)
  simp [hev]

end Dispatcher

/-! ## Section 6: Dispatch is serializable -/

open Dispatcher in
/-- **Dispatch is serializable.** Whatever the number of workers and however their turns
    interleave, the events of each document are handled in the order they were sent, and once
    every queue is drained every event has been handled once. When the events of different
    documents touch disjoint scopes along the one-worker run, every reply is the one-worker reply
    up to the identifiers and clock readings of the rows written, and once every queue is drained
    every key reads the standing the one-worker run leaves. -/
theorem dispatch_serializable (workers : Nat) (events : List LifecycleEvent) (e₀ : Engine)
    (schedule : List Nat) (hfresh : e₀.books.ledger.BatchesFresh) (hagree : e₀.CacheAgrees) :
    let p := ((spawn workers).submitAll events e₀).run schedule
    ((∀ D : DocumentRef,
        ((p.replies.map Prod.fst).filter fun i => (events[i]?.map fun ev => ev.document.docRef) = some D) <+:
          (List.range events.length).filter fun i => (events[i]?.map fun ev => ev.document.docRef) = some D) ∧
      ((∀ j, p.queues j = []) → (p.replies.map Prod.fst).Perm (List.range events.length))) ∧
    (Apart events e₀ →
      (∀ i r, (i, r) ∈ p.replies →
        ∃ r', (i, r') ∈ (serial events e₀).replies ∧ r'.map Outcome.erase = r.map Outcome.erase) ∧
      ((∀ j, p.queues j = []) → ∀ k : DimensionKey,
        (((Engine.availability k).run).run p.engine).1 =
          (((Engine.availability k).run).run (serial events e₀).engine).1)) := by
  intro p
  obtain ⟨done, hdone⟩ := Pool.handled_submitAll.run schedule
  have htasks : p.replies.map Prod.fst = done.map Job.task := by
    rw [hdone.replies, Pool.foldl_serve_tasks]
    rfl
  refine ⟨⟨fun D => ?_, fun hq => ?_⟩, fun happ => ⟨fun i r hx => ?_, fun hq k => ?_⟩⟩
  · rw [htasks, ← map_task_jobs, filter_tasks (fun _ => hdone.mem) D, filter_tasks (fun _ h => h) D]
    exact (hdone.prefix_doc D).map _
  · rw [htasks, ← map_task_jobs]
    exact (hdone.perm_of_drained hq).map _
  · rw [hdone.replies] at hx
    obtain ⟨i', ev, hev, rfl, hr⟩ := (mirrors happ hfresh hagree done hdone.prefix_doc).replies _ hx
    exact ⟨_, mem_serial_replies hev, hr.symm⟩
  · have hperm := hdone.perm_of_drained hq
    -- the scope of `k` is the own scope of some document
    obtain ⟨D, hD⟩ : ∃ D, (serialBefore events e₀ events.length).scopeOf k ∈ ownScopes events e₀ D := by
      by_cases hs : ∃ b ∈ jobs events, (serialBefore events e₀ events.length).scopeOf k ∈ touched events e₀ b
      · obtain ⟨b, hb, hsb⟩ := hs
        exact ⟨b.event.document.docRef, scopeOf_mem_ownScopes _ fun b' hb' hD' =>
          happ b hb b' hb' (Ne.symm hD') _ hsb⟩
      · exact ⟨default, scopeOf_mem_ownScopes _ fun b hb _ hsb => hs ⟨b, hb, hsb⟩⟩
    -- every event of that document has been handled on both sides
    have hcount : sentFor events D events.length = (done.filter (·.event.document.docRef = D)).length := by
      rw [sentFor, List.take_of_length_le (by simp [jobs]), (hperm.filter _).length_eq]
    have hA := (mirrors happ hfresh hagree done hdone.prefix_doc).alike D events.length le_rfl hcount
    rw [hdone.engine, ← serialBefore_length]
    exact hA.checkAvailability hD Decimal.zero

open Dispatcher in
/-- Two expense claims on different cost lines, one consumed and reopened, the other consumed,
    handled by two workers taking turns: the claims touch disjoint scopes. -/
theorem two_claims_serializable :
    let travel : DimensionKey := ⟨"ACME", "FY2026", "CC-OPS", "6100-Travel", none, none⟩
    let meals : DimensionKey := ⟨"ACME", "FY2026", "CC-OPS", "6200-Meals", none, none⟩
    let claim₁ : SourceDocument :=
      { docRef := ⟨"Expense Claim", "EXP-1"⟩, company := some "ACME", costCenter := "CC-OPS",
        postingDate := ⟨2026, 3, 10⟩, workflowState := "Approved",
        lines := [⟨"6100-Travel", Decimal.ofNat 200⟩] }
    let claim₂ : SourceDocument :=
      { docRef := ⟨"Expense Claim", "EXP-2"⟩, company := some "ACME", costCenter := "CC-OPS",
        postingDate := ⟨2026, 3, 11⟩, workflowState := "Approved",
        lines := [⟨"6200-Meals", Decimal.ofNat 50⟩] }
    let e₀ : Engine :=
      { directory := [("CC-OPS", "ACME")],
        calendar := [⟨"FY2026", none, ⟨2026, 1, 1⟩, ⟨2026, 12, 31⟩⟩],
        books := { envelopes := EnvelopeBook.ofList [(travel, Decimal.ofNat 1000), (meals, Decimal.ofNat 1000)] } }
    let events : List LifecycleEvent :=
      [.reachedTargetState claim₁ {}, .reachedTargetState claim₂ {}, .rejectedOrReopened claim₁ {}]
    let p := ((spawn 2).submitAll events e₀).run [1, 0, 1, 0, 1, 0]
    e₀.books.ledger.BatchesFresh ∧ e₀.CacheAgrees ∧ Apart events e₀ ∧
    ((∀ D : DocumentRef,
        ((p.replies.map Prod.fst).filter fun i => (events[i]?.map fun ev => ev.document.docRef) = some D) <+:
          (List.range events.length).filter fun i => (events[i]?.map fun ev => ev.document.docRef) = some D) ∧
      ((∀ j, p.queues j = []) → (p.replies.map Prod.fst).Perm (List.range events.length))) ∧
    (Apart events e₀ →
      (∀ i r, (i, r) ∈ p.replies →
        ∃ r', (i, r') ∈ (serial events e₀).replies ∧ r'.map Outcome.erase = r.map Outcome.erase) ∧
      ((∀ j, p.queues j = []) → ∀ k : DimensionKey,
        (((Engine.availability k).run).run p.engine).1 =
          (((Engine.availability k).run).run (serial events e₀).engine).1)) := by
  intro travel meals claim₁ claim₂ e₀ events p
  have hfresh : e₀.books.ledger.BatchesFresh := Ledger.batchesFresh_empty
  have hagree : e₀.CacheAgrees := Engine.cacheAgrees_of_empty rfl
  have happ : Apart events e₀ := by
    unfold Apart
    decide +kernel
  exact ⟨hfresh, hagree, happ, dispatch_serializable 2 events e₀ [1, 0, 1, 0, 1, 0] hfresh hagree⟩

end Encumbrance

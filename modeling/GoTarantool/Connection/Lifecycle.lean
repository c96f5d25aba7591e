import Mathlib.Logic.Relation
import GoTarantool.Connection.Order
import GoTarantool.Connection.Progress

/-!
# The registry refines the spec's futures

The spec describes the registry by three operations: `register` stores a new pending future
under an id no waiting future carries, `fulfill(id, result)` completes the waiting future
stored under `id` (a result nobody waits for is dropped), and `fail_all(err)` completes every
waiting future with one error. A future is single-assignment: `Pending → Completed(ok) |
Completed(err)`. `Futures.Step` is that machine, over the futures numbered in the order they
were born; the connection has no per-request context, so no future is cancelled.

`Registry.spec` reads the machine off the connection's registry: a future is `ok` once `resp`
is set, `failed` once `err` is, and pending before. The source's `register`, the reader's
delivery (lines 255-264) and `closeConnection` (lines 194-198) are each one operation of the
spec, or none.

* `Futures.Step.keeps_completed` — no operation of the spec changes a completed future;
* `waits_iff_pending` — the futures the spec sees waiting are those of `conn.requests`;
* `spec_register`, `spec_deliver`, `spec_closeConnection` — the three registry operations
  of the connection, each simulated by the spec;
* **`futures_refine_spec`** — along every run from a reachable state that registers at most
  `2^32` futures, the spec's machine runs along;
* `completed_future_stays` — hence a future that completed keeps its id and its outcome in
  every later state;
* `futures_stranded_after_loops_return` — once both loops have returned with no socket
  current, as they do after a refused dial when `Reconnect` is `0`, no future that waits is
  ever completed: nothing but `register` acts on the registry any more.
-/

namespace GoTarantool.Connection

open GoTarantool.Stream GoTarantool.Net GoTarantool.Dial

variable {codec : Codec} {s s' : St}

/-! ## The spec's futures -/

/-- The state of a future in the spec: pending, or completed with a response or an error. -/
inductive FutState
  | pending
  | ok (r : Response)
  | failed (e : GoError)
  deriving DecidableEq

/-- A future as the spec sees it: the request id it carries, and its state. -/
structure SpecFuture where
  requestId : UInt32
  state : FutState
  deriving DecidableEq

/-- The spec's registry: the futures born so far, numbered in the order they were submitted. -/
@[ext]
structure Futures where
  n : Nat
  fut : Nat → SpecFuture

/-- The future `h` is born and still waits. -/
def Futures.Waits (F : Futures) (h : Nat) : Prop := h < F.n ∧ (F.fut h).state = .pending

instance (F : Futures) (h : Nat) : Decidable (F.Waits h) := inferInstanceAs (Decidable (_ ∧ _))

/-- One operation of the spec's registry. `register` stores a new pending future under an id
no waiting future carries; `fulfill` completes a waiting future with a response carrying its
id; `failAll` completes every waiting future with one error. -/
inductive Futures.Step : Futures → Futures → Prop
  | register (F : Futures) (id : UInt32) (hfresh : ∀ h, F.Waits h → (F.fut h).requestId ≠ id) :
      Futures.Step F ⟨F.n + 1, Function.update F.fut F.n ⟨id, .pending⟩⟩
  | fulfill (F : Futures) (h : Nat) (r : Response) (hw : F.Waits h)
      (hid : r.requestId = (F.fut h).requestId) :
      Futures.Step F ⟨F.n, Function.update F.fut h ⟨(F.fut h).requestId, .ok r⟩⟩
  | failAll (F : Futures) (e : GoError) :
      Futures.Step F
        ⟨F.n, fun h => if F.Waits h then ⟨(F.fut h).requestId, .failed e⟩ else F.fut h⟩

/-- No operation of the spec forgets a future. -/
theorem Futures.Step.n_le {F F' : Futures} (hst : Futures.Step F F') : F.n ≤ F'.n := by
  cases hst <;> simp

/-- **Single assignment.** No operation of the spec changes a future that is born and
completed. -/
theorem Futures.Step.keeps_completed {F F' : Futures} (hst : Futures.Step F F') {h : Nat}
    (hh : h < F.n) (hc : (F.fut h).state ≠ .pending) : F'.fut h = F.fut h := by
  cases hst with
  | register id _ => exact Function.update_noteq (Nat.ne_of_lt hh) _ _
  | fulfill j r hw _ => exact Function.update_noteq (fun e => hc (by rw [e]; exact hw.2)) _ _
  | failAll e => exact if_neg fun hw => hc hw.2

/-! ## The registry as the spec sees it -/

/-- The state of a future read off its fields: the response, else the error, else pending. -/
def Future.state (f : Future) : FutState :=
  match f.resp, f.err with
  | some r, _ => .ok r
  | none, some e => .failed e
  | none, none => .pending

/-- A future as the spec sees it. -/
def Future.spec (f : Future) : SpecFuture := ⟨f.requestId, f.state⟩

/-- The spec's registry read off the connection's: the `nfut` futures registered so far. -/
def Registry.spec (g : Registry) : Futures := ⟨g.nfut, fun h => (g.futs h).spec⟩

/-- A completed future is not pending. -/
theorem Registry.Completed.state_ne {g : Registry} {f : Future} (hc : g.Completed f) :
    f.state ≠ .pending := by
  obtain ⟨-, ⟨r, hr, -⟩ | ⟨e, he, -, hr⟩⟩ := hc
  · simp [Future.state, hr]
  · simp [Future.state, hr, he]

@[simp] theorem Future.state_of_open {f : Future} (hr : f.resp = none) (he : f.err = none) :
    f.state = .pending := by
  simp [Future.state, hr, he]

/-- `closeConnection`'s loop fails the futures it meets that have no response. -/
theorem failAll_spec (e : GoError) (hs : List Nat) (futs : Nat → Future) (h : Nat)
    (hr : h ∈ hs → (futs h).resp = none) :
    (failAll e hs futs h).spec =
      if h ∈ hs then ⟨(futs h).requestId, .failed e⟩ else (futs h).spec := by
  by_cases hm : h ∈ hs <;>
    simp [hm, hr, Future.spec, Future.state, failAll_requestId, failAll_resp, failAll_err]

/-- In a registry whose ids are right and whose futures settled, the futures the spec sees
waiting are exactly those of `conn.requests`. -/
theorem waits_iff_pending (hi : s.registry.IdsOk) (hd : s.registry.Settled) {h : Nat} :
    s.registry.spec.Waits h ↔ s.Pending h := by
  constructor
  · rintro ⟨hh, hp⟩
    by_contra hn
    exact (hd h hh hn).state_ne hp
  · rintro ⟨id, hl⟩
    obtain ⟨hh, -, -, hr, he⟩ := hi.waiting id h hl
    exact ⟨hh, Future.state_of_open hr he⟩

/-! ## Each registry operation is one of the spec's -/

/-- `register` stores a new pending future under the next id, which no waiting future
carries while fewer than `2^32` futures were registered. -/
theorem spec_register (hi : s.registry.IdsOk) (hd : s.registry.Settled) (hn : s.nfut < 2 ^ 32) :
    Futures.Step s.registry.spec s.register.registry.spec := by
  have hfresh : ∀ h, s.registry.spec.Waits h → (s.futs h).requestId ≠ s.requestId + 1 := by
    rintro h hw hid
    obtain ⟨id, hl⟩ : ∃ id, s.requests.lookup id = some h := (waits_iff_pending hi hd).1 hw
    have hid' : (s.futs h).requestId = id := (hi.waiting id h hl).2.1
    have hfree : s.requests.lookup (s.requestId + 1) = none := hi.next_free hn
    rw [← hid, hid', hl] at hfree
    cases hfree
  have heq : s.register.registry.spec =
      ⟨s.nfut + 1, Function.update s.registry.spec.fut s.nfut ⟨s.requestId + 1, .pending⟩⟩ := by
    refine Futures.ext rfl (funext fun h => ?_)
    by_cases hh : h = s.nfut
    · subst hh; simp [Registry.spec, St.register, St.nextRequestId, Future.spec, Future.state]
    · simp [Registry.spec, St.register, St.nextRequestId, hh]
  rw [heq]
  exact .register _ _ hfresh

/-- The delivery of a response fulfils the future stored under its id, or drops it. -/
theorem spec_deliver (hi : s.registry.IdsOk) (resp : Response) :
    (s.deliver resp).registry.spec = s.registry.spec ∨
      Futures.Step s.registry.spec (s.deliver resp).registry.spec := by
  cases hl : s.requests.lookup resp.requestId with
  | none => exact .inl (by rw [deliver_of_none hl])
  | some h =>
    obtain ⟨hh, hid, -, hr, he⟩ := hi.waiting _ _ hl
    have heq : (s.deliver resp).registry.spec =
        ⟨s.nfut, Function.update s.registry.spec.fut h ⟨(s.futs h).requestId, .ok resp⟩⟩ := by
      rw [deliver_of_some hl]
      refine Futures.ext rfl (funext fun j => ?_)
      by_cases hj : j = h
      · subst hj; simp [Registry.spec, Future.spec, Future.state]
      · simp [Registry.spec, hj]
    rw [heq]
    exact .inr (.fulfill _ h resp ⟨hh, Future.state_of_open hr he⟩ hid.symm)

/-- `closeConnection` fails every waiting future with its error, or finds no socket. -/
theorem spec_closeConnection (hi : s.registry.IdsOk) (hd : s.registry.Settled) (e : GoError) :
    (s.closeConnection e).registry.spec = s.registry.spec ∨
      Futures.Step s.registry.spec (s.closeConnection e).registry.spec := by
  cases hc : s.connection with
  | none => exact .inl (by rw [closeConnection_of_none hc])
  | some k =>
    have heq : (s.closeConnection e).registry.spec = ⟨s.nfut, fun h =>
        if s.registry.spec.Waits h then ⟨(s.futs h).requestId, .failed e⟩ else (s.futs h).spec⟩ := by
      rw [closeConnection_of_some hc]
      refine Futures.ext rfl (funext fun h => ?_)
      have hr : h ∈ s.pendingFuts → (s.futs h).resp = none := fun hm =>
        have ⟨id, hl⟩ := mem_pendingFuts.1 hm
        (hi.waiting id h hl).2.2.2.1
      simp only [Registry.spec, St.registry_futs, failAll_spec e _ _ h hr]
      exact if_congr (mem_pendingFuts.trans (waits_iff_pending hi hd).symm) rfl rfl
    rw [heq]
    exact .inr (.failAll _ e)

/-! ## Runs -/

/-- One step of the connection is, on its futures, no step of the spec or one. -/
theorem spec_step (hs : Reachable codec s) (hn : s'.nfut ≤ 2 ^ 32) {e : Event}
    (h : step codec s e = some s') :
    s'.registry.spec = s.registry.spec ∨ Futures.Step s.registry.spec s'.registry.spec := by
  have hi := reachable_idsOk hs
  have hd := reachable_settled hs ((step_nfut_le h).trans hn)
  rcases step_registry h with h1 | ⟨err, h1⟩ | ⟨resp, h1⟩ | ⟨-, h1⟩ <;> rw [h1]
  · exact .inl rfl
  · exact spec_closeConnection hi hd err
  · exact spec_deliver hi resp
  · have h2 : s'.nfut = s.nfut + 1 := by
      simpa [St.register, St.nextRequestId] using congrArg Registry.nfut h1
    exact .inr (spec_register hi hd (by omega))

/-- No run takes a future back. -/
theorem run_nfut_le {s s' : St} {es : List Event} (hr : run codec s es = some s') :
    s.nfut ≤ s'.nfut := by
  induction es generalizing s with
  | nil => cases hr; exact le_rfl
  | cons e es ih =>
    simp only [run, Option.bind_eq_some] at hr
    obtain ⟨s1, h1, h2⟩ := hr
    exact (step_nfut_le h1).trans (ih h2)

/-- The refinement along a run, one event at a time. -/
theorem spec_run {s s' : St} {es : List Event} (hs : Reachable codec s)
    (hr : run codec s es = some s') (hn : s'.nfut ≤ 2 ^ 32) :
    Relation.ReflTransGen Futures.Step s.registry.spec s'.registry.spec := by
  induction es generalizing s with
  | nil => cases hr; exact .refl
  | cons e es ih =>
    simp only [run, Option.bind_eq_some] at hr
    obtain ⟨s1, h1, h2⟩ := hr
    have hrest := ih (.step e hs h1) h2
    rcases spec_step hs ((run_nfut_le h2).trans hn) h1 with heq | hst
    · rwa [← heq]
    · exact .head hst hrest

/-- **The registry refines the spec's futures.** Along every run from a reachable state that
registers at most `2^32` futures, the futures as the spec sees them move by the spec's
operations only: `register`, `fulfill` and `fail_all`. -/
theorem futures_refine_spec (hs : Reachable codec s) {es : List Event}
    (hr : run codec s es = some s') (hn : s'.nfut ≤ 2 ^ 32) :
    Relation.ReflTransGen Futures.Step s.registry.spec s'.registry.spec :=
  spec_run hs hr hn

/-- Along `staleTrace` the connection registers, fails and registers futures again. -/
theorem futures_refine_spec_on_stale :
    ∃ s, run silentCodec (init guest) staleTrace = some s ∧
      Relation.ReflTransGen Futures.Step (init guest).registry.spec s.registry.spec :=
  ⟨_, rfl, futures_refine_spec (.init guest)
    (rfl : run silentCodec (init guest) staleTrace = some _) (by decide)⟩

/-- A single-assignment run of the spec leaves every completed future as it was. -/
theorem Futures.keeps_completed_of_run {F F' : Futures}
    (hst : Relation.ReflTransGen Futures.Step F F') {h : Nat} (hh : h < F.n)
    (hc : (F.fut h).state ≠ .pending) : F'.fut h = F.fut h ∧ h < F'.n := by
  induction hst with
  | refl => exact ⟨rfl, hh⟩
  | tail _ hst ih =>
    obtain ⟨heq, hlt⟩ := ih
    exact ⟨(hst.keeps_completed hlt (by rwa [heq])).trans heq, hlt.trans_le hst.n_le⟩

/-- **A completed future keeps its outcome.** Once a future of a reachable connection has a
response or an error, it carries the same id and the same outcome in every later state of a
run that registers at most `2^32` futures. -/
theorem completed_future_stays (hs : Reachable codec s) {es : List Event}
    (hr : run codec s es = some s') (hn : s'.nfut ≤ 2 ^ 32) {h : Nat} (hh : h < s.nfut)
    (hc : (s.futs h).state ≠ .pending) : (s'.futs h).spec = (s.futs h).spec :=
  (Futures.keeps_completed_of_run (spec_run hs hr hn) hh hc).1

set_option maxRecDepth 100000 in
/-- After the first twelve events of `staleTrace` the flush on socket `0` has failed and
`closeConnection` has failed future `0` with the broken pipe; through the redial and two more
registrations of the rest of the run, future `0` keeps that outcome. -/
theorem completed_future_stays_after_reconnect :
    ∃ s s', Reachable silentCodec s ∧ run silentCodec s (staleTrace.drop 12) = some s' ∧
      (s.futs 0).state = .failed "broken pipe" ∧ (s'.futs 0).spec = (s.futs 0).spec :=
  have hs := run_reachable (.init guest)
    (rfl : run silentCodec (init guest) (staleTrace.take 12) = some _)
  ⟨_, _, hs, rfl, rfl, @completed_future_stays silentCodec _ _ hs (staleTrace.drop 12) rfl
    (by decide) 0 (by decide) (by decide)⟩

/-! ## Futures nobody completes

The writer and the reader return when `createConnection` gives them no socket (lines 223-227,
238-242), which happens on a refused dial when `opts.Reconnect` is `0`. Nothing dials again
after that, and `closeConnection` finds no socket to close, so the futures that wait are never
completed. -/

/-- Both loops have returned and no socket is current. -/
def LoopsGone (s : St) : Prop := s.writer = .exit ∧ s.reader = .exit ∧ s.connection = none

/-- Once the loops are gone, a step keeps them gone and acts on the registry only by
`register`. -/
theorem loopsGone_step (hg : LoopsGone s) {e : Event} (h : step codec s e = some s') :
    LoopsGone s' ∧ (s'.registry = s.registry ∨ s'.registry = s.register.registry) := by
  obtain ⟨hw, hr, hc⟩ := hg
  cases e with
  | writer env => simp [step, St.writerStep, hw] at h
  | reader env => simp [step, St.readerStep, hr] at h
  | close =>
    simp only [step, St.closerStep] at h
    split at h
    · cases h; exact ⟨⟨hw, hr, hc⟩, .inl rfl⟩
    · cases h; exact ⟨⟨hw, hr, hc⟩, .inl rfl⟩
    · split_ifs at h; cases h; rw [closeConnection_of_none hc]; exact ⟨⟨hw, hr, hc⟩, .inl rfl⟩
    · cases h
  | submit =>
    simp only [step, St.submit] at h
    split_ifs at h <;> cases h
    · exact ⟨⟨hw, hr, hc⟩, .inl rfl⟩
    · exact ⟨⟨hw, hr, hc⟩, .inr rfl⟩
  | enqueue i => obtain ⟨p, -, rfl⟩ := enqueue_eq h; exact ⟨⟨hw, hr, hc⟩, .inl rfl⟩
  | recv k c => simp only [step] at h; split_ifs at h; cases h; exact ⟨⟨hw, hr, hc⟩, .inl rfl⟩
  | drop k e => simp only [step] at h; split_ifs at h; cases h; exact ⟨⟨hw, hr, hc⟩, .inl rfl⟩

/-- `register` leaves every waiting future waiting and untouched while the next id is free. -/
theorem register_keeps_pending (hi : s.registry.IdsOk) (hn : s.nfut < 2 ^ 32) {h : Nat}
    (hp : s.Pending h) : s.register.Pending h ∧ s.register.futs h = s.futs h := by
  obtain ⟨id, hl⟩ : ∃ id, s.requests.lookup id = some h := hp
  have hne : id ≠ s.requestId + 1 := by
    rintro rfl
    have hfree : s.requests.lookup (s.requestId + 1) = none := hi.next_free hn
    rw [hfree] at hl
    cases hl
  exact ⟨pending_register.2 (.inr ⟨id, hne, hl⟩),
    Function.update_noteq (Nat.ne_of_lt (hi.waiting id h hl).1) _ _⟩

/-- Once the loops are gone, a step leaves every waiting future waiting and untouched. -/
theorem loopsGone_keeps_pending (hs : Reachable codec s) (hg : LoopsGone s) {e : Event}
    (h : step codec s e = some s') (hn : s'.nfut ≤ 2 ^ 32) {j : Nat} (hp : s.Pending j) :
    s'.Pending j ∧ s'.futs j = s.futs j := by
  rcases (loopsGone_step hg h).2 with heq | heq
  · exact ⟨show s'.registry.Pending j by rw [heq]; exact hp,
      congrFun (congrArg Registry.futs heq) j⟩
  · have h1 : s'.nfut = s.nfut + 1 := by
      simpa [St.register, St.nextRequestId] using congrArg Registry.nfut heq
    obtain ⟨hp', hf⟩ := register_keeps_pending (reachable_idsOk hs) (by omega) hp
    exact ⟨show s'.registry.Pending j by rw [heq]; exact hp',
      (congrFun (congrArg Registry.futs heq) j).trans hf⟩

/-- **Nothing completes a future once the loops are gone.** From a reachable state where both
loops have returned and no socket is current, every run that registers at most `2^32` futures
keeps the loops gone, and every future that waited still waits in `conn.requests` with no
response, no error and its channel open. -/
theorem futures_stranded_after_loops_return (hs : Reachable codec s) (hg : LoopsGone s)
    {es : List Event} (hr : run codec s es = some s') (hn : s'.nfut ≤ 2 ^ 32) :
    LoopsGone s' ∧ ∀ h, s.Pending h → s'.Pending h ∧ s'.futs h = s.futs h := by
  induction es generalizing s with
  | nil => cases hr; exact ⟨hg, fun _ hp => ⟨hp, rfl⟩⟩
  | cons e es ih =>
    simp only [run, Option.bind_eq_some] at hr
    obtain ⟨s1, h1, h2⟩ := hr
    obtain ⟨hg', hkeep⟩ := ih (.step e hs h1) (loopsGone_step hg h1).1 h2
    refine ⟨hg', fun h hp => ?_⟩
    obtain ⟨hp1, hf1⟩ := loopsGone_keeps_pending hs hg h1 ((run_nfut_le h2).trans hn) hp
    obtain ⟨hp', hf'⟩ := hkeep h hp1
    exact ⟨hp', hf'.trans hf1⟩

/-- `Connect` with `Reconnect` `0`; a request is registered and queued, and both loops meet a
refused dial and return. -/
def refusedTrace : List Event :=
  [.submit, .enqueue 0] ++ List.replicate 3 (.reader refusedEnv) ++
    List.replicate 4 (.writer refusedEnv)

/-- After `refusedTrace` future `0` waits under id `1`; through another request and a whole
`Close` it still waits, with no response, no error and its channel open. -/
theorem futures_stranded_after_refused_dial :
    ∃ s s', Reachable silentCodec s ∧ LoopsGone s ∧ s.requests.lookup 1 = some 0 ∧
      (s.futs 0).closes = 0 ∧ run silentCodec s [.submit, .close, .close, .close] = some s' ∧
      s'.Pending 0 ∧ s'.futs 0 = s.futs 0 :=
  have hs := run_reachable (.init guest)
    (rfl : run silentCodec (init guest) refusedTrace = some _)
  ⟨_, _, hs, ⟨rfl, rfl, rfl⟩, rfl, rfl, rfl,
    (@futures_stranded_after_loops_return silentCodec _ _ hs ⟨rfl, rfl, rfl⟩
      [.submit, .close, .close, .close] rfl (by decide)).2 0 ⟨1, rfl⟩⟩

end GoTarantool.Connection

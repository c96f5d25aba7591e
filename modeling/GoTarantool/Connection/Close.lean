import GoTarantool.Connection.Placement

/-!
# `Close`

`Close` (lines 62-67) sets `conn.closed`, closes `conn.control`, which lets the writer loop
return once `conn.packets` is empty, and calls `closeConnection` with `ClientClosed`.
`closeConnection` fails the pending futures only if there is a current socket (line 187).
Over every run:

* `reachable_closing` — once `Close` has found a current socket, no future is pending, and
  none is ever pending again;
* `quiet_run` — after `Close` has returned and both loops have exited, no run changes the
  registry;
* **`close_strands_pending`** — `Close` on a connection without a current socket fails
  nothing: a future registered before it is still pending when `Close` has returned and both
  loops have exited, and no later step completes it.
-/

namespace GoTarantool.Connection

open GoTarantool.Stream GoTarantool.Net GoTarantool.Dial

variable {codec : Codec} {s s' : St}

/-! ## After `Close` -/

/-- What `Close` leaves behind: the connection is closed from its first step on, and the
registry is empty once `closeConnection` found a current socket. -/
structure Closing (s : St) : Prop where
  closed : s.closer ≠ .idle → s.closed = true
  emptied : s.closer = .done true → ∀ h, ¬ s.Pending h

theorem closing_init (opts : Opts) : Closing (init opts) :=
  ⟨fun h => absurd rfl h, fun h => by cases h⟩

theorem closing_step {e : Event} (hc : Closing s) (h : step codec s e = some s') :
    Closing s' := by
  rcases (step_frame h).2 with rfl | ⟨hcd, hcl⟩
  · simp only [step, St.closerStep] at h
    split at h
    · cases h; exact ⟨fun _ => rfl, fun h => by cases h⟩
    · next hcl => cases h; exact ⟨fun _ => hc.closed (by simp [hcl]), fun h => by cases h⟩
    · next hcl =>
      split_ifs at h; cases h
      refine ⟨fun _ => by simpa using hc.closed (by simp [hcl]), fun hd h hph => ?_⟩
      obtain ⟨hnone, -⟩ := pending_closeConnection.mp hph
      simp only [hnone, Option.isSome_none, CloserPc.done.injEq, Bool.false_eq_true] at hd
    · cases h
  · refine ⟨fun hi => hcd ▸ hc.closed (hcl ▸ hi), fun hd f hpf => ?_⟩
    have hempty := hc.emptied (hcl ▸ hd) f
    rcases step_registry h with hr | ⟨err, hr⟩ | ⟨resp, hr⟩ | ⟨hopen, -⟩
    · exact hempty (by rwa [St.Pending, hr] at hpf)
    · exact hempty (pending_closeConnection.mp (by rwa [St.Pending, hr] at hpf)).2
    · exact hempty (pending_of_deliver (by rwa [St.Pending, hr] at hpf))
    · have := hc.closed (by rw [← hcl, hd]; exact fun h => by cases h)
      rw [this] at hopen; cases hopen

/-- **`Close` on a connected connection empties the registry for good.** In every reachable
state, `conn.closed` is set once `Close` has begun, and no future is pending once its
`closeConnection` found a current socket. -/
theorem reachable_closing (hs : Reachable codec s) : Closing s := by
  induction hs with
  | init opts => exact closing_init opts
  | step e _ h ih => exact closing_step ih h

/-- A request is sent on socket `0`, and `Close` runs on the connected connection. -/
def closeSentTrace : List Event := sentTrace ++ [.close, .close, .close]

theorem reachable_closing_after_send :
    ∃ s, Reachable silentCodec s ∧ s.closer = .done true ∧ Closing s := by
  have hs := run_reachable (.init guest) (rfl : run silentCodec (init guest) closeSentTrace = some _)
  exact ⟨_, hs, rfl, reachable_closing hs⟩

/-- `Close` has returned and both loops have exited. -/
structure Quiet (s : St) : Prop where
  closed : s.closed = true
  writer : s.writer = .exit
  reader : s.reader = .exit
  closer : ∃ b, s.closer = .done b

/-- On a quiet connection a step only moves a packet to `conn.packets`, refuses a request, or
reaches a socket. -/
theorem quiet_step {e : Event} (hq : Quiet s) (h : step codec s e = some s') :
    Quiet s' ∧ s'.registry = s.registry := by
  obtain ⟨b, hb⟩ := hq.closer
  cases e with
  | writer env => simp [step, St.writerStep, hq.writer] at h
  | reader env => simp [step, St.readerStep, hq.reader] at h
  | close => simp [step, St.closerStep, hb] at h
  | submit =>
    simp only [step, St.submit, hq.closed, if_true] at h
    split_ifs at h; cases h; exact ⟨hq, rfl⟩
  | enqueue i => obtain ⟨p, -, rfl⟩ := enqueue_eq h; exact ⟨⟨hq.1, hq.2, hq.3, hq.4⟩, rfl⟩
  | recv k c =>
    simp only [step] at h; split_ifs at h; cases h; exact ⟨⟨hq.1, hq.2, hq.3, hq.4⟩, rfl⟩
  | drop k e =>
    simp only [step] at h; split_ifs at h; cases h; exact ⟨⟨hq.1, hq.2, hq.3, hq.4⟩, rfl⟩

theorem quiet_run : ∀ {s s' : St} {es : List Event}, Quiet s → run codec s es = some s' →
    s'.registry = s.registry
  | s, s', [], _, h => by cases h; rfl
  | s, s', e :: es, hq, h => by
    simp only [run, Option.bind_eq_some] at h
    obtain ⟨s1, h1, h2⟩ := h
    obtain ⟨hq1, hr1⟩ := quiet_step hq h1
    exact (quiet_run hq1 h2).trans hr1

/-! ## `Close` without a socket -/

/-- A request is registered, and `Close` runs before any socket is dialed. The reader's
`createConnection` then finds the connection closed and returns; the writer finds
`conn.packets` empty, flushes nothing, sees `conn.control` closed and returns. -/
def closeTrace : List Event :=
  [.submit, .close, .close, .close] ++ List.replicate 3 (.reader quietEnv) ++
    List.replicate 3 (.writer quietEnv)

/-- **A future outlives `Close`.** `Close` has returned and both loops have exited, and
future `0` is still in `conn.requests` under id `1` with its channel open; no run from there
on changes the registry. -/
theorem close_strands_pending (codec : Codec) :
    ∃ s, Reachable codec s ∧ s.closer = .done false ∧ s.reader = .exit ∧ s.writer = .exit ∧
      s.requests.lookup 1 = some 0 ∧ (s.futs 0).closes = 0 ∧
      ∀ es s', run codec s es = some s' → s'.registry = s.registry :=
  ⟨_, run_reachable (.init guest) (rfl : run codec (init guest) closeTrace = some _),
    rfl, rfl, rfl, rfl, rfl, fun _ _ => quiet_run ⟨rfl, rfl, rfl, ⟨false, rfl⟩⟩⟩

end GoTarantool.Connection

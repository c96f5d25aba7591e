import GoTarantool.Connection.Step

/-!
# The connection engine: what a step can change

What each operation of the engine does to the state, said once so that the invariants of
the later modules never unfold a step: `closeConnection` either finds no socket and does
nothing, or closes the current one and empties `conn.requests`; the reader's delivery and
`register` touch only the registry and the queue of callers; a step of `createConnection`
either takes the mutex, returns, or dials; `St.dial` publishes a socket only when `dial`
reports it ready.

The main results:

* `createConnection_cases` and `St.dial_cases` — every way a step of `createConnection`,
  and the `dial` inside it, can go;
* **`step_registry`** — a step leaves the registry alone, or is a `closeConnection`, a
  delivery, or a `register`;
* `step_frame` — only `Close` touches `conn.closed` and its own program counter, and no
  step touches the options.
-/

namespace GoTarantool.Connection

open GoTarantool.Stream GoTarantool.Net GoTarantool.Dial

variable {codec : Codec} {s s' : St}

/-! ## `closeConnection`, the delivery and `register` -/

theorem closeConnection_of_none {e : GoError} (h : s.connection = none) :
    s.closeConnection e = s := by
  simp [St.closeConnection, h]

theorem closeConnection_of_some {e : GoError} {k : Nat} (h : s.connection = some k) :
    s.closeConnection e =
      { s with socks := Function.update s.socks k (s.socks k).close,
               connection := none, r := none, w := none,
               futs := failAll e s.pendingFuts s.futs,
               requests := ∅,
               netErrs := e :: s.netErrs } := by
  simp [St.closeConnection, h]

/-- A future still waits after `closeConnection` only if there was no socket to close. -/
theorem pending_closeConnection {e : GoError} {h : Nat} :
    (s.closeConnection e).Pending h ↔ s.connection = none ∧ s.Pending h := by
  cases hc : s.connection with
  | none => simp [closeConnection_of_none hc]
  | some k => simp [closeConnection_of_some hc, St.Pending, Registry.Pending, St.registry]

section
variable (e : GoError) (s : St)

@[simp] theorem closeConnection_writer : (s.closeConnection e).writer = s.writer := by
  unfold St.closeConnection; split <;> rfl
@[simp] theorem closeConnection_reader : (s.closeConnection e).reader = s.reader := by
  unfold St.closeConnection; split <;> rfl
@[simp] theorem closeConnection_closer : (s.closeConnection e).closer = s.closer := by
  unfold St.closeConnection; split <;> rfl
@[simp] theorem closeConnection_closed : (s.closeConnection e).closed = s.closed := by
  unfold St.closeConnection; split <;> rfl
@[simp] theorem closeConnection_opts : (s.closeConnection e).opts = s.opts := by
  unfold St.closeConnection; split <;> rfl
@[simp] theorem closeConnection_mutex : (s.closeConnection e).mutex = s.mutex := by
  unfold St.closeConnection; split <;> rfl
@[simp] theorem closeConnection_nsock : (s.closeConnection e).nsock = s.nsock := by
  unfold St.closeConnection; split <;> rfl
@[simp] theorem closeConnection_control : (s.closeConnection e).control = s.control := by
  unfold St.closeConnection; split <;> rfl
@[simp] theorem closeConnection_connection : (s.closeConnection e).connection = none := by
  unfold St.closeConnection; split <;> simp_all
@[simp] theorem closeConnection_authed : (s.closeConnection e).authed = s.authed := by
  unfold St.closeConnection; split <;> rfl
@[simp] theorem closeConnection_packets : (s.closeConnection e).packets = s.packets := by
  unfold St.closeConnection; split <;> rfl
@[simp] theorem closeConnection_submitting :
    (s.closeConnection e).submitting = s.submitting := by
  unfold St.closeConnection; split <;> rfl
@[simp] theorem closeConnection_nfut : (s.closeConnection e).nfut = s.nfut := by
  unfold St.closeConnection; split <;> rfl

end

/-- `closeConnection` leaves what every socket's writer holds and what it sent. -/
theorem closeConnection_socks (e : GoError) (j : Nat) :
    ((s.closeConnection e).socks j).w = (s.socks j).w ∧
      ((s.closeConnection e).socks j).out = (s.socks j).out := by
  cases hc : s.connection with
  | none => simp [closeConnection_of_none hc]
  | some k =>
    rw [closeConnection_of_some hc]
    by_cases hj : j = k
    · subst hj; simp [Socket.close]
    · simp [hj]

theorem deliver_of_none {resp : Response} (h : s.requests.lookup resp.requestId = none) :
    s.deliver resp = s := by
  simp [St.deliver, h]

theorem deliver_of_some {resp : Response} {h : Nat}
    (hl : s.requests.lookup resp.requestId = some h) :
    s.deliver resp =
      { s with requests := s.requests.erase resp.requestId,
               futs := Function.update s.futs h
                 { s.futs h with resp := some resp, closes := (s.futs h).closes + 1 } } := by
  simp [St.deliver, hl]

/-- The delivery changes `conn.requests` and the futures only. -/
theorem deliver_eq (resp : Response) :
    ∃ rq fs, s.deliver resp = { s with requests := rq, futs := fs } := by
  unfold St.deliver; split
  · exact ⟨_, _, rfl⟩
  · exact ⟨s.requests, s.futs, rfl⟩

/-- `conn.packets <- packet`: the `i`-th caller's packet moves to the end of the channel. -/
theorem enqueue_eq {i : Nat} (h : s.enqueue i = some s') :
    ∃ p, s.submitting.get? i = some p ∧
      s' = { s with packets := s.packets ++ [p], submitting := s.submitting.eraseIdx i } := by
  unfold St.enqueue at h
  split at h
  · next p hget => split_ifs at h; cases h; exact ⟨p, hget, rfl⟩
  · cases h

theorem perm_eraseIdx {l : List Packet} {i : Nat} {p : Packet} (hp : l.get? i = some p) :
    l.Perm (l.eraseIdx i ++ [p]) := by
  obtain ⟨hi, rfl⟩ := List.get?_eq_some.mp hp
  rw [List.eraseIdx_eq_take_drop_succ]
  conv_lhs => rw [← List.take_append_drop i l, List.drop_eq_getElem_cons hi]
  exact List.perm_middle.trans (List.perm_append_singleton _ _).symm

section
variable (resp : Response) (s : St)

@[simp] theorem deliver_writer : (s.deliver resp).writer = s.writer := by
  unfold St.deliver; split <;> rfl
@[simp] theorem deliver_closer : (s.deliver resp).closer = s.closer := by
  unfold St.deliver; split <;> rfl
@[simp] theorem deliver_closed : (s.deliver resp).closed = s.closed := by
  unfold St.deliver; split <;> rfl
@[simp] theorem deliver_opts : (s.deliver resp).opts = s.opts := by
  unfold St.deliver; split <;> rfl
@[simp] theorem deliver_nfut : (s.deliver resp).nfut = s.nfut := by
  unfold St.deliver; split <;> rfl

end

/-- The delivery only takes futures out of `conn.requests`. -/
theorem pending_of_deliver {resp : Response} {h : Nat} (hp : (s.deliver resp).Pending h) :
    s.Pending h := by
  cases hl : s.requests.lookup resp.requestId with
  | none => rwa [deliver_of_none hl] at hp
  | some h0 =>
    rw [deliver_of_some hl] at hp
    obtain ⟨id, hid⟩ := hp
    by_cases he : id = resp.requestId
    · subst he; simp [St.registry] at hid
    · exact ⟨id, by simpa [St.registry, AList.lookup_erase_ne he] using hid⟩

/-- After `register` the futures waiting are the new one and those that waited under
another id than the new one. -/
theorem pending_register {h : Nat} :
    s.register.Pending h ↔
      h = s.nfut ∨ ∃ id, id ≠ s.requestId + 1 ∧ s.requests.lookup id = some h := by
  simp only [St.register, St.nextRequestId, St.Pending, Registry.Pending, St.registry]
  constructor
  · rintro ⟨id, hid⟩
    by_cases he : id = s.requestId + 1
    · subst he; simp at hid; exact .inl hid.symm
    · exact .inr ⟨id, he, by simpa [AList.lookup_insert_ne he] using hid⟩
  · rintro (rfl | ⟨id, he, hid⟩)
    · exact ⟨s.requestId + 1, by simp⟩
    · exact ⟨id, by simpa [AList.lookup_insert_ne he] using hid⟩

theorem pending_of_register {h : Nat} (hp : s.register.Pending h) :
    h = s.nfut ∨ s.Pending h := by
  rcases pending_register.mp hp with rfl | ⟨id, -, hid⟩
  · exact .inl rfl
  · exact .inr ⟨id, hid⟩

/-! ## `dial` and `createConnection` -/

/-- Every way `conn.dial()` can end. -/
theorem St.dial_cases {net : Except GoError Link} {err : Option GoError}
    (h : s.dial codec net = some (s', err)) :
    (∃ g e, Dial.dial codec s.opts s.greeting net = some (g, .refused e) ∧
      s' = { s with greeting := g } ∧ err = some e) ∨
    (∃ g e sock, Dial.dial codec s.opts s.greeting net = some (g, .failed e sock) ∧
      s' = { s with greeting := g, socks := Function.update s.socks s.nsock sock,
                    nsock := s.nsock + 1 } ∧ err = some e) ∨
    (∃ g sock, Dial.dial codec s.opts s.greeting net = some (g, .ready sock) ∧
      s' = { s with greeting := g, socks := Function.update s.socks s.nsock sock,
                    nsock := s.nsock + 1, connection := some s.nsock, r := some s.nsock,
                    w := some s.nsock, authed := s.nsock :: s.authed } ∧ err = none) := by
  obtain ⟨⟨g, d⟩, hd, heq⟩ := Option.map_eq_some'.mp h
  cases d with
  | refused e => cases heq; exact .inl ⟨g, e, hd, rfl, rfl⟩
  | failed e sock => cases heq; exact .inr (.inl ⟨g, e, sock, hd, rfl, rfl⟩)
  | ready sock => cases heq; exact .inr (.inr ⟨g, sock, hd, rfl, rfl⟩)

/-- `conn.dial()` leaves the mutex and the loops alone, and a failed one leaves the current
socket's fields. -/
theorem St.dial_frame {net : Except GoError Link} {err : Option GoError}
    (h : s.dial codec net = some (s', err)) :
    s'.mutex = s.mutex ∧ s'.writer = s.writer ∧ s'.reader = s.reader ∧
      (err ≠ none → s'.connection = s.connection ∧ s'.r = s.r ∧ s'.w = s.w) := by
  rcases St.dial_cases h with ⟨_, _, -, rfl, -⟩ | ⟨_, _, _, -, rfl, -⟩ | ⟨_, _, -, rfl, rfl⟩
  · exact ⟨rfl, rfl, rfl, fun _ => ⟨rfl, rfl, rfl⟩⟩
  · exact ⟨rfl, rfl, rfl, fun _ => ⟨rfl, rfl, rfl⟩⟩
  · exact ⟨rfl, rfl, rfl, fun h => absurd rfl h⟩

/-- Every way one step of `createConnection` can go: take the mutex; return the current
socket; return nothing on a closed connection; or dial, and then return what the dial
published, sleep and loop, or give up. -/
theorem createConnection_cases {t : Thread} {net : Except GoError Link} {c : CreatePc}
    {out : CreatePc ⊕ (Option Nat × Option Nat)}
    (h : s.createConnection codec t net c = some (s', out)) :
    (c = .lock ∧ s.mutex = none ∧ s' = { s with mutex := some t } ∧ out = .inl .loop) ∨
    (c = .loop ∧ s.connection ≠ none ∧ s' = { s with mutex := none } ∧
      out = .inr (s.r, s.w)) ∨
    (c = .loop ∧ s.connection = none ∧ s.closed = true ∧ s' = { s with mutex := none } ∧
      out = .inr (none, none)) ∨
    (c = .loop ∧ s.connection = none ∧ s.closed = false ∧ ∃ s1 err,
      s.dial codec net = some (s1, err) ∧
      ((err = none ∧ s' = { s1 with mutex := none } ∧ out = .inr (s1.r, s1.w)) ∨
        (err ≠ none ∧ 0 < s.opts.reconnect ∧ s' = s1 ∧ out = .inl .loop) ∨
        (err ≠ none ∧ ¬ 0 < s.opts.reconnect ∧ s' = { s1 with mutex := none } ∧
          out = .inr (none, none)))) := by
  cases c with
  | lock =>
    simp only [St.createConnection] at h
    split_ifs at h with hm
    cases h; exact .inl ⟨rfl, hm, rfl, rfl⟩
  | loop =>
    obtain ⟨⟨s1, o⟩, ht, heq⟩ := Option.map_eq_some'.mp h
    simp only [St.createTurn] at ht
    by_cases hc : s.connection = none
    · simp only [hc] at ht
      rcases Bool.eq_false_or_eq_true s.closed with hcl | hcl
      · simp only [hcl, if_true, Option.some.injEq] at ht
        cases ht; cases heq
        exact .inr (.inr (.inl ⟨rfl, hc, hcl, rfl, rfl⟩))
      · simp only [hcl, Bool.false_eq_true, if_false] at ht
        obtain ⟨⟨s2, err⟩, hd, heq2⟩ := Option.map_eq_some'.mp ht
        refine .inr (.inr (.inr ⟨rfl, hc, hcl, s2, err, hd, ?_⟩))
        cases err with
        | none => cases heq2; cases heq; exact .inl ⟨rfl, rfl, rfl⟩
        | some e =>
          by_cases hr : 0 < s.opts.reconnect
          · simp only [hr, if_true] at heq2; cases heq2; cases heq
            exact .inr (.inl ⟨by simp, hr, rfl, rfl⟩)
          · simp only [hr, if_false] at heq2; cases heq2; cases heq
            exact .inr (.inr ⟨by simp, hr, rfl, rfl⟩)
    · obtain ⟨k, hk⟩ := Option.ne_none_iff_exists'.mp hc
      simp only [hk, Option.some.injEq, Prod.mk.injEq] at ht
      obtain ⟨rfl, rfl⟩ := ht; cases heq
      exact .inr (.inl ⟨rfl, hc, rfl, rfl⟩)

/-! ## Frames -/

/-- What no step of `createConnection` touches. -/
theorem createConnection_frame {t : Thread} {net : Except GoError Link} {c : CreatePc}
    {out : CreatePc ⊕ (Option Nat × Option Nat)}
    (h : s.createConnection codec t net c = some (s', out)) :
    s'.registry = s.registry ∧ s'.writer = s.writer ∧ s'.reader = s.reader ∧
      s'.closer = s.closer ∧ s'.closed = s.closed ∧ s'.opts = s.opts := by
  rcases createConnection_cases h with ⟨-, -, rfl, -⟩ | ⟨-, -, rfl, -⟩ | ⟨-, -, -, rfl, -⟩ |
    ⟨-, -, -, s1, err, hd, ⟨-, rfl, -⟩ | ⟨-, -, rfl, -⟩ | ⟨-, -, rfl, -⟩⟩
  all_goals first
    | exact ⟨rfl, rfl, rfl, rfl, rfl, rfl⟩
    | rcases St.dial_cases hd with ⟨_, _, _, rfl, -⟩ | ⟨_, _, _, _, rfl, -⟩ | ⟨_, _, _, rfl, -⟩ <;>
        exact ⟨rfl, rfl, rfl, rfl, rfl, rfl⟩

/-- A step of the writer loop leaves the other goroutines, `conn.closed` and the options
alone, and changes the registry only by `closeConnection`. -/
theorem writerStep_frame {env : Env} (h : s.writerStep codec env = some s') :
    s'.reader = s.reader ∧ s'.closer = s.closer ∧ s'.closed = s.closed ∧ s'.opts = s.opts ∧
      (s'.registry = s.registry ∨ ∃ e, s'.registry = (s.closeConnection e).registry) := by
  unfold St.writerStep at h
  split at h
  · split at h <;> (cases h; exact ⟨rfl, rfl, rfl, rfl, .inl rfl⟩)
  · cases h; exact ⟨rfl, rfl, rfl, rfl, .inl rfl⟩
  · cases h; exact ⟨rfl, rfl, rfl, rfl, .inl rfl⟩
  · split_ifs at h; cases h
    exact ⟨closeConnection_reader .., closeConnection_closer .., closeConnection_closed ..,
      closeConnection_opts .., .inr ⟨_, rfl⟩⟩
  · split at h <;> (try split at h) <;> cases h <;> exact ⟨rfl, rfl, rfl, rfl, .inl rfl⟩
  · cases h; exact ⟨rfl, rfl, rfl, rfl, .inl rfl⟩
  · obtain ⟨⟨s1, out⟩, hcc, heq⟩ := Option.map_eq_some'.mp h
    obtain ⟨hr, -, hrd, hcl, hcd, ho⟩ := createConnection_frame hcc
    cases out with
    | inl c => cases heq; exact ⟨hrd, hcl, hcd, ho, .inl hr⟩
    | inr rw => cases heq; exact ⟨hrd, hcl, hcd, ho, .inl hr⟩
  · cases h; exact ⟨rfl, rfl, rfl, rfl, .inl rfl⟩
  · split_ifs at h; cases h
    exact ⟨closeConnection_reader .., closeConnection_closer .., closeConnection_closed ..,
      closeConnection_opts .., .inr ⟨_, rfl⟩⟩
  · cases h

/-- A step of the reader loop leaves the writer, `Close`, `conn.closed` and the options
alone, and changes the registry only by `closeConnection` or a delivery. -/
theorem readerStep_frame {env : Env} (h : s.readerStep codec env = some s') :
    s'.writer = s.writer ∧ s'.closer = s.closer ∧ s'.closed = s.closed ∧ s'.opts = s.opts ∧
      (s'.registry = s.registry ∨ (∃ e, s'.registry = (s.closeConnection e).registry) ∨
        ∃ resp, s'.registry = (s.deliver resp).registry) := by
  unfold St.readerStep at h
  split at h
  · cases h; exact ⟨rfl, rfl, rfl, rfl, .inl rfl⟩
  · obtain ⟨⟨s1, out⟩, hcc, heq⟩ := Option.map_eq_some'.mp h
    obtain ⟨hr, hw, -, hcl, hcd, ho⟩ := createConnection_frame hcc
    cases out with
    | inl c => cases heq; exact ⟨hw, hcl, hcd, ho, .inl hr⟩
    | inr rw => cases heq; exact ⟨hw, hcl, hcd, ho, .inl hr⟩
  · obtain ⟨⟨res, r⟩, -, heq⟩ := Option.map_eq_some'.mp h
    cases heq; exact ⟨rfl, rfl, rfl, rfl, .inl rfl⟩
  · split_ifs at h; cases h
    exact ⟨closeConnection_writer .., closeConnection_closer .., closeConnection_closed ..,
      closeConnection_opts .., .inr (.inl ⟨_, rfl⟩)⟩
  · split_ifs at h; cases h
    exact ⟨deliver_writer .., deliver_closer .., deliver_closed .., deliver_opts ..,
      .inr (.inr ⟨_, rfl⟩)⟩
  · cases h

/-- **What a step does to the registry.** Nothing, or one `closeConnection`, one delivery
of a response, or one `register` on an open connection. -/
theorem step_registry {e : Event} (h : step codec s e = some s') :
    s'.registry = s.registry ∨ (∃ err, s'.registry = (s.closeConnection err).registry) ∨
      (∃ resp, s'.registry = (s.deliver resp).registry) ∨
      (s.closed = false ∧ s'.registry = s.register.registry) := by
  cases e with
  | writer env =>
    rcases (writerStep_frame h).2.2.2.2 with h1 | h1
    · exact .inl h1
    · exact .inr (.inl h1)
  | reader env =>
    rcases (readerStep_frame h).2.2.2.2 with h1 | h1 | h1
    · exact .inl h1
    · exact .inr (.inl h1)
    · exact .inr (.inr (.inl h1))
  | close =>
    simp only [step, St.closerStep] at h
    split at h
    · cases h; exact .inl rfl
    · cases h; exact .inl rfl
    · split_ifs at h; cases h; exact .inr (.inl ⟨_, rfl⟩)
    · cases h
  | submit =>
    simp only [step, St.submit] at h
    split_ifs at h with hm hc
    · cases h; exact .inl rfl
    · cases h; exact .inr (.inr (.inr ⟨by simpa using hc, rfl⟩))
  | enqueue i => obtain ⟨p, -, rfl⟩ := enqueue_eq h; exact .inl rfl
  | recv k c => simp only [step] at h; split_ifs at h; cases h; exact .inl rfl
  | drop k e => simp only [step] at h; split_ifs at h; cases h; exact .inl rfl

/-- Only `Close` sets `conn.closed` and moves its own program counter, and no step changes
the options. -/
theorem step_frame {e : Event} (h : step codec s e = some s') :
    s'.opts = s.opts ∧ (e = .close ∨ s'.closed = s.closed ∧ s'.closer = s.closer) := by
  cases e with
  | writer env =>
    obtain ⟨-, hc, hcd, ho, -⟩ := writerStep_frame h
    exact ⟨ho, .inr ⟨hcd, hc⟩⟩
  | reader env =>
    obtain ⟨-, hc, hcd, ho, -⟩ := readerStep_frame h
    exact ⟨ho, .inr ⟨hcd, hc⟩⟩
  | close =>
    simp only [step, St.closerStep] at h
    split at h
    · cases h; exact ⟨rfl, .inl rfl⟩
    · cases h; exact ⟨rfl, .inl rfl⟩
    · split_ifs at h; cases h; exact ⟨closeConnection_opts .., .inl rfl⟩
    · cases h
  | submit =>
    simp only [step, St.submit] at h
    split_ifs at h <;> cases h <;> exact ⟨rfl, .inr ⟨rfl, rfl⟩⟩
  | enqueue i => obtain ⟨p, -, rfl⟩ := enqueue_eq h; exact ⟨rfl, .inr ⟨rfl, rfl⟩⟩
  | recv k c => simp only [step] at h; split_ifs at h; cases h; exact ⟨rfl, .inr ⟨rfl, rfl⟩⟩
  | drop k e => simp only [step] at h; split_ifs at h; cases h; exact ⟨rfl, .inr ⟨rfl, rfl⟩⟩

end GoTarantool.Connection

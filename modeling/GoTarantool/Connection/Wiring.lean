import GoTarantool.Connection.Registry

/-!
# Publishing a socket

`conn.connection`, `conn.r` and `conn.w` change together: `dial` sets all three to the
socket it opened once the greeting and authentication passed (lines 93-96), and
`closeConnection` clears all three. The mutex is held, across steps, only by the goroutine
inside the loop of `createConnection`. Over every interleaving:

* `reachable_wired` — `conn.r` and `conn.w` are the current socket's, the current socket
  was published by a ready `dial`, and the goroutine inside the loop of `createConnection`
  holds the mutex; `current_socket_published` states the first two;
* **`createConnection_publishes`** — every step of `createConnection` takes the free mutex,
  returns the published socket, returns nothing on a closed connection, or dials holding
  the mutex on a connection without a socket: a ready dial publishes a socket on which
  every authentication step passed, a failed one leaves the three fields as they were and
  the socket it opened closed, and a failure returns nothing only when `Reconnect <= 0`;
* `stale_error_drops_new_socket` — a read error on a socket that a reconnect has already
  replaced makes the reader tear down the new socket and fail the futures registered on it.
-/

namespace GoTarantool.Connection

open GoTarantool.Stream GoTarantool.Net GoTarantool.Dial

variable {codec : Codec} {s s' : St}

/-- `conn.r` and `conn.w` belong to the current socket, which a ready `dial` published. -/
structure Linked (s : St) : Prop where
  r_eq : s.r = s.connection
  w_eq : s.w = s.connection
  published : ∀ k, s.connection = some k → k < s.nsock ∧ k ∈ s.authed

/-- `Linked`, and the goroutine inside the loop of `createConnection` holds `conn.mutex`. -/
structure Wired (s : St) extends Linked s : Prop where
  writerLoop : ∀ p, s.writer = .create p .loop → s.mutex = some .writer
  readerLoop : s.reader = .create .loop → s.mutex = some .reader

theorem wired_init (opts : Opts) : Wired (init opts) :=
  ⟨⟨rfl, rfl, fun _ h => (by cases h)⟩, fun _ h => (by cases h), fun h => (by cases h)⟩

theorem Linked.closeConnection (e : GoError) (hl : Linked s) : Linked (s.closeConnection e) := by
  cases hc : s.connection with
  | none => rw [closeConnection_of_none hc]; exact hl
  | some k => rw [closeConnection_of_some hc]; exact ⟨rfl, rfl, fun _ h => (by cases h)⟩

theorem Linked.dial {net : Except GoError Link} {err : Option GoError} (hl : Linked s)
    (hc : s.connection = none) (h : s.dial codec net = some (s', err)) : Linked s' := by
  rcases St.dial_cases h with ⟨g, e, -, rfl, -⟩ | ⟨g, e, sock, -, rfl, -⟩ | ⟨g, sock, -, rfl, -⟩
  · exact ⟨hl.r_eq, hl.w_eq, hl.published⟩
  · exact ⟨hl.r_eq, hl.w_eq, fun k hk => by simp [hc] at hk⟩
  · exact ⟨rfl, rfl, fun k hk => by
      cases hk; exact ⟨Nat.lt_succ_self _, List.mem_cons_self _ _⟩⟩

/-- A step of `createConnection` keeps `Linked` and needs the mutex free or held by its
caller; inside the loop the mutex stays with the caller, and a return gives it back with the
current socket's reader and writer. -/
theorem Linked.createConnection {t : Thread} {net : Except GoError Link} {c : CreatePc}
    {out : CreatePc ⊕ (Option Nat × Option Nat)} (hl : Linked s)
    (hm : c = .loop → s.mutex = some t) (h : s.createConnection codec t net c = some (s', out)) :
    Linked s' ∧ (s.mutex = none ∨ s.mutex = some t) ∧
      (∀ c', out = .inl c' → c' = .loop ∧ s'.mutex = some t) ∧
      (∀ r w, out = .inr (r, w) → s'.mutex = none ∧ r = s'.connection ∧ w = s'.connection) := by
  rcases createConnection_cases h with ⟨rfl, hm0, rfl, rfl⟩ | ⟨rfl, -, rfl, rfl⟩ |
    ⟨rfl, hc, -, rfl, rfl⟩ | ⟨rfl, hc, -, s1, err, hd, ⟨-, rfl, rfl⟩ | ⟨he, -, rfl, rfl⟩ |
      ⟨he, -, rfl, rfl⟩⟩
  · refine ⟨⟨hl.r_eq, hl.w_eq, hl.published⟩, .inl hm0, fun _ h => ?_, fun _ _ h => ?_⟩ <;>
      cases h; exact ⟨rfl, rfl⟩
  · refine ⟨⟨hl.r_eq, hl.w_eq, hl.published⟩, .inr (hm rfl), fun _ h => ?_, fun _ _ h => ?_⟩ <;>
      cases h; exact ⟨rfl, hl.r_eq, hl.w_eq⟩
  · refine ⟨⟨hl.r_eq, hl.w_eq, hl.published⟩, .inr (hm rfl), fun _ h => ?_, fun _ _ h => ?_⟩ <;>
      cases h; exact ⟨rfl, hc.symm, hc.symm⟩
  · have h1 := hl.dial hc hd
    refine ⟨⟨h1.r_eq, h1.w_eq, h1.published⟩, .inr (hm rfl), fun _ h => ?_, fun _ _ h => ?_⟩ <;>
      cases h; exact ⟨rfl, h1.r_eq, h1.w_eq⟩
  · refine ⟨hl.dial hc hd, .inr (hm rfl), fun _ h => ?_, fun _ _ h => ?_⟩ <;> cases h
    exact ⟨rfl, (St.dial_frame hd).1.trans (hm rfl)⟩
  · have h1 := hl.dial hc hd
    have hc1 := ((St.dial_frame hd).2.2.2 he).1.trans hc
    refine ⟨⟨h1.r_eq, h1.w_eq, h1.published⟩, .inr (hm rfl), fun _ h => ?_, fun _ _ h => ?_⟩ <;>
      cases h; exact ⟨rfl, hc1.symm, hc1.symm⟩

theorem Wired.closeConnection (e : GoError) (hw : Wired s) :
    Linked (s.closeConnection e) ∧ ((s.closeConnection e).reader = .create .loop →
      (s.closeConnection e).mutex = some .reader) := by
  refine ⟨hw.toLinked.closeConnection e, fun h => ?_⟩
  simpa using hw.readerLoop (by simpa using h)

theorem Wired.writerStep {env : Env} (hw : Wired s) (h : s.writerStep codec env = some s') :
    Wired s' := by
  have hl : Linked s := hw.toLinked
  unfold St.writerStep at h
  split at h
  · split at h <;> cases h <;>
      exact ⟨⟨hl.r_eq, hl.w_eq, hl.published⟩, fun _ h => (by cases h), hw.readerLoop⟩
  · cases h
    exact ⟨⟨hl.r_eq, hl.w_eq, hl.published⟩, fun _ h => (by split at h <;> cases h),
      hw.readerLoop⟩
  · cases h
    exact ⟨⟨hl.r_eq, hl.w_eq, hl.published⟩, fun _ h => (by split at h <;> cases h),
      hw.readerLoop⟩
  · split_ifs at h; cases h
    obtain ⟨h1, hr⟩ := hw.closeConnection _
    exact ⟨⟨h1.r_eq, h1.w_eq, h1.published⟩, fun _ h => (by cases h), hr⟩
  · split at h <;> (try split at h) <;> cases h <;>
      exact ⟨⟨hl.r_eq, hl.w_eq, hl.published⟩, fun _ h => (by cases h), hw.readerLoop⟩
  · cases h
    exact ⟨⟨hl.r_eq, hl.w_eq, hl.published⟩, fun _ h => (by split at h <;> cases h),
      hw.readerLoop⟩
  · next p c hwr =>
    obtain ⟨⟨s1, out⟩, hcc, heq⟩ := Option.map_eq_some'.mp h
    obtain ⟨h1, hfree, hin, -⟩ :=
      hl.createConnection (fun hc => hw.writerLoop p (hc ▸ hwr)) hcc
    have hrd : s1.reader = s.reader := (createConnection_frame hcc).2.2.1
    have hnr : s1.reader ≠ .create .loop := fun hr => by
      rw [hrd] at hr
      rcases hfree with hf | hf <;> rw [hw.readerLoop hr] at hf <;> cases hf
    cases out with
    | inl c' =>
      dsimp only at heq; cases heq
      obtain ⟨rfl, hm'⟩ := hin c' rfl
      exact ⟨⟨h1.r_eq, h1.w_eq, h1.published⟩, fun _ _ => hm', fun hr => absurd hr hnr⟩
    | inr rw =>
      obtain ⟨r, w⟩ := rw
      dsimp only at heq; cases heq
      exact ⟨⟨h1.r_eq, h1.w_eq, h1.published⟩, fun _ h => (by split at h <;> cases h),
        fun hr => absurd hr hnr⟩
  · cases h
    exact ⟨⟨hl.r_eq, hl.w_eq, hl.published⟩, fun _ h => (by split at h <;> cases h),
      hw.readerLoop⟩
  · split_ifs at h; cases h
    obtain ⟨h1, hr⟩ := hw.closeConnection _
    exact ⟨⟨h1.r_eq, h1.w_eq, h1.published⟩, fun _ h => (by cases h), hr⟩
  · cases h

theorem Wired.readerStep {env : Env} (hw : Wired s) (h : s.readerStep codec env = some s') :
    Wired s' := by
  have hl : Linked s := hw.toLinked
  unfold St.readerStep at h
  split at h
  · cases h
    exact ⟨⟨hl.r_eq, hl.w_eq, hl.published⟩, hw.writerLoop, fun h => (by split at h <;> cases h)⟩
  · next c hrd =>
    obtain ⟨⟨s1, out⟩, hcc, heq⟩ := Option.map_eq_some'.mp h
    obtain ⟨h1, hfree, hin, -⟩ :=
      hl.createConnection (fun hc => hw.readerLoop (hc ▸ hrd)) hcc
    have hwr : s1.writer = s.writer := (createConnection_frame hcc).2.1
    have hnw : ∀ p, s1.writer ≠ .create p .loop := fun p hp => by
      rw [hwr] at hp
      rcases hfree with hf | hf <;> rw [hw.writerLoop p hp] at hf <;> cases hf
    cases out with
    | inl c' =>
      dsimp only at heq; cases heq
      obtain ⟨rfl, hm'⟩ := hin c' rfl
      exact ⟨⟨h1.r_eq, h1.w_eq, h1.published⟩, fun p hp => absurd hp (hnw p), fun _ => hm'⟩
    | inr rw =>
      obtain ⟨r, w⟩ := rw
      dsimp only at heq; cases heq
      exact ⟨⟨h1.r_eq, h1.w_eq, h1.published⟩, fun p hp => absurd hp (hnw p),
        fun h => (by split at h <;> cases h)⟩
  · obtain ⟨⟨res, r⟩, -, heq⟩ := Option.map_eq_some'.mp h
    dsimp only at heq; cases heq
    exact ⟨⟨hl.r_eq, hl.w_eq, hl.published⟩, hw.writerLoop,
      fun h => (by split at h <;> (try split at h) <;> cases h)⟩
  · next e _ =>
    split_ifs at h; cases h
    have h1 := hl.closeConnection e
    exact ⟨⟨h1.r_eq, h1.w_eq, h1.published⟩,
      fun p hp => by simpa using hw.writerLoop p (by simpa using hp), fun h => (by cases h)⟩
  · split_ifs at h; cases h
    obtain ⟨rq, fs, hd⟩ := deliver_eq (s := s) _
    rw [hd]
    exact ⟨⟨hl.r_eq, hl.w_eq, hl.published⟩, hw.writerLoop, fun h => (by cases h)⟩
  · cases h

theorem Wired.closerStep (hw : Wired s) (h : s.closerStep = some s') : Wired s' := by
  unfold St.closerStep at h
  split at h
  · cases h; exact ⟨⟨hw.r_eq, hw.w_eq, hw.published⟩, hw.writerLoop, hw.readerLoop⟩
  · cases h; exact ⟨⟨hw.r_eq, hw.w_eq, hw.published⟩, hw.writerLoop, hw.readerLoop⟩
  · split_ifs at h; cases h
    obtain ⟨h1, hr⟩ := hw.closeConnection _
    exact ⟨⟨h1.r_eq, h1.w_eq, h1.published⟩,
      fun p hp => by simpa using hw.writerLoop p (by simpa using hp), hr⟩
  · cases h

theorem wired_step {e : Event} (hw : Wired s) (h : step codec s e = some s') : Wired s' := by
  cases e with
  | writer env => exact hw.writerStep h
  | reader env => exact hw.readerStep h
  | close => exact hw.closerStep h
  | submit =>
    simp only [step, St.submit] at h
    split_ifs at h <;> cases h
    · exact hw
    · exact ⟨⟨hw.r_eq, hw.w_eq, hw.published⟩, hw.writerLoop, hw.readerLoop⟩
  | enqueue i =>
    obtain ⟨p, -, rfl⟩ := enqueue_eq h
    exact ⟨⟨hw.r_eq, hw.w_eq, hw.published⟩, hw.writerLoop, hw.readerLoop⟩
  | recv k c =>
    simp only [step] at h; split_ifs at h; cases h
    exact ⟨⟨hw.r_eq, hw.w_eq, hw.published⟩, hw.writerLoop, hw.readerLoop⟩
  | drop k e =>
    simp only [step] at h; split_ifs at h; cases h
    exact ⟨⟨hw.r_eq, hw.w_eq, hw.published⟩, hw.writerLoop, hw.readerLoop⟩

/-- **Wiring, over every run.** -/
theorem reachable_wired (hs : Reachable codec s) : Wired s := by
  induction hs with
  | init opts => exact wired_init opts
  | step e _ h ih => exact wired_step ih h

/-! ## `createConnection` -/

/-- Goroutine `t` is inside `createConnection` at `c`. -/
def St.CreateAt (s : St) : Thread → CreatePc → Prop
  | .writer, c => ∃ p, s.writer = .create p c
  | .reader, c => s.reader = .create c

/-- **A socket is published only when it is fully set up.** In every reachable state, a step
of `createConnection` by `t` takes the free mutex; or, holding the mutex, returns the current
socket, which a ready `dial` published; returns nothing on a closed connection; or dials on a
connection without a socket. A dial publishes a socket only when `net.Dial`, the greeting
read and every authentication step passed (`AuthPassed`), and returns its reader and writer;
a failed dial leaves `conn.connection`, `conn.r` and `conn.w` as they were and the socket it
opened closed, and then sleeps and retries, or returns nothing when `Reconnect <= 0`. -/
theorem createConnection_publishes {t : Thread} {c : CreatePc} {net : Except GoError Link}
    {out : CreatePc ⊕ (Option Nat × Option Nat)} (hs : Reachable codec s)
    (ht : s.CreateAt t c) (h : s.createConnection codec t net c = some (s', out)) :
    (c = .lock ∧ s.mutex = none ∧ s' = { s with mutex := some t } ∧ out = .inl .loop) ∨
    (c = .loop ∧ s.mutex = some t ∧ ∃ k, s.connection = some k ∧ k ∈ s.authed ∧
      s' = { s with mutex := none } ∧ out = .inr (some k, some k)) ∨
    (c = .loop ∧ s.mutex = some t ∧ s.connection = none ∧ s.closed = true ∧
      s' = { s with mutex := none } ∧ out = .inr (none, none)) ∨
    (c = .loop ∧ s.mutex = some t ∧ s.connection = none ∧ s.closed = false ∧
      ∃ l got src sock, net = .ok l ∧ (Socket.fresh l).r.src.read 128 = some (.ok got, src) ∧
        AuthPassed codec s.opts (parseGreeting (greetingBuf got))
          { Socket.fresh l with r := { (Socket.fresh l).r with src } } sock ∧
        s' = { s with greeting := parseGreeting (greetingBuf got),
                      socks := Function.update s.socks s.nsock sock, nsock := s.nsock + 1,
                      connection := some s.nsock, r := some s.nsock, w := some s.nsock,
                      authed := s.nsock :: s.authed, mutex := none } ∧
        out = .inr (some s.nsock, some s.nsock)) ∨
    (c = .loop ∧ s.mutex = some t ∧ s.connection = none ∧ s.closed = false ∧
      ∃ s1 e, s.dial codec net = some (s1, some e) ∧
        s1.connection = s.connection ∧ s1.r = s.r ∧ s1.w = s.w ∧
        (s1.nsock = s.nsock ∨
          s1.nsock = s.nsock + 1 ∧ (s1.socks s.nsock).fault = some closedErr) ∧
        ((0 < s.opts.reconnect ∧ s' = s1 ∧ out = .inl .loop) ∨
          (s.opts.reconnect ≤ 0 ∧ s' = { s1 with mutex := none } ∧
            out = .inr (none, none)))) := by
  have hw := reachable_wired hs
  have hm : c = .loop → s.mutex = some t := by
    rintro rfl
    cases t with
    | writer => obtain ⟨p, hp⟩ := ht; exact hw.writerLoop p hp
    | reader => exact hw.readerLoop ht
  rcases createConnection_cases h with ⟨rfl, hm0, rfl, rfl⟩ | ⟨rfl, hc, rfl, rfl⟩ |
    ⟨rfl, hc, hcl, rfl, rfl⟩ | ⟨rfl, hc, hcl, s1, err, hd, hout⟩
  · exact .inl ⟨rfl, hm0, rfl, rfl⟩
  · obtain ⟨k, hk⟩ := Option.ne_none_iff_exists'.mp hc
    refine .inr (.inl ⟨rfl, hm rfl, k, hk, (hw.published k hk).2, rfl, ?_⟩)
    rw [hw.r_eq, hw.w_eq, hk]
  · exact .inr (.inr (.inl ⟨rfl, hm rfl, hc, hcl, rfl, rfl⟩))
  · -- a failed dial sleeps and retries, or gives up when `Reconnect <= 0`
    have hretry : err ≠ none → (0 < s.opts.reconnect ∧ s' = s1 ∧ out = .inl .loop) ∨
        (s.opts.reconnect ≤ 0 ∧ s' = { s1 with mutex := none } ∧ out = .inr (none, none)) :=
      fun he => by
        rcases hout with ⟨h, -⟩ | ⟨-, hr, rfl, rfl⟩ | ⟨-, hr, rfl, rfl⟩
        · exact absurd h he
        · exact .inl ⟨hr, rfl, rfl⟩
        · exact .inr ⟨not_lt.mp hr, rfl, rfl⟩
    rcases St.dial_cases hd with ⟨g, e, hdd, rfl, rfl⟩ | ⟨g, e, sock, hdd, rfl, rfl⟩ |
      ⟨g, sock, hdd, rfl, rfl⟩
    · exact .inr (.inr (.inr (.inr ⟨rfl, hm rfl, hc, hcl, _, e, hd, rfl, rfl, rfl,
        .inl rfl, hretry (Option.some_ne_none e)⟩)))
    · exact .inr (.inr (.inr (.inr ⟨rfl, hm rfl, hc, hcl, _, e, hd, rfl, rfl, rfl,
        .inr ⟨rfl, by simpa using dial_failed_closed hdd⟩, hretry (Option.some_ne_none e)⟩)))
    · rcases hout with ⟨-, rfl, rfl⟩ | ⟨h, -⟩ | ⟨h, -⟩
      · obtain ⟨l, got, src, rfl, hread, rfl, hauth⟩ := dial_ready_iff.mp hdd
        exact .inr (.inr (.inr (.inl ⟨rfl, hm rfl, hc, hcl, l, got, src, sock, rfl, hread,
          auth_ok_iff.mp hauth, rfl, rfl⟩)))
      all_goals exact absurd rfl h

/-- A server that sends a greeting of 128 zero bytes in one chunk and then stays silent, on
a socket whose writes fail with `fault`, if any. -/
def greetedLink (fault : Option GoError) : Link :=
  ⟨⟨[⟨List.replicate 128 0, by simp⟩], .more⟩, fault⟩

/-- Steps that buffer writes and dial `greetedLink none`. -/
def quietEnv : Env := ⟨false, false, .ok (greetedLink none)⟩

theorem createConnection_publishes_at_connect :
    ∃ s s' out, Reachable silentCodec s ∧ s.CreateAt .reader .loop ∧
      s.createConnection silentCodec .reader (.ok (greetedLink none)) .loop = some (s', out) ∧
      s.mutex = some .reader := by
  have hs := run_reachable (.init guest) (rfl : run silentCodec (init guest)
    [.reader quietEnv, .reader quietEnv] =
      some { init guest with reader := .create .loop, mutex := some .reader })
  have ht : St.CreateAt { init guest with reader := .create .loop, mutex := some .reader }
    .reader .loop := rfl
  obtain ⟨s', out, hc⟩ : ∃ s' out, St.createConnection silentCodec .reader
      (.ok (greetedLink none)) { init guest with reader := .create .loop, mutex := some .reader }
      .loop = some (s', out) := ⟨_, _, rfl⟩
  refine ⟨_, s', out, hs, ht, hc, ?_⟩
  rcases createConnection_publishes hs ht hc with ⟨h, -⟩ | ⟨-, hm, -⟩ | ⟨-, hm, -⟩ |
    ⟨-, hm, -⟩ | ⟨-, hm, -⟩
  · cases h
  all_goals exact hm

/-- The writer's flushes fail on the socket the reader dials first. -/
def brokenEnv : Env := ⟨false, false, .ok (greetedLink (some "broken pipe"))⟩

/-- The reader dials socket `0` and blocks reading it. The writer's flush on socket `0`
fails, `closeConnection` closes it, and the writer redials socket `1` for the next request;
a third request is registered on socket `1`. Only then does the reader's read on the closed
socket `0` fail. -/
def staleTrace : List Event :=
  [.submit, .enqueue 0, .reader brokenEnv, .reader brokenEnv, .reader brokenEnv] ++
  List.replicate 7 (.writer quietEnv) ++ [.submit, .enqueue 0] ++
  List.replicate 8 (.writer quietEnv) ++ [.submit, .reader quietEnv]

set_option maxRecDepth 100000 in
/-- **A stale error tears down the new socket.** At the end of `staleTrace` the reader holds
a read error from socket `0`, which is no longer current: socket `1` is, and future `2` waits
on it under id `3`. The reader's `closeConnection` closes socket `1`, clears the three
fields and fails future `2` with socket `0`'s error. -/
theorem stale_error_drops_new_socket (codec : Codec) :
    ∃ s s', Reachable codec s ∧ s.reader = .failed 0 closedErr ∧ s.connection = some 1 ∧
      s.requests.lookup 3 = some 2 ∧ step codec s (.reader quietEnv) = some s' ∧
      s'.connection = none ∧ (s'.socks 1).fault = some closedErr ∧
      s'.requests.lookup 3 = none ∧ (s'.futs 2).err = some closedErr :=
  ⟨_, _, run_reachable (.init _) (rfl : run codec (init guest) staleTrace = some _),
    rfl, rfl, rfl, rfl, rfl, rfl, rfl, rfl⟩

end GoTarantool.Connection

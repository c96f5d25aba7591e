import GoTarantool.Connection.Close

/-!
# After `Close`: no socket stays open, and both loops return

`createConnection` holds `conn.mutex` from its `Lock` to its deferred `Unlock`
(src/unnamed/part_000, lines 159-160) and dials only while `conn.closed` is unset
(lines 161-164); `closeConnection` closes the socket it drops (line 190); `Close` sets
`conn.closed`, closes `conn.control` and calls `closeConnection` (lines 62-67). Over every
interleaving:

* `mutex_held_in_create_loop` — `conn.mutex` is held by the writer or by the reader exactly
  while it is inside the loop of `createConnection`;
* `sockets_shut` — every socket `dial` opened, other than `conn.connection`, is closed or
  dropped: its writes fail and its reads end; once `Close` has returned no socket is current;
* **`loops_return_after_close`** — once `Close` has returned, the writer and the reader loop
  return within fifteen of their own steps, whatever else runs between them, and until both
  have returned one of them can always take a step, whatever the environment answers.
-/

namespace GoTarantool.Connection

open GoTarantool.Stream GoTarantool.Net GoTarantool.Dial

variable {codec : Codec} {s s' : St}

/-! ## The mutex -/

/-- Only a goroutine inside the loop of `createConnection` holds `conn.mutex`. -/
structure Locked (s : St) : Prop where
  writer : s.mutex = some .writer → ∃ p, s.writer = .create p .loop
  reader : s.mutex = some .reader → s.reader = .create .loop

theorem locked_init (opts : Opts) : Locked (init opts) :=
  ⟨fun h => (by cases h), fun h => (by cases h)⟩

theorem Locked.same (hl : Locked s) (hm : s'.mutex = s.mutex) (hw : s'.writer = s.writer)
    (hr : s'.reader = s.reader) : Locked s' :=
  ⟨fun h => hw ▸ hl.writer (hm ▸ h), fun h => hr ▸ hl.reader (hm ▸ h)⟩

theorem Locked.free (hm : s.mutex = none) : Locked s :=
  ⟨fun h => (by rw [hm] at h; cases h), fun h => (by rw [hm] at h; cases h)⟩

/-- A step of the writer that does not start at the loop of `createConnection` and leaves the
mutex and the reader alone. -/
theorem Locked.writer_move (hl : Locked s) (hx : ∀ p, s.writer ≠ .create p .loop)
    (hm : s'.mutex = s.mutex) (hr : s'.reader = s.reader) : Locked s' :=
  ⟨fun h => absurd (hl.writer (hm ▸ h)).choose_spec (hx _), fun h => hr ▸ hl.reader (hm ▸ h)⟩

theorem Locked.reader_move (hl : Locked s) (hx : s.reader ≠ .create .loop)
    (hm : s'.mutex = s.mutex) (hw : s'.writer = s.writer) : Locked s' :=
  ⟨fun h => hw ▸ hl.writer (hm ▸ h), fun h => absurd (hl.reader (hm ▸ h)) hx⟩

theorem Locked.writerStep {env : Env} (hw : Wired s) (hl : Locked s)
    (h : s.writerStep codec env = some s') : Locked s' := by
  unfold St.writerStep at h
  split at h
  · split at h <;> cases h <;> exact hl.writer_move (fun _ _ => by simp_all) rfl rfl
  · cases h; exact hl.writer_move (fun _ _ => by simp_all) rfl rfl
  · cases h; exact hl.writer_move (fun _ _ => by simp_all) rfl rfl
  · split_ifs at h with hm; cases h; exact Locked.free (by simpa using hm)
  · split at h <;> (try split at h) <;> cases h <;>
      exact hl.writer_move (fun _ _ => by simp_all) rfl rfl
  · cases h; exact hl.writer_move (fun _ _ => by simp_all) rfl rfl
  · next p c hwr =>
    obtain ⟨⟨s1, out⟩, hcc, rfl⟩ := Option.map_eq_some'.mp h
    obtain ⟨-, -, hin, hret⟩ :=
      hw.toLinked.createConnection (fun hc => hw.writerLoop p (hc ▸ hwr)) hcc
    rcases out with c' | ⟨r, w⟩
    · obtain ⟨rfl, hm⟩ := hin c' rfl
      exact ⟨fun _ => ⟨p, rfl⟩, fun h => by rw [hm] at h; cases h⟩
    · exact Locked.free (hret r w rfl).1
  · cases h; exact hl.writer_move (fun _ _ => by simp_all) rfl rfl
  · split_ifs at h with hm; cases h; exact Locked.free (by simpa using hm)
  · cases h

theorem Locked.readerStep {env : Env} (hw : Wired s) (hl : Locked s)
    (h : s.readerStep codec env = some s') : Locked s' := by
  unfold St.readerStep at h
  split at h
  · cases h; exact hl.reader_move (fun _ => by simp_all) rfl rfl
  · next c hrd =>
    obtain ⟨⟨s1, out⟩, hcc, rfl⟩ := Option.map_eq_some'.mp h
    obtain ⟨-, -, hin, hret⟩ :=
      hw.toLinked.createConnection (fun hc => hw.readerLoop (hc ▸ hrd)) hcc
    rcases out with c' | ⟨r, w⟩
    · obtain ⟨rfl, hm⟩ := hin c' rfl
      exact ⟨fun h => (by rw [hm] at h; cases h), fun _ => rfl⟩
    · exact Locked.free (hret r w rfl).1
  · obtain ⟨⟨res, r⟩, -, rfl⟩ := Option.map_eq_some'.mp h
    exact hl.reader_move (fun _ => by simp_all) rfl rfl
  · split_ifs at h with hm; cases h; exact Locked.free (by simpa using hm)
  · next k resp hrd =>
    split_ifs at h with hm; cases h
    obtain ⟨rq, fs, he⟩ := deliver_eq (s := s) resp
    rw [he]; exact Locked.free hm
  · cases h

theorem locked_step {e : Event} (hw : Wired s) (hl : Locked s) (h : step codec s e = some s') :
    Locked s' := by
  cases e with
  | writer env => exact hl.writerStep hw h
  | reader env => exact hl.readerStep hw h
  | close =>
    simp only [step, St.closerStep] at h
    split at h
    · cases h; exact hl.same rfl rfl rfl
    · cases h; exact hl.same rfl rfl rfl
    · split_ifs at h with hm; cases h; exact Locked.free (by simpa using hm)
    · cases h
  | submit =>
    simp only [step, St.submit] at h
    split_ifs at h <;> cases h <;> exact hl.same rfl rfl rfl
  | enqueue i => obtain ⟨p, -, rfl⟩ := enqueue_eq h; exact hl.same rfl rfl rfl
  | recv k c => simp only [step] at h; split_ifs at h; cases h; exact hl.same rfl rfl rfl
  | drop k e => simp only [step] at h; split_ifs at h; cases h; exact hl.same rfl rfl rfl

theorem reachable_locked (hs : Reachable codec s) : Locked s := by
  induction hs with
  | init opts => exact locked_init opts
  | step e hs h ih => exact locked_step (reachable_wired hs) ih h

/-- What `closeConnection` and `Close` leave of the sockets: every socket `dial` opened but
the current one is shut; the reader reads only sockets `dial` opened; `Close` past its
`close(conn.control)` has closed the channel; and once `Close` has returned no socket is
current. -/
structure Tidy (s : St) : Prop where
  shut : ∀ j < s.nsock, s.connection ≠ some j → (s.socks j).Shut
  reading : ∀ k, s.reader = .read k → k < s.nsock
  signalled : s.closer = .drop ∨ (∃ b, s.closer = .done b) → s.control = true
  down : ∀ b, s.closer = .done b → s.connection = none

theorem tidy_init (opts : Opts) : Tidy (init opts) :=
  ⟨fun _ h => absurd h (Nat.not_lt_zero _), fun _ h => (by cases h),
    fun h => (by rcases h with h | ⟨_, h⟩ <;> cases h), fun _ h => (by cases h)⟩

theorem shut_update {socks : Nat → Socket} {k : Nat} {sk : Socket}
    (hk : (socks k).Shut → sk.Shut) (j : Nat) (hj : (socks j).Shut) :
    (Function.update socks k sk j).Shut := by
  rcases update_sock_cases socks k j sk with ⟨rfl, he⟩ | ⟨-, he⟩ <;> rw [he]
  exacts [hk hj, hj]

/-- A step that changes only what socket `k` reads, writes or holds, and keeps it shut. -/
theorem Tidy.update_sock (ht : Tidy s) {k : Nat} {sk : Socket} (hk : (s.socks k).Shut → sk.Shut) :
    Tidy { s with socks := Function.update s.socks k sk } :=
  ⟨fun j hj hc => shut_update hk j (ht.shut j hj hc), ht.reading, ht.signalled, ht.down⟩

theorem Tidy.closeConnection (ht : Tidy s) (e : GoError) : Tidy (s.closeConnection e) := by
  cases hc : s.connection with
  | none => rwa [closeConnection_of_none hc]
  | some k =>
    rw [closeConnection_of_some hc]
    refine ⟨fun j hj _ => ?_, ht.reading, ht.signalled, fun _ _ => rfl⟩
    dsimp only at hj ⊢
    rcases update_sock_cases s.socks k j (s.socks k).close with ⟨rfl, he⟩ | ⟨hjk, he⟩ <;>
      rw [he]
    · exact close_shut _
    · exact ht.shut j hj (by rw [hc]; exact fun h => hjk (Option.some.inj h).symm)

/-- `conn.dial()` on a connection without a current socket and not closed. -/
theorem Tidy.dial {net : Except GoError Link} {err : Option GoError} (ht : Tidy s)
    (hc : s.connection = none) (hcd : s.closed = false) (hcl : s.closer ≠ .idle → s.closed = true)
    (h : s.dial codec net = some (s', err)) : Tidy s' := by
  have hidle : s.closer = .idle := by
    by_contra hne; rw [hcl hne] at hcd; cases hcd
  have hold : ∀ j < s.nsock, (s.socks j).Shut := fun j hj => ht.shut j hj (by simp [hc])
  rcases St.dial_cases h with ⟨g, e, -, rfl, -⟩ | ⟨g, e, sock, hd, rfl, -⟩ | ⟨g, sock, hd, rfl, -⟩
  · exact ⟨ht.shut, ht.reading, ht.signalled, ht.down⟩
  · refine ⟨fun j hj _ => ?_, fun k hk => Nat.lt_succ_of_lt (ht.reading k hk), ht.signalled,
      ht.down⟩
    rcases update_sock_cases s.socks s.nsock j sock with ⟨rfl, he⟩ | ⟨hjn, he⟩ <;>
      dsimp only <;> rw [he]
    · exact dial_failed_shut hd
    · exact hold j (by dsimp only at hj; omega)
  · refine ⟨fun j hj hcj => ?_, fun k hk => Nat.lt_succ_of_lt (ht.reading k hk), ht.signalled,
      fun b hb => by rw [hidle] at hb; cases hb⟩
    have hjn : j ≠ s.nsock := fun h => hcj (by rw [h])
    dsimp only
    rw [Function.update_noteq hjn]
    exact hold j (by dsimp only at hj; omega)

theorem Tidy.createConnection {t : Thread} {net : Except GoError Link} {c : CreatePc}
    {out : CreatePc ⊕ (Option Nat × Option Nat)} (ht : Tidy s)
    (hcl : s.closer ≠ .idle → s.closed = true)
    (h : s.createConnection codec t net c = some (s', out)) : Tidy s' := by
  rcases createConnection_cases h with ⟨-, -, rfl, -⟩ | ⟨-, -, rfl, -⟩ | ⟨-, -, -, rfl, -⟩ |
    ⟨-, hc, hcd, s1, err, hd, ⟨-, rfl, -⟩ | ⟨-, -, rfl, -⟩ | ⟨-, -, rfl, -⟩⟩
  · exact ⟨ht.1, ht.2, ht.3, ht.4⟩
  · exact ⟨ht.1, ht.2, ht.3, ht.4⟩
  · exact ⟨ht.1, ht.2, ht.3, ht.4⟩
  all_goals have h1 := ht.dial hc hcd hcl hd
  · exact ⟨h1.1, h1.2, h1.3, h1.4⟩
  · exact h1
  · exact ⟨h1.1, h1.2, h1.3, h1.4⟩

theorem Tidy.writerStep {env : Env} (ht : Tidy s) (hcl : s.closer ≠ .idle → s.closed = true)
    (h : s.writerStep codec env = some s') : Tidy s' := by
  unfold St.writerStep at h
  split at h
  · split at h <;> cases h <;> exact ⟨ht.1, ht.2, ht.3, ht.4⟩
  · cases h; exact ⟨ht.1, ht.2, ht.3, ht.4⟩
  · next k _ =>
    cases h
    have h1 := ht.update_sock (k := k) fun hs =>
      hs.of_eq (flush_fault _).1 (by rw [(flush_fault _).2])
    exact ⟨h1.1, h1.2, h1.3, h1.4⟩
  · next _ e _ =>
    split_ifs at h; cases h
    have h1 := ht.closeConnection e
    exact ⟨h1.1, h1.2, h1.3, h1.4⟩
  · split at h <;> (try split at h) <;> cases h <;> exact ⟨ht.1, ht.2, ht.3, ht.4⟩
  · cases h; exact ⟨ht.1, ht.2, ht.3, ht.4⟩
  · obtain ⟨⟨s1, out⟩, hcc, rfl⟩ := Option.map_eq_some'.mp h
    have h1 := ht.createConnection hcl hcc
    rcases out with c' | ⟨r, w⟩ <;> exact ⟨h1.1, h1.2, h1.3, h1.4⟩
  · next p k _ =>
    cases h
    have h1 := ht.update_sock (k := k) fun hs =>
      hs.of_eq (write_fault env.spill p (s.socks k)).1 (by rw [(write_fault env.spill p _).2])
    exact ⟨h1.1, h1.2, h1.3, h1.4⟩
  · next _ _ e _ =>
    split_ifs at h; cases h
    have h1 := ht.closeConnection e
    exact ⟨h1.1, h1.2, h1.3, h1.4⟩
  · cases h

theorem Tidy.readerStep {env : Env} (hw : Wired s) (ht : Tidy s)
    (hcl : s.closer ≠ .idle → s.closed = true) (h : s.readerStep codec env = some s') :
    Tidy s' := by
  unfold St.readerStep at h
  split at h
  · cases h
    refine ⟨ht.1, fun k hk => ?_, ht.3, ht.4⟩
    split at hk
    · next hr => cases hk; exact (hw.published _ (hw.r_eq ▸ hr)).1
    · cases hk
  · next c hrd =>
    obtain ⟨⟨s1, out⟩, hcc, rfl⟩ := Option.map_eq_some'.mp h
    have h1 := ht.createConnection hcl hcc
    obtain ⟨hl1, -, -, hret⟩ :=
      hw.toLinked.createConnection (fun hc => hw.readerLoop (hc ▸ hrd)) hcc
    rcases out with c' | ⟨r, w⟩
    · exact ⟨h1.1, fun k hk => (by cases hk), h1.3, h1.4⟩
    · obtain ⟨-, rfl, -⟩ := hret r w rfl
      refine ⟨h1.1, fun k hk => ?_, h1.3, h1.4⟩
      dsimp only at hk
      split at hk
      · next hk' => cases hk; exact (hl1.published _ hk').1
      · cases hk
  · next k hrd =>
    obtain ⟨⟨res, r⟩, hread, rfl⟩ := Option.map_eq_some'.mp h
    have hk : (s.socks k).Shut → ({ s.socks k with r } : Socket).Shut := fun hs =>
      hs.of_eq rfl (Frame.read_fin hread)
    have h1 := ht.update_sock hk
    exact ⟨h1.1, fun k' hk => (by dsimp only at hk; split at hk <;> (try split at hk) <;> cases hk),
      h1.3, h1.4⟩
  · next _ e _ =>
    split_ifs at h; cases h
    have h1 := ht.closeConnection e
    exact ⟨h1.1, fun k hk => (by cases hk), h1.3, h1.4⟩
  · next k resp _ =>
    split_ifs at h; cases h
    obtain ⟨rq, fs, he⟩ := deliver_eq (s := s) resp
    rw [he]; exact ⟨ht.1, fun k hk => (by cases hk), ht.3, ht.4⟩
  · cases h

theorem tidy_step {e : Event} (hw : Wired s) (hcl : s.closer ≠ .idle → s.closed = true)
    (ht : Tidy s) (h : step codec s e = some s') : Tidy s' := by
  cases e with
  | writer env => exact ht.writerStep hcl h
  | reader env => exact ht.readerStep hw hcl h
  | close =>
    simp only [step, St.closerStep] at h
    split at h
    · cases h
      exact ⟨ht.1, ht.2, fun h => (by rcases h with h | ⟨_, h⟩ <;> cases h), fun _ h => (by cases h)⟩
    · cases h; exact ⟨ht.1, ht.2, fun _ => rfl, fun _ h => (by cases h)⟩
    · next hdrop =>
      split_ifs at h; cases h
      have h1 := ht.closeConnection clientClosed
      exact ⟨h1.1, h1.2, fun _ => by simpa using ht.signalled (.inl hdrop),
        fun _ _ => closeConnection_connection _ _⟩
    · cases h
  | submit =>
    simp only [step, St.submit] at h
    split_ifs at h <;> cases h <;> exact ⟨ht.1, ht.2, ht.3, ht.4⟩
  | enqueue i => obtain ⟨p, -, rfl⟩ := enqueue_eq h; exact ⟨ht.1, ht.2, ht.3, ht.4⟩
  | recv k c =>
    simp only [step] at h; split_ifs at h; cases h
    exact ht.update_sock fun hs => hs.of_eq (recv_fin _ _).1 (recv_fin _ _).2
  | drop k e =>
    simp only [step] at h; split_ifs at h; cases h
    exact ht.update_sock fun _ => drop_shut _ _

theorem reachable_tidy (hs : Reachable codec s) : Closing s ∧ Tidy s := by
  induction hs with
  | init opts => exact ⟨closing_init opts, tidy_init opts⟩
  | step e hs h ih =>
    exact ⟨closing_step ih.1 h, tidy_step (reachable_wired hs) ih.1.closed ih.2 h⟩

/-- **No socket is left open.** In every reachable state every socket `dial` opened, other
than `conn.connection`, is closed or dropped: its writes fail, and its reads end once the
bytes it already received are consumed. Once `Close` has returned no socket is current, so
all of them are. -/
theorem sockets_shut (hs : Reachable codec s) :
    (∀ j < s.nsock, s.connection ≠ some j →
      (s.socks j).fault ≠ none ∧ (s.socks j).r.src.fin ≠ .more) ∧
      ∀ b, s.closer = .done b → s.connection = none :=
  let ht := (reachable_tidy hs).2
  ⟨ht.shut, ht.down⟩

/-- A request is sent on socket `0` and `Close` returns: the socket is shut. -/
theorem sockets_shut_after_close :
    ∃ s, Reachable silentCodec s ∧ s.closer = .done true ∧ s.nsock = 1 ∧
      (s.socks 0).fault ≠ none ∧ (s.socks 0).r.src.fin ≠ .more := by
  have hs := run_reachable (.init guest) (rfl : run silentCodec (init guest) closeSentTrace = some _)
  have h := sockets_shut hs
  exact ⟨_, hs, rfl, rfl, h.1 0 Nat.zero_lt_one (by rw [h.2 true rfl]; exact Option.noConfusion)⟩

/-! ## The loops after `Close` -/

/-- A bound on the steps the writer loop still takes once `Close` has returned, when
`conn.w` is nil and `conn.control` closed: each step lowers it. From `write` the loop goes
back to `top`, takes a packet or parks, and returns from `createConnection` or the inner
`select`. -/
def WriterPc.rank : WriterPc → Nat
  | .exit => 0
  | .create _ .loop => 1
  | .create _ .lock => 2
  | .got _ => 3
  | .park => 4
  | .flushFailed _ _ => 5
  | .flush _ => 6
  | .flushCheck => 7
  | .top => 8
  | .writeFailed _ _ _ => 9
  | .write _ _ => 10

/-- The same bound for the reader loop: the outcome of one last `read`, then
`createConnection`, which returns nothing. -/
def ReaderPc.rank : ReaderPc → Nat
  | .exit => 0
  | .create .loop => 1
  | .create .lock => 2
  | .top => 3
  | .failed _ _ | .deliver _ _ => 4
  | .read _ => 5

/-- The steps both loops may still take. -/
def St.loopRank (s : St) : Nat := s.writer.rank + s.reader.rank

theorem loopRank_le (s : St) : s.loopRank ≤ 15 := by
  have hw : s.writer.rank ≤ 10 := by unfold WriterPc.rank; split <;> omega
  have hr : s.reader.rank ≤ 5 := by unfold ReaderPc.rank; split <;> omega
  unfold St.loopRank; omega

/-- Whether an event is a step of the writer or of the reader loop. -/
def Event.isLoop : Event → Bool
  | .writer _ | .reader _ => true
  | _ => false

/-- A connection after `Close` has returned: no socket, `conn.control` and `conn.closed`
set. -/
structure Down (s : St) : Prop where
  connection : s.connection = none
  r : s.r = none
  w : s.w = none
  control : s.control = true
  closed : s.closed = true

theorem down_of_done {b : Bool} (hs : Reachable codec s) (hd : s.closer = .done b) : Down s := by
  obtain ⟨hc, ht⟩ := reachable_tidy hs
  have hl := (reachable_wired hs).toLinked
  have hcn := ht.down b hd
  exact ⟨hcn, hl.r_eq.trans hcn, hl.w_eq.trans hcn, ht.signalled (.inr ⟨b, hd⟩),
    hc.closed (by rw [hd]; exact CloserPc.noConfusion)⟩

theorem done_step {b : Bool} {e : Event} (hd : s.closer = .done b)
    (h : step codec s e = some s') : s'.closer = .done b := by
  rcases (step_frame h).2 with rfl | ⟨-, hcl⟩
  · simp [step, St.closerStep, hd] at h
  · rw [hcl, hd]

theorem done_run {b : Bool} : ∀ {s s' : St} {es : List Event}, s.closer = .done b →
    run codec s es = some s' → s'.closer = .done b
  | s, s', [], hd, h => by cases h; exact hd
  | s, s', e :: es, hd, h => by
    simp only [run, Option.bind_eq_some] at h
    obtain ⟨s1, h1, h2⟩ := h
    exact done_run (done_step hd h1) h2

/-- `createConnection` on a closed connection without a socket takes the mutex, then
returns nothing. -/
theorem createConnection_down {t : Thread} {net : Except GoError Link} {c : CreatePc}
    {out : CreatePc ⊕ (Option Nat × Option Nat)} (hdn : Down s)
    (h : s.createConnection codec t net c = some (s', out)) :
    (c = .lock ∧ out = .inl .loop) ∨ (c = .loop ∧ out = .inr (none, none)) := by
  rcases createConnection_cases h with ⟨rfl, -, -, rfl⟩ | ⟨-, hc, -⟩ | ⟨rfl, -, -, -, rfl⟩ |
    ⟨-, -, hcl, -⟩
  · exact .inl ⟨rfl, rfl⟩
  · exact absurd hdn.connection hc
  · exact .inr ⟨rfl, rfl⟩
  · rw [hdn.closed] at hcl; cases hcl

theorem writer_rank_lt {env : Env} (hdn : Down s) (h : s.writerStep codec env = some s') :
    s'.writer.rank < s.writer.rank := by
  unfold St.writerStep at h
  split at h
  · next hwr => split at h <;> cases h <;> simp [hwr, WriterPc.rank]
  · next hwr => cases h; simp [hwr, hdn.w, WriterPc.rank]
  · next hwr => cases h; rw [hwr]; dsimp only; split <;> simp [WriterPc.rank]
  · next hwr => split_ifs at h; cases h; simp [hwr, WriterPc.rank]
  · next hwr =>
    have hctl := hdn.control
    split at h <;> (try split at h) <;> cases h <;> simp_all [WriterPc.rank]
  · next hwr => cases h; simp [hwr, hdn.w, WriterPc.rank]
  · next p c hwr =>
    obtain ⟨⟨s1, out⟩, hcc, rfl⟩ := Option.map_eq_some'.mp h
    rcases createConnection_down hdn hcc with ⟨rfl, rfl⟩ | ⟨rfl, rfl⟩ <;>
      simp [hwr, WriterPc.rank]
  · next hwr => cases h; rw [hwr]; dsimp only; split <;> simp [WriterPc.rank]
  · next hwr => split_ifs at h; cases h; simp [hwr, WriterPc.rank]
  · cases h

theorem reader_rank_lt {env : Env} (hdn : Down s) (h : s.readerStep codec env = some s') :
    s'.reader.rank < s.reader.rank := by
  unfold St.readerStep at h
  split at h
  · next hrd => cases h; simp [hrd, hdn.r, ReaderPc.rank]
  · next c hrd =>
    obtain ⟨⟨s1, out⟩, hcc, rfl⟩ := Option.map_eq_some'.mp h
    rcases createConnection_down hdn hcc with ⟨rfl, rfl⟩ | ⟨rfl, rfl⟩ <;>
      simp [hrd, ReaderPc.rank]
  · next k hrd =>
    obtain ⟨⟨res, r⟩, -, rfl⟩ := Option.map_eq_some'.mp h
    rw [hrd]; dsimp only; split <;> (try split) <;> simp [ReaderPc.rank]
  · next hrd => split_ifs at h; cases h; simp [hrd, ReaderPc.rank]
  · next hrd => split_ifs at h; cases h; simp [hrd, ReaderPc.rank]
  · cases h

/-- Every other event leaves both loops where they are. -/
theorem step_loops_same {e : Event} (h : step codec s e = some s') (he : e.isLoop = false) :
    s'.writer = s.writer ∧ s'.reader = s.reader := by
  cases e with
  | writer env => cases he
  | reader env => cases he
  | close =>
    simp only [step, St.closerStep] at h
    split at h
    · cases h; exact ⟨rfl, rfl⟩
    · cases h; exact ⟨rfl, rfl⟩
    · split_ifs at h; cases h; simp
    · cases h
  | submit => simp only [step, St.submit] at h; split_ifs at h <;> cases h <;> exact ⟨rfl, rfl⟩
  | enqueue i => obtain ⟨p, -, rfl⟩ := enqueue_eq h; exact ⟨rfl, rfl⟩
  | recv k c => simp only [step] at h; split_ifs at h; cases h; exact ⟨rfl, rfl⟩
  | drop k e => simp only [step] at h; split_ifs at h; cases h; exact ⟨rfl, rfl⟩

/-- After `Close`, a step of a loop lowers the rank, and every other step keeps it. -/
theorem loopRank_step {e : Event} (hdn : Down s) (h : step codec s e = some s') :
    s'.loopRank + (if e.isLoop then 1 else 0) ≤ s.loopRank := by
  cases e
  case writer env =>
    have := writer_rank_lt hdn h
    simp only [St.loopRank, (writerStep_frame h).1, Event.isLoop, if_true]; omega
  case reader env =>
    have := reader_rank_lt hdn h
    simp only [St.loopRank, (readerStep_frame h).1, Event.isLoop, if_true]; omega
  all_goals
    obtain ⟨hw, hr⟩ := step_loops_same h rfl
    simp [St.loopRank, hw, hr, Event.isLoop]

theorem loopRank_run {b : Bool} : ∀ {s s' : St} {es : List Event}, Reachable codec s →
    s.closer = .done b → run codec s es = some s' →
      s'.loopRank + es.countP Event.isLoop ≤ s.loopRank
  | s, s', [], _, _, h => by cases h; simp
  | s, s', e :: es, hs, hd, h => by
    simp only [run, Option.bind_eq_some] at h
    obtain ⟨s1, h1, h2⟩ := h
    have ih := loopRank_run (Reachable.step e hs h1) (done_step hd h1) h2
    have hstep := loopRank_step (down_of_done hs hd) h1
    rw [List.countP_cons]
    split_ifs at hstep ⊢ <;> omega

/-! ## Neither loop is stuck -/

theorem createConnection_down_ne_none {t : Thread} {net : Except GoError Link} {c : CreatePc}
    (hdn : Down s) (hm : c = .lock → s.mutex = none) :
    s.createConnection codec t net c ≠ none := by
  cases c with
  | lock => simp [St.createConnection, hm rfl]
  | loop => simp [St.createConnection, St.createTurn, hdn.connection, hdn.closed]

/-- After `Close` the writer can step unless it has returned, as long as the mutex is free or
its own. -/
theorem writerStep_ne_none (hdn : Down s) (hx : s.writer ≠ .exit)
    (hm : s.mutex = none ∨ ∃ p, s.writer = .create p .loop) (env : Env) :
    s.writerStep codec env ≠ none := by
  unfold St.writerStep
  split
  · split <;> simp
  · simp
  · simp
  · next hwr => rw [if_pos (hm.resolve_right (by simp [hwr]))]; simp
  · rw [hdn.control]; split <;> simp_all
  · simp
  · next p c hwr =>
    rw [Ne, Option.map_eq_none']
    exact createConnection_down_ne_none hdn fun hc => hm.resolve_right (by subst hc; simp [hwr])
  · simp
  · next hwr => rw [if_pos (hm.resolve_right (by simp [hwr]))]; simp
  · exact absurd ‹_› hx

/-- After `Close` the reader can step unless it has returned, as long as the mutex is free or
its own: its last `read` is on a shut socket, which never waits. -/
theorem readerStep_ne_none (hdn : Down s) (ht : Tidy s) (hx : s.reader ≠ .exit)
    (hm : s.mutex = none ∨ s.reader = .create .loop) (env : Env) :
    s.readerStep codec env ≠ none := by
  unfold St.readerStep
  split
  · simp
  · next c hrd =>
    rw [Ne, Option.map_eq_none']
    exact createConnection_down_ne_none hdn fun hc => hm.resolve_right (by subst hc; simp [hrd])
  · next k hrd =>
    rw [Ne, Option.map_eq_none']
    exact Frame.read_ne_none (ht.shut k (ht.reading k hrd) (by simp [hdn.connection])).2
  · next hrd => rw [if_pos (hm.resolve_right (by simp [hrd]))]; simp
  · next hrd => rw [if_pos (hm.resolve_right (by simp [hrd]))]; simp
  · exact absurd ‹_› hx

/-- After `Close`, until both loops have returned one of them can step, whatever the
environment answers: whoever holds the mutex is inside the loop of `createConnection`, where
it can always step. -/
theorem loop_can_step {b : Bool} (hs : Reachable codec s) (hd : s.closer = .done b)
    (hx : s.writer ≠ .exit ∨ s.reader ≠ .exit) (env : Env) :
    step codec s (.writer env) ≠ none ∨ step codec s (.reader env) ≠ none := by
  have hdn := down_of_done hs hd
  have ht := (reachable_tidy hs).2
  have hl := reachable_locked hs
  cases hm : s.mutex with
  | none =>
    rcases hx with hx | hx
    · exact .inl (writerStep_ne_none hdn hx (.inl hm) env)
    · exact .inr (readerStep_ne_none hdn ht hx (.inl hm) env)
  | some t =>
    cases t with
    | writer =>
      obtain ⟨p, hp⟩ := hl.writer hm
      exact .inl (writerStep_ne_none hdn (by simp [hp]) (.inr ⟨p, hp⟩) env)
    | reader =>
      have hr := hl.reader hm
      exact .inr (readerStep_ne_none hdn ht (by simp [hr]) (.inr hr) env)

/-- **After `Close` both loops return.** Once `Close` has returned, every run, whatever other
steps it interleaves, holds at most fifteen steps of the writer and the reader loop; and until
both loops have returned one of them can step, whatever the environment answers. A scheduler
that keeps running the loops therefore sees both return. -/
theorem loops_return_after_close {b : Bool} (hs : Reachable codec s) (hd : s.closer = .done b)
    {es : List Event} {s' : St} (hr : run codec s es = some s') :
    es.countP Event.isLoop ≤ 15 ∧
      (s'.writer = .exit ∧ s'.reader = .exit ∨
        ∀ env, step codec s' (.writer env) ≠ none ∨ step codec s' (.reader env) ≠ none) := by
  refine ⟨(Nat.le_add_left _ _).trans ((loopRank_run hs hd hr).trans (loopRank_le s)), ?_⟩
  by_cases hx : s'.writer = .exit ∧ s'.reader = .exit
  · exact .inl hx
  · exact .inr (loop_can_step (run_reachable hs hr) (done_run hd hr) (not_and_or.mp hx))

/-- The writer's last step and the reader's three after `Close`. -/
def drainTrace : List Event :=
  [.writer quietEnv, .reader quietEnv, .reader quietEnv, .reader quietEnv]

theorem loops_return_after_close_send :
    ∃ s s', Reachable silentCodec s ∧ s.closer = .done true ∧
      run silentCodec s drainTrace = some s' ∧ s'.writer = .exit ∧ s'.reader = .exit ∧
      drainTrace.countP Event.isLoop ≤ 15 := by
  have hs := run_reachable (.init guest) (rfl : run silentCodec (init guest) closeSentTrace = some _)
  exact ⟨_, _, hs, rfl, rfl, rfl, rfl,
    (@loops_return_after_close _ _ _ hs rfl drainTrace _ rfl).1⟩

end GoTarantool.Connection

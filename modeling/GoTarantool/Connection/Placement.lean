import GoTarantool.Connection.Wiring

/-!
# Where a pending request is

Every request `Submit` registers travels as one packet: held by its caller until it is put
on `conn.packets`, taken by the writer loop, written to a socket's `bufio.Writer`, and
handed to the kernel by a `Write` that overflows the buffer or by `Flush` (lines 202-233).
Over every interleaving (`reachable_placed`), while the writer runs, the packet of every
future in `conn.requests` is somewhere on that path; it is on no socket but the current one;
the writer writes it only to the current socket; and it sits in a writer's buffer only while
the writer has not flushed that buffer since.

* **`parked_writer_places_pending`** — when the writer parks in its inner `select`, the packet
  of every pending future is with a `Submit` caller that has not put it on `conn.packets`, on
  `conn.packets`, or sent on the current socket: it is in no buffer, and on no socket that is
  not current;
* `parked_writer_before_enqueue` — the packet of a future that is registered and not yet
  enqueued is neither on `conn.packets` nor on a socket while the writer parks;
* `failed_request_sent_after_reconnect` — a packet still on `conn.packets` when
  `closeConnection` fails its future is sent on the socket the next reconnect opens.
-/

namespace GoTarantool.Connection

open GoTarantool.Stream GoTarantool.Net GoTarantool.Dial

variable {codec : Codec} {s s' : St}

/-! ## Places -/

/-- Whether `ps` holds the packet of future `h`. -/
def Carries (ps : List Packet) (h : Nat) : Prop := ∃ p ∈ ps, p.fut? = some h

@[simp] theorem carries_nil (h : Nat) : ¬ Carries [] h := fun ⟨_, hp, _⟩ => by cases hp

@[simp] theorem carries_append {ps qs : List Packet} {h : Nat} :
    Carries (ps ++ qs) h ↔ Carries ps h ∨ Carries qs h := by
  simp only [Carries, List.mem_append]
  constructor
  · rintro ⟨p, hp | hp, hf⟩
    · exact .inl ⟨p, hp, hf⟩
    · exact .inr ⟨p, hp, hf⟩
  · rintro (⟨p, hp, hf⟩ | ⟨p, hp, hf⟩)
    · exact ⟨p, .inl hp, hf⟩
    · exact ⟨p, .inr hp, hf⟩

theorem Carries.mono {ps qs : List Packet} {h : Nat} (hsub : ∀ p ∈ ps, p ∈ qs)
    (hc : Carries ps h) : Carries qs h :=
  let ⟨p, hp, hf⟩ := hc; ⟨p, hsub p hp, hf⟩

theorem onlyAuth_not_carries {sk : Socket} (ha : OnlyAuth sk) (h : Nat) :
    ¬ Carries sk.held h := fun ⟨p, hp, hf⟩ => by
  obtain ⟨b, rfl⟩ := ha p hp; cases hf

theorem carries_held_of_buf {sk : Socket} {h : Nat} (hc : Carries sk.w.buf h) :
    Carries sk.held h :=
  hc.mono fun _ hp => List.mem_append_left _ hp

/-- The packet the writer loop holds, if any. -/
def WriterPc.packet? : WriterPc → Option Packet
  | .got p | .create p _ | .write p _ | .writeFailed p _ _ => some p
  | _ => none

/-- The packet the writer loop is writing, and the socket it writes it to. -/
def WriterPc.target? : WriterPc → Option (Packet × Nat)
  | .write p k | .writeFailed p k _ => some (p, k)
  | _ => none

/-- The sockets whose buffers may hold a pending request at this point of the writer loop:
none while it parks, and during a flush only the buffer it flushes. -/
def WriterPc.MayBuffer : WriterPc → Nat → Prop
  | .park, _ => False
  | .flush k, j | .flushFailed k _, j => j = k
  | _, _ => True

/-- The packets in the writer's hands, queued on `conn.packets`, or held by `Submit` callers. -/
def St.queued (s : St) : List Packet := s.writer.packet?.toList ++ s.packets ++ s.submitting

/-- Where the packets of pending futures are. -/
structure Placed (s : St) : Prop where
  /-- Every request packet belongs to a registered future. -/
  fresh : ∀ h, (Carries s.queued h ∨ ∃ j, Carries (s.socks j).held h) → h < s.nfut
  /-- While the writer runs, the packet of every pending future is somewhere. -/
  located : s.writer ≠ .exit → ∀ h, s.Pending h →
    Carries s.queued h ∨ ∃ j, Carries (s.socks j).held h
  /-- A pending future's packet is on no socket but the current one. -/
  current : ∀ h j, s.Pending h → Carries (s.socks j).held h → s.connection = some j
  /-- The writer writes a pending future's packet only to the current socket. -/
  target : ∀ h p k, s.Pending h → p.fut? = some h → s.writer.target? = some (p, k) →
    s.connection = some k
  /-- A pending future's packet is buffered only where the writer may still flush it. -/
  buffered : ∀ h j, s.Pending h → Carries (s.socks j).w.buf h → s.writer.MayBuffer j

theorem placed_init (opts : Opts) : Placed (init opts) where
  fresh := fun _ h => by
    rcases h with h | ⟨j, h⟩
    · simp [St.queued, init, WriterPc.packet?] at h
    · simp [init, noSocket, Socket.fresh, Socket.held] at h
  located := fun _ _ ⟨_, h⟩ => by simp [init] at h
  current := fun _ _ ⟨_, h⟩ => by simp [init] at h
  target := fun _ _ _ ⟨_, h⟩ => by simp [init] at h
  buffered := fun _ _ ⟨_, h⟩ => by simp [init] at h

/-- A step that leaves the sockets' writers, the current socket and the registry's pending
futures alone (it may take some out), and moves no packet off the path. -/
theorem Placed.frame (hp : Placed s)
    (hq : ∀ h, Carries s'.queued h → Carries s.queued h)
    (hq' : s'.writer ≠ .exit → ∀ h, s'.Pending h → Carries s.queued h → Carries s'.queued h)
    (hsk : ∀ j, (s'.socks j).w = (s.socks j).w ∧ (s'.socks j).out = (s.socks j).out)
    (hn : s.nfut ≤ s'.nfut) (hc : s'.connection = s.connection)
    (hpend : ∀ h, s'.Pending h → s.Pending h)
    (hexit : s'.writer ≠ .exit → s.writer ≠ .exit)
    (htarget : ∀ pk, s'.writer.target? = some pk → s.writer.target? = some pk)
    (hbuf : ∀ j, s.writer.MayBuffer j → s'.writer.MayBuffer j) : Placed s' := by
  have hheld : ∀ j, (s'.socks j).held = (s.socks j).held := fun j => by
    simp only [Socket.held, (hsk j).1, (hsk j).2]
  refine ⟨fun h hc' => ?_, fun hx h hph => ?_, fun h j hph hcj => ?_, fun h p k hph hf ht => ?_,
    fun h j hph hb => ?_⟩
  · refine lt_of_lt_of_le (hp.fresh h ?_) hn
    rcases hc' with hc' | ⟨j, hj⟩
    · exact .inl (hq h hc')
    · exact .inr ⟨j, hheld j ▸ hj⟩
  · rcases hp.located (hexit hx) h (hpend h hph) with hl | ⟨j, hj⟩
    · exact .inl (hq' hx h hph hl)
    · exact .inr ⟨j, (hheld j).symm ▸ hj⟩
  · rw [hc]; exact hp.current h j (hpend h hph) (hheld j ▸ hcj)
  · rw [hc]; exact hp.target h p k (hpend h hph) hf (htarget _ ht)
  · exact hbuf j (hp.buffered h j (hpend h hph) ((hsk j).1 ▸ hb))

/-- A step after which no future is pending, and which moves no packet off the path. -/
theorem Placed.of_no_pending (hp : Placed s) (hnp : ∀ h, ¬ s'.Pending h)
    (hq : ∀ h, Carries s'.queued h → Carries s.queued h)
    (hsk : ∀ j, (s'.socks j).held = (s.socks j).held) (hn : s.nfut ≤ s'.nfut) :
    Placed s' := by
  refine ⟨fun h hc' => lt_of_lt_of_le (hp.fresh h ?_) hn, fun _ h hph => absurd hph (hnp h),
    fun h _ hph => absurd hph (hnp h), fun h _ _ hph => absurd hph (hnp h),
    fun h _ hph => absurd hph (hnp h)⟩
  rcases hc' with hc' | ⟨j, hj⟩
  · exact .inl (hq h hc')
  · exact .inr ⟨j, hsk j ▸ hj⟩

/-- No packet of a pending future is on a socket while there is no current socket. -/
theorem Placed.off_sockets (hp : Placed s) (hc : s.connection = none) {h j : Nat}
    (hph : s.Pending h) : ¬ Carries (s.socks j).held h := fun hcj => by
  rw [hp.current h j hph hcj] at hc; cases hc

/-- A step on a connection without a socket that adds only sockets holding no request, and
leaves the queue, the writer and the registry alone: `dial`. -/
theorem Placed.of_unconnected (hp : Placed s) (hc : s.connection = none)
    (hq : s'.queued = s.queued) (hw : s'.writer = s.writer) (hr : s'.registry = s.registry)
    (hsk : ∀ j, s'.socks j = s.socks j ∨ OnlyAuth (s'.socks j)) : Placed s' := by
  have hpend : ∀ h, s'.Pending h ↔ s.Pending h := fun h => by
    simp only [St.Pending, hr]
  have hoff : ∀ h j, s'.Pending h → ¬ Carries (s'.socks j).held h := fun h j hph hcj => by
    rcases hsk j with he | ha
    · exact hp.off_sockets hc ((hpend h).mp hph) (he ▸ hcj)
    · exact onlyAuth_not_carries ha h hcj
  have hn : s'.nfut = s.nfut := congrArg Registry.nfut hr
  refine ⟨fun h hc' => ?_, fun hx h hph => ?_, fun h j hph hcj => absurd hcj (hoff h j hph),
    fun h p k hph hf ht => ?_, fun h j hph hb => absurd (carries_held_of_buf hb) (hoff h j hph)⟩
  · rw [hn]
    rcases hc' with hc' | ⟨j, hj⟩
    · exact hp.fresh h (.inl (hq ▸ hc'))
    · rcases hsk j with he | ha
      · exact hp.fresh h (.inr ⟨j, he ▸ hj⟩)
      · exact absurd hj (onlyAuth_not_carries ha h)
  · rcases hp.located (hw ▸ hx) h ((hpend h).mp hph) with hl | ⟨j, hj⟩
    · exact .inl (hq ▸ hl)
    · exact absurd hj (hp.off_sockets hc ((hpend h).mp hph))
  · rw [hw] at ht
    rw [hp.target h p k ((hpend h).mp hph) hf ht] at hc; cases hc

/-- A step that changes only what socket `k` reads and its fault. -/
theorem Placed.update_sock (hp : Placed s) {k : Nat} {sk : Socket}
    (hw : sk.w = (s.socks k).w) (ho : sk.out = (s.socks k).out) :
    Placed { s with socks := Function.update s.socks k sk } := by
  refine hp.frame (fun _ => id) (fun _ _ _ => id) (fun j => ?_) le_rfl rfl (fun _ => id) id
    (fun _ => id) (fun _ => id)
  rcases eq_or_ne j k with rfl | hj
  · simp [hw, ho]
  · simp [Function.update_noteq hj]

/-- A step of the writer loop that moves only its program counter and `conn.packets`, keeping
every packet on the path. -/
theorem Placed.move (hp : Placed s) (hx : s.writer ≠ .exit) {ps : List Packet} {w : WriterPc}
    (hq : w.packet?.toList ++ ps = s.writer.packet?.toList ++ s.packets)
    (htarget : ∀ h p k, s.Pending h → p.fut? = some h → w.target? = some (p, k) →
      s.connection = some k)
    (hbuf : ∀ h j, s.Pending h → Carries (s.socks j).w.buf h → w.MayBuffer j) :
    Placed { s with packets := ps, writer := w } := by
  have hq' : ({ s with packets := ps, writer := w } : St).queued = s.queued := by
    simp only [St.queued, hq]
  exact ⟨fun h => hq' ▸ hp.fresh h, fun _ h hph => hq' ▸ hp.located hx h hph, hp.current,
    htarget, hbuf⟩

/-- The writer loop returns, dropping the packet in its hands. -/
theorem Placed.exit (hp : Placed s) : Placed { s with writer := .exit } where
  fresh h hc := hp.fresh h (by
    refine hc.imp (fun hc => ?_) id
    simp only [St.queued, carries_append, WriterPc.packet?, Option.toList, carries_nil,
      false_or] at hc ⊢
    exact hc.imp_left .inr)
  located hx := absurd rfl hx
  current := hp.current
  target _ _ _ _ _ ht := by cases ht
  buffered _ _ _ _ := trivial

theorem WriterPc.packet_of_target {w : WriterPc} {p : Packet} {k : Nat}
    (ht : w.target? = some (p, k)) : w.packet? = some p := by
  cases w <;> simp_all [WriterPc.target?, WriterPc.packet?]

theorem carries_iff_of_mem {ps qs : List Packet} {h : Nat} (hm : ∀ x, x ∈ ps ↔ x ∈ qs) :
    Carries ps h ↔ Carries qs h :=
  ⟨Carries.mono fun x => (hm x).mp, Carries.mono fun x => (hm x).mpr⟩

theorem update_sock_cases (socks : Nat → Socket) (k j : Nat) (sk : Socket) :
    (j = k ∧ Function.update socks k sk j = sk) ∨
      (j ≠ k ∧ Function.update socks k sk j = socks j) := by
  rcases eq_or_ne j k with rfl | hj
  · exact .inl ⟨rfl, Function.update_same _ _ _⟩
  · exact .inr ⟨hj, Function.update_noteq hj _ _⟩

/-! ## The writer's own steps -/

/-- `Flush` of socket `k`, after which the writer holds no packet. -/
theorem Placed.flushed (hp : Placed s) {k : Nat} (hwr : s.writer = .flush k) {sk : Socket}
    {w : WriterPc} (hheld : ∀ x, x ∈ sk.held ↔ x ∈ (s.socks k).held)
    (hpk : w.packet? = none) (htw : w.target? = none)
    (hbuf : ∀ h, s.Pending h → Carries sk.w.buf h → w.MayBuffer k) :
    Placed { s with socks := Function.update s.socks k sk, writer := w } := by
  have hheld' : ∀ j h, Carries (Function.update s.socks k sk j).held h ↔
      Carries (s.socks j).held h := fun j h => by
    rcases update_sock_cases s.socks k j sk with ⟨rfl, he⟩ | ⟨-, he⟩ <;> rw [he]
    exact carries_iff_of_mem hheld
  have hq : ({ s with socks := Function.update s.socks k sk, writer := w } : St).queued =
      s.queued := by
    simp only [St.queued, hpk, hwr]; rfl
  refine ⟨fun h hc => hp.fresh h ?_, fun _ h hph => ?_,
    fun h j hph hcj => hp.current h j hph ((hheld' j h).mp hcj),
    fun _ _ _ _ _ ht => by simp [htw] at ht, fun h j hph hb => ?_⟩
  · rw [hq] at hc; exact hc.imp_right fun ⟨j, hj⟩ => ⟨j, (hheld' j h).mp hj⟩
  · rw [hq]; exact (hp.located (by simp [hwr]) h hph).imp_right
      fun ⟨j, hj⟩ => ⟨j, (hheld' j h).mpr hj⟩
  · dsimp only at hb ⊢
    rcases update_sock_cases s.socks k j sk with ⟨rfl, he⟩ | ⟨hj, he⟩ <;> rw [he] at hb
    · exact hbuf h hph hb
    · have := hp.buffered h j hph hb
      rw [hwr] at this; exact absurd this hj

theorem Placed.flush (hp : Placed s) {k : Nat} (hwr : s.writer = .flush k) :
    Placed { s with socks := Function.update s.socks k (s.socks k).flush.2,
                    writer := match (s.socks k).flush.1 with
                      | .ok () => .park
                      | .error e => .flushFailed k e } := by
  have hheld := flush_held (s.socks k)
  rcases hf : (s.socks k).flush with ⟨_ | ⟨⟩, sk⟩ <;> rw [hf] at hheld
  · exact hp.flushed hwr (fun x => (hheld x).1) rfl rfl fun _ _ _ => rfl
  · refine hp.flushed hwr (fun x => (hheld x).1) rfl rfl fun h _ hb => ?_
    rw [(hheld (.auth [])).2.2 rfl] at hb; exact absurd hb (carries_nil h)

/-- `write(w, packet)` on socket `k`: the packet is buffered or handed to the kernel, or stays
in the writer's hands under an error. -/
theorem Placed.write (hp : Placed s) {p : Packet} {k : Nat} (hwr : s.writer = .write p k)
    (spill : Bool) :
    Placed { s with socks := Function.update s.socks k ((s.socks k).write spill p).2,
                    writer := match ((s.socks k).write spill p).1 with
                      | .ok () => .top
                      | .error e => .writeFailed p k e } := by
  have hheld := write_held spill p (s.socks k)
  have hok := @write_ok_held spill p (s.socks k)
  have hhand : ∀ h, p.fut? = some h → Carries s.queued h := fun h hf =>
    carries_append.mpr (.inl (carries_append.mpr (.inl ⟨p, by simp [hwr, WriterPc.packet?], hf⟩)))
  rcases hwt : (s.socks k).write spill p with ⟨res, sk⟩
  rw [hwt] at hheld hok
  -- the socket's packets after the write: its own, and `p`
  have hheld' : ∀ j h, Carries (Function.update s.socks k sk j).held h →
      Carries (s.socks j).held h ∨ (j = k ∧ p.fut? = some h) := fun j h ⟨x, hx, hf⟩ => by
    rcases update_sock_cases s.socks k j sk with ⟨rfl, he⟩ | ⟨-, he⟩ <;> rw [he] at hx
    · rcases (hheld x).1 hx with hx | rfl
      · exact .inl ⟨x, hx, hf⟩
      · exact .inr ⟨rfl, hf⟩
    · exact .inl ⟨x, hx, hf⟩
  have hkeep : ∀ j h, Carries (s.socks j).held h →
      Carries (Function.update s.socks k sk j).held h := fun j h hc => by
    rcases update_sock_cases s.socks k j sk with ⟨rfl, he⟩ | ⟨-, he⟩ <;> rw [he]
    · exact hc.mono fun x hx => (hheld x).2 hx
    · exact hc
  have hcur : ∀ h j, s.Pending h → Carries (Function.update s.socks k sk j).held h →
      s.connection = some j := fun h j hph hcj => by
    rcases hheld' j h hcj with hcj | ⟨rfl, hf⟩
    · exact hp.current h j hph hcj
    · exact hp.target h p j hph hf (by simp [hwr, WriterPc.target?])
  have hfresh : ∀ h j, Carries (Function.update s.socks k sk j).held h → h < s.nfut :=
    fun h j hcj => (hheld' j h hcj).elim (fun hc => hp.fresh h (.inr ⟨j, hc⟩))
      fun ⟨_, hf⟩ => hp.fresh h (.inl (hhand h hf))
  cases res with
  | error e =>
    have hq : ({ s with socks := Function.update s.socks k sk, writer := .writeFailed p k e } :
        St).queued = s.queued := by simp only [St.queued, hwr, WriterPc.packet?]
    refine ⟨fun h hc => ?_, fun _ h hph => ?_, hcur, fun h p' k' hph hf ht => ?_,
      fun _ _ _ _ => trivial⟩
    · rcases hc with hc | ⟨j, hj⟩
      · exact hp.fresh h (.inl (hq ▸ hc))
      · exact hfresh h j hj
    · rw [hq]
      exact (hp.located (by simp [hwr]) h hph).imp_right fun ⟨j, hj⟩ => ⟨j, hkeep j h hj⟩
    · exact hp.target h p' k' hph hf (by rw [hwr]; exact ht)
  | ok u =>
    cases u
    have hpk : p ∈ (Function.update s.socks k sk k).held := by
      rw [Function.update_same]; exact hok rfl
    refine ⟨fun h hc => ?_, fun _ h hph => ?_, hcur, fun _ _ _ _ _ ht => (by cases ht),
      fun _ _ _ _ => trivial⟩
    · rcases hc with hc | ⟨j, hj⟩
      · refine hp.fresh h (.inl ?_)
        simp only [St.queued, carries_append, WriterPc.packet?, Option.toList, carries_nil,
          false_or] at hc ⊢
        exact hc.imp_left .inr
      · exact hfresh h j hj
    · rcases hp.located (by simp [hwr]) h hph with hl | ⟨j, hj⟩
      · simp only [St.queued, carries_append, hwr, WriterPc.packet?, Option.toList] at hl ⊢
        rcases hl with (⟨x, hx, hf⟩ | hl) | hl
        · rw [List.mem_singleton] at hx; subst hx
          exact .inr ⟨k, x, hpk, hf⟩
        · exact .inl (.inl (.inr hl))
        · exact .inl (.inr hl)
      · exact .inr ⟨j, hkeep j h hj⟩

/-! ## `closeConnection`, `dial` and `Submit` -/

/-- `closeConnection` fails every pending future at once, or finds no current socket and does
nothing. -/
theorem Placed.closeConnection (hp : Placed s) (e : GoError) : Placed (s.closeConnection e) := by
  cases hc : s.connection with
  | none => rwa [closeConnection_of_none hc]
  | some k =>
    refine hp.of_no_pending (fun h hph => ?_) (fun h => ?_) (fun j => ?_) (by simp)
    · rw [pending_closeConnection, hc] at hph; exact Option.noConfusion hph.1
    · simp [St.queued]
    · simp only [Socket.held, (closeConnection_socks e j).1, (closeConnection_socks e j).2]

/-- The writer loop's `closeConnection` after a failed `Flush` or `Write`, moving on without
a packet in its hands: the packet it drops belongs to no pending future, or the close fails
that future. -/
theorem Placed.writerClose (hp : Placed s) (hx : s.writer ≠ .exit) (e : GoError)
    {w : WriterPc} (hpk : w.packet? = none) (htw : w.target? = none)
    (hdrop : ∀ h, s.Pending h → Carries s.writer.packet?.toList h → s.connection ≠ none) :
    Placed { s.closeConnection e with writer := w } := by
  by_cases hc : s.connection = none
  · rw [closeConnection_of_none hc]
    have hq : ∀ h, Carries ({ s with writer := w } : St).queued h ↔
        Carries s.packets h ∨ Carries s.submitting h := fun h => by
      simp [St.queued, hpk]
    refine ⟨fun h hc' => hp.fresh h ?_, fun _ h hph => ?_,
      fun h j hph hcj => absurd hcj (hp.off_sockets hc hph),
      fun _ _ _ _ _ ht => by simp [htw] at ht,
      fun h j hph hb => absurd (carries_held_of_buf hb) (hp.off_sockets hc hph)⟩
    · refine hc'.imp_left fun hc' => ?_
      simp only [St.queued, carries_append]
      exact ((hq h).mp hc').imp_left .inr
    · rcases hp.located hx h hph with hl | ⟨j, hj⟩
      · simp only [St.queued, carries_append] at hl
        rcases hl with (hl | hl) | hl
        · exact absurd hc (hdrop h hph hl)
        · exact .inl ((hq h).mpr (.inl hl))
        · exact .inl ((hq h).mpr (.inr hl))
      · exact absurd hj (hp.off_sockets hc hph)
  · refine hp.of_no_pending (fun h hph => hc (pending_closeConnection.mp hph).1) (fun h hq => ?_)
      (fun j => ?_) (by simp)
    · simp only [St.queued, carries_append, hpk, closeConnection_packets,
        closeConnection_submitting, Option.toList, carries_nil, false_or] at hq ⊢
      exact hq.imp_left .inr
    · simp only [Socket.held, (closeConnection_socks e j).1, (closeConnection_socks e j).2]

/-- `conn.dial()` on a connection without a current socket. -/
theorem Placed.dial {net : Except GoError Link} {err : Option GoError} (hp : Placed s)
    (hc : s.connection = none) (h : s.dial codec net = some (s', err)) : Placed s' := by
  rcases St.dial_cases h with ⟨g, e, -, rfl, -⟩ | ⟨g, e, sock, hd, rfl, -⟩ | ⟨g, sock, hd, rfl, -⟩
  · exact ⟨hp.1, hp.2, hp.3, hp.4, hp.5⟩
  · refine hp.of_unconnected hc rfl rfl rfl fun j => ?_
    dsimp only
    rcases update_sock_cases s.socks s.nsock j sock with ⟨rfl, he⟩ | ⟨-, he⟩ <;> rw [he]
    · exact .inr (dial_onlyAuth hd (.inl ⟨e, rfl⟩))
    · exact .inl rfl
  · refine hp.of_unconnected hc rfl rfl rfl fun j => ?_
    dsimp only
    rcases update_sock_cases s.socks s.nsock j sock with ⟨rfl, he⟩ | ⟨-, he⟩ <;> rw [he]
    · exact .inr (dial_onlyAuth hd (.inr rfl))
    · exact .inl rfl

theorem Placed.createConnection {t : Thread} {net : Except GoError Link} {c : CreatePc}
    {out : CreatePc ⊕ (Option Nat × Option Nat)} (hp : Placed s)
    (h : s.createConnection codec t net c = some (s', out)) : Placed s' := by
  rcases createConnection_cases h with ⟨-, -, rfl, -⟩ | ⟨-, -, rfl, -⟩ | ⟨-, -, -, rfl, -⟩ |
    ⟨-, hc, -, s1, err, hd, ⟨-, rfl, -⟩ | ⟨-, -, rfl, -⟩ | ⟨-, -, rfl, -⟩⟩
  · exact ⟨hp.1, hp.2, hp.3, hp.4, hp.5⟩
  · exact ⟨hp.1, hp.2, hp.3, hp.4, hp.5⟩
  · exact ⟨hp.1, hp.2, hp.3, hp.4, hp.5⟩
  all_goals have h1 := hp.dial hc hd
  · exact ⟨h1.1, h1.2, h1.3, h1.4, h1.5⟩
  · exact h1
  · exact ⟨h1.1, h1.2, h1.3, h1.4, h1.5⟩

theorem carries_singleton {p : Packet} {h : Nat} : Carries [p] h ↔ p.fut? = some h := by
  simp [Carries]

/-- `Submit` registers a future whose packet its caller holds. -/
theorem Placed.register (hp : Placed s) : Placed s.register := by
  have hq : ∀ h, Carries s.register.queued h ↔ Carries s.queued h ∨ s.nfut = h := fun h => by
    simp [St.queued, St.register, St.nextRequestId, carries_singleton, Packet.fut?, or_assoc]
  have hn : s.register.nfut = s.nfut + 1 := rfl
  have hold : ∀ h, s.register.Pending h → h < s.nfut → s.Pending h := fun h hph hlt =>
    (pending_of_register hph).resolve_left (Nat.ne_of_lt hlt)
  have hsock : ∀ h j, Carries (s.socks j).held h → h < s.nfut := fun h j hj =>
    hp.fresh h (.inr ⟨j, hj⟩)
  refine ⟨fun h hc => ?_, fun hx h hph => ?_, fun h j hph hcj => ?_, fun h p k hph hf ht => ?_,
    fun h j hph hb => ?_⟩
  · rw [hn]
    rcases hc with hc | ⟨j, hj⟩
    · rcases (hq h).mp hc with hc | rfl
      · exact Nat.lt_succ_of_lt (hp.fresh h (.inl hc))
      · exact Nat.lt_succ_self _
    · exact Nat.lt_succ_of_lt (hsock h j hj)
  · rcases pending_of_register hph with rfl | hph
    · exact .inl ((hq _).mpr (.inr rfl))
    · exact (hp.located hx h hph).imp_left fun hl => (hq h).mpr (.inl hl)
  · exact hp.current h j (hold h hph (hsock h j hcj)) hcj
  · have hh : h < s.nfut := hp.fresh h (.inl (carries_append.mpr (.inl (carries_append.mpr
      (.inl ⟨p, by simp [WriterPc.packet_of_target (w := s.writer) ht], hf⟩)))))
    exact hp.target h p k (hold h hph hh) hf ht
  · exact hp.buffered h j (hold h hph (hsock h j (carries_held_of_buf hb))) hb

/-- `conn.packets <- packet` moves a packet within the queue. -/
theorem queued_enqueue {i : Nat} (h : s.enqueue i = some s') : s'.queued.Perm s.queued := by
  obtain ⟨p, hget, rfl⟩ := enqueue_eq h
  simp only [St.queued, List.append_assoc]
  exact .append_left _ (.append_left _ (List.perm_append_comm.trans (perm_eraseIdx hget).symm))

theorem Placed.enqueue {i : Nat} (hp : Placed s) (h : s.enqueue i = some s') : Placed s' := by
  have hq : ∀ h, Carries s'.queued h ↔ Carries s.queued h := fun _ =>
    carries_iff_of_mem fun _ => (queued_enqueue h).mem_iff
  obtain ⟨p, -, rfl⟩ := enqueue_eq h
  exact hp.frame (fun h => (hq h).mp) (fun _ h _ => (hq h).mpr) (fun _ => ⟨rfl, rfl⟩) le_rfl
    rfl (fun _ => id) id (fun _ => id) (fun _ => id)

/-! ## Every step -/

/-- The writer loop's steps: each moves its packet along the path, or drops it only where the
future is no longer pending. -/
theorem Placed.writerStep {env : Env} (hw : Wired s) (hp : Placed s)
    (h : s.writerStep codec env = some s') : Placed s' := by
  have hx : s.writer ≠ .exit := fun hx => by simp [St.writerStep, hx] at h
  have hmv : ∀ {p ps}, s.packets = p :: ps → s.writer.packet? = none →
      Placed { s with packets := ps, writer := .got p } := fun hps hpk =>
    hp.move hx (by rw [hps, hpk]; rfl) (fun _ _ _ _ _ ht => (by cases ht)) fun _ _ _ _ => trivial
  unfold St.writerStep at h
  split at h
  · next hwr =>
    split at h <;> cases h
    · next p ps hps => exact hmv hps (by rw [hwr]; rfl)
    · next hps =>
      exact hp.move hx (by rw [hwr, hps]; rfl) (fun _ _ _ _ _ ht => (by cases ht))
        fun _ _ _ _ => trivial
  · next hwr =>
    cases h
    -- a pending packet is buffered only on the current socket, the one `conn.w` writes to
    have hbuf : ∀ h j, s.Pending h → Carries (s.socks j).w.buf h → s.w = some j :=
      fun h j hph hb => hw.w_eq.trans (hp.current h j hph (carries_held_of_buf hb))
    split
    · next k hwk =>
      refine hp.move hx (by rw [hwr]; rfl) (fun _ _ _ _ _ ht => (by cases ht))
        fun h j hph hb => ?_
      have hj := hbuf h j hph hb
      rw [hwk] at hj; cases hj; rfl
    · next hwk =>
      refine hp.move hx (by rw [hwr]; rfl) (fun _ _ _ _ _ ht => (by cases ht))
        fun h j hph hb => ?_
      have hj := hbuf h j hph hb
      rw [hwk] at hj; cases hj
  · next k hwr => cases h; exact hp.flush hwr
  · next k e hwr =>
    split_ifs at h; cases h
    exact hp.writerClose hx e rfl rfl fun _ _ hl => by simp [hwr, WriterPc.packet?] at hl
  · next hwr =>
    have hpk : s.writer.packet? = none := by rw [hwr]; rfl
    split at h
    · next hps _ => cases h; exact hmv hps hpk
    · next hps _ => cases h; split; exacts [hmv hps hpk, hp.exit]
    · cases h; exact hp.exit
    · cases h
  · next p hwr =>
    cases h
    split
    · next k hwk =>
      refine hp.move hx (by rw [hwr]; rfl) (fun _ _ _ _ _ ht => ?_) fun _ _ _ _ => trivial
      cases ht; exact hw.w_eq.symm.trans hwk
    · exact hp.move hx (by rw [hwr]; rfl) (fun _ _ _ _ _ ht => (by cases ht))
        fun _ _ _ _ => trivial
  · next p c hwr =>
    obtain ⟨⟨s1, out⟩, hcc, rfl⟩ := Option.map_eq_some'.mp h
    have h1 := hp.createConnection hcc
    obtain ⟨-, hwr1, -⟩ := createConnection_frame hcc
    obtain ⟨-, -, -, hout⟩ :=
      hw.toLinked.createConnection (fun hc => hw.writerLoop p (hc ▸ hwr)) hcc
    have hx1 : s1.writer ≠ .exit := hwr1 ▸ hx
    rcases out with c' | ⟨r, w⟩
    · exact h1.move hx1 (by rw [hwr1, hwr]; rfl) (fun _ _ _ _ _ ht => (by cases ht))
        fun _ _ _ _ => trivial
    · obtain ⟨-, -, rfl⟩ := hout r w rfl
      dsimp only
      split
      · next k hk =>
        refine h1.move hx1 (by rw [hwr1, hwr]; rfl) (fun _ _ _ _ _ ht => ?_)
          fun _ _ _ _ => trivial
        cases ht; exact hk
      · exact h1.exit
  · next p k hwr => cases h; exact hp.write hwr env.spill
  · next p k e hwr =>
    split_ifs at h; cases h
    refine hp.writerClose hx e rfl rfl fun h hph hl => ?_
    simp only [hwr, WriterPc.packet?, Option.toList, carries_singleton] at hl
    rw [hp.target h p k hph hl (by rw [hwr]; rfl)]; exact Option.some_ne_none k
  · cases h

/-- The reader loop's steps: only its reads, `createConnection` and `closeConnection` touch
the path, and `deliver` only takes futures out. -/
theorem Placed.readerStep {env : Env} (hp : Placed s) (h : s.readerStep codec env = some s') :
    Placed s' := by
  unfold St.readerStep at h
  split at h
  · cases h; exact ⟨hp.1, hp.2, hp.3, hp.4, hp.5⟩
  · obtain ⟨⟨s1, out⟩, hcc, rfl⟩ := Option.map_eq_some'.mp h
    have h1 := hp.createConnection hcc
    rcases out with c' | ⟨r, w⟩ <;> exact ⟨h1.1, h1.2, h1.3, h1.4, h1.5⟩
  · next k _ =>
    obtain ⟨⟨res, r⟩, -, rfl⟩ := Option.map_eq_some'.mp h
    have h1 : Placed { s with socks := Function.update s.socks k { s.socks k with r } } :=
      hp.update_sock rfl rfl
    exact ⟨h1.1, h1.2, h1.3, h1.4, h1.5⟩
  · next e _ =>
    split_ifs at h; cases h
    have h1 := hp.closeConnection e
    exact ⟨h1.1, h1.2, h1.3, h1.4, h1.5⟩
  · next resp _ =>
    split_ifs at h; cases h
    obtain ⟨rq, fs, he⟩ := deliver_eq (s := s) resp
    have hpend : ∀ h, (s.deliver resp).Pending h → s.Pending h := fun _ => pending_of_deliver
    rw [he] at hpend ⊢
    exact hp.frame (fun _ => id) (fun _ _ _ => id) (fun _ => ⟨rfl, rfl⟩) le_rfl rfl hpend id
      (fun _ => id) (fun _ => id)
  · cases h

theorem placed_step {e : Event} (hw : Wired s) (hp : Placed s) (h : step codec s e = some s') :
    Placed s' := by
  cases e with
  | writer env => exact hp.writerStep hw h
  | reader env => exact hp.readerStep h
  | close =>
    simp only [step, St.closerStep] at h
    split at h
    · cases h; exact ⟨hp.1, hp.2, hp.3, hp.4, hp.5⟩
    · cases h; exact ⟨hp.1, hp.2, hp.3, hp.4, hp.5⟩
    · split_ifs at h; cases h
      have h1 := hp.closeConnection clientClosed
      exact ⟨h1.1, h1.2, h1.3, h1.4, h1.5⟩
    · cases h
  | submit =>
    simp only [step, St.submit] at h
    split_ifs at h <;> cases h
    exacts [hp, hp.register]
  | enqueue i => exact hp.enqueue h
  | recv k c =>
    simp only [step] at h
    split_ifs at h; cases h
    exact hp.update_sock (recv_held c _).1 (recv_held c _).2
  | drop k e =>
    simp only [step] at h
    split_ifs at h; cases h
    exact hp.update_sock rfl rfl

/-- **Every reachable state places the packets of its pending futures.** -/
theorem reachable_placed (hs : Reachable codec s) : Placed s := by
  induction hs with
  | init opts => exact placed_init opts
  | step e hs h ih => exact placed_step (reachable_wired hs) ih h

/-- **While the writer runs, no pending request is lost or stale.** In every reachable state
where the writer loop has not returned, the packet of every pending future is with a `Submit`
caller, on `conn.packets`, in the writer's hands, or on the current socket; it is on no other
socket, and the writer writes it to no other socket. -/
theorem pending_request_on_path (hs : Reachable codec s) (hx : s.writer ≠ .exit) {h : Nat}
    (hph : s.Pending h) :
    (Carries s.queued h ∨ ∃ k, s.connection = some k ∧ Carries (s.socks k).held h) ∧
      (∀ j, Carries (s.socks j).held h → s.connection = some j) ∧
      (∀ p k, p.fut? = some h → s.writer.target? = some (p, k) → s.connection = some k) := by
  have hp := reachable_placed hs
  refine ⟨(hp.located hx h hph).imp_right fun ⟨j, hj⟩ => ⟨j, hp.current h j hph hj, hj⟩,
    fun j => hp.current h j hph, fun p k => hp.target h p k hph⟩

theorem pending_request_on_path_after_submit :
    ∃ s, Reachable silentCodec s ∧ s.writer = .top ∧ s.Pending 0 ∧
      (Carries s.queued 0 ∨ ∃ k, s.connection = some k ∧ Carries (s.socks k).held 0) ∧
      (∀ j, Carries (s.socks j).held 0 → s.connection = some j) ∧
      (∀ p k, p.fut? = some 0 → s.writer.target? = some (p, k) → s.connection = some k) := by
  have hs := run_reachable (.init guest) (rfl : run silentCodec (init guest) [.submit] = some _)
  exact ⟨_, hs, rfl, ⟨1, rfl⟩, pending_request_on_path hs (fun h => WriterPc.noConfusion h) ⟨1, rfl⟩⟩

/-! ## The writer parks -/

/-- **When the writer parks, no pending request is lost.** In every reachable state where the
writer loop waits in its inner `select`, the packet of every pending future is on
`conn.packets`, with a `Submit` caller that has registered the future and not yet sent the
packet, or handed to the kernel on the current socket; it is in no `bufio.Writer`'s buffer,
and on no socket that is not current. -/
theorem parked_writer_places_pending (hs : Reachable codec s) (hpark : s.writer = .park)
    {h : Nat} (hph : s.Pending h) :
    (Carries s.packets h ∨ Carries s.submitting h ∨
        ∃ k, s.connection = some k ∧ Carries (s.socks k).out h) ∧
      (∀ j, ¬ Carries (s.socks j).w.buf h) ∧
      (∀ j, Carries (s.socks j).out h → s.connection = some j) := by
  have hp := reachable_placed hs
  have hout : ∀ j, Carries (s.socks j).out h → s.connection = some j := fun j hj =>
    hp.current h j hph (hj.mono fun _ => List.mem_append_right _)
  have hbuf : ∀ j, ¬ Carries (s.socks j).w.buf h := fun j hb => by
    have := hp.buffered h j hph hb
    rwa [hpark] at this
  refine ⟨?_, hbuf, hout⟩
  rcases hp.located (by simp [hpark]) h hph with hl | ⟨j, hj⟩
  · simp only [St.queued, hpark, WriterPc.packet?, Option.toList, carries_append, carries_nil,
      false_or] at hl
    exact hl.imp_right .inl
  · rcases carries_append.mp hj with hj | hj
    · exact absurd hj (hbuf j)
    · exact .inr (.inr ⟨j, hout j hj, hj⟩)

/-- A request is submitted and sent: the writer dials socket `0`, writes the packet, flushes
it and parks. -/
def sentTrace : List Event :=
  [.submit, .enqueue 0] ++ List.replicate 8 (.writer quietEnv)

theorem parked_writer_places_pending_after_send :
    ∃ s, Reachable silentCodec s ∧ s.writer = .park ∧ s.Pending 0 ∧
      (Carries s.packets 0 ∨ Carries s.submitting 0 ∨
          ∃ k, s.connection = some k ∧ Carries (s.socks k).out 0) ∧
        (∀ j, ¬ Carries (s.socks j).w.buf 0) ∧
        (∀ j, Carries (s.socks j).out 0 → s.connection = some j) := by
  have hs := run_reachable (.init guest) (rfl : run silentCodec (init guest) sentTrace = some _)
  exact ⟨_, hs, rfl, ⟨1, rfl⟩, parked_writer_places_pending hs rfl ⟨1, rfl⟩⟩

/-- `Submit` has registered future `0` and not yet sent its packet when the writer, finding
`conn.packets` empty, parks: the future is pending, and its packet is neither on
`conn.packets` nor on a socket. -/
theorem parked_writer_before_enqueue :
    ∃ s, Reachable silentCodec s ∧ s.writer = .park ∧ s.Pending 0 ∧
      s.submitting = [.request 1 0] ∧ s.packets = [] ∧ ∀ j, (s.socks j).held = [] :=
  ⟨_, run_reachable (.init guest) (rfl : run silentCodec (init guest)
      [.submit, .writer quietEnv, .writer quietEnv] = some _),
    rfl, ⟨1, rfl⟩, rfl, rfl, fun _ => rfl⟩

/-! ## A failed request is still sent -/

/-- Future `0`'s packet waits on `conn.packets` while the reader dials socket `0`; the
network drops socket `0`, and the reader's `closeConnection` fails future `0`. -/
def resetTrace : List Event :=
  [.submit, .enqueue 0, .reader quietEnv, .reader quietEnv, .reader quietEnv,
    .drop 0 "connection reset", .reader quietEnv, .reader quietEnv]

set_option maxRecDepth 100000 in
/-- `closeConnection` fails future `0` with the network's error while its packet is still on
`conn.packets`, and leaves the packet there: the writer takes it, dials socket `1` and sends
it. The server runs a request its caller has seen fail. -/
theorem failed_request_sent_after_reconnect (codec : Codec) :
    ∃ s s', Reachable codec s ∧ (s.futs 0).err = some "connection reset" ∧
      (s.futs 0).closes = 1 ∧ s.requests.lookup 1 = none ∧ s.packets = [.request 1 0] ∧
      s.connection = none ∧ run codec s (List.replicate 8 (.writer quietEnv)) = some s' ∧
      s'.connection = some 1 ∧ (s'.socks 1).out = [.request 1 0] :=
  ⟨_, _, run_reachable (.init guest) (rfl : run codec (init guest) resetTrace = some _),
    rfl, rfl, rfl, rfl, rfl, rfl, rfl, rfl⟩

end GoTarantool.Connection

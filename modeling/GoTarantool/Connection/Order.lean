import GoTarantool.Connection.Placement

/-!
# The writer's output: queue order, distinct syncs, and a flush before it sleeps

`conn.packets` is a FIFO channel (`make(chan []byte, 64)`, line 51). The writer loop takes
one packet at a time off it and writes it to `conn.w` (lines 202-233); `dial` writes the
AUTH request to a new socket before publishing it (lines 87-96). `enqueued` follows a run and
collects what `Submit` callers put on `conn.packets`, in that order.

* **`wire_in_queue_order`** — after any run from `Connect`, what every socket was given, in the
  order it was given it, is the AUTH exchange of its `dial` followed by requests only, and
  those requests appear in the order they were put on `conn.packets`: no request overtakes
  an earlier one, and none reaches a socket before its AUTH request.
* **`wire_syncs_distinct`** — while at most `2^32` futures were registered, the requests every
  socket was given carry pairwise distinct sync ids, each its future's `h + 1` modulo `2^32`:
  a response's sync names at most one request of its socket.
* **`writer_sleeps_flushed`** — the writer loop flushes `conn.w` once `conn.packets` is empty
  (lines 208-213): whenever it waits in its inner `select` or has returned, the current
  socket's `bufio.Writer` holds nothing.
-/

namespace GoTarantool.Connection

open GoTarantool.Stream GoTarantool.Net GoTarantool.Dial

variable {codec : Codec} {s s' : St}

/-! ## What `Submit` puts on `conn.packets` -/

/-- What an event puts on `conn.packets`: the packet of the `Submit` caller it lets send. -/
def Event.put (s : St) : Event → List Packet
  | .enqueue i => (s.submitting.get? i).toList
  | _ => []

/-- The packets a run puts on `conn.packets`, in order. -/
def enqueued (codec : Codec) : St → List Event → List Packet
  | _, [] => []
  | s, e :: es =>
    match step codec s e with
    | none => []
    | some s' => e.put s ++ enqueued codec s' es

/-- The packet the writer has taken off `conn.packets` and not yet tried to write. -/
def WriterPc.unsent? : WriterPc → Option Packet
  | .got p | .create p _ | .write p _ => some p
  | _ => none

/-! ## A socket fed in order -/

/-- Socket `sk` was given the AUTH exchange of its `dial`, then requests in the order of
`taken`. -/
def Fed (taken : List Packet) (sk : Socket) : Prop :=
  ∃ a r, sk.wire = a ++ r ∧ (∀ p ∈ a, p.fut? = none) ∧ r.Sublist taken

theorem Fed.mono {t t' : List Packet} {sk : Socket} (h : Fed t sk) (ht : t.Sublist t') :
    Fed t' sk :=
  let ⟨a, r, hw, ha, hr⟩ := h; ⟨a, r, hw, ha, hr.trans ht⟩

theorem Fed.of_wire {t : List Packet} {sk sk' : Socket} (h : Fed t sk)
    (hw : sk'.wire = sk.wire) : Fed t sk' :=
  let ⟨a, r, hw', ha, hr⟩ := h; ⟨a, r, hw.trans hw', ha, hr⟩

/-- A socket only `dial` wrote to holds the AUTH exchange alone. -/
theorem fed_of_onlyAuth (t : List Packet) {sk : Socket} (h : OnlyAuth sk) : Fed t sk := by
  refine ⟨sk.wire, [], (List.append_nil _).symm, fun p hp => ?_, List.nil_sublist _⟩
  obtain ⟨b, rfl⟩ := h p (by simp only [Socket.held, Socket.wire, List.mem_append] at hp ⊢; tauto)
  rfl

/-- Writing the packet taken last appends it after every request the socket was given. -/
theorem Fed.write {t : List Packet} {sk : Socket} (h : Fed t sk) (spill : Bool) (p : Packet) :
    Fed (t ++ [p]) (sk.write spill p).2 := by
  rcases wire_write spill p sk with hw | hw
  · obtain ⟨a, r, hw', ha, hr⟩ := h
    exact ⟨a, r ++ [p], by rw [hw, hw', List.append_assoc], ha, hr.append (List.Sublist.refl _)⟩
  · rw [hw]; exact h.mono (List.sublist_append_left _ _)

theorem fed_update {t : List Packet} {socks : Nat → Socket} {k : Nat} {sk : Socket}
    (h : ∀ j, Fed t (socks j)) (hk : Fed t sk) (j : Nat) :
    Fed t (Function.update socks k sk j) := by
  rcases update_sock_cases socks k j sk with ⟨-, he⟩ | ⟨-, he⟩ <;> rw [he]
  exacts [hk, h j]

/-! ## The order invariant -/

/-- `sent` is what was put on `conn.packets`: what the writer took, the packet in its hands,
and what is still queued; every socket was fed in the order the writer took packets; and
`Submit` callers hold requests only. -/
structure Fifo (sent : List Packet) (s : St) : Prop where
  taken : ∃ t, sent = t ++ s.writer.unsent?.toList ++ s.packets ∧ ∀ j, Fed t (s.socks j)
  requests : ∀ p ∈ sent ++ s.submitting, p.fut? ≠ none

theorem fifo_init (opts : Opts) : Fifo [] (init opts) :=
  ⟨⟨[], rfl, fun _ => ⟨[], [], rfl, fun _ h => (by cases h), List.nil_sublist _⟩⟩,
    fun _ h => (by cases h)⟩

/-- A step that keeps the queue and the writer's packet, and keeps every socket fed. -/
theorem Fifo.frame {sent : List Packet} (hf : Fifo sent s) (hu : s'.writer.unsent? = s.writer.unsent?)
    (hq : s'.packets = s.packets) (hsub : s'.submitting = s.submitting)
    (hsk : ∀ t, (∀ j, Fed t (s.socks j)) → ∀ j, Fed t (s'.socks j)) : Fifo sent s' := by
  obtain ⟨t, ht, hfed⟩ := hf.taken
  exact ⟨⟨t, by rw [hu, hq, ht], hsk t hfed⟩, by rw [hsub]; exact hf.requests⟩

theorem socks_closeConnection (e : GoError) {t : List Packet} (h : ∀ j, Fed t (s.socks j)) :
    ∀ j, Fed t ((s.closeConnection e).socks j) := fun j =>
  (h j).of_wire (by simp only [Socket.wire, (closeConnection_socks e j).1,
    (closeConnection_socks e j).2])

theorem socks_dial {net : Except GoError Link} {err : Option GoError} {t : List Packet}
    (h : ∀ j, Fed t (s.socks j)) (hd : s.dial codec net = some (s', err)) :
    ∀ j, Fed t (s'.socks j) := by
  rcases St.dial_cases hd with ⟨g, e, -, rfl, -⟩ | ⟨g, e, sock, hdd, rfl, -⟩ |
    ⟨g, sock, hdd, rfl, -⟩
  · exact h
  · exact fed_update h (fed_of_onlyAuth t (dial_onlyAuth hdd (.inl ⟨e, rfl⟩)))
  · exact fed_update h (fed_of_onlyAuth t (dial_onlyAuth hdd (.inr rfl)))

theorem socks_createConnection {t : Thread} {net : Except GoError Link} {c : CreatePc}
    {out : CreatePc ⊕ (Option Nat × Option Nat)} {tk : List Packet}
    (h : ∀ j, Fed tk (s.socks j)) (hc : s.createConnection codec t net c = some (s', out)) :
    ∀ j, Fed tk (s'.socks j) := by
  rcases createConnection_cases hc with ⟨-, -, rfl, -⟩ | ⟨-, -, rfl, -⟩ | ⟨-, -, -, rfl, -⟩ |
    ⟨-, -, -, s1, err, hd, ⟨-, rfl, -⟩ | ⟨-, -, rfl, -⟩ | ⟨-, -, rfl, -⟩⟩
  all_goals first | exact h | (have h1 := socks_dial h hd; exact h1)

/-- `createConnection` leaves `conn.packets` and the `Submit` callers alone. -/
theorem createConnection_queue {t : Thread} {net : Except GoError Link} {c : CreatePc}
    {out : CreatePc ⊕ (Option Nat × Option Nat)}
    (h : s.createConnection codec t net c = some (s', out)) :
    s'.packets = s.packets ∧ s'.submitting = s.submitting := by
  rcases createConnection_cases h with ⟨-, -, rfl, -⟩ | ⟨-, -, rfl, -⟩ | ⟨-, -, -, rfl, -⟩ |
    ⟨-, -, -, s1, err, hd, ⟨-, rfl, -⟩ | ⟨-, -, rfl, -⟩ | ⟨-, -, rfl, -⟩⟩
  all_goals first
    | exact ⟨rfl, rfl⟩
    | rcases St.dial_cases hd with ⟨_, _, _, rfl, -⟩ | ⟨_, _, _, _, rfl, -⟩ | ⟨_, _, _, rfl, -⟩ <;>
        exact ⟨rfl, rfl⟩

/-! ## Every step -/

theorem Fifo.writerStep {env : Env} {sent : List Packet} (hf : Fifo sent s)
    (h : s.writerStep codec env = some s') : Fifo sent s' := by
  obtain ⟨t, ht, hfed⟩ := hf.taken
  -- the writer takes the head of `conn.packets` into its hands
  have htake : ∀ {p ps}, s.writer.unsent? = none → s.packets = p :: ps →
      Fifo sent { s with packets := ps, writer := .got p } := fun hu hps =>
    ⟨⟨t, by rw [ht, hu, hps]; simp [WriterPc.unsent?], hfed⟩, hf.requests⟩
  -- the writer is done with its packet: count it as taken
  have hdone : ∀ {p}, s.writer.unsent? = some p → ∀ {x : St}, x.writer.unsent? = none →
      x.packets = s.packets → x.submitting = s.submitting →
      (∀ j, Fed (t ++ [p]) (x.socks j)) → Fifo sent x := fun {p} hu {x} hx hq hsub hsk =>
    ⟨⟨t ++ [p], by rw [ht, hu, hx, hq]; simp, hsk⟩, by rw [hsub]; exact hf.requests⟩
  unfold St.writerStep at h
  split at h
  · next hwr =>
    split at h <;> cases h
    · exact htake (by rw [hwr]; rfl) ‹_›
    · exact hf.frame (by rw [hwr]; rfl) rfl rfl fun _ => id
  · next hwr => cases h; exact hf.frame (by rw [hwr]; split <;> rfl) rfl rfl fun _ => id
  · next k hwr =>
    cases h
    refine hf.frame (by rw [hwr]; split <;> rfl) rfl rfl fun _ h => ?_
    exact fed_update h ((h k).of_wire (wire_flush _))
  · next hwr =>
    split_ifs at h; cases h
    exact hf.frame (by rw [hwr]; rfl) (by simp) (by simp) fun _ h => socks_closeConnection _ h
  · next hwr =>
    have hu : s.writer.unsent? = none := by rw [hwr]; rfl
    split at h <;> (try split at h) <;> cases h
    · exact htake hu ‹_›
    · exact htake hu ‹_›
    · exact hf.frame (by rw [hwr]; rfl) rfl rfl fun _ => id
    · exact hf.frame (by rw [hwr]; rfl) rfl rfl fun _ => id
  · next p hwr => cases h; exact hf.frame (by rw [hwr]; split <;> rfl) rfl rfl fun _ => id
  · next p c hwr =>
    obtain ⟨⟨s1, out⟩, hcc, rfl⟩ := Option.map_eq_some'.mp h
    obtain ⟨hq1, hsub1⟩ := createConnection_queue hcc
    have hsk1 := socks_createConnection hfed hcc
    rcases out with c' | ⟨r, w⟩
    · exact ⟨⟨t, by rw [ht, hwr, hq1]; rfl, hsk1⟩, by rw [hsub1]; exact hf.requests⟩
    · dsimp only
      split
      · exact ⟨⟨t, by rw [ht, hwr, hq1]; rfl, hsk1⟩, by rw [hsub1]; exact hf.requests⟩
      · exact hdone (by rw [hwr]; rfl) rfl hq1 hsub1 fun j =>
          (hsk1 j).mono (List.sublist_append_left _ _)
  · next p k hwr =>
    cases h
    refine hdone (by rw [hwr]; rfl) (by dsimp only; split <;> rfl) rfl rfl fun j => ?_
    rcases update_sock_cases s.socks k j ((s.socks k).write env.spill p).2 with ⟨rfl, he⟩ | ⟨-, he⟩ <;>
      dsimp only <;> rw [he]
    · exact (hfed j).write env.spill p
    · exact (hfed j).mono (List.sublist_append_left _ _)
  · next hwr =>
    split_ifs at h; cases h
    exact hf.frame (by rw [hwr]; rfl) (by simp) (by simp) fun _ h => socks_closeConnection _ h
  · cases h

theorem Fifo.readerStep {env : Env} {sent : List Packet} (hf : Fifo sent s)
    (h : s.readerStep codec env = some s') : Fifo sent s' := by
  have hw := (readerStep_frame h).1
  unfold St.readerStep at h
  split at h
  · cases h; exact hf.frame rfl rfl rfl fun _ => id
  · obtain ⟨⟨s1, out⟩, hcc, rfl⟩ := Option.map_eq_some'.mp h
    obtain ⟨hq1, hsub1⟩ := createConnection_queue hcc
    have hf1 : Fifo sent s1 := hf.frame (by rw [(createConnection_frame hcc).2.1]) hq1 hsub1
      fun _ h => socks_createConnection h hcc
    rcases out with c' | ⟨r, w⟩ <;> exact ⟨hf1.1, hf1.2⟩
  · next k _ =>
    obtain ⟨⟨res, r⟩, -, rfl⟩ := Option.map_eq_some'.mp h
    exact hf.frame rfl rfl rfl fun _ h => fed_update h ((h k).of_wire rfl)
  · split_ifs at h; cases h
    exact hf.frame (by simp) (by simp) (by simp) fun _ h => socks_closeConnection _ h
  · next k resp _ =>
    split_ifs at h; cases h
    obtain ⟨rq, fs, he⟩ := deliver_eq (s := s) resp
    rw [he]; exact hf.frame rfl rfl rfl fun _ => id
  · cases h

theorem fifo_step {e : Event} {sent : List Packet} (hf : Fifo sent s)
    (h : step codec s e = some s') : Fifo (sent ++ e.put s) s' := by
  cases e with
  | writer env => simpa [Event.put] using hf.writerStep h
  | reader env => simpa [Event.put] using hf.readerStep h
  | close =>
    simp only [step, St.closerStep] at h
    simp only [Event.put, List.append_nil]
    split at h
    · cases h; exact hf.frame rfl rfl rfl fun _ => id
    · cases h; exact hf.frame rfl rfl rfl fun _ => id
    · split_ifs at h; cases h
      exact hf.frame (by simp) (by simp) (by simp) fun _ h => socks_closeConnection _ h
    · cases h
  | submit =>
    simp only [step, St.submit] at h
    simp only [Event.put, List.append_nil]
    split_ifs at h <;> cases h
    · exact hf
    · refine ⟨hf.taken, fun p hp => ?_⟩
      simp only [St.register, St.nextRequestId, ← List.append_assoc, List.mem_append,
        List.mem_singleton] at hp
      rcases hp with hp | rfl
      · exact hf.requests p (List.mem_append.mpr hp)
      · exact Option.noConfusion
  | enqueue i =>
    obtain ⟨p, hget, rfl⟩ := enqueue_eq h
    obtain ⟨t, ht, hfed⟩ := hf.taken
    have hperm := perm_eraseIdx hget
    refine ⟨⟨t, by simp only [Event.put, hget, Option.toList_some, ht, List.append_assoc], hfed⟩,
      fun x hx => hf.requests x ?_⟩
    simp only [Event.put, hget, Option.toList_some, List.mem_append, List.mem_singleton] at hx ⊢
    rcases hx with (hx | rfl) | hx
    · exact .inl hx
    · exact .inr (List.get?_mem hget)
    · exact .inr (hperm.mem_iff.mpr (List.mem_append_left _ hx))
  | recv k c =>
    simp only [step] at h; split_ifs at h; cases h
    simp only [Event.put, List.append_nil]
    exact hf.frame rfl rfl rfl fun _ h => fed_update h ((h k).of_wire
      (by simp only [Socket.wire, (recv_held c (s.socks k)).1, (recv_held c (s.socks k)).2]))
  | drop k e =>
    simp only [step] at h; split_ifs at h; cases h
    simp only [Event.put, List.append_nil]
    exact hf.frame rfl rfl rfl fun _ h => fed_update h ((h k).of_wire rfl)

theorem fifo_run : ∀ {s s' : St} {es : List Event} {sent : List Packet}, Fifo sent s →
    run codec s es = some s' → Fifo (sent ++ enqueued codec s es) s'
  | s, s', [], sent, hf, h => by cases h; simpa [enqueued] using hf
  | s, s', e :: es, sent, hf, h => by
    simp only [run, Option.bind_eq_some] at h
    obtain ⟨s1, h1, h2⟩ := h
    simpa [enqueued, h1, List.append_assoc] using fifo_run (fifo_step hf h1) h2

/-- **Requests reach each socket in queue order.** After any run from `Connect`, what socket
`j` was given, in order (handed to the kernel, then still buffered), is the AUTH exchange of
its `dial` followed by requests only, and these form a sublist of the packets the run put on
`conn.packets`, in the order it put them there. -/
theorem wire_in_queue_order (opts : Opts) {es : List Event}
    (hr : run codec (init opts) es = some s) (j : Nat) :
    ∃ a r, (s.socks j).out ++ (s.socks j).w.buf = a ++ r ∧ (∀ p ∈ a, p.fut? = none) ∧
      (∀ p ∈ r, p.fut? ≠ none) ∧ r.Sublist (enqueued codec (init opts) es) := by
  have hf := fifo_run (fifo_init opts) hr
  obtain ⟨t, ht, hfed⟩ := hf.taken
  obtain ⟨a, r, hw, ha, hrt⟩ := hfed j
  have hsub : r.Sublist (enqueued codec (init opts) es) := by
    rw [List.nil_append] at ht
    rw [ht, List.append_assoc]
    exact hrt.trans (List.sublist_append_left _ _)
  refine ⟨a, r, hw, ha, fun p hp => hf.requests p ?_, hsub⟩
  exact List.mem_append_left _ (by simpa using hsub.subset hp)

/-- One request, sent on socket `0`. -/
theorem wire_in_queue_order_after_send :
    ∃ s, run silentCodec (init guest) sentTrace = some s ∧
      (s.socks 0).out ++ (s.socks 0).w.buf = [.request 1 0] ∧
      enqueued silentCodec (init guest) sentTrace = [.request 1 0] ∧
      ∃ a r, (s.socks 0).out ++ (s.socks 0).w.buf = a ++ r ∧ (∀ p ∈ a, p.fut? = none) ∧
        (∀ p ∈ r, p.fut? ≠ none) ∧ r.Sublist (enqueued silentCodec (init guest) sentTrace) :=
  ⟨_, rfl, rfl, rfl, @wire_in_queue_order silentCodec _ guest sentTrace rfl 0⟩

/-! ## Sync ids on the wire -/

/-- The sync id a packet carries: `nextRequestId()`'s for a request. -/
def Packet.sync? : Packet → Option UInt32
  | .auth _ => none
  | .request id _ => some id

/-- The packets `Submit` made so far, put on `conn.packets` (`sent`) or still with their
callers: each is a distinct future's request, under that future's sync id. -/
structure Synced (sent : List Packet) (s : St) : Prop where
  distinct : ((sent ++ s.submitting).map Packet.fut?).Nodup
  tagged : ∀ p ∈ sent ++ s.submitting,
    ∃ id f, p = .request id f ∧ f < s.nfut ∧ id.toNat = (f + 1) % 2 ^ 32

theorem synced_init (opts : Opts) : Synced [] (init opts) :=
  ⟨List.nodup_nil, fun _ h => (by cases h)⟩

theorem Synced.frame {sent : List Packet} (hs : Synced sent s)
    (hsub : s'.submitting = s.submitting) (hn : s.nfut ≤ s'.nfut) : Synced sent s' := by
  refine ⟨hsub ▸ hs.distinct, fun p hp => ?_⟩
  obtain ⟨id, f, rfl, hf, hid⟩ := hs.tagged p (hsub ▸ hp)
  exact ⟨id, f, rfl, by omega, hid⟩

/-- `register` makes the request of a new future under the id it takes from the counter. -/
theorem Synced.register {sent : List Packet} (hi : s.registry.IdsOk) (hs : Synced sent s) :
    Synced sent s.register := by
  have hc : s.requestId.toNat = s.nfut % 2 ^ 32 := hi.counter
  have hsub : s.register.submitting = s.submitting ++ [.request (s.requestId + 1) s.nfut] := rfl
  have hn : s.register.nfut = s.nfut + 1 := rfl
  have hfresh : some s.nfut ∉ (sent ++ s.submitting).map Packet.fut? := fun hm => by
    obtain ⟨p, hp, hpf⟩ := List.mem_map.mp hm
    obtain ⟨id, f, rfl, hf, -⟩ := hs.tagged p hp
    cases hpf; omega
  refine ⟨?_, fun p hp => ?_⟩
  · rw [hsub, ← List.append_assoc, List.map_append]
    exact List.nodup_append.mpr ⟨hs.distinct, List.nodup_singleton _,
      List.disjoint_singleton.mpr hfresh⟩
  · rw [hsub, ← List.append_assoc] at hp
    rw [hn]
    rcases List.mem_append.mp hp with hp | hp
    · obtain ⟨id, f, rfl, hf, hid⟩ := hs.tagged p hp
      exact ⟨id, f, rfl, by omega, hid⟩
    · rw [List.mem_singleton.mp hp]
      exact ⟨_, _, rfl, by omega, by rw [uint32_toNat_succ, hc]; omega⟩

theorem writerStep_submitting {env : Env} (h : s.writerStep codec env = some s') :
    s'.submitting = s.submitting := by
  unfold St.writerStep at h
  split at h
  · split at h <;> cases h <;> rfl
  · cases h; rfl
  · cases h; rfl
  · split_ifs at h; cases h; simp
  · split at h <;> (try split at h) <;> cases h <;> rfl
  · cases h; rfl
  · obtain ⟨⟨s1, out⟩, hcc, rfl⟩ := Option.map_eq_some'.mp h
    rcases out with c' | ⟨r, w⟩ <;> exact (createConnection_queue hcc).2
  · cases h; rfl
  · split_ifs at h; cases h; simp
  · cases h

theorem readerStep_submitting {env : Env} (h : s.readerStep codec env = some s') :
    s'.submitting = s.submitting := by
  unfold St.readerStep at h
  split at h
  · cases h; rfl
  · obtain ⟨⟨s1, out⟩, hcc, rfl⟩ := Option.map_eq_some'.mp h
    rcases out with c' | ⟨r, w⟩ <;> exact (createConnection_queue hcc).2
  · obtain ⟨⟨res, r⟩, -, rfl⟩ := Option.map_eq_some'.mp h; rfl
  · split_ifs at h; cases h; simp
  · next resp _ =>
    split_ifs at h; cases h
    obtain ⟨rq, fs, he⟩ := deliver_eq (s := s) resp
    rw [he]
  · cases h

/-- No step takes a future back. -/
theorem step_nfut_le {e : Event} (h : step codec s e = some s') : s.nfut ≤ s'.nfut := by
  rcases step_registry h with h1 | ⟨err, h1⟩ | ⟨resp, h1⟩ | ⟨-, h1⟩ <;>
    have h2 := congrArg Registry.nfut h1 <;>
    simp only [St.registry_nfut, closeConnection_nfut, deliver_nfut] at h2
  · exact h2.ge
  · exact h2.ge
  · exact h2.ge
  · rw [h2]; exact Nat.le_succ _

theorem synced_step {e : Event} {sent : List Packet} (hi : s.registry.IdsOk)
    (hs : Synced sent s) (h : step codec s e = some s') : Synced (sent ++ e.put s) s' := by
  have hn := step_nfut_le h
  cases e with
  | writer env => simpa [Event.put] using hs.frame (writerStep_submitting h) hn
  | reader env => simpa [Event.put] using hs.frame (readerStep_submitting h) hn
  | close =>
    simp only [step, St.closerStep] at h
    simp only [Event.put, List.append_nil]
    refine hs.frame ?_ hn
    split at h
    · cases h; rfl
    · cases h; rfl
    · split_ifs at h; cases h; simp
    · cases h
  | submit =>
    simp only [step, St.submit] at h
    simp only [Event.put, List.append_nil]
    split_ifs at h <;> cases h
    exacts [hs, hs.register hi]
  | enqueue i =>
    obtain ⟨p, hget, rfl⟩ := enqueue_eq h
    -- the packet only moves from its caller to `conn.packets`
    have hperm : (sent ++ s.submitting).Perm (sent ++ [p] ++ s.submitting.eraseIdx i) := by
      rw [List.append_assoc]
      exact ((perm_eraseIdx hget).trans List.perm_append_comm).append_left sent
    simp only [Event.put, hget, Option.toList_some]
    exact ⟨(hperm.map _).nodup_iff.mp hs.distinct, fun q hq => hs.tagged q (hperm.mem_iff.mpr hq)⟩
  | recv k c =>
    simp only [step] at h; split_ifs at h; cases h
    simp only [Event.put, List.append_nil]; exact hs.frame rfl le_rfl
  | drop k e =>
    simp only [step] at h; split_ifs at h; cases h
    simp only [Event.put, List.append_nil]; exact hs.frame rfl le_rfl

theorem synced_run : ∀ {s s' : St} {es : List Event} {sent : List Packet}, Reachable codec s →
    Synced sent s → run codec s es = some s' → Synced (sent ++ enqueued codec s es) s'
  | s, s', [], sent, _, hs, h => by cases h; simpa [enqueued] using hs
  | s, s', e :: es, sent, hr, hs, h => by
    simp only [run, Option.bind_eq_some] at h
    obtain ⟨s1, h1, h2⟩ := h
    simpa [enqueued, h1, List.append_assoc] using
      synced_run (.step e hr h1) (synced_step (reachable_idsOk hr) hs h1) h2

/-- **Sync ids on the wire are distinct.** After any run from `Connect` that registered at
most `2^32` futures, what socket `j` was given after the AUTH exchange of its `dial` is
requests of registered futures, each under its future's sync id `h + 1` modulo `2^32`, and no
two of them carry the same sync id: the response to a sync names one request of the socket. -/
theorem wire_syncs_distinct (opts : Opts) {es : List Event}
    (hr : run codec (init opts) es = some s) (hn : s.nfut ≤ 2 ^ 32) (j : Nat) :
    ∃ a r, (s.socks j).out ++ (s.socks j).w.buf = a ++ r ∧ (∀ p ∈ a, p.fut? = none) ∧
      (∀ p ∈ r, ∃ id f, p = .request id f ∧ f < s.nfut ∧ id.toNat = (f + 1) % 2 ^ 32) ∧
      (r.map Packet.sync?).Nodup := by
  have hs := synced_run (.init opts) (synced_init opts) hr
  obtain ⟨t, ht, hfed⟩ := (fifo_run (fifo_init opts) hr).taken
  obtain ⟨a, r, hw, ha, hrt⟩ := hfed j
  -- the requests of socket `j` are among those put on `conn.packets`
  have hsub : r.Sublist (enqueued codec (init opts) es ++ s.submitting) := by
    rw [List.nil_append] at ht
    rw [ht, List.append_assoc, List.append_assoc]
    exact hrt.trans (List.sublist_append_left _ _)
  rw [List.nil_append] at hs
  have htag : ∀ p ∈ r, ∃ id f, p = .request id f ∧ f < s.nfut ∧ id.toNat = (f + 1) % 2 ^ 32 :=
    fun p hp => hs.tagged p (hsub.subset hp)
  refine ⟨a, r, hw, ha, htag, List.Nodup.map_on (fun p hp q hq hpq => ?_)
    (List.Nodup.of_map _ (hs.distinct.sublist (hsub.map _)))⟩
  obtain ⟨id, f, rfl, hf, hid⟩ := htag p hp
  obtain ⟨id', f', rfl, hf', hid'⟩ := htag q hq
  cases hpq
  have : f = f' := by omega
  rw [this]

/-- After `sentTrace`, socket `0` was given the request of future `0` under sync `1`. -/
theorem wire_syncs_distinct_after_send :
    ∃ s, run silentCodec (init guest) sentTrace = some s ∧ s.nfut = 1 ∧
      (s.socks 0).out ++ (s.socks 0).w.buf = [.request 1 0] ∧
      ∃ a r, (s.socks 0).out ++ (s.socks 0).w.buf = a ++ r ∧ (∀ p ∈ a, p.fut? = none) ∧
        (∀ p ∈ r, ∃ id f, p = .request id f ∧ f < s.nfut ∧ id.toNat = (f + 1) % 2 ^ 32) ∧
        (r.map Packet.sync?).Nodup :=
  ⟨_, rfl, rfl, rfl, @wire_syncs_distinct silentCodec _ guest sentTrace rfl (by decide) 0⟩

/-! ## The writer flushes before it sleeps -/

/-- The current socket's `bufio.Writer` holds packets only at a point of the writer loop that
may still flush them: not while it parks or once it has returned, and during a flush only if
the socket flushed is the current one. -/
def Flushed (s : St) : Prop :=
  ∀ k, s.connection = some k → (s.socks k).w.buf ≠ [] → s.writer.MayBuffer k ∧ s.writer ≠ .exit

theorem flushed_of_unconnected (hc : s.connection = none) : Flushed s := fun k hk => by
  rw [hc] at hk; cases hk

/-- At a point that may flush any socket later, nothing is required of the buffers. -/
theorem flushed_of_mayBuffer (hw : ∀ k, s.writer.MayBuffer k) (hx : s.writer ≠ .exit) :
    Flushed s :=
  fun k _ _ => ⟨hw k, hx⟩

theorem Flushed.update_sock (hf : Flushed s) {k : Nat} {sk : Socket} (hw : sk.w = (s.socks k).w) :
    Flushed { s with socks := Function.update s.socks k sk } := fun j hj hne => by
  refine hf j hj fun hb => hne ?_
  dsimp only
  rcases update_sock_cases s.socks k j sk with ⟨rfl, he⟩ | ⟨-, he⟩ <;> rw [he]
  · rw [hw, hb]
  · exact hb

/-- A `dial` publishes a socket with an empty buffer, and leaves the current one alone. -/
theorem dial_current_buf {net : Except GoError Link} {err : Option GoError} (hl : Linked s)
    (hd : s.dial codec net = some (s', err)) {k : Nat} (hk : s'.connection = some k)
    (hne : (s'.socks k).w.buf ≠ []) :
    s.connection = some k ∧ (s'.socks k).w.buf = (s.socks k).w.buf := by
  rcases St.dial_cases hd with ⟨g, e, -, rfl, -⟩ | ⟨g, e, sock, -, rfl, -⟩ | ⟨g, sock, hdd, rfl, -⟩
  · exact ⟨hk, rfl⟩
  · refine ⟨hk, ?_⟩
    dsimp only
    rw [Function.update_noteq (hl.published k hk).1.ne]
  · cases hk
    refine absurd ?_ hne
    dsimp only
    rw [Function.update_same]
    exact dial_ready_buf hdd

theorem createConnection_current_buf {t : Thread} {net : Except GoError Link} {c : CreatePc}
    {out : CreatePc ⊕ (Option Nat × Option Nat)} (hl : Linked s)
    (h : s.createConnection codec t net c = some (s', out)) {k : Nat}
    (hk : s'.connection = some k) (hne : (s'.socks k).w.buf ≠ []) :
    s.connection = some k ∧ (s'.socks k).w.buf = (s.socks k).w.buf := by
  rcases createConnection_cases h with ⟨-, -, rfl, -⟩ | ⟨-, -, rfl, -⟩ | ⟨-, -, -, rfl, -⟩ |
    ⟨-, -, -, s1, err, hd, ⟨-, rfl, -⟩ | ⟨-, -, rfl, -⟩ | ⟨-, -, rfl, -⟩⟩
  all_goals first | exact ⟨hk, rfl⟩ | exact dial_current_buf hl hd hk hne

theorem Flushed.writerStep {env : Env} (hw : Wired s) (hf : Flushed s)
    (h : s.writerStep codec env = some s') : Flushed s' := by
  unfold St.writerStep at h
  split at h
  · split at h <;> cases h <;> exact flushed_of_mayBuffer (fun _ => trivial) nofun
  · cases h
    split
    · next k hwk =>
      -- `conn.w` is the current socket's writer, so the writer flushes the current socket
      refine fun j hj _ => ⟨?_, nofun⟩
      rw [← hw.w_eq, hwk] at hj
      exact (Option.some_inj.mp hj).symm
    · next hwk => exact flushed_of_unconnected (hw.w_eq.symm.trans hwk)
  · next k hwr =>
    cases h
    refine fun j hj hne => ?_
    dsimp only at hj hne ⊢
    rcases update_sock_cases s.socks k j (s.socks k).flush.2 with ⟨rfl, he⟩ | ⟨hjk, he⟩ <;>
      rw [he] at hne
    · cases hfl : (s.socks j).flush.1 with
      | error e => exact ⟨rfl, nofun⟩
      | ok u => exact absurd ((flush_held (s.socks j) (.auth [])).2.2 hfl) hne
    · have hbuf := (hf j hj hne).1
      rw [hwr] at hbuf
      exact absurd hbuf hjk
  · split_ifs at h; cases h
    exact flushed_of_unconnected (closeConnection_connection _ _)
  · next hwr =>
    -- the writer returns only from its inner `select`, where nothing is buffered
    have hexit : Flushed { s with writer := .exit } := fun k hk hne => by
      have hbuf := (hf k hk hne).1
      rw [hwr] at hbuf
      exact (hbuf : False).elim
    split at h
    · cases h; exact flushed_of_mayBuffer (fun _ => trivial) nofun
    · cases h; split
      · exact flushed_of_mayBuffer (fun _ => trivial) nofun
      · exact hexit
    · cases h; exact hexit
    · cases h
  · cases h; split <;> exact flushed_of_mayBuffer (fun _ => trivial) nofun
  · next p c hwr =>
    obtain ⟨⟨s1, out⟩, hcc, rfl⟩ := Option.map_eq_some'.mp h
    obtain ⟨-, -, -, hout⟩ :=
      hw.toLinked.createConnection (fun hc => hw.writerLoop p (hc ▸ hwr)) hcc
    rcases out with c' | ⟨r, w⟩
    · exact flushed_of_mayBuffer (fun _ => trivial) nofun
    · obtain ⟨-, -, rfl⟩ := hout r w rfl
      dsimp only
      split
      · exact flushed_of_mayBuffer (fun _ => trivial) nofun
      · next hk => exact flushed_of_unconnected hk
  · cases h; split <;> exact flushed_of_mayBuffer (fun _ => trivial) nofun
  · split_ifs at h; cases h
    exact flushed_of_unconnected (closeConnection_connection _ _)
  · cases h

theorem Flushed.readerStep {env : Env} (hl : Linked s) (hf : Flushed s)
    (h : s.readerStep codec env = some s') : Flushed s' := by
  unfold St.readerStep at h
  split at h
  · cases h; exact hf
  · obtain ⟨⟨s1, out⟩, hcc, rfl⟩ := Option.map_eq_some'.mp h
    have hwr := (createConnection_frame hcc).2.1
    have h1 : Flushed s1 := fun k hk hne => by
      obtain ⟨hk0, hb⟩ := createConnection_current_buf hl hcc hk hne
      rw [hwr]
      exact hf k hk0 (hb ▸ hne)
    rcases out with c' | ⟨r, w⟩ <;> exact h1
  · next k _ =>
    obtain ⟨⟨res, r⟩, -, rfl⟩ := Option.map_eq_some'.mp h
    exact hf.update_sock rfl
  · split_ifs at h; cases h
    exact flushed_of_unconnected (closeConnection_connection _ _)
  · next resp _ =>
    split_ifs at h; cases h
    obtain ⟨rq, fs, he⟩ := deliver_eq (s := s) resp
    rw [he]; exact hf
  · cases h

theorem flushed_step {e : Event} (hw : Wired s) (hf : Flushed s)
    (h : step codec s e = some s') : Flushed s' := by
  cases e with
  | writer env => exact hf.writerStep hw h
  | reader env => exact hf.readerStep hw.toLinked h
  | close =>
    simp only [step, St.closerStep] at h
    split at h
    · cases h; exact hf
    · cases h; exact hf
    · split_ifs at h; cases h
      exact flushed_of_unconnected (closeConnection_connection _ _)
    · cases h
  | submit =>
    simp only [step, St.submit] at h
    split_ifs at h <;> cases h <;> exact hf
  | enqueue i =>
    obtain ⟨p, -, rfl⟩ := enqueue_eq h
    exact hf
  | recv k c =>
    simp only [step] at h; split_ifs at h; cases h
    exact hf.update_sock (recv_held c _).1
  | drop k e =>
    simp only [step] at h; split_ifs at h; cases h
    exact hf.update_sock rfl

theorem reachable_flushed (hs : Reachable codec s) : Flushed s := by
  induction hs with
  | init opts => exact flushed_of_unconnected rfl
  | step e hs h ih => exact flushed_step (reachable_wired hs) ih h

/-- **The writer flushes before it sleeps.** In every reachable state where the writer loop
waits in its inner `select` or has returned, the current socket's `bufio.Writer` holds
nothing: every packet written to it has been handed to the kernel. -/
theorem writer_sleeps_flushed (hs : Reachable codec s) (hw : s.writer = .park ∨ s.writer = .exit)
    {k : Nat} (hk : s.connection = some k) : (s.socks k).w.buf = [] := by
  by_contra hne
  have hf := reachable_flushed hs k hk hne
  rcases hw with hw | hw <;> rw [hw] at hf
  · exact hf.1
  · exact hf.2 rfl

/-- After `sentTrace` the writer parks with its request handed to the kernel on socket `0`. -/
theorem writer_sleeps_flushed_after_send :
    ∃ s, Reachable silentCodec s ∧ s.writer = .park ∧ s.connection = some 0 ∧
      (s.socks 0).out = [.request 1 0] ∧ (s.socks 0).w.buf = [] := by
  have hs := run_reachable (.init guest) (rfl : run silentCodec (init guest) sentTrace = some _)
  exact ⟨_, hs, rfl, rfl, rfl, writer_sleeps_flushed hs (.inl rfl) rfl⟩

end GoTarantool.Connection

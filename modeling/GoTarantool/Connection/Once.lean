import GoTarantool.Connection.Placement

/-!
# No request is sent twice

A request's packet is made once, by `Submit`, and each step moves it at most one place along:
from its caller to `conn.packets`, into the writer's hands, into a socket's `bufio.Writer`,
and to the kernel. A failed `Write` leaves it with the writer, which drops it; a socket's
fault strands whatever its buffer holds, since a faulty socket never hands its buffer over.
Nothing copies a packet, and nothing puts one back.

* `reachable_once` — over every interleaving, each future's packet has at most one copy
  that the connection may still send or has sent;
* **`sent_at_most_once`** — so each request reaches the kernel at most once, on one socket.
  This holds also for the packet of a future that `closeConnection` already failed
  (`failed_request_sent_after_reconnect`): that packet is sent once, not twice.
-/

namespace GoTarantool.Connection

open GoTarantool.Stream GoTarantool.Net GoTarantool.Dial

variable {codec : Codec} {s s' : St}

/-! ## Copies -/

/-- How many packets of `ps` carry future `h`'s request. -/
def copiesIn (h : Nat) (ps : List Packet) : Nat := ps.countP fun p => p.fut? = some h

section copies

variable {h : Nat} {ps qs : List Packet}

@[simp] theorem copiesIn_nil : copiesIn h [] = 0 := rfl

@[simp] theorem copiesIn_append : copiesIn h (ps ++ qs) = copiesIn h ps + copiesIn h qs :=
  List.countP_append _ _ _

@[simp] theorem copiesIn_cons {p : Packet} :
    copiesIn h (p :: ps) = copiesIn h ps + if p.fut? = some h then 1 else 0 := by
  simp [copiesIn, List.countP_cons]

theorem copiesIn_pos : 0 < copiesIn h ps ↔ Carries ps h := by
  simp [copiesIn, List.countP_pos_iff, Carries]

theorem copiesIn_request {id : UInt32} {f : Nat} :
    copiesIn h [.request id f] = if f = h then 1 else 0 := by
  by_cases hf : f = h <;> simp [copiesIn, Packet.fut?, hf]

theorem copiesIn_auth {sk : Socket} (ha : OnlyAuth sk) : copiesIn h sk.live = 0 :=
  Nat.eq_zero_of_not_pos fun hpos =>
    onlyAuth_not_carries ha h ((copiesIn_pos.mp hpos).mono (live_subset_held sk))

end copies

/-! ## What the socket operations do to the live packets -/

section socket

variable {h : Nat}

/-- `Write` adds at most the packet it writes. -/
theorem live_write (spill : Bool) (p : Packet) (sk : Socket) :
    copiesIn h (sk.write spill p).2.live ≤ copiesIn h sk.live + copiesIn h [p] := by
  cases herr : sk.w.err <;> cases hf : sk.fault <;> cases spill <;>
    simp [Socket.write, Socket.handOver, herr, hf, Socket.live] <;> omega

/-- A failed `Write` adds nothing live. -/
theorem live_write_error {spill : Bool} {p : Packet} {sk : Socket}
    (he : (sk.write spill p).1 ≠ .ok ()) : (sk.write spill p).2.live = sk.live := by
  revert he
  cases herr : sk.w.err <;> cases hf : sk.fault <;> cases spill <;>
    simp [Socket.write, Socket.handOver, herr, hf, Socket.live]

/-- `Flush` hands the live buffer over, or keeps a dead one. -/
theorem live_flush (sk : Socket) : copiesIn h sk.flush.2.live = copiesIn h sk.live := by
  cases herr : sk.w.err <;> cases hf : sk.fault <;> by_cases hb : sk.w.buf = [] <;>
    simp [Socket.flush, Socket.handOver, herr, hf, hb, Socket.live, Nat.add_comm]

theorem live_close (sk : Socket) : copiesIn h sk.close.live ≤ copiesIn h sk.live := by
  simp [Socket.close, Socket.live]

theorem live_drop (e : GoError) (sk : Socket) : copiesIn h (sk.drop e).live ≤ copiesIn h sk.live := by
  simp only [Socket.drop, Socket.live, copiesIn_append]
  cases hf : sk.fault <;> simp

theorem live_recv (c : Chunk) (sk : Socket) : (sk.recv c).live = sk.live := by
  unfold Socket.recv; split <;> rfl

end socket

/-! ## Copies over the sockets -/

/-- The copies of future `h`'s packet on the first `n` sockets. -/
def liveCopies (socks : Nat → Socket) (h : Nat) : Nat → Nat
  | 0 => 0
  | n + 1 => liveCopies socks h n + copiesIn h (socks n).live

section sockets

variable (socks : Nat → Socket) {k : Nat} (x : Socket) (h : Nat)

theorem liveCopies_update_of_le : ∀ {n}, n ≤ k →
    liveCopies (Function.update socks k x) h n = liveCopies socks h n
  | 0, _ => rfl
  | n + 1, hn => by
    simp only [liveCopies, liveCopies_update_of_le (Nat.le_of_succ_le hn),
      Function.update_noteq (Nat.ne_of_lt hn)]

theorem liveCopies_update : ∀ {n}, k < n →
    liveCopies (Function.update socks k x) h n + copiesIn h (socks k).live =
      liveCopies socks h n + copiesIn h x.live
  | n + 1, hk => by
    simp only [liveCopies]
    rcases Nat.lt_succ_iff_lt_or_eq.mp hk with hk | rfl
    · rw [Function.update_noteq (Nat.ne_of_gt hk)]
      have := liveCopies_update hk
      omega
    · rw [Function.update_same, liveCopies_update_of_le socks x h le_rfl]
      omega

/-- Replacing one socket adds at most what the new socket has over the old one. -/
theorem liveCopies_update_le {n d : Nat}
    (hx : copiesIn h x.live ≤ copiesIn h (socks k).live + d) :
    liveCopies (Function.update socks k x) h n ≤ liveCopies socks h n + d := by
  rcases lt_or_le k n with hk | hk
  · have := liveCopies_update socks x h hk
    omega
  · rw [liveCopies_update_of_le socks x h hk]
    omega

theorem copiesIn_le_liveCopies : ∀ {n j}, j < n → copiesIn h (socks j).live ≤ liveCopies socks h n
  | n + 1, j, hj => by
    simp only [liveCopies]
    rcases Nat.lt_succ_iff_lt_or_eq.mp hj with hj | rfl
    · have := copiesIn_le_liveCopies hj
      omega
    · omega

theorem copiesIn_add_le_liveCopies : ∀ {n j j'}, j < n → j' < n → j ≠ j' →
    copiesIn h (socks j).live + copiesIn h (socks j').live ≤ liveCopies socks h n
  | n + 1, j, j', hj, hj', hne => by
    simp only [liveCopies]
    rcases Nat.lt_succ_iff_lt_or_eq.mp hj with hj | rfl <;>
      rcases Nat.lt_succ_iff_lt_or_eq.mp hj' with hj' | rfl
    · have := copiesIn_add_le_liveCopies hj hj' hne
      omega
    · have := copiesIn_le_liveCopies socks h hj
      omega
    · have := copiesIn_le_liveCopies socks h hj'
      omega
    · exact absurd rfl hne

end sockets

/-! ## The invariant -/

/-- Every copy of future `h`'s packet that the connection may still send or has sent. -/
def St.copies (s : St) (h : Nat) : Nat := copiesIn h s.queued + liveCopies s.socks h s.nsock

/-- The socket the writer loop writes to or flushes. -/
def WriterPc.sock? : WriterPc → Option Nat
  | .write _ k | .writeFailed _ k _ | .flush k | .flushFailed k _ => some k
  | _ => none

/-- At most one copy of each packet, and nothing on a socket that was never dialed. -/
structure Once (s : St) : Prop where
  copies : ∀ h, s.copies h ≤ 1
  beyond : ∀ j, s.nsock ≤ j → (s.socks j).held = []
  target : ∀ k, s.writer.sock? = some k → k < s.nsock

theorem once_init (opts : Opts) : Once (init opts) where
  copies h := by simp [St.copies, St.queued, init, WriterPc.packet?, liveCopies]
  beyond _ _ := rfl
  target _ h := by cases h

/-- A step that leaves the sockets alone and copies no packet. -/
theorem Once.keep_socks (ho : Once s) (hsk : s'.socks = s.socks) (hn : s'.nsock = s.nsock)
    (hq : ∀ h, copiesIn h s'.queued ≤ copiesIn h s.queued)
    (ht : ∀ k, s'.writer.sock? = some k → k < s.nsock) : Once s' where
  copies h := by
    have := ho.copies h; have := hq h
    simp only [St.copies, hsk, hn] at *
    omega
  beyond j hj := by rw [hsk]; exact ho.beyond j (hn ▸ hj)
  target k hk := hn ▸ ht k hk

/-- A step that replaces a socket by one holding the same packets, at most as many of them
live, and copies no packet. -/
theorem Once.replace_sock (ho : Once s) {k : Nat} {x : Socket}
    (hsk : s'.socks = Function.update s.socks k x) (hn : s'.nsock = s.nsock)
    (hheld : x.held = (s.socks k).held) (hlive : ∀ h, copiesIn h x.live ≤ copiesIn h (s.socks k).live)
    (hq : ∀ h, copiesIn h s'.queued ≤ copiesIn h s.queued)
    (ht : ∀ k, s'.writer.sock? = some k → k < s.nsock) : Once s' where
  copies h := by
    have := ho.copies h; have := hq h
    have := liveCopies_update_le s.socks x h (n := s.nsock) (d := 0) (hlive h)
    simp only [St.copies, hsk, hn] at *
    omega
  beyond j hj := by
    rw [hsk]
    rcases update_sock_cases s.socks k j x with ⟨rfl, he⟩ | ⟨-, he⟩ <;> rw [he]
    · rw [hheld]; exact ho.beyond _ (hn ▸ hj)
    · exact ho.beyond j (hn ▸ hj)
  target k hk := hn ▸ ht k hk

/-- A step that replaces a dialed socket, moving at most the packets it takes from the queue
onto that socket. -/
theorem Once.move_to_sock (ho : Once s) {k : Nat} {x : Socket} (hk : k < s.nsock)
    (hsk : s'.socks = Function.update s.socks k x) (hn : s'.nsock = s.nsock)
    (hmove : ∀ h, copiesIn h s'.queued + copiesIn h x.live ≤
      copiesIn h s.queued + copiesIn h (s.socks k).live)
    (ht : ∀ k, s'.writer.sock? = some k → k < s.nsock) : Once s' where
  copies h := by
    have := ho.copies h; have := hmove h
    have := liveCopies_update s.socks x h hk
    simp only [St.copies, hsk, hn] at *
    omega
  beyond j hj := by
    rw [hsk, Function.update_noteq (by omega)]
    exact ho.beyond j (hn ▸ hj)
  target k hk := hn ▸ ht k hk

theorem Once.closeConnection (ho : Once s) (e : GoError) : Once (s.closeConnection e) := by
  cases hc : s.connection with
  | none => rwa [closeConnection_of_none hc]
  | some k =>
    rw [closeConnection_of_some hc]
    exact ho.replace_sock rfl rfl rfl (fun _ => live_close _) (fun _ => le_rfl) ho.target

theorem Once.dial {net : Except GoError Link} {err : Option GoError} (ho : Once s)
    (h : s.dial codec net = some (s', err)) : Once s' := by
  rcases St.dial_cases h with ⟨g, e, -, rfl, -⟩ | ⟨g, e, sock, hd, rfl, -⟩ | ⟨g, sock, hd, rfl, -⟩
  · exact ⟨ho.1, ho.2, ho.3⟩
  all_goals
    have hauth : OnlyAuth sock := dial_onlyAuth hd (by simp)
    refine ⟨fun h => ?_, fun j hj => ?_, fun k hk => Nat.lt_succ_of_lt (ho.target k hk)⟩
    · have := ho.copies h
      simp only [St.copies, St.queued, liveCopies, liveCopies_update_of_le _ _ _ le_rfl,
        Function.update_same, copiesIn_auth hauth] at *
      omega
    · dsimp only at hj ⊢
      rw [Function.update_noteq (by omega)]
      exact ho.beyond j (by omega)

theorem Once.createConnection {t : Thread} {net : Except GoError Link} {c : CreatePc}
    {out : CreatePc ⊕ (Option Nat × Option Nat)} (ho : Once s)
    (h : s.createConnection codec t net c = some (s', out)) : Once s' := by
  rcases createConnection_cases h with ⟨-, -, rfl, -⟩ | ⟨-, -, rfl, -⟩ | ⟨-, -, -, rfl, -⟩ |
    ⟨-, -, -, s1, err, hd, ⟨-, rfl, -⟩ | ⟨-, -, rfl, -⟩ | ⟨-, -, rfl, -⟩⟩
  · exact ⟨ho.1, ho.2, ho.3⟩
  · exact ⟨ho.1, ho.2, ho.3⟩
  · exact ⟨ho.1, ho.2, ho.3⟩
  all_goals have h1 := ho.dial hd
  · exact ⟨h1.1, h1.2, h1.3⟩
  · exact h1
  · exact ⟨h1.1, h1.2, h1.3⟩

/-- A copy of a packet of a future not yet registered is nowhere. -/
theorem Placed.copies_eq_zero (hp : Placed s) {h : Nat} (hh : s.nfut ≤ h) : s.copies h = 0 := by
  have hlive : ∀ n, n ≤ s.nsock → liveCopies s.socks h n = 0 := by
    intro n
    induction n with
    | zero => intro; rfl
    | succ n ih =>
      intro hn
      simp only [liveCopies, ih (Nat.le_of_succ_le hn), Nat.zero_add]
      exact Nat.eq_zero_of_not_pos fun hpos => absurd hh (not_le.mpr (hp.fresh h
        (.inr ⟨n, (copiesIn_pos.mp hpos).mono (live_subset_held _)⟩)))
  simp only [St.copies, hlive s.nsock le_rfl, Nat.add_zero]
  exact Nat.eq_zero_of_not_pos fun hpos =>
    absurd hh (not_le.mpr (hp.fresh h (.inl (copiesIn_pos.mp hpos))))

theorem Once.register (ho : Once s) (hp : Placed s) : Once s.register where
  copies h := by
    have h0 := ho.copies h
    have hq : s.register.queued = s.queued ++ [.request (s.requestId + 1) s.nfut] := by
      simp [St.register, St.nextRequestId, St.queued]
    have hfresh := hp.copies_eq_zero (le_refl s.nfut)
    have hsk : s.register.socks = s.socks := rfl
    have hn : s.register.nsock = s.nsock := rfl
    simp only [St.copies, hq, hsk, hn, copiesIn_append, copiesIn_request] at h0 hfresh ⊢
    split_ifs with hh
    · subst hh; omega
    · simpa using h0
  beyond := ho.beyond
  target := ho.target

theorem Once.enqueue {i : Nat} (ho : Once s) (h : s.enqueue i = some s') : Once s' := by
  have hq := queued_enqueue h
  obtain ⟨p, -, rfl⟩ := enqueue_eq h
  exact ho.keep_socks rfl rfl (fun _ => (hq.countP_eq _).le) ho.target

/-! ## Every step -/

theorem Once.writerStep {env : Env} (hw : Wired s) (ho : Once s)
    (h : s.writerStep codec env = some s') : Once s' := by
  -- the socket `conn.w` names is one that was dialed
  have hwk : ∀ k, s.w = some k → k < s.nsock := fun k hk =>
    (hw.published k (hw.w_eq ▸ hk)).1
  have hsame : ∀ {w : WriterPc} {ps : List Packet},
      w.packet?.toList ++ ps = s.writer.packet?.toList ++ s.packets →
      (∀ k, w.sock? = some k → k < s.nsock) → Once { s with packets := ps, writer := w } :=
    fun hq ht => ho.keep_socks rfl rfl (fun _ => by simp only [St.queued, hq]; rfl) ht
  have hdrop : ∀ {w : WriterPc}, w.packet? = none → w.sock? = none →
      Once { s with writer := w } := fun hpk hsk =>
    ho.keep_socks rfl rfl (fun _ => by simp [St.queued, hpk]) (by simp [hsk])
  unfold St.writerStep at h
  split at h
  · next hwr =>
    split at h <;> cases h
    · next hps => exact hsame (by rw [hwr, hps]; rfl) (by simp [WriterPc.sock?])
    · next hps => exact hsame (by rw [hwr, hps]; rfl) (by simp [WriterPc.sock?])
  · next hwr =>
    cases h
    split
    · next k hk => exact hsame (by rw [hwr]; rfl) (by simpa [WriterPc.sock?] using hwk k hk)
    · exact hsame (by rw [hwr]; rfl) (by simp [WriterPc.sock?])
  · next k hwr =>
    cases h
    have hk := ho.target k (by simp [hwr, WriterPc.sock?])
    split <;>
      exact ho.move_to_sock hk rfl rfl
        (fun _ => by simp [St.queued, hwr, WriterPc.packet?, live_flush])
        fun _ hk' => by cases hk' <;> exact hk
  · next k e hwr =>
    split_ifs at h; cases h
    have h1 := ho.closeConnection e
    exact h1.keep_socks rfl rfl (fun _ => by simp [St.queued, hwr, WriterPc.packet?])
      (by simp [WriterPc.sock?])
  · next hwr =>
    split at h
    · next hps _ => cases h; exact hsame (by rw [hwr, hps]; rfl) (by simp [WriterPc.sock?])
    · next hps _ =>
      cases h; split
      · exact hsame (by rw [hwr, hps]; rfl) (by simp [WriterPc.sock?])
      · exact hdrop (by simp [WriterPc.packet?]) rfl
    · cases h; exact hdrop (by simp [WriterPc.packet?]) rfl
    · cases h
  · next p hwr =>
    cases h
    split
    · next k hk => exact hsame (by rw [hwr]; rfl) (by simpa [WriterPc.sock?] using hwk k hk)
    · exact hsame (by rw [hwr]; rfl) (by simp [WriterPc.sock?])
  · next p c hwr =>
    obtain ⟨⟨s1, out⟩, hcc, rfl⟩ := Option.map_eq_some'.mp h
    have h1 := ho.createConnection hcc
    obtain ⟨-, hwr1, -⟩ := createConnection_frame hcc
    obtain ⟨hl1, -, -, hout⟩ :=
      hw.toLinked.createConnection (fun hc => hw.writerLoop p (hc ▸ hwr)) hcc
    rcases out with c' | ⟨r, w⟩
    · exact h1.keep_socks rfl rfl (fun _ => by simp [St.queued, hwr1, hwr, WriterPc.packet?])
        (by simp [WriterPc.sock?])
    · obtain ⟨-, -, rfl⟩ := hout r w rfl
      dsimp only
      split
      · next k hk =>
        exact h1.keep_socks rfl rfl (fun _ => by simp [St.queued, hwr1, hwr, WriterPc.packet?])
          (by simpa [WriterPc.sock?] using (hl1.published k hk).1)
      · exact h1.keep_socks rfl rfl (fun _ => by simp [St.queued, hwr1, hwr, WriterPc.packet?])
          (by simp [WriterPc.sock?])
  · next p k hwr =>
    cases h
    have hk := ho.target k (by simp [hwr, WriterPc.sock?])
    split
    · exact ho.move_to_sock hk rfl rfl (fun h => by
        have := live_write (h := h) env.spill p (s.socks k)
        simp only [St.queued, hwr, WriterPc.packet?, Option.toList, copiesIn_append,
          copiesIn_nil] at this ⊢
        omega) fun _ hk' => (by cases hk')
    · next e he =>
      have hlive := live_write_error (show ((s.socks k).write env.spill p).1 ≠ .ok () by
        rw [he]; exact Except.noConfusion)
      exact ho.move_to_sock hk rfl rfl (fun _ => by simp [St.queued, hwr, hlive, WriterPc.packet?])
        fun _ hk' => by cases hk'; exact hk
  · next p k e hwr =>
    split_ifs at h; cases h
    have h1 := ho.closeConnection e
    exact h1.keep_socks rfl rfl (fun _ => by simp [St.queued, hwr, WriterPc.packet?])
      (by simp [WriterPc.sock?])
  · cases h

theorem Once.readerStep {env : Env} (ho : Once s) (h : s.readerStep codec env = some s') :
    Once s' := by
  unfold St.readerStep at h
  split at h
  · cases h; exact ⟨ho.1, ho.2, ho.3⟩
  · obtain ⟨⟨s1, out⟩, hcc, rfl⟩ := Option.map_eq_some'.mp h
    have h1 := ho.createConnection hcc
    rcases out with c' | ⟨r, w⟩ <;> exact ⟨h1.1, h1.2, h1.3⟩
  · next k _ =>
    obtain ⟨⟨res, r⟩, -, rfl⟩ := Option.map_eq_some'.mp h
    exact ho.replace_sock rfl rfl rfl (fun _ => le_rfl) (fun _ => le_rfl) ho.target
  · next e _ =>
    split_ifs at h; cases h
    have h1 := ho.closeConnection e
    exact ⟨h1.1, h1.2, h1.3⟩
  · next resp _ =>
    split_ifs at h; cases h
    obtain ⟨rq, fs, he⟩ := deliver_eq (s := s) resp
    rw [he]
    exact ⟨ho.1, ho.2, ho.3⟩
  · cases h

theorem once_step {e : Event} (hw : Wired s) (hp : Placed s) (ho : Once s)
    (h : step codec s e = some s') : Once s' := by
  cases e with
  | writer env => exact ho.writerStep hw h
  | reader env => exact ho.readerStep h
  | close =>
    simp only [step, St.closerStep] at h
    split at h
    · cases h; exact ⟨ho.1, ho.2, ho.3⟩
    · cases h; exact ⟨ho.1, ho.2, ho.3⟩
    · split_ifs at h; cases h
      have h1 := ho.closeConnection clientClosed
      exact ⟨h1.1, h1.2, h1.3⟩
    · cases h
  | submit =>
    simp only [step, St.submit] at h
    split_ifs at h <;> cases h
    exacts [ho, ho.register hp]
  | enqueue i => exact ho.enqueue h
  | recv k c =>
    simp only [step] at h
    split_ifs at h; cases h
    exact ho.replace_sock rfl rfl (by simp [Socket.held, recv_held])
      (fun _ => by rw [live_recv]) (fun _ => le_rfl) ho.target
  | drop k e =>
    simp only [step] at h
    split_ifs at h; cases h
    exact ho.replace_sock rfl rfl rfl (fun _ => live_drop _ _) (fun _ => le_rfl) ho.target

/-- **At most one copy of every packet, over every interleaving.** -/
theorem reachable_once (hs : Reachable codec s) : Once s := by
  induction hs with
  | init opts => exact once_init opts
  | step e hs h ih => exact once_step (reachable_wired hs) (reachable_placed hs) ih h

/-! ## Sent at most once -/

/-- **No request is sent twice.** In every reachable state, a request that has reached the
kernel has reached it once, and on one socket only. -/
theorem sent_at_most_once (hs : Reachable codec s) {h j : Nat}
    (hj : Carries (s.socks j).out h) :
    copiesIn h (s.socks j).out = 1 ∧ ∀ j', Carries (s.socks j').out h → j' = j := by
  have ho := reachable_once hs
  -- a socket with the request on its wire was dialed, and the request is live there
  have hlive : ∀ j, Carries (s.socks j).out h →
      j < s.nsock ∧ copiesIn h (s.socks j).out ≤ copiesIn h (s.socks j).live := fun j hc =>
    ⟨lt_of_not_le fun hle => by
        have hnil := ho.beyond j hle
        simp only [Socket.held, List.append_eq_nil] at hnil
        rw [hnil.2] at hc; exact carries_nil h hc,
      by simp [Socket.live]⟩
  have hone := ho.copies h
  have hpos := copiesIn_pos.mpr hj
  obtain ⟨hjn, hjl⟩ := hlive j hj
  have := copiesIn_le_liveCopies s.socks h hjn
  simp only [St.copies] at hone
  refine ⟨by omega, fun j' hj' => Classical.byContradiction fun hne => ?_⟩
  obtain ⟨hjn', hjl'⟩ := hlive j' hj'
  have := copiesIn_add_le_liveCopies s.socks h hjn' hjn hne
  have := copiesIn_pos.mpr hj'
  omega

theorem sent_at_most_once_after_send :
    ∃ s, Reachable silentCodec s ∧ (s.socks 0).out = [.request 1 0] ∧
      copiesIn 0 (s.socks 0).out = 1 ∧ ∀ j', Carries (s.socks j').out 0 → j' = 0 := by
  have hs := run_reachable (.init guest) (rfl : run silentCodec (init guest) sentTrace = some _)
  exact ⟨_, hs, rfl, sent_at_most_once hs ⟨.request 1 0, List.mem_singleton_self _, rfl⟩⟩

end GoTarantool.Connection

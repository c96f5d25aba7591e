import GoTarantool.Connection.Placement

/-!
# The reader takes each socket's stream frame by frame

The reader loop (lines 235-266) calls `read(r)` on the current socket's `bufio.Reader`, one
frame at a time, and nothing else reads a socket once `dial` has published it: the writer only
writes and flushes, `closeConnection` closes, and the network only appends to the stream or
ends it. `framesRead` follows a run and collects the bodies that the reader's `read` of socket
`k` returned; `bytesArrived` collects the server's bytes that reached the socket while it was
open.

A `read` that fails has taken an unknown part of a frame off the stream. The reader then calls
`closeConnection` and never reads that socket again, so the frames it read before stay the
leading ones.

* `Parse.read` — a `read` that returns a body takes the next frame off the stream;
* **`reader_takes_leading_frames`** — from any reachable state, over any run, the frames the
  reader took off socket `k`, laid end to end, are a prefix of the bytes the socket held and
  then received: the reader never skips, reorders or reads twice a byte of the stream.
-/

namespace GoTarantool.Connection

open GoTarantool.Stream GoTarantool.Net GoTarantool.Dial GoTarantool.Frame

variable {codec : Codec} {s s' : St} {k : Nat} {pre : Bytes} {tk : List Bytes}

/-! ## One socket's stream -/

/-- The bytes of chunk `c` that join a socket's stream: all of them while it is open, none once
it is shut (`Socket.recv`). -/
def arrivedOn (sk : Socket) (c : Chunk) : Bytes :=
  match sk.r.src.fin with
  | .more => c.1
  | .fail _ => []

/-- `tk` were taken off the stream as frames, and `pre`, every byte that reached the socket, is
those frames, then what the socket still holds, then what a `Close` dropped from the kernel. -/
def Parse (pre : Bytes) (tk : List Bytes) (sk : Socket) : Prop :=
  ∃ lost, pre = (tk.map frame).flatten ++ sk.r.content ++ lost ∧
    (lost ≠ [] → sk.r.src.fin ≠ .more)

theorem Parse.of_r {sk sk' : Socket} (h : Parse pre tk sk) (hr : sk'.r = sk.r) :
    Parse pre tk sk' := by
  rw [Parse, hr]; exact h

theorem Parse.close {sk : Socket} (h : Parse pre tk sk) : Parse pre tk sk.close := by
  obtain ⟨lost, hpre, -⟩ := h
  refine ⟨sk.r.src.bytes ++ lost, ?_, fun _ => (close_shut sk).2⟩
  rw [hpre]
  simp [Socket.close, BufReader.content, Inbound.bytes]

theorem Parse.drop {sk : Socket} (h : Parse pre tk sk) (e : GoError) : Parse pre tk (sk.drop e) :=
  let ⟨lost, hpre, _⟩ := h
  ⟨lost, hpre, fun _ => (drop_shut e sk).2⟩

theorem Parse.recv {sk : Socket} (h : Parse pre tk sk) (c : Chunk) :
    Parse (pre ++ arrivedOn sk c) tk (sk.recv c) := by
  obtain ⟨lost, hpre, hl⟩ := h
  unfold arrivedOn Socket.recv
  cases hf : sk.r.src.fin with
  | more =>
    -- an open socket has dropped nothing
    obtain rfl : lost = [] := by_contra fun hne => hl hne hf
    refine ⟨[], ?_, fun h => absurd rfl h⟩
    rw [hpre]
    simp [BufReader.content, Inbound.bytes]
  | fail e => exact ⟨lost, by rw [hpre, List.append_nil], fun _ => by simp [hf]⟩

/-- A `read` that returns a body takes the next frame off the stream. -/
theorem Parse.read {sk : Socket} (h : Parse pre tk sk) {b : Bytes} {r' : BufReader}
    (hr : Frame.read sk.r = some (.ok b, r')) : Parse pre (tk ++ [b]) { sk with r := r' } := by
  obtain ⟨lost, hpre, hl⟩ := h
  refine ⟨lost, ?_, fun hne => (read_fin hr).trans_ne (hl hne)⟩
  rw [hpre, (read_ok_split hr).1]
  simp

theorem parse_update {socks : Nat → Socket} {j : Nat} {sk : Socket} (h : Parse pre tk (socks k))
    (hj : j = k → Parse pre tk sk) : Parse pre tk (Function.update socks j sk k) := by
  rcases update_sock_cases socks j k sk with ⟨rfl, he⟩ | ⟨-, he⟩ <;> rw [he]
  exacts [hj rfl, h]

/-! ## The reader done with a socket -/

/-- After a `read` of socket `k` failed: the reader is not reading `k`, and `k` is current only
until the reader's own `closeConnection`. -/
def ReaderOff (k : Nat) (s : St) : Prop :=
  s.reader ≠ .read k ∧ (s.connection = some k → ∃ e, s.reader = .failed k e)

theorem ReaderOff.not_current (ho : ReaderOff k s) (hr : ∀ e, s.reader ≠ .failed k e) :
    s.connection ≠ some k := fun hc =>
  let ⟨e, he⟩ := ho.2 hc; hr e he

theorem readerOff_move (hc : s.connection ≠ some k) (hr : s.reader ≠ .read k) : ReaderOff k s :=
  ⟨hr, fun h => absurd h hc⟩

/-- Socket `k`'s stream over a run: `pre` is every byte that reached it and `tk` the frames the
reader took off it. Either they parse, or a `read` failed and the reader is done with `k`. -/
def Parsed (k : Nat) (pre : Bytes) (tk : List Bytes) (s : St) : Prop :=
  k < s.nsock ∧ (Parse pre tk (s.socks k) ∨ ((tk.map frame).flatten <+: pre ∧ ReaderOff k s))

theorem Parsed.frame (hp : Parsed k pre tk s) (hn : s.nsock ≤ s'.nsock)
    (hsk : Parse pre tk (s.socks k) → Parse pre tk (s'.socks k))
    (hoff : ReaderOff k s → ReaderOff k s') : Parsed k pre tk s' :=
  ⟨Nat.lt_of_lt_of_le hp.1 hn, hp.2.imp hsk fun h => ⟨h.1, hoff h.2⟩⟩

theorem Parsed.closeConnection (e : GoError) (hp : Parsed k pre tk s) :
    Parsed k pre tk (s.closeConnection e) :=
  hp.frame (closeConnection_nsock e s).ge
    (fun h => by
      cases hc : s.connection with
      | none => rwa [closeConnection_of_none hc]
      | some j =>
        rw [closeConnection_of_some hc]
        exact parse_update h fun hjk => by subst hjk; exact h.close)
    fun ho => readerOff_move (by simp) (by simpa using ho.1)

theorem Parsed.dial {net : Except GoError Link} {err : Option GoError} (hp : Parsed k pre tk s)
    (hd : s.dial codec net = some (s', err)) : Parsed k pre tk s' := by
  have hne : k ≠ s.nsock := hp.1.ne
  have hsk : ∀ sock : Socket, Parse pre tk (s.socks k) →
      Parse pre tk (Function.update s.socks s.nsock sock k) := fun _ h => by
    rwa [Function.update_noteq hne]
  rcases St.dial_cases hd with ⟨g, e, -, rfl, -⟩ | ⟨g, e, sock, -, rfl, -⟩ | ⟨g, sock, -, rfl, -⟩
  · exact hp
  · exact hp.frame (Nat.le_succ _) (hsk sock) id
  · -- the published socket is a new one
    exact hp.frame (Nat.le_succ _) (hsk sock) fun ho =>
      ⟨ho.1, fun hc => absurd (Option.some_inj.mp hc).symm hne⟩

theorem Parsed.createConnection {t : Thread} {net : Except GoError Link} {c : CreatePc}
    {out : CreatePc ⊕ (Option Nat × Option Nat)} (hp : Parsed k pre tk s)
    (h : s.createConnection codec t net c = some (s', out)) : Parsed k pre tk s' := by
  rcases createConnection_cases h with ⟨-, -, rfl, -⟩ | ⟨-, -, rfl, -⟩ | ⟨-, -, -, rfl, -⟩ |
    ⟨-, -, -, s1, err, hd, ⟨-, rfl, -⟩ | ⟨-, -, rfl, -⟩ | ⟨-, -, rfl, -⟩⟩
  all_goals first | exact hp | (have h1 := hp.dial hd; exact h1)

/-! ## Every step -/

/-- The writer never reads a socket: it writes, flushes, closes and dials. -/
theorem Parsed.writerStep {env : Env} (hp : Parsed k pre tk s)
    (h : s.writerStep codec env = some s') : Parsed k pre tk s' := by
  have hw : ∀ (j : Nat) (sk : Socket), sk.r = (s.socks j).r →
      Parsed k pre tk { s with socks := Function.update s.socks j sk } := fun _ _ hr =>
    hp.frame le_rfl (fun h => parse_update h fun hjk => by subst hjk; exact h.of_r hr) id
  unfold St.writerStep at h
  split at h
  · split at h <;> cases h <;> exact hp
  · cases h; exact hp
  · next j _ => cases h; exact hw j _ (flush_fault _).2
  · split_ifs at h; cases h; exact hp.closeConnection _
  · split at h <;> (try split at h) <;> cases h <;> exact hp
  · cases h; exact hp
  · obtain ⟨⟨s1, out⟩, hcc, rfl⟩ := Option.map_eq_some'.mp h
    have h1 := hp.createConnection hcc
    rcases out with c' | ⟨r, w⟩ <;> exact h1
  · next p j _ => cases h; exact hw j _ (write_fault _ _ _).2
  · split_ifs at h; cases h; exact hp.closeConnection _
  · cases h

/-- The body the reader's `read` of socket `k` returns at this event, if it returns one. -/
def Event.readFrom (s : St) (k : Nat) : Event → List Bytes
  | .reader _ =>
    match s.reader with
    | .read j =>
      if j = k then
        match Frame.read (s.socks k).r with
        | some (.ok b, _) => [b]
        | _ => []
      else []
    | _ => []
  | _ => []

/-- The server's bytes that join socket `k`'s stream at this event. -/
def Event.arrivedAt (s : St) (k : Nat) : Event → Bytes
  | .recv j c => if j = k then arrivedOn (s.socks k) c else []
  | _ => []

/-- The reader's steps: only its `read` of `k` touches the stream of `k`, and a failed one
leaves it done with `k`. -/
theorem Parsed.readerStep {env : Env} (hw : Wired s) (hp : Parsed k pre tk s)
    (h : s.readerStep codec env = some s') :
    Parsed k pre (tk ++ (Event.reader env).readFrom s k) s' := by
  unfold St.readerStep at h
  split at h
  · next hrd =>
    cases h
    simp only [Event.readFrom, hrd, List.append_nil]
    refine hp.frame le_rfl id fun ho => ?_
    have hc := ho.not_current (by rw [hrd]; nofun)
    refine readerOff_move hc ?_
    split
    · next j hj =>
      rintro ⟨⟩
      exact hc (hw.r_eq ▸ hj)
    · nofun
  · next c hrd =>
    obtain ⟨⟨s1, out⟩, hcc, rfl⟩ := Option.map_eq_some'.mp h
    have h1 := hp.createConnection hcc
    have hrd1 : s1.reader = .create c := (createConnection_frame hcc).2.2.1.trans hrd
    obtain ⟨-, -, -, hout⟩ :=
      hw.toLinked.createConnection (fun hc => hw.readerLoop (hc ▸ hrd)) hcc
    simp only [Event.readFrom, hrd, List.append_nil]
    rcases out with c' | ⟨r, w⟩
    · exact h1.frame le_rfl id fun ho =>
        readerOff_move (ho.not_current (by rw [hrd1]; nofun)) nofun
    · obtain ⟨-, rfl, -⟩ := hout r w rfl
      refine h1.frame le_rfl id fun ho => ?_
      have hc := ho.not_current (by rw [hrd1]; nofun)
      refine readerOff_move hc ?_
      dsimp only
      split
      · next j hj =>
        rintro ⟨⟩
        exact hc hj
      · nofun
  · next j hrd =>
    obtain ⟨⟨res, r'⟩, hread, rfl⟩ := Option.map_eq_some'.mp h
    by_cases hjk : j = k
    · subst hjk
      obtain ⟨hk, hpar | ⟨-, ho⟩⟩ := hp
      · cases res with
        | ok b =>
          simp only [Event.readFrom, hrd, if_true, hread]
          refine ⟨hk, .inl ?_⟩
          dsimp only
          rw [Function.update_same]
          exact hpar.read hread
        | error e =>
          -- the reader is done with socket `j`
          simp only [Event.readFrom, hrd, if_true, hread, List.append_nil]
          obtain ⟨lost, hpre, -⟩ := hpar
          exact ⟨hk, .inr ⟨⟨_, (hpre.trans (List.append_assoc _ _ _)).symm⟩,
            nofun, fun _ => ⟨e, rfl⟩⟩⟩
      · exact absurd hrd ho.1
    · simp only [Event.readFrom, hrd, if_neg hjk, List.append_nil]
      refine hp.frame le_rfl (fun h => parse_update h fun hjk' => absurd hjk' hjk) fun ho => ?_
      refine readerOff_move (ho.not_current (by rw [hrd]; nofun)) ?_
      dsimp only
      split <;> (try split) <;> nofun
  · next j e hrd =>
    split_ifs at h; cases h
    simp only [Event.readFrom, hrd, List.append_nil]
    exact (hp.closeConnection e).frame le_rfl id fun _ => readerOff_move (by simp) nofun
  · next j resp hrd =>
    split_ifs at h; cases h
    simp only [Event.readFrom, hrd, List.append_nil]
    obtain ⟨rq, fs, he⟩ := deliver_eq (s := s) resp
    rw [he]
    exact hp.frame le_rfl id fun ho => readerOff_move (ho.not_current (by rw [hrd]; nofun)) nofun
  · cases h

theorem parsed_step {e : Event} (hw : Wired s) (hp : Parsed k pre tk s)
    (h : step codec s e = some s') :
    Parsed k (pre ++ e.arrivedAt s k) (tk ++ e.readFrom s k) s' := by
  cases e with
  | writer env => simpa [Event.arrivedAt, Event.readFrom] using hp.writerStep h
  | reader env => simpa [Event.arrivedAt] using hp.readerStep hw h
  | close =>
    simp only [step, St.closerStep] at h
    simp only [Event.arrivedAt, Event.readFrom, List.append_nil]
    split at h
    · cases h; exact hp
    · cases h; exact hp
    · split_ifs at h; cases h; exact hp.closeConnection _
    · cases h
  | submit =>
    simp only [step, St.submit] at h
    simp only [Event.arrivedAt, Event.readFrom, List.append_nil]
    split_ifs at h <;> cases h <;> exact hp
  | enqueue i =>
    obtain ⟨p, -, rfl⟩ := enqueue_eq h
    simpa [Event.arrivedAt, Event.readFrom] using hp
  | recv j c =>
    simp only [step] at h; split_ifs at h; cases h
    simp only [Event.arrivedAt, Event.readFrom, List.append_nil]
    by_cases hjk : j = k
    · -- the server's bytes join the stream of `k`
      subst hjk
      rw [if_pos rfl]
      obtain ⟨hk, hpar | ⟨hpre, ho⟩⟩ := hp
      · refine ⟨hk, .inl ?_⟩
        dsimp only
        rw [Function.update_same]
        exact hpar.recv c
      · exact ⟨hk, .inr ⟨hpre.trans (List.prefix_append _ _), ho⟩⟩
    · rw [if_neg hjk, List.append_nil]
      exact hp.frame le_rfl (fun h => parse_update h fun hjk' => absurd hjk' hjk) id
  | drop j e =>
    simp only [step] at h; split_ifs at h; cases h
    simp only [Event.arrivedAt, Event.readFrom, List.append_nil]
    exact hp.frame le_rfl (fun h => parse_update h fun hjk => by subst hjk; exact h.drop e) id

/-! ## Over a run -/

/-- The bodies the reader's reads of socket `k` returned along a run, in order. -/
def framesRead (codec : Codec) (k : Nat) : St → List Event → List Bytes
  | _, [] => []
  | s, e :: es =>
    match step codec s e with
    | none => []
    | some s' => e.readFrom s k ++ framesRead codec k s' es

/-- The server's bytes that joined socket `k`'s stream along a run, in order. -/
def bytesArrived (codec : Codec) (k : Nat) : St → List Event → Bytes
  | _, [] => []
  | s, e :: es =>
    match step codec s e with
    | none => []
    | some s' => e.arrivedAt s k ++ bytesArrived codec k s' es

theorem parsed_run : ∀ {s s' : St} {es : List Event} {pre : Bytes} {tk : List Bytes},
    Reachable codec s → Parsed k pre tk s → run codec s es = some s' →
      Parsed k (pre ++ bytesArrived codec k s es) (tk ++ framesRead codec k s es) s'
  | s, s', [], pre, tk, _, hp, h => by cases h; simpa [bytesArrived, framesRead] using hp
  | s, s', e :: es, pre, tk, hr, hp, h => by
    simp only [run, Option.bind_eq_some] at h
    obtain ⟨s1, h1, h2⟩ := h
    simpa [bytesArrived, framesRead, h1, List.append_assoc] using
      parsed_run (.step e hr h1) (parsed_step (reachable_wired hr) hp h1) h2

/-- **The reader takes the leading frames of each socket's stream.** From any reachable state,
over any run, the bodies the reader's `read` of socket `k` returned, each framed again as it
came on the wire and laid end to end, are a prefix of the bytes the socket held and then
received: the reader never skips, reorders or reads twice a byte of the stream, and since a
frame carries its own length, they are the stream's first frames. -/
theorem reader_takes_leading_frames (hs : Reachable codec s) (hk : k < s.nsock)
    {es : List Event} (hr : run codec s es = some s') :
    ((framesRead codec k s es).map frame).flatten <+:
      (s.socks k).r.content ++ bytesArrived codec k s es := by
  have hp : Parsed k (s.socks k).r.content [] s := ⟨hk, .inl ⟨[], by simp, fun h => absurd rfl h⟩⟩
  obtain ⟨-, ⟨lost, hpre, -⟩ | ⟨hpre, -⟩⟩ := parsed_run hs hp hr
  · rw [hpre, List.nil_append, List.append_assoc]
    exact List.prefix_append _ _
  · simpa using hpre

/-- The server answers on socket `0` with the frame of `[7]`, and the reader reads it. -/
def replyTrace : List Event :=
  [.recv 0 ⟨frame [7], List.cons_ne_nil _ _⟩, .reader quietEnv, .reader quietEnv]

set_option maxRecDepth 100000 in
theorem reader_takes_leading_frames_on_reply :
    ∃ s s', Reachable silentCodec s ∧ run silentCodec s replyTrace = some s' ∧
      framesRead silentCodec 0 s replyTrace = [[7]] ∧
      ((framesRead silentCodec 0 s replyTrace).map frame).flatten <+:
        (s.socks 0).r.content ++ bytesArrived silentCodec 0 s replyTrace := by
  have hs := run_reachable (.init guest) (rfl : run silentCodec (init guest) sentTrace = some _)
  exact ⟨_, _, hs, rfl, rfl, reader_takes_leading_frames hs (by decide) rfl⟩

end GoTarantool.Connection

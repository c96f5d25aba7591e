import GoTarantool.Net

/-!
# `dial`: greeting and authentication

`dial` (src/unnamed/part_000, lines 69-99) opens a socket, reads the server's 128-byte
greeting, and authenticates with `auth`, `writeAuthRequest` and `readAuthResponse`
(lines 101-156). Here it runs on the socket it opens and reports what happened; the
connection-level effects (the `Greeting` it overwrites, the fields it assigns) are applied
by `St.dial` in `GoTarantool.Connection.Step`.

The greeting is read with a single `connection.Read(greeting)`, not with `io.ReadFull`
(line 78 carries `TODO: read all`). A `Read` returns at most the bytes of one chunk, so when
the greeting is split over chunks the rest of it stays on the socket and the buffer keeps
zeros in its place.

The main results:

* `dial_whole_greeting` — when the first chunk holds the whole greeting, `Greeting` comes
  from it and authentication starts right after it;
* `dial_split_greeting` — when it does not, `Greeting.auth` is zeros and the first frame
  `read` sees starts inside the greeting;
* `dial_ready_iff`, `auth_ok_iff`, `dial_failed_closed`, `dial_failed_shut` — `dial` reports
  a ready socket exactly when the greeting read and every authentication step succeeded, and
  closes the socket on every later failure;
* `dial_onlyAuth` — the only packets `dial` writes are AUTH requests.
-/

namespace GoTarantool.Dial

open GoTarantool.Stream GoTarantool.Frame GoTarantool.Net

/-- What `net.Dial` connects to: the stream the server sends and whether writes reach it. -/
structure Link where
  inbound : Inbound
  fault : Option GoError

/-- The socket `net.Dial` returns, with the reader and writer of lines 75-76. -/
def Socket.fresh (l : Link) : Socket :=
  { r := { buf := [], src := l.inbound, size := 128 * 1024 },
    w := { buf := [], err := none }, out := [], fault := l.fault }

/-- The 128-byte greeting buffer after `connection.Read(greeting)` copied `got` to its front. -/
def greetingBuf (got : Bytes) : Bytes := got ++ List.replicate (128 - got.length) 0

/-- `conn.Greeting` as lines 84-85 set it from the greeting buffer. -/
def parseGreeting (g : Bytes) : Greeting := ⟨g.take 64, (g.drop 64).take 44⟩

/-- `writeAuthRequest(w, scramble)`. The AUTH packet fits the empty 4096-byte buffer of a
fresh writer, so `write` buffers it and `Flush` sends it. -/
def writeAuthRequest (codec : Codec) (opts : Opts) (scr : Bytes) (s : Socket) :
    Except GoError Unit × Socket :=
  match codec.packAuth opts.user scr with
  | .error e => (.error ("auth: pack error " ++ e), s)
  | .ok packet =>
    match s.write false (.auth packet) with
    | (.error e, s) => (.error ("auth: write error " ++ e), s)
    | (.ok (), s) =>
      match s.flush with
      | (.error e, s) => (.error ("auth: flush error " ++ e), s)
      | (.ok (), s) => (.ok (), s)

/-- `readAuthResponse(r)`; `none` while `read` waits. -/
def readAuthResponse (codec : Codec) (s : Socket) : Option (Except GoError Unit × Socket) :=
  (Frame.read s.r).map fun (res, r) =>
    match res with
    | .error e => (.error ("auth: read error " ++ e), { s with r })
    | .ok bytes =>
      match codec.decodeHeader bytes with
      | .error e => (.error ("auth: decode response header error " ++ e), { s with r })
      | .ok resp =>
        match codec.decodeBody resp with
        | .error e => (.error ("auth: decode response body error " ++ e), { s with r })
        | .ok () => (.ok (), { s with r })

/-- `auth(r, w)` with the greeting `g`. The reader/writer check of line 105 cannot fire:
`dial` passes the reader and writer it has just built. -/
def auth (codec : Codec) (opts : Opts) (g : Greeting) (s : Socket) :
    Option (Except GoError Unit × Socket) :=
  if opts.user = [] then some (.ok (), s)
  else if g.auth = [] then some (.error "auth: empty greeting", s)
  else
    match codec.scramble g.auth opts.pass with
    | .error e => some (.error ("auth: scrambling failure " ++ e), s)
    | .ok scr =>
      match writeAuthRequest codec opts scr s with
      | (.error e, s) => some (.error e, s)
      | (.ok (), s) => readAuthResponse codec s

/-- How `dial` ends. -/
inductive DialOut
  /-- `net.Dial` failed: no socket was opened. -/
  | refused (e : GoError)
  /-- A later step failed with `e`; `s` is the socket after `connection.Close()`. -/
  | failed (e : GoError) (s : Socket)
  /-- Greeting and authentication passed: `dial` assigns `s` to the connection. -/
  | ready (s : Socket)

/-- `dial()` on a connection whose `Greeting` is `g`: the `Greeting` it leaves and how it
ends; `none` while it waits in a read. -/
def dial (codec : Codec) (opts : Opts) (g : Greeting) (net : Except GoError Link) :
    Option (Greeting × DialOut) :=
  match net with
  | .error e => some (g, .refused e)
  | .ok l =>
    let s := Socket.fresh l
    match s.r.src.read 128 with
    | none => none
    | some (.error e, src) => some (g, .failed e (Socket.close { s with r := { s.r with src } }))
    | some (.ok got, src) =>
      let g := parseGreeting (greetingBuf got)
      (auth codec opts g { s with r := { s.r with src } }).map fun (res, s) =>
        match res with
        | .error e => (g, .failed e s.close)
        | .ok () => (g, .ready s)

/-! ## Outcomes -/

/-- **`dial` publishes only a set-up socket.** It reports a ready socket exactly when
`net.Dial` connected, the greeting `Read` returned bytes, and `auth` passed on the socket
after that read. -/
theorem dial_ready_iff {codec : Codec} {opts : Opts} {g g' : Greeting}
    {net : Except GoError Link} {s' : Socket} :
    dial codec opts g net = some (g', .ready s') ↔
      ∃ l got src, net = .ok l ∧ (Socket.fresh l).r.src.read 128 = some (.ok got, src) ∧
        g' = parseGreeting (greetingBuf got) ∧
        auth codec opts g' { Socket.fresh l with r := { (Socket.fresh l).r with src } } =
          some (.ok (), s') := by
  constructor
  · intro h
    cases net with
    | error e => simp [dial] at h
    | ok l =>
      simp only [dial] at h
      split at h
      · cases h
      · cases h
      · rename_i got src hread
        obtain ⟨⟨res, s⟩, hauth, heq⟩ := Option.map_eq_some'.mp h
        cases res with
        | error e => simp at heq
        | ok u =>
          simp only [Prod.mk.injEq, DialOut.ready.injEq] at heq
          obtain ⟨rfl, rfl⟩ := heq
          exact ⟨l, got, src, rfl, hread, rfl, hauth⟩
  · rintro ⟨l, got, src, rfl, hread, rfl, hauth⟩
    simp [dial, hread, hauth]

/-- Every failure of `dial` after `net.Dial` leaves the socket it opened closed. -/
theorem dial_failed_closed {codec : Codec} {opts : Opts} {g g' : Greeting}
    {net : Except GoError Link} {e : GoError} {s' : Socket}
    (h : dial codec opts g net = some (g', .failed e s')) : s'.fault = some closedErr := by
  cases net with
  | error e => simp [dial] at h
  | ok l =>
    simp only [dial] at h
    split at h
    · cases h
    · cases h; rfl
    · obtain ⟨⟨res, s⟩, -, heq⟩ := Option.map_eq_some'.mp h
      cases res with
      | error e => cases heq; rfl
      | ok u => simp at heq

/-- The socket of a failed `dial` is shut: its writes fail and its reads end. -/
theorem dial_failed_shut {codec : Codec} {opts : Opts} {g g' : Greeting}
    {net : Except GoError Link} {e : GoError} {s' : Socket}
    (h : dial codec opts g net = some (g', .failed e s')) : s'.Shut := by
  cases net with
  | error e => simp [dial] at h
  | ok l =>
    simp only [dial] at h
    split at h
    · cases h
    · cases h; exact close_shut _
    · obtain ⟨⟨res, s⟩, -, heq⟩ := Option.map_eq_some'.mp h
      cases res with
      | error e => cases heq; exact close_shut _
      | ok u => simp at heq

/-- `dial` refuses, with the `Greeting` untouched, exactly when `net.Dial` fails. -/
theorem dial_refused {codec : Codec} {opts : Opts} {g g' : Greeting}
    {net : Except GoError Link} {e : GoError} :
    dial codec opts g net = some (g', .refused e) ↔ net = .error e ∧ g' = g := by
  cases net with
  | error e' => simp [dial, eq_comm, and_comm]
  | ok l =>
    simp only [dial, reduceCtorEq, false_and, iff_false]
    split
    · simp
    · simp
    · simp only [Option.map_eq_some', not_exists, not_and]
      intro x _
      split <;> simp

theorem writeAuthRequest_ok_iff {codec : Codec} {opts : Opts} {scr : Bytes} {s s' : Socket} :
    writeAuthRequest codec opts scr s = (.ok (), s') ↔
      ∃ packet s1, codec.packAuth opts.user scr = .ok packet ∧
        s.write false (.auth packet) = (.ok (), s1) ∧ s1.flush = (.ok (), s') := by
  unfold writeAuthRequest
  cases hpack : codec.packAuth opts.user scr with
  | error e => simp
  | ok packet =>
    rcases hw : s.write false (.auth packet) with ⟨_ | _, s1⟩
    · simp [hw]
    · rcases hf : s1.flush with ⟨_ | _, s2⟩ <;> simp [hw, hf]

theorem readAuthResponse_ok_iff {codec : Codec} {s s' : Socket} :
    readAuthResponse codec s = some (.ok (), s') ↔
      ∃ bytes r resp, Frame.read s.r = some (.ok bytes, r) ∧
        codec.decodeHeader bytes = .ok resp ∧ codec.decodeBody resp = .ok () ∧
        s' = { s with r } := by
  unfold readAuthResponse
  constructor
  · intro h
    obtain ⟨⟨res, r⟩, hread, h⟩ := Option.map_eq_some'.mp h
    cases res with
    | error e => simp at h
    | ok bytes =>
      cases hh : codec.decodeHeader bytes with
      | error e => simp [hh] at h
      | ok resp =>
        cases hb : codec.decodeBody resp with
        | error e => simp [hh, hb] at h
        | ok u => simp only [hh, hb, Prod.mk.injEq, true_and] at h; exact ⟨bytes, r, resp, hread, hh, hb, h.symm⟩
  · rintro ⟨bytes, r, resp, hread, hh, hb, rfl⟩
    simp [hread, hh, hb]

/-- Every step of `auth` passed on the socket `s0`, leaving the socket `s`: a guest session;
or a greeting salt, the scramble, the AUTH request's pack, `write` and `Flush`, and the
answer's `read`, header decoding and body decoding. -/
def AuthPassed (codec : Codec) (opts : Opts) (g : Greeting) (s0 s : Socket) : Prop :=
  (opts.user = [] ∧ s = s0) ∨
  (opts.user ≠ [] ∧ g.auth ≠ [] ∧ ∃ scr packet s1 s2 bytes r resp,
    codec.scramble g.auth opts.pass = .ok scr ∧ codec.packAuth opts.user scr = .ok packet ∧
    s0.write false (.auth packet) = (.ok (), s1) ∧ s1.flush = (.ok (), s2) ∧
    Frame.read s2.r = some (.ok bytes, r) ∧ codec.decodeHeader bytes = .ok resp ∧
    codec.decodeBody resp = .ok () ∧ s = { s2 with r })

/-- **Every authentication step passed.** `auth` succeeds exactly when `AuthPassed`. -/
theorem auth_ok_iff {codec : Codec} {opts : Opts} {g : Greeting} {s s' : Socket} :
    auth codec opts g s = some (.ok (), s') ↔ AuthPassed codec opts g s s' := by
  unfold AuthPassed
  by_cases hu : opts.user = []
  · simp [auth, hu, eq_comm]
  by_cases hg : g.auth = []
  · simp [auth, hu, hg]
  simp only [hu, hg, false_and, false_or, ne_eq, not_false_eq_true, true_and]
  constructor
  · intro h
    simp only [auth, hu, hg, if_false] at h
    split at h
    · cases h
    · rename_i scr hscr
      split at h
      · cases h
      · rename_i s1 hw
        obtain ⟨packet, s2, hpack, hwr, hfl⟩ := writeAuthRequest_ok_iff.mp hw
        obtain ⟨bytes, r, resp, hr, hh, hb, rfl⟩ := readAuthResponse_ok_iff.mp h
        exact ⟨scr, packet, s2, s1, bytes, r, resp, hscr, hpack, hwr, hfl, hr, hh, hb, rfl⟩
  · rintro ⟨scr, packet, s1, s2, bytes, r, resp, hscr, hpack, hwr, hfl, hr, hh, hb, rfl⟩
    have hw := writeAuthRequest_ok_iff.mpr ⟨packet, s1, hpack, hwr, hfl⟩
    simp only [auth, hu, hg, if_false, hscr, hw]
    exact readAuthResponse_ok_iff.mpr ⟨bytes, r, resp, hr, hh, hb, rfl⟩

/-- A socket `dial` publishes has handed everything it wrote to the kernel. -/
theorem dial_ready_buf {codec : Codec} {opts : Opts} {g g' : Greeting}
    {net : Except GoError Link} {sock : Socket} (h : dial codec opts g net = some (g', .ready sock)) :
    sock.w.buf = [] := by
  obtain ⟨l, got, src, rfl, -, rfl, hauth⟩ := dial_ready_iff.mp h
  rcases auth_ok_iff.mp hauth with ⟨-, rfl⟩ |
    ⟨-, -, scr, packet, s1, s2, bytes, r, resp, -, -, -, hfl, -, -, -, rfl⟩
  · rfl
  · have hempty := (flush_held s1 (.auth [])).2.2
    rw [hfl] at hempty
    exact hempty rfl

/-! ## What `dial` writes -/

/-- The socket holds only AUTH requests. -/
def OnlyAuth (s : Socket) : Prop := ∀ p ∈ s.held, ∃ b, p = .auth b

theorem OnlyAuth.write {b : Bytes} {s : Socket} (hs : OnlyAuth s) (spill : Bool) :
    OnlyAuth (s.write spill (.auth b)).2 := fun p hp => by
  rcases (write_held spill _ s p).1 hp with hp | rfl
  · exact hs p hp
  · exact ⟨b, rfl⟩

theorem OnlyAuth.flush {s : Socket} (hs : OnlyAuth s) : OnlyAuth s.flush.2 :=
  fun p hp => hs p ((flush_held s p).1.mp hp)

theorem OnlyAuth.close {s : Socket} (hs : OnlyAuth s) : OnlyAuth s.close := hs

theorem writeAuthRequest_onlyAuth (codec : Codec) (opts : Opts) (scr : Bytes) {s : Socket}
    (hs : OnlyAuth s) : OnlyAuth (writeAuthRequest codec opts scr s).2 := by
  unfold writeAuthRequest
  split
  · exact hs
  · rename_i packet _
    have hw : OnlyAuth (s.write false (.auth packet)).2 := hs.write false
    match hwr : s.write false (.auth packet) with
    | (.error _, s1) => rw [hwr] at hw; exact hw
    | (.ok (), s1) =>
      rw [hwr] at hw
      have hf := hw.flush
      match hfl : s1.flush with
      | (.error _, s2) => rw [hfl] at hf; simpa only [hfl] using hf
      | (.ok (), s2) => rw [hfl] at hf; simpa only [hfl] using hf

/-- `readAuthResponse` reads from the socket and writes nothing. -/
theorem readAuthResponse_socket {codec : Codec} {s s' : Socket} {res : Except GoError Unit}
    (h : readAuthResponse codec s = some (res, s')) : ∃ r, s' = { s with r } := by
  unfold readAuthResponse at h
  obtain ⟨⟨res0, r⟩, -, heq⟩ := Option.map_eq_some'.mp h
  refine ⟨r, ?_⟩
  simp only at heq
  split at heq
  · cases heq; rfl
  · split at heq
    · cases heq; rfl
    · split at heq <;> cases heq <;> rfl

theorem auth_onlyAuth {codec : Codec} {opts : Opts} {g : Greeting} {s s' : Socket}
    {res : Except GoError Unit} (hs : OnlyAuth s) (h : auth codec opts g s = some (res, s')) :
    OnlyAuth s' := by
  unfold auth at h
  split_ifs at h
  · cases h; exact hs
  · cases h; exact hs
  · split at h
    · cases h; exact hs
    · rename_i scr _
      have hw := writeAuthRequest_onlyAuth codec opts scr hs
      match hwr : writeAuthRequest codec opts scr s with
      | (.error _, s1) => rw [hwr] at hw h; cases h; exact hw
      | (.ok (), s1) =>
        rw [hwr] at hw h
        obtain ⟨r, rfl⟩ := readAuthResponse_socket h
        exact hw

/-- Every socket `dial` hands back holds only the AUTH request: no request of the engine. -/
theorem dial_onlyAuth {codec : Codec} {opts : Opts} {g g' : Greeting}
    {net : Except GoError Link} {out : DialOut} (h : dial codec opts g net = some (g', out))
    {sock : Socket} (hsock : (∃ e, out = .failed e sock) ∨ out = .ready sock) :
    OnlyAuth sock := by
  have h0 : ∀ (l : Link) (r : BufReader), OnlyAuth { Socket.fresh l with r } :=
    fun _ _ p hp => by simp [Socket.held, Socket.fresh] at hp
  cases net with
  | error e =>
    simp only [dial, Option.some.injEq, Prod.mk.injEq] at h
    obtain ⟨-, rfl⟩ := h
    rcases hsock with ⟨_, h⟩ | h <;> cases h
  | ok l =>
    simp only [dial] at h
    split at h
    · cases h
    · cases h
      rcases hsock with ⟨_, h⟩ | h <;> cases h
      exact (h0 l _).close
    · obtain ⟨⟨res, s1⟩, hauth, heq⟩ := Option.map_eq_some'.mp h
      have h1 := auth_onlyAuth (h0 l _) hauth
      split at heq <;> cases heq <;> rcases hsock with ⟨_, h⟩ | h <;> cases h
      · exact h1.close
      · exact h1

/-! ## The greeting -/

/-- A codec that decodes no response and accepts every authentication. -/
def silentCodec : Codec :=
  ⟨fun _ => .error "", fun _ => .ok (), fun _ _ => .ok [], fun _ _ => .ok []⟩

/-- `Opts` of a guest session that never reconnects. -/
def guest : Opts := ⟨0, [], []⟩

/-- The greeting of the streams below: 128 bytes `'A'`. -/
def splitGreeting : Bytes := List.replicate 128 65

/-- A stream whose first chunk holds `splitGreeting` and the frame of the one-byte body `[1]`. -/
def wholeLink : Link :=
  { inbound := { chunks := [⟨splitGreeting ++ frame [1], by simp [splitGreeting]⟩], fin := .more },
    fault := none }

/-- A stream that sends `splitGreeting` in two chunks of 64 bytes, the second followed by the
frame of the one-byte body `[1]`, and then stays open. -/
def splitLink : Link :=
  { inbound := { chunks := [⟨List.replicate 64 65, by simp⟩,
      ⟨List.replicate 64 65 ++ frame [1], by simp⟩], fin := .more },
    fault := none }

/-- **The greeting split over two reads.** A guest `dial` on `splitLink` publishes a socket
with `Greeting.auth` made of zeros instead of `splitGreeting[64:108]`; the next byte the
socket's reader holds is `splitGreeting[64]`, not the `0xCE` that follows the greeting, and
the reader's first `read` fails with "Wrong reponse header". -/
theorem dial_split_greeting (codec : Codec) (reconnect : Int) (pass : Bytes) (g0 : Greeting) :
    ∃ s, dial codec ⟨reconnect, [], pass⟩ g0 (.ok splitLink) =
        some (⟨List.replicate 64 65, List.replicate 44 0⟩, .ready s) ∧
      (parseGreeting splitGreeting).auth = List.replicate 44 65 ∧
      s.r.content.head? = some 65 ∧
      ∃ r', Frame.read s.r = some (.error "Wrong reponse header", r') := by
  simp only [dial, auth, if_true]
  exact ⟨_, rfl, rfl, rfl, _, rfl⟩

end GoTarantool.Dial

import GoTarantool.Frame

/-!
# Sockets, their buffered writers, and the collaborators of the engine

A socket of a connection, with the `bufio.Reader` and `bufio.Writer` that `dial` wraps around
it (src/unnamed/part_000, lines 74-76), and the write path the writer loop and
`writeAuthRequest` take: `write` (lines 268-277) and `Flush`.

The writer is kept at packet granularity: a `Write` that fits the free space of the buffer
only buffers; one that does not makes the writer hand its buffer and the packet to the
kernel. The buffer size is not modelled, so which of the two happens is a choice of the
environment (`spill`). `Flush` hands the whole buffer over. A failed hand-over leaves the
packets in the buffer and makes the error sticky, as `bufio.Writer` does.

A socket is faulty once it is closed or the network drops it: every write then fails, and
reads fail once the bytes already received are consumed.

`Codec` collects what the engine calls and what is not under src: MsgPack decoding of a
response (`decodeHeader`, `decodeBody`) and the AUTH request's `scramble` and `pack`. Every
result of the development holds for every codec.

* `Socket.held` / `Socket.live` — the packets a socket holds, and those of them the server
  may still receive;
* `write_held`, `write_ok_held` — `Write` loses no packet, adds only its own, and keeps it
  when it succeeds;
* `flush_held` — `Flush` keeps every packet, and empties the buffer when it succeeds;
* `recv_held` — what the server sends and the network's faults leave the writing side alone;
* `Socket.Shut` — a closed or dropped socket: `close_shut`, `drop_shut`;
* `Socket.wire` — what a socket was given, in order: `Write` appends its packet
  (`wire_write`), `Flush` keeps the order (`wire_flush`).
-/

namespace GoTarantool.Net

open GoTarantool.Stream

/-- A packet handed to a socket's `bufio.Writer`. -/
inductive Packet
  /-- The AUTH request `writeAuthRequest` packs. -/
  | auth (bytes : Bytes)
  /-- A request packed by `Submit` under sync id `sync`. `fut` names the future it was
  registered with: a ghost tag, the channel `conn.packets` carries only the bytes. -/
  | request (sync : UInt32) (fut : Nat)
  deriving DecidableEq

/-- The future whose request the packet carries. -/
def Packet.fut? : Packet → Option Nat
  | .auth _ => none
  | .request _ h => some h

/-- A `bufio.Writer`, at packet granularity. -/
structure BufWriter where
  /-- Packets accepted by `Write` and not yet handed to the kernel. -/
  buf : List Packet
  /-- `b.err`: once a write to the socket failed, every later `Write` and `Flush` returns it. -/
  err : Option GoError

/-- One TCP socket with the reader and writer `dial` built for it. -/
structure Socket where
  r : BufReader
  w : BufWriter
  /-- Packets handed to the kernel, in order: what the server receives. -/
  out : List Packet
  /-- The error every write returns once the socket is closed or dropped; `none` before. -/
  fault : Option GoError

/-- The error of every I/O on a socket after `Close`. -/
def closedErr : GoError := "use of closed network connection"

/-- Hand `ps` to the kernel, emptying the buffer; on a faulty socket keep them buffered and
make the error sticky. -/
def Socket.handOver (ps : List Packet) (s : Socket) : Except GoError Unit × Socket :=
  match s.fault with
  | none => (.ok (), { s with w := { s.w with buf := [] }, out := s.out ++ ps })
  | some e => (.error e, { s with w := { buf := ps, err := some e } })

/-- `write(w, packet)`, that is `w.Write(packet)`: buffer the packet, or hand the buffer and
the packet over when it does not fit (`spill`). `Write` returns fewer bytes than asked only
with an error, so the panic of line 274 is never reached. -/
def Socket.write (spill : Bool) (p : Packet) (s : Socket) : Except GoError Unit × Socket :=
  match s.w.err with
  | some e => (.error e, s)
  | none =>
    if spill then s.handOver (s.w.buf ++ [p])
    else (.ok (), { s with w := { s.w with buf := s.w.buf ++ [p] } })

/-- `w.Flush()`. -/
def Socket.flush (s : Socket) : Except GoError Unit × Socket :=
  match s.w.err with
  | some e => (.error e, s)
  | none => if s.w.buf = [] then (.ok (), s) else s.handOver s.w.buf

/-- `connection.Close()`: writes fail from now on, and reads fail once the reader's buffer is
empty; the bytes the kernel still held are dropped. -/
def Socket.close (s : Socket) : Socket :=
  { s with fault := some closedErr, r := { s.r with src := ⟨[], .fail closedErr⟩ } }

/-- The network drops the socket with error `e`: writes fail, and reads fail after the bytes
already received. -/
def Socket.drop (e : GoError) (s : Socket) : Socket :=
  { s with fault := s.fault.orElse fun _ => some e,
           r := { s.r with src := { s.r.src with fin := match s.r.src.fin with
             | .more => .fail e
             | fin => fin } } }

/-- The server's bytes `c` arrive on an open socket. -/
def Socket.recv (c : Chunk) (s : Socket) : Socket :=
  match s.r.src.fin with
  | .more => { s with r := { s.r with src := { s.r.src with chunks := s.r.src.chunks ++ [c] } } }
  | .fail _ => s

/-- `Opts`, the fields the engine reads. `Timeout` is read by no modelled function. -/
structure Opts where
  /-- `Reconnect`, a `time.Duration`: `createConnection` retries a failed dial while it is
  positive. -/
  reconnect : Int
  user : Bytes
  pass : Bytes

/-- `Greeting`. -/
structure Greeting where
  version : Bytes
  auth : Bytes
  deriving DecidableEq

/-- `Response`, with the fields `decodeHeader` fills. -/
structure Response where
  requestId : UInt32
  code : UInt32
  /-- What remains of the body after the header. -/
  buf : Bytes
  deriving DecidableEq

/-- The engine's collaborators that are not under src. -/
structure Codec where
  /-- `resp.decodeHeader()` on `Response{buf: smallBuf{b: bytes}}`. -/
  decodeHeader : Bytes → Except GoError Response
  /-- `resp.decodeBody()`. -/
  decodeBody : Response → Except GoError Unit
  /-- `scramble(encodedSalt, pass)`. -/
  scramble : Bytes → Bytes → Except GoError Bytes
  /-- `request.pack()` of the AUTH request with user name and scramble. -/
  packAuth : Bytes → Bytes → Except GoError Bytes

/-! ## The write path -/

theorem handOver_out {ps : List Packet} {s s' : Socket} {res : Except GoError Unit}
    (h : s.handOver ps = (res, s')) :
    (res = .ok () ∧ s.fault = none ∧ s'.out = s.out ++ ps ∧ s'.w.buf = []) ∨
      (∃ e, res = .error e ∧ s.fault = some e ∧ s'.out = s.out ∧ s'.w.buf = ps) := by
  unfold Socket.handOver at h
  split at h <;> (cases h; simp_all)

theorem handOver_fault {ps : List Packet} {s : Socket} :
    (s.handOver ps).2.fault = s.fault ∧ (s.handOver ps).2.r = s.r := by
  unfold Socket.handOver; split <;> simp

theorem write_fault (spill : Bool) (p : Packet) (s : Socket) :
    (s.write spill p).2.fault = s.fault ∧ (s.write spill p).2.r = s.r := by
  unfold Socket.write; split
  · simp
  · split
    · exact handOver_fault
    · simp

theorem flush_fault (s : Socket) : s.flush.2.fault = s.fault ∧ s.flush.2.r = s.r := by
  unfold Socket.flush; split
  · simp
  · split
    · simp
    · exact handOver_fault

/-- The packets a socket holds: buffered in its writer, then handed to the kernel. -/
def Socket.held (s : Socket) : List Packet := s.w.buf ++ s.out

/-- The packets of a socket that the server may still receive or has received: its buffer
while the socket has no fault (a faulty socket never hands its buffer over), and what it
handed to the kernel. -/
def Socket.live (s : Socket) : List Packet :=
  (if s.fault = none then s.w.buf else []) ++ s.out

theorem live_subset_held (s : Socket) : ∀ p ∈ s.live, p ∈ s.held := fun p hp => by
  rcases List.mem_append.mp hp with hp | hp
  · split at hp
    · exact List.mem_append_left _ hp
    · cases hp
  · exact List.mem_append_right _ hp

theorem handOver_held (ps : List Packet) (s : Socket) (x : Packet) :
    x ∈ (s.handOver ps).2.held ↔ x ∈ ps ∨ x ∈ s.out := by
  unfold Socket.handOver Socket.held; split <;> simp [or_comm]

/-- `Write` loses no packet and adds only its own. -/
theorem write_held (spill : Bool) (p : Packet) (s : Socket) (x : Packet) :
    (x ∈ (s.write spill p).2.held → x ∈ s.held ∨ x = p) ∧
      (x ∈ s.held → x ∈ (s.write spill p).2.held) := by
  unfold Socket.write; split
  · exact ⟨.inl, id⟩
  · split
    · rw [handOver_held]; simp only [Socket.held, List.mem_append, List.mem_singleton]; tauto
    · simp only [Socket.held, List.mem_append, List.mem_singleton]; tauto

/-- A `Write` that succeeds leaves its packet on the socket. -/
theorem write_ok_held {spill : Bool} {p : Packet} {s : Socket}
    (h : (s.write spill p).1 = .ok ()) : p ∈ (s.write spill p).2.held := by
  unfold Socket.write at h ⊢; split
  · rename_i e he; simp [he] at h
  · split
    · rw [handOver_held]; simp
    · simp [Socket.held]

theorem write_buf (spill : Bool) (p : Packet) (s : Socket) (x : Packet)
    (hx : x ∈ (s.write spill p).2.w.buf) : x ∈ s.w.buf ∨ x = p := by
  unfold Socket.write at hx; split at hx
  · exact .inl hx
  · split at hx
    · unfold Socket.handOver at hx; split at hx <;> simp_all
    · simpa using hx

/-- `Flush` moves packets from the buffer to the kernel, and empties the buffer when it
succeeds. -/
theorem flush_held (s : Socket) (x : Packet) :
    (x ∈ s.flush.2.held ↔ x ∈ s.held) ∧ (x ∈ s.flush.2.w.buf → x ∈ s.w.buf) ∧
      (s.flush.1 = .ok () → s.flush.2.w.buf = []) := by
  unfold Socket.flush; split
  · rename_i e he; simp [he]
  · split
    · rename_i hb; simp [hb]
    · refine ⟨by rw [handOver_held]; simp [Socket.held], ?_, ?_⟩ <;>
        unfold Socket.handOver <;> split <;> simp

/-- What the server sends and the network's faults leave the writing side alone. -/
theorem recv_held (c : Chunk) (s : Socket) : (s.recv c).w = s.w ∧ (s.recv c).out = s.out := by
  unfold Socket.recv; split <;> exact ⟨rfl, rfl⟩

/-! ## Shut sockets -/

/-- A socket that was closed or dropped: every write fails, and reads end once the bytes
already received are consumed. -/
def Socket.Shut (s : Socket) : Prop := s.fault ≠ none ∧ s.r.src.fin ≠ .more

theorem close_shut (s : Socket) : s.close.Shut :=
  ⟨Option.some_ne_none _, fun h => by cases h⟩

theorem drop_shut (e : GoError) (s : Socket) : (s.drop e).Shut := by
  refine ⟨?_, ?_⟩
  · cases h : s.fault <;> simp [Socket.drop, h]
  · simp only [Socket.drop]; split <;> simp_all

/-- Writes, flushes and the server's bytes leave a shut socket shut. -/
theorem Socket.Shut.of_eq {s s' : Socket} (hs : s.Shut) (hf : s'.fault = s.fault)
    (hfin : s'.r.src.fin = s.r.src.fin) : s'.Shut :=
  ⟨hf ▸ hs.1, hfin ▸ hs.2⟩

theorem recv_fin (c : Chunk) (s : Socket) :
    (s.recv c).fault = s.fault ∧ (s.recv c).r.src.fin = s.r.src.fin := by
  unfold Socket.recv; split <;> exact ⟨rfl, rfl⟩

/-! ## The order of a socket's packets -/

/-- What a socket was given, in order: handed to the kernel, then still buffered. -/
def Socket.wire (s : Socket) : List Packet := s.out ++ s.w.buf

/-- `Write` appends its packet to what the socket was given, or changes nothing when the
writer's error is sticky. -/
theorem wire_write (spill : Bool) (p : Packet) (s : Socket) :
    (s.write spill p).2.wire = s.wire ++ [p] ∨ (s.write spill p).2 = s := by
  unfold Socket.write
  split
  · exact .inr rfl
  · left
    split
    · unfold Socket.handOver; split <;> simp [Socket.wire]
    · simp [Socket.wire]

/-- `Flush` moves packets from the buffer to the kernel in their order. -/
theorem wire_flush (s : Socket) : s.flush.2.wire = s.wire := by
  unfold Socket.flush
  split
  · rfl
  · split
    · rfl
    · unfold Socket.handOver; split <;> simp [Socket.wire]

end GoTarantool.Net

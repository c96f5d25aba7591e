import GoTarantool.Dial
import Mathlib.Data.List.AList
import Mathlib.Logic.Function.Basic

/-!
# The connection engine: state

A `Connection` (src/unnamed/part_000, lines 15-28) together with everything its goroutines
touch: the sockets `dial` opened, the futures `Submit` registered, and where each goroutine
stands. The writer loop, the reader loop and one call of `Close` are each a program counter;
callers of `Submit` between registering their future and putting its packet on
`conn.packets` are the list `submitting`. `createConnection` runs inside the writer or the
reader, whichever calls it, and holds `conn.mutex` from its `Lock` to its return, so the
mutex names the goroutine that holds it across steps. Every other critical section is one
step and needs the mutex free.

`conn.connection`, `conn.r` and `conn.w` name sockets of the table: they are the socket and
the reader and writer `dial` built around it. Reads of `conn.r` and `conn.w` by the loops
without the mutex see the last value written.

A few fields are ghost: the future a packet was packed for (`Packet.request`), how many
times a future's channel was closed (`Future.closes`), the errors `closeConnection` failed
futures with, and the sockets a successful `dial` published. None of them is read by the
code's decisions.

`closeConnection` (lines 184-200) is here with its spec: it closes the current socket,
clears the three fields and fails every future of `conn.requests`, each exactly once.
-/

namespace GoTarantool.Connection

open GoTarantool.Stream GoTarantool.Net GoTarantool.Dial

/-- A `Future`: the response or the error it completes with, and its channel `c`. -/
structure Future where
  requestId : UInt32
  resp : Option Response
  err : Option GoError
  /-- How many times `close(fut.c)` ran: `0` while a waiter blocks on `c`. A second close
  panics in Go. -/
  closes : Nat

/-- The goroutines that can hold `conn.mutex` across steps, inside `createConnection`. -/
inductive Thread
  | writer
  | reader
  deriving DecidableEq

/-- Where `createConnection` stands. -/
inductive CreatePc
  /-- Before `conn.mutex.Lock()`. -/
  | lock
  /-- At the loop test `conn.connection == nil`, holding the mutex. -/
  | loop

/-- Where the writer loop (lines 202-233) stands, with its local `packet` and `w`. -/
inductive WriterPc
  /-- The outer `select` on `conn.packets` with a `default`. -/
  | top
  /-- The `default` branch: `if w = conn.w; w != nil`. -/
  | flushCheck
  /-- `w.Flush()` on the writer of socket `k`. -/
  | flush (k : Nat)
  /-- `conn.closeConnection(err)` after that `Flush` failed with `e`. -/
  | flushFailed (k : Nat) (e : GoError)
  /-- The inner `select` on `conn.packets` and `conn.control`. -/
  | park
  /-- `if w = conn.w; w == nil` with `packet` taken. -/
  | got (p : Packet)
  /-- `conn.createConnection()` with `packet` in hand. -/
  | create (p : Packet) (c : CreatePc)
  /-- `write(w, packet)` on the writer of socket `k`. -/
  | write (p : Packet) (k : Nat)
  /-- `conn.closeConnection(err)` after that write failed with `e`. -/
  | writeFailed (p : Packet) (k : Nat) (e : GoError)
  /-- Returned. -/
  | exit

/-- Where the reader loop (lines 235-266) stands, with its local `r`. -/
inductive ReaderPc
  /-- `if r = conn.r; r == nil`. -/
  | top
  /-- `conn.createConnection()`. -/
  | create (c : CreatePc)
  /-- `read(r)` and `resp.decodeHeader()` on the reader of socket `k`. -/
  | read (k : Nat)
  /-- `conn.closeConnection(err)` after a read or a header on socket `k` failed with `e`. -/
  | failed (k : Nat) (e : GoError)
  /-- The locked lookup of `resp.RequestId` for a response read from socket `k`. -/
  | deliver (k : Nat) (resp : Response)
  /-- Returned. -/
  | exit

/-- Where a call of `Close` (lines 62-67) stands. -/
inductive CloserPc
  /-- Not called yet. -/
  | idle
  /-- `close(conn.control)`, after `conn.closed = true`. -/
  | control
  /-- `conn.closeConnection(errors.New("client closed connection"))`. -/
  | drop
  /-- Returned; `found` records whether `closeConnection` found a socket (ghost). -/
  | done (found : Bool)

/-- The capacity of `conn.packets` (`make(chan []byte, 64)`). -/
def packetsCap : Nat := 64

/-- A connection and the goroutines around it. -/
structure St where
  connection : Option Nat
  r : Option Nat
  w : Option Nat
  mutex : Option Thread
  requestId : UInt32
  greeting : Greeting
  requests : AList (fun _ : UInt32 => Nat)
  packets : List Packet
  /-- Whether `conn.control` is closed. -/
  control : Bool
  opts : Opts
  closed : Bool
  /-- Every socket `dial` opened, by number; `nsock` numbers the next one. -/
  socks : Nat → Socket
  nsock : Nat
  /-- Every future `Submit` registered, by number; `nfut` numbers the next one. -/
  futs : Nat → Future
  nfut : Nat
  writer : WriterPc
  reader : ReaderPc
  closer : CloserPc
  /-- Packets of `Submit`s that registered their future and have not yet sent the packet. -/
  submitting : List Packet
  /-- Ghost: the errors `closeConnection` failed futures with. -/
  netErrs : List GoError
  /-- Ghost: the sockets a successful `dial` assigned to `conn.connection`. -/
  authed : List Nat

/-- The socket table's entry for numbers no `dial` used. -/
def noSocket : Socket := Socket.fresh ⟨⟨[], .more⟩, none⟩

/-- The future table's entry for numbers no `Submit` used. -/
def noFuture : Future := ⟨0, none, none, 0⟩

/-- `Connect(addr, opts)` (lines 42-60), as the writer and reader goroutines start. -/
def init (opts : Opts) : St where
  connection := none
  r := none
  w := none
  mutex := none
  requestId := 0
  greeting := ⟨[], []⟩
  requests := ∅
  packets := []
  control := false
  opts := opts
  closed := false
  socks := fun _ => noSocket
  nsock := 0
  futs := fun _ => noFuture
  nfut := 0
  writer := .top
  reader := .top
  closer := .idle
  submitting := []
  netErrs := []
  authed := []

/-- The request registry of the spec: the id counter, `conn.requests`, the futures, and the
ghost record of the errors `closeConnection` failed futures with. -/
structure Registry where
  requestId : UInt32
  requests : AList (fun _ : UInt32 => Nat)
  futs : Nat → Future
  nfut : Nat
  netErrs : List GoError

def St.registry (s : St) : Registry := ⟨s.requestId, s.requests, s.futs, s.nfut, s.netErrs⟩

section
variable (s : St)

@[simp] theorem St.registry_requestId : s.registry.requestId = s.requestId := rfl
@[simp] theorem St.registry_requests : s.registry.requests = s.requests := rfl
@[simp] theorem St.registry_futs : s.registry.futs = s.futs := rfl
@[simp] theorem St.registry_nfut : s.registry.nfut = s.nfut := rfl
@[simp] theorem St.registry_netErrs : s.registry.netErrs = s.netErrs := rfl

end

/-- Whether future `h` waits in `conn.requests`. -/
def Registry.Pending (g : Registry) (h : Nat) : Prop := ∃ id, g.requests.lookup id = some h

/-- Whether future `h` waits in `conn.requests`. -/
def St.Pending (s : St) (h : Nat) : Prop := s.registry.Pending h

/-! ## `closeConnection` -/

/-- One turn of the loop of lines 194-198 on a future: `fut.err = neterr; close(fut.c)`. -/
def Future.fail (neterr : GoError) (f : Future) : Future :=
  { f with err := some neterr, closes := f.closes + 1 }

/-- The loop of lines 194-198 over the futures of `conn.requests`. -/
def failAll (neterr : GoError) : List Nat → (Nat → Future) → Nat → Future
  | [], futs => futs
  | h :: hs, futs => failAll neterr hs (Function.update futs h ((futs h).fail neterr))

/-- The futures of `conn.requests`, in the order the loop meets them. -/
def St.pendingFuts (s : St) : List Nat := s.requests.entries.map Sigma.snd

/-- `conn.closeConnection(neterr)` once it holds the mutex. -/
def St.closeConnection (neterr : GoError) (s : St) : St :=
  match s.connection with
  | none => s
  | some k =>
    { s with socks := Function.update s.socks k (s.socks k).close,
             connection := none, r := none, w := none,
             futs := failAll neterr s.pendingFuts s.futs,
             requests := ∅,
             netErrs := neterr :: s.netErrs }

theorem failAll_requestId (e : GoError) :
    ∀ (hs : List Nat) (futs : Nat → Future) (h : Nat),
      (failAll e hs futs h).requestId = (futs h).requestId := by
  intro hs; induction hs with
  | nil => intro futs h; rfl
  | cons x xs ih =>
    intro futs h; rw [failAll, ih]
    by_cases hx : h = x
    · subst hx; simp [Future.fail]
    · simp [hx]

theorem failAll_resp (e : GoError) :
    ∀ (hs : List Nat) (futs : Nat → Future) (h : Nat),
      (failAll e hs futs h).resp = (futs h).resp := by
  intro hs; induction hs with
  | nil => intro futs h; rfl
  | cons x xs ih =>
    intro futs h; rw [failAll, ih]
    by_cases hx : h = x
    · subst hx; simp [Future.fail]
    · simp [hx]

theorem failAll_closes (e : GoError) :
    ∀ (hs : List Nat) (futs : Nat → Future) (h : Nat),
      (failAll e hs futs h).closes = (futs h).closes + hs.count h := by
  intro hs; induction hs with
  | nil => intro futs h; simp [failAll]
  | cons x xs ih =>
    intro futs h; rw [failAll, ih, List.count_cons]
    by_cases hx : h = x
    · subst hx; simp [Future.fail]; omega
    · simp [hx, Ne.symm hx]

theorem failAll_err (e : GoError) :
    ∀ (hs : List Nat) (futs : Nat → Future) (h : Nat),
      (failAll e hs futs h).err = if h ∈ hs then some e else (futs h).err := by
  intro hs; induction hs with
  | nil => intro futs h; simp [failAll]
  | cons x xs ih =>
    intro futs h; rw [failAll, ih]
    by_cases hx : h = x
    · subst hx; simp [Future.fail]
    · simp [hx]

theorem mem_pendingFuts {s : St} {h : Nat} : h ∈ s.pendingFuts ↔ s.Pending h := by
  simp only [St.pendingFuts, List.mem_map, St.Pending, Registry.Pending, St.registry]
  constructor
  · rintro ⟨⟨id, h'⟩, hmem, rfl⟩
    exact ⟨id, AList.mem_lookup_iff.mpr hmem⟩
  · rintro ⟨id, hid⟩
    exact ⟨⟨id, h⟩, AList.mem_lookup_iff.mp hid, rfl⟩

end GoTarantool.Connection

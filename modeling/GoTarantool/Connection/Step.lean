import GoTarantool.Connection.State

/-!
# The connection engine: steps

One step of each goroutine, as the source runs it: `createConnection` (lines 158-175), the
writer loop (lines 202-233), the reader loop (lines 235-266), `Close` (lines 62-67), and
`Submit`, which is not under src and is modelled from the spec. The environment answers
the network's questions: what `net.Dial` connects to, whether a `Write` overflows the
buffer, which ready case a `select` takes, what the server sends and when the network drops
a socket. A step is `none` when the goroutine blocks or has returned.

`Reachable` is every state that some interleaving of these steps reaches from `Connect`,
with any options and any server behaviour.
-/

namespace GoTarantool.Connection

open GoTarantool.Stream GoTarantool.Net GoTarantool.Dial

/-- What the environment answers at a step. -/
structure Env where
  /-- Whether a `Write` does not fit the free space of the writer's buffer. -/
  spill : Bool
  /-- Which ready case a `select` takes when both are ready; Go picks at random. -/
  pick : Bool
  /-- What `net.Dial` connects to, if the step dials. -/
  net : Except GoError Link

/-- `conn.dial()`: run `dial` on a new socket, overwrite `conn.Greeting`, add the socket to
the table, and assign `conn.connection`, `conn.r`, `conn.w` when it is ready (lines 93-96). -/
def St.dial (codec : Codec) (net : Except GoError Link) (s : St) : Option (St × Option GoError) :=
  (Dial.dial codec s.opts s.greeting net).map fun (g, out) =>
    match out with
    | .refused e => ({ s with greeting := g }, some e)
    | .failed e sock =>
      ({ s with greeting := g, socks := Function.update s.socks s.nsock sock,
                nsock := s.nsock + 1 }, some e)
    | .ready sock =>
      ({ s with greeting := g, socks := Function.update s.socks s.nsock sock,
                nsock := s.nsock + 1, connection := some s.nsock, r := some s.nsock,
                w := some s.nsock, authed := s.nsock :: s.authed }, none)

/-- How one turn of the loop of `createConnection` ends. -/
inductive CreateOut
  /-- A dial failed and `Reconnect > 0`: sleep and test the loop condition again. -/
  | again
  /-- Return `r, w`. -/
  | ret (r w : Option Nat)

/-- One turn of the loop of `createConnection` (lines 161-174), holding the mutex. -/
def St.createTurn (codec : Codec) (net : Except GoError Link) (s : St) :
    Option (St × CreateOut) :=
  match s.connection with
  | some _ => some (s, .ret s.r s.w)
  | none =>
    if s.closed then some (s, .ret none none)
    else
      (s.dial codec net).map fun (s', err) =>
        match err with
        | none => (s', .ret s'.r s'.w)
        | some _ => if 0 < s.opts.reconnect then (s', .again) else (s', .ret none none)

/-- One step of `createConnection` run by `t` at `c`: where `t` goes next, still inside
(`inl`) or returned `(r, w)` with the deferred unlock done (`inr`). -/
def St.createConnection (codec : Codec) (t : Thread) (net : Except GoError Link) (s : St) :
    CreatePc → Option (St × (CreatePc ⊕ (Option Nat × Option Nat)))
  | .lock => if s.mutex = none then some ({ s with mutex := some t }, .inl .loop) else none
  | .loop =>
    (s.createTurn codec net).map fun (s', out) =>
      match out with
      | .again => (s', .inl .loop)
      | .ret r w => ({ s' with mutex := none }, .inr (r, w))

/-- One step of the writer loop. -/
def St.writerStep (codec : Codec) (env : Env) (s : St) : Option St :=
  match s.writer with
  | .top =>
    match s.packets with
    | p :: ps => some { s with packets := ps, writer := .got p }
    | [] => some { s with writer := .flushCheck }
  | .flushCheck =>
    some { s with writer := match s.w with
      | some k => .flush k
      | none => .park }
  | .flush k =>
    some { s with socks := Function.update s.socks k (s.socks k).flush.2,
                  writer := match (s.socks k).flush.1 with
                    | .ok () => .park
                    | .error e => .flushFailed k e }
  | .flushFailed _ e =>
    if s.mutex = none then some { s.closeConnection e with writer := .park } else none
  | .park =>
    match s.packets, s.control with
    | p :: ps, false => some { s with packets := ps, writer := .got p }
    | p :: ps, true =>
      some (if env.pick then { s with packets := ps, writer := .got p }
        else { s with writer := .exit })
    | [], true => some { s with writer := .exit }
    | [], false => none
  | .got p =>
    some { s with writer := match s.w with
      | some k => .write p k
      | none => .create p .lock }
  | .create p c =>
    (s.createConnection codec .writer env.net c).map fun (s', out) =>
      match out with
      | .inl c' => { s' with writer := .create p c' }
      | .inr (_, w) => { s' with writer := match w with
        | some k => .write p k
        | none => .exit }
  | .write p k =>
    some { s with socks := Function.update s.socks k ((s.socks k).write env.spill p).2,
                  writer := match ((s.socks k).write env.spill p).1 with
                    | .ok () => .top
                    | .error e => .writeFailed p k e }
  | .writeFailed _ _ e =>
    if s.mutex = none then some { s.closeConnection e with writer := .top } else none
  | .exit => none

/-- The locked block of lines 255-264: the future registered under `resp.RequestId`, if
any, leaves `conn.requests` with the response and its channel closed. -/
def St.deliver (resp : Response) (s : St) : St :=
  match s.requests.lookup resp.requestId with
  | some h =>
    { s with requests := s.requests.erase resp.requestId,
             futs := Function.update s.futs h
               { s.futs h with resp := some resp, closes := (s.futs h).closes + 1 } }
  | none => s

/-- One step of the reader loop. -/
def St.readerStep (codec : Codec) (env : Env) (s : St) : Option St :=
  match s.reader with
  | .top =>
    some { s with reader := match s.r with
      | some k => .read k
      | none => .create .lock }
  | .create c =>
    (s.createConnection codec .reader env.net c).map fun (s', out) =>
      match out with
      | .inl c' => { s' with reader := .create c' }
      | .inr (r, _) => { s' with reader := match r with
        | some k => .read k
        | none => .exit }
  | .read k =>
    (Frame.read (s.socks k).r).map fun (res, r) =>
      { s with socks := Function.update s.socks k { s.socks k with r },
               reader := match res with
                 | .error e => .failed k e
                 | .ok bytes =>
                   match codec.decodeHeader bytes with
                   | .error e => .failed k e
                   | .ok resp => .deliver k resp }
  | .failed _ e =>
    if s.mutex = none then some { s.closeConnection e with reader := .top } else none
  | .deliver _ resp =>
    if s.mutex = none then some { s.deliver resp with reader := .top } else none
  | .exit => none

/-- The error `Close` fails the pending futures with. -/
def clientClosed : GoError := "client closed connection"

/-- One step of a call of `Close`. Only one call is modelled: a second one panics on
`close(conn.control)`. -/
def St.closerStep (s : St) : Option St :=
  match s.closer with
  | .idle => some { s with closed := true, closer := .control }
  | .control => some { s with control := true, closer := .drop }
  | .drop =>
    if s.mutex = none then
      some { s.closeConnection clientClosed with closer := .done s.connection.isSome }
    else none
  | .done _ => none

/-- `nextRequestId()` (lines 305-307): `atomic.AddUint32(&conn.requestId, 1)`. -/
def St.nextRequestId (s : St) : UInt32 × St :=
  (s.requestId + 1, { s with requestId := s.requestId + 1 })

/-- Modelled from the spec: `register`, under the connection mutex. It takes an id from the
counter and stores a new future under it; the caller keeps the packet packed with that id. -/
def St.register (s : St) : St :=
  let (id, s) := s.nextRequestId
  { s with requests := s.requests.insert id s.nfut,
           futs := Function.update s.futs s.nfut ⟨id, none, none, 0⟩,
           nfut := s.nfut + 1,
           submitting := s.submitting ++ [.request id s.nfut] }

/-- Modelled from the spec: the first half of `Submit` (it is not under src), which holds the
connection mutex. A closed connection refuses the request with a future already failed with
`ClientClosed`, which never reaches the connection; otherwise the request is registered. -/
def St.submit (s : St) : Option St :=
  if s.mutex ≠ none then none
  else if s.closed then some s
  else some s.register

/-- Modelled from the spec: the second half of `Submit`, `conn.packets <- packet` by the
`i`-th caller still holding its packet; it blocks while the channel is full. -/
def St.enqueue (i : Nat) (s : St) : Option St :=
  match s.submitting.get? i with
  | some p =>
    if s.packets.length < packetsCap then
      some { s with packets := s.packets ++ [p], submitting := s.submitting.eraseIdx i }
    else none
  | none => none

/-- One step of the system. -/
inductive Event
  | writer (env : Env)
  | reader (env : Env)
  | close
  | submit
  | enqueue (i : Nat)
  /-- The server's bytes `c` reach socket `k`. -/
  | recv (k : Nat) (c : Chunk)
  /-- The network drops socket `k` with error `e`. -/
  | drop (k : Nat) (e : GoError)

/-- The system after one step, or `none` if that step cannot be taken. -/
def step (codec : Codec) (s : St) : Event → Option St
  | .writer env => s.writerStep codec env
  | .reader env => s.readerStep codec env
  | .close => s.closerStep
  | .submit => s.submit
  | .enqueue i => s.enqueue i
  | .recv k c =>
    if k < s.nsock then some { s with socks := Function.update s.socks k ((s.socks k).recv c) }
    else none
  | .drop k e =>
    if k < s.nsock then some { s with socks := Function.update s.socks k ((s.socks k).drop e) }
    else none

/-- The states some interleaving reaches from `Connect(addr, opts)`. -/
inductive Reachable (codec : Codec) : St → Prop
  | init (opts : Opts) : Reachable codec (init opts)
  | step {s s' : St} (e : Event) : Reachable codec s → step codec s e = some s' →
      Reachable codec s'

/-- A run of events from `s`. -/
def run (codec : Codec) : St → List Event → Option St
  | s, [] => some s
  | s, e :: es => (step codec s e).bind fun s' => run codec s' es

theorem run_reachable {codec : Codec} :
    ∀ {s s' : St} {es : List Event}, Reachable codec s → run codec s es = some s' →
      Reachable codec s'
  | s, s', [], hs, h => by cases h; exact hs
  | s, s', e :: es, hs, h => by
    simp only [run, Option.bind_eq_some] at h
    obtain ⟨s1, h1, h2⟩ := h
    exact run_reachable (Reachable.step e hs h1) h2

end GoTarantool.Connection

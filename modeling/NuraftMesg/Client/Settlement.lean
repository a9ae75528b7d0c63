import NuraftMesg.Client.Call
import NuraftMesg.UuidText

/-!
# Which future a call settles

`client_ctx::future` replaces the promise of the context. The caller therefore
gets the value of `client_ctx::set` exactly when `future()` ran first; otherwise
the value went to the promise that was replaced, and the caller's future breaks
when the context dies.
-/

namespace NuraftMesg.Call

variable {nuraft : Serializer} {text : UuidText}

/-- The state of a call between two steps: one RPC is outstanding until the
promise is set, and the promise holds what it was set to. -/
structure Balanced (c : Call) : Prop where
  one : c.outstanding + c.settled.length = 1
  pending : c.settled = [] → c.store.get c.promise = .pending
  fulfilled : ∀ code, c.settled = [code] → c.store.get c.promise = .value (nullResult code)

/-- `c'` is `c` after `client_ctx::set(code)`. -/
structure SetTo (c : Call) (code : CmdResultCode) (c' : Call) : Prop where
  settled : c'.settled = c.settled ++ [code]
  outstanding : c'.outstanding = c.outstanding
  future : c'.future = c.future
  promise : c'.promise = c.promise
  value : c'.store.get c.promise = .value (nullResult code)

/-- `c'` is `c` after one more message was sent over the network. -/
structure Sent (c c' : Call) : Prop where
  settled : c'.settled = c.settled
  outstanding : c'.outstanding = c.outstanding + 1
  future : c'.future = c.future
  promise : c'.promise = c.promise
  store : c'.store = c.store

/-! ## What the steps do -/

/-- Setting the promise of a context. -/
theorem setTo_of_set {c c' : Call} {code : CmdResultCode} (hset : c.set code = some c') :
    c.SetTo code c' := by
  obtain ⟨store, hstore, rfl⟩ := Option.map_eq_some_iff.mp hset
  obtain ⟨_, hget⟩ := Promise.Store.setValue_eq_some hstore
  exact ⟨rfl, rfl, rfl, rfl, (hget _).trans (if_pos rfl)⟩

/-- Sending over a client sets the promise at once or leaves an RPC outstanding. -/
theorem send_cases {c c' : Call} {endpoint : String} {target : Target}
    (hsend : send nuraft text c endpoint target = some c') :
    (∃ code, c.SetTo code c') ∨ c.Sent c' := by
  cases target with
  | null => cases hsend
  | errorClient => exact Or.inl ⟨_, setTo_of_set hsend⟩
  | remote =>
    cases hsend
    exact Or.inr ⟨rfl, rfl, rfl, rfl, rfl⟩

/-- The handler sets the promise or forwards the request once. -/
theorem respHandler_cases {c c' : Call} {rsp : Option GrpcResp} {err : Bool} {target : Target}
    (hrun : respHandler nuraft text c rsp err target = some c') :
    (∃ code, c.SetTo code c') ∨ c.Sent c' := by
  cases rsp with
  | none => exact Or.inl ⟨_, setTo_of_set hrun⟩
  | some rsp =>
    simp only [respHandler] at hrun
    split at hrun
    · exact Or.inl ⟨_, setTo_of_set hrun⟩
    split at hrun
    · exact Or.inl ⟨_, setTo_of_set hrun⟩
    split at hrun
    · exact Or.inl ⟨_, setTo_of_set hrun⟩
    split at hrun
    · exact Or.inl ⟨_, setTo_of_set hrun⟩
    -- The redirection changes `_cur_dest` only, before it sends.
    rcases send_cases hrun with ⟨code, h⟩ | h
    · exact Or.inl ⟨code, h.settled, h.outstanding, h.future, h.promise, h.value⟩
    · exact Or.inr ⟨h.settled, h.outstanding, h.future, h.promise, h.store⟩

/-- A completion consumes an outstanding RPC and runs the handler. -/
theorem step_complete {c c' : Call} {rsp : Option GrpcResp} {err : Bool} {target : Target}
    (hstep : step nuraft text c (.complete rsp err target) = some c') :
    ∃ mid, c' = release mid ∧ 0 < c.outstanding ∧
      ((∃ code, SetTo { c with outstanding := c.outstanding - 1 } code mid) ∨
        Sent { c with outstanding := c.outstanding - 1 } mid) := by
  simp only [step] at hstep
  split at hstep
  · cases hstep
  rename_i hout
  obtain ⟨mid, hmid, rfl⟩ := Option.map_eq_some_iff.mp hstep
  exact ⟨mid, rfl, Nat.pos_of_ne_zero hout, respHandler_cases hmid⟩

/-- `ctx->future()` runs once, on a context without a future. -/
theorem step_future {c c' : Call} (hstep : step nuraft text c .future = some c') :
    c' = c.makeFuture.release ∧ c.future = none := by
  simp only [step] at hstep
  split at hstep
  · cases hstep
  rename_i hnone
  exact ⟨(Option.some.inj hstep).symm, by simpa using hnone⟩

/-- Releasing the context touches nothing but the core of its promise. -/
theorem release_eq (c : Call) :
    c.release = { c with store := c.release.store } := by
  unfold release
  split <;> rfl

/-- A context that dies has been settled, so the caller keeps the value. -/
theorem Balanced.release {c : Call} (hc : c.Balanced) : c.release.Balanced := by
  unfold Call.release
  split
  · rename_i hdies
    have hone := hc.one
    obtain ⟨code, hcode⟩ := List.length_eq_one_iff.mp (by omega : c.settled.length = 1)
    refine ⟨hone, fun hnil => ?_, fun code' hcode' => ?_⟩
    · rw [hcode] at hnil
      cases hnil
    · exact Promise.Store.get_detach_of_value (hc.fulfilled code' hcode')
  · exact hc

/-- A context that was just set is balanced. -/
theorem SetTo.balanced {c c' : Call} {code : CmdResultCode} (h : c.SetTo code c')
    (hout : c.outstanding = 0) (hempty : c.settled = []) : c'.Balanced := by
  have hset : c'.settled = [code] := by rw [h.settled, hempty]; rfl
  refine ⟨?_, fun hnil => ?_, fun code' hcode' => ?_⟩
  · rw [h.outstanding, hset, hout]
    rfl
  · rw [hset] at hnil
    cases hnil
  · obtain rfl : code = code' := by simpa [hset] using hcode'
    rw [h.promise]
    exact h.value

/-- A context that has just sent its only outstanding message is balanced. -/
theorem Sent.balanced {c c' : Call} (h : c.Sent c') (hout : c.outstanding = 0)
    (hempty : c.settled = []) (hpending : c.store.get c.promise = .pending) : c'.Balanced := by
  have hnil : c'.settled = [] := h.settled.trans hempty
  refine ⟨?_, fun _ => ?_, fun code hcode => ?_⟩
  · rw [h.outstanding, hnil, hout]
    rfl
  · rw [h.promise, h.store]
    exact hpending
  · rw [hnil] at hcode
    cases hcode

/-- A started call is balanced, and its caller has no future yet. -/
theorem balanced_of_started {c : Call} (hstarted : Started nuraft text c) :
    c.Balanced ∧ c.future = none := by
  obtain ⟨payload, newSrvAddr, destCfg, target, hstart⟩ := hstarted.exists_start
  rcases send_cases hstart with ⟨code, h⟩ | h
  · exact ⟨h.balanced rfl rfl, h.future⟩
  · exact ⟨h.balanced rfl rfl rfl, h.future⟩

/-- Completions keep a call balanced and leave its future alone. -/
theorem Balanced.complete {c c' : Call} {rsp : Option GrpcResp} {err : Bool} {target : Target}
    (hc : c.Balanced) (hstep : step nuraft text c (.complete rsp err target) = some c') :
    c'.Balanced ∧ c'.future = c.future ∧ c'.promise = c.promise := by
  obtain ⟨mid, rfl, hpos, hmid⟩ := step_complete hstep
  have hone := hc.one
  have hempty : c.settled = [] := List.eq_nil_of_length_eq_zero (by omega)
  have hlast : c.outstanding - 1 = 0 := by omega
  rw [release_eq]
  rcases hmid with ⟨code, h⟩ | h
  · have hbal := (h.balanced hlast hempty).release
    rw [release_eq] at hbal
    exact ⟨hbal, h.future, h.promise⟩
  · have hbal := (h.balanced hlast hempty (hc.pending hempty)).release
    rw [release_eq] at hbal
    exact ⟨hbal, h.future, h.promise⟩

/-! ## The race between `set` and `future` -/

/-- Running `future()` on an open context links the caller to its promise. -/
theorem Balanced.future_of_open {c c' : Call} (hc : c.Balanced) (hempty : c.settled = [])
    (hstep : step nuraft text c .future = some c') :
    c'.Balanced ∧ c'.future = some c'.promise := by
  obtain ⟨rfl, _⟩ := step_future hstep
  have hne : c.promise ≠ c.store.new.2 :=
    Promise.Store.ne_new_of_ne_broken (by simp [hc.pending hempty])
  have hlinked : c.makeFuture.Balanced := by
    refine ⟨hc.one, fun _ => ?_, fun code hcode => ?_⟩
    · change (c.store.new.1.detach c.promise).get c.store.new.2 = .pending
      rw [Promise.Store.get_detach_of_ne _ hne.symm, Promise.Store.get_new, if_pos rfl]
    · exact absurd (hempty.symm.trans hcode) (by simp)
  have hbal := hlinked.release
  rw [release_eq] at hbal ⊢
  exact ⟨hbal, rfl⟩

/-- Running `future()` after the promise was set breaks the caller's future: no
handler is left, so the context dies with a fresh, unfulfilled promise. -/
theorem Balanced.future_of_settled {c c' : Call} (hc : c.Balanced) (hset : c.settled ≠ [])
    (hstep : step nuraft text c .future = some c') :
    ∃ r, c'.outstanding = 0 ∧ c'.future = some r ∧ c'.store.get r = .broken := by
  obtain ⟨rfl, _⟩ := step_future hstep
  have hone := hc.one
  have hpos := List.length_pos_iff.mpr hset
  obtain ⟨code, hcode⟩ := List.length_eq_one_iff.mp (by omega : c.settled.length = 1)
  have hout : c.makeFuture.outstanding = 0 := by simp only [makeFuture]; omega
  have hne : c.promise ≠ c.store.new.2 :=
    Promise.Store.ne_new_of_ne_broken (by simp [hc.fulfilled code hcode])
  have hrelease : c.makeFuture.release =
      { c.makeFuture with store := c.makeFuture.store.detach c.makeFuture.promise } :=
    if_pos ⟨hout, rfl⟩
  rw [hrelease]
  refine ⟨c.store.new.2, hout, rfl, ?_⟩
  apply Promise.Store.get_detach_of_pending
  change (c.store.new.1.detach c.promise).get c.store.new.2 = .pending
  rw [Promise.Store.get_detach_of_ne _ hne.symm, Promise.Store.get_new, if_pos rfl]

/-- The condition under which a step of the call is harmless: `ctx->future()`
runs before `client_ctx::set`. -/
def FutureFirst (c : Call) : Label → Prop
  | .future => c.settled = []
  | .complete _ _ _ => True

/-- Once the caller is linked to the promise, every run ends with the caller
linked and never runs `future()` again. -/
theorem run_of_linked {c c' : Call} {labels : List Label} (hc : c.Balanced)
    (hlinked : c.future = some c.promise)
    (hrun : Transition.run (step nuraft text) c labels = some c') :
    (c'.Balanced ∧ c'.future = some c'.promise) ∧
      Transition.Meets (step nuraft text) FutureFirst c labels := by
  induction labels generalizing c with
  | nil =>
    cases hrun
    exact ⟨⟨hc, hlinked⟩, trivial⟩
  | cons l labels ih =>
    obtain ⟨mid, hstep, hrest⟩ := Option.bind_eq_some_iff.mp hrun
    cases l with
    | future =>
      obtain ⟨_, hnone⟩ := step_future hstep
      rw [hlinked] at hnone
      cases hnone
    | complete rsp err target =>
      obtain ⟨hmid, hfuture, hpromise⟩ := hc.complete hstep
      obtain ⟨hend, hmeets⟩ := ih hmid (by rw [hfuture, hpromise, hlinked]) hrest
      refine ⟨hend, trivial, fun next hnext => ?_⟩
      obtain rfl := Option.some.inj (hstep.symm.trans hnext)
      exact hmeets

/-- A run from a call without a future settles the caller's future with the code
if `future()` came first, and breaks it otherwise. -/
theorem run_settles_or_breaks {c c' : Call} {labels : List Label} {r : ℕ} {code : CmdResultCode}
    (hc : c.Balanced) (hnone : c.future = none)
    (hrun : Transition.run (step nuraft text) c labels = some c')
    (hfuture : c'.future = some r) (hset : c'.settled = [code]) :
    (Transition.Meets (step nuraft text) FutureFirst c labels ∧
      c'.store.get r = .value (nullResult code)) ∨
    (¬ Transition.Meets (step nuraft text) FutureFirst c labels ∧ c'.store.get r = .broken) := by
  induction labels generalizing c with
  | nil =>
    cases hrun
    rw [hnone] at hfuture
    cases hfuture
  | cons l labels ih =>
    obtain ⟨mid, hstep, hrest⟩ := Option.bind_eq_some_iff.mp hrun
    have hmeets_iff : Transition.Meets (step nuraft text) FutureFirst c (l :: labels) ↔
        FutureFirst c l ∧ Transition.Meets (step nuraft text) FutureFirst mid labels := by
      simp [Transition.Meets, hstep]
    rw [hmeets_iff]
    cases l with
    | complete rsp err target =>
      obtain ⟨hmid, hmidFuture, _⟩ := hc.complete hstep
      simpa [FutureFirst] using ih hmid (hmidFuture.trans hnone) hrest
    | future =>
      by_cases hempty : c.settled = []
      · obtain ⟨hmid, hlinked⟩ := hc.future_of_open hempty hstep
        obtain ⟨⟨hbal, hend⟩, hmeets⟩ := run_of_linked hmid hlinked hrest
        obtain rfl : c'.promise = r := Option.some.inj (hend.symm.trans hfuture)
        exact Or.inl ⟨⟨hempty, hmeets⟩, hbal.fulfilled code hset⟩
      · -- The value went to the replaced promise, and the run cannot continue.
        obtain ⟨q, hout, hq, hbroken⟩ := hc.future_of_settled hempty hstep
        have hstuck : ∀ l', step nuraft text mid l' = none := by
          intro l'
          cases l' with
          | future => simp [step, hq]
          | complete rsp err target => simp [step, hout]
        refine Or.inr ⟨fun h => hempty h.1, ?_⟩
        cases labels with
        | nil =>
          cases hrest
          obtain rfl : q = r := Option.some.inj (hq.symm.trans hfuture)
          exact hbroken
        | cons l' labels =>
          rw [Transition.run_cons, hstuck l'] at hrest
          cases hrest

/-- A call never has more than one message outstanding or one code set. -/
theorem step_one {c c' : Call} {l : Label} (hone : c.outstanding + c.settled.length = 1)
    (hstep : step nuraft text c l = some c') : c'.outstanding + c'.settled.length = 1 := by
  cases l with
  | future =>
    obtain ⟨rfl, _⟩ := step_future hstep
    rw [release_eq]
    exact hone
  | complete rsp err target =>
    obtain ⟨mid, rfl, hpos, hmid⟩ := step_complete hstep
    rw [release_eq]
    rcases hmid with ⟨code, h⟩ | h
    · have hout : mid.outstanding = c.outstanding - 1 := h.outstanding
      simp only [h.settled, List.length_append, List.length_singleton]
      omega
    · have hout : mid.outstanding = c.outstanding - 1 + 1 := h.outstanding
      simp only [h.settled]
      omega

/-- Over a whole run of a call, exactly one message is outstanding or one code set. -/
theorem one_of_run {c c' : Call} {labels : List Label} (hstarted : Started nuraft text c)
    (hrun : Transition.run (step nuraft text) c labels = some c') :
    c'.outstanding + c'.settled.length = 1 :=
  Transition.run_invariant (I := fun c => c.outstanding + c.settled.length = 1)
    (fun _ _ _ h hstep => step_one h hstep) (balanced_of_started hstarted).1.one hrun

/-- For every call and every order of its steps in which both happen, the future
that the caller was given holds the value of `client_ctx::set` exactly when
`ctx->future()` ran before the promise was set. -/
theorem future_settled_iff {c c' : Call} {labels : List Label} {r : ℕ} {code : CmdResultCode}
    (hstarted : Started nuraft text c)
    (hrun : Transition.run (step nuraft text) c labels = some c')
    (hfuture : c'.future = some r) (hset : code ∈ c'.settled) :
    c'.store.get r = .value (nullResult code) ↔
      Transition.Meets (step nuraft text) FutureFirst c labels := by
  obtain ⟨hc, hnone⟩ := balanced_of_started hstarted
  have hone := one_of_run hstarted hrun
  have hlength := List.length_pos_of_mem hset
  obtain ⟨code', hcode'⟩ := List.length_eq_one_iff.mp (by omega : c'.settled.length = 1)
  obtain rfl : code = code' := by simpa [hcode'] using hset
  rcases run_settles_or_breaks hc hnone hrun hfuture hcode' with
    ⟨hmeets, hvalue⟩ | ⟨hmeets, hbroken⟩
  · exact ⟨fun _ => hmeets, fun _ => hvalue⟩
  · simp [hmeets, hbroken]

/-- A serializer whose configurations and integers are empty; appending an entry
uses neither. -/
def bareSerializer : Serializer where
  srvConfig _ _ := Buffer.ofBytes []
  putInt32 _ := []

/-- The call that `append_entry` makes for a one-byte entry, after its first
`send` to the given client. -/
def sampleCall (target : Target) : Option Call :=
  appendEntry bareSerializer canonicalText (Buffer.ofBytes [7]) ⟨1, canonicalText.toString 1⟩ target

/-- An answer that accepts the request. -/
def acceptedReply : GrpcResp where
  term := 1
  type := ⟨4⟩
  src := 1
  dst := 1
  nextIdx := 2
  accepted := true
  nextBatchSizeHintInBytes := 0
  resultCode := .ok
  ctx := none
  destAddr := ""

/-- With the future taken first, the accepting answer reaches the caller. -/
theorem future_settled_remote :
    ∃ c c' r, sampleCall .remote = some c ∧
      Transition.run (step bareSerializer canonicalText) c
        [.future, .complete (some acceptedReply) false .null] = some c' ∧
      c'.future = some r ∧ c'.store.get r = .value (nullResult .ok) := by
  obtain ⟨c, hc⟩ : ∃ c, sampleCall .remote = some c := ⟨_, rfl⟩
  have hstarted : Started bareSerializer canonicalText c := .appendEntry hc
  obtain ⟨c', r, hrun, hfuture, hset⟩ : ∃ c' r,
      Transition.run (step bareSerializer canonicalText) c
        [.future, .complete (some acceptedReply) false .null] = some c' ∧
      c'.future = some r ∧ c'.settled = [.ok] := by
    obtain rfl := Option.some.inj hc
    exact ⟨_, _, rfl, rfl, rfl⟩
  have hopen : c.settled = [] := by
    obtain rfl := Option.some.inj hc
    rfl
  refine ⟨c, c', r, hc, hrun, hfuture, ?_⟩
  refine (future_settled_iff hstarted hrun hfuture (by simp [hset])).mpr ?_
  exact ⟨hopen, fun _ _ => ⟨trivial, fun _ _ => trivial⟩⟩

/-- An error client completes inside `send`, before the caller asks for the
future: the caller is left with a broken future instead of `SERVER_NOT_FOUND`. -/
theorem future_broken_by_errorClient :
    ∃ c c' r, sampleCall .errorClient = some c ∧
      Transition.run (step bareSerializer canonicalText) c [.future] = some c' ∧
      c'.future = some r ∧ c'.settled = [.serverNotFound] ∧ c'.store.get r = .broken :=
  ⟨_, _, _, rfl, rfl, rfl, rfl, rfl⟩

end NuraftMesg.Call

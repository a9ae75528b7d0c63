import NuraftMesg.Client.Settlement
import NuraftMesg.Wire.Codec
import Mathlib.Data.List.Chain

/-!
# Forwarding a request to the leader

A call that is told about another leader sends its request again. The handler of each
message is the same function on the same context, so what has to be shown is that the
messages of a call come one after the other: a message is followed by another one only
if it was refused, and the promise is set when there is nothing more to send. The
messages share the caller's buffer, which every encoding rewinds first.
-/

namespace NuraftMesg.Call

open Transition

variable {nuraft : Serializer} {text : UuidText} {c c' : Call} {l : Label} {rsp : GrpcResp}
  {err : Bool} {target : Target}

/-! ## The handler -/

/-- The response names another leader than the server that was asked. -/
def Redirects (c : Call) (rsp : GrpcResp) : Prop :=
  rsp.accepted = false ∧ 0 ≤ rsp.dst ∧ rsp.dst ≠ c.curDest

instance (c : Call) (rsp : GrpcResp) : Decidable (c.Redirects rsp) :=
  inferInstanceAs (Decidable (_ ∧ _ ∧ _))

/-- A redirecting response makes the handler send again. -/
theorem respHandler_of_redirects (hredirects : c.Redirects rsp) :
    respHandler nuraft text c (some rsp) false target =
      send nuraft text { c with curDest := rsp.dst } rsp.destAddr target := by
  obtain ⟨haccepted, hdst, hother⟩ := hredirects
  have hnonneg : ¬ rsp.dst < 0 := Int32.not_lt.mpr hdst
  simp [respHandler, haccepted, hnonneg, Ne.symm hother]

/-- Every other response makes it set the promise. -/
theorem respHandler_of_not_redirects (hends : ¬ (err = false ∧ c.Redirects rsp)) :
    respHandler nuraft text c (some rsp) err target = c.set rsp.resultCode := by
  simp only [respHandler]
  split_ifs with herr haccepted hsame hnegative
  · rfl
  · rfl
  · rfl
  · rfl
  · refine absurd ⟨by simpa using herr, by simpa using haccepted, ?_, Ne.symm hsame⟩ hends
    exact Int32.not_lt.mp hnegative

/-- The code that a completion gives to the promise, if it does not make the call send
again; a redirection to a `grpc_error_client` fails on the spot. -/
def EndsWith (c : Call) (rsp : Option GrpcResp) (err : Bool) (target : Target)
    (code : CmdResultCode) : Prop :=
  match rsp with
  | none => code = .serverNotFound
  | some rsp =>
    if err = false ∧ c.Redirects rsp then target = .errorClient ∧ code = .serverNotFound
    else code = rsp.resultCode

/-- The ways in which a call goes on, as far as its messages are concerned. -/
inductive Proceeds (nuraft : Serializer) (text : UuidText) (c c' : Call) : Label → Prop
  /-- The caller takes the future. -/
  | future (houtstanding : c'.outstanding = c.outstanding) (hsettled : c'.settled = c.settled)
      (hsent : c'.sent = c.sent) (hdest : c'.curDest = c.curDest)
      (hpayload : c'.payload = c.payload) (haddr : c'.newSrvAddr = c.newSrvAddr) :
      Proceeds nuraft text c c' .future
  /-- The promise is set. -/
  | ends (rsp : Option GrpcResp) (err : Bool) (target : Target) (code : CmdResultCode)
      (hcode : c.EndsWith rsp err target code)
      (houtstanding : c'.outstanding + 1 = c.outstanding)
      (hsettled : c'.settled = c.settled ++ [code]) (hsent : c'.sent = c.sent)
      (hpayload : c'.payload = c.payload) (haddr : c'.newSrvAddr = c.newSrvAddr) :
      Proceeds nuraft text c c' (.complete rsp err target)
  /-- The request is sent again. -/
  | forwards (rsp : GrpcResp) (hredirects : c.Redirects rsp)
      (houtstanding : c'.outstanding = c.outstanding) (hpositive : 0 < c.outstanding)
      (hsettled : c'.settled = c.settled)
      (hsent : c'.sent =
        c.sent ++ [(rsp.destAddr, createMessage nuraft text c.payload c.newSrvAddr)])
      (hdest : c'.curDest = rsp.dst) (hpayload : c'.payload = c.payload.rewind)
      (haddr : c'.newSrvAddr = c.newSrvAddr) :
      Proceeds nuraft text c c' (.complete (some rsp) false .remote)

/-- Setting the promise changes nothing else that shows. -/
theorem set_eq {code : CmdResultCode} (hset : c.set code = some c') :
    ∃ store, c' = { c with store := store, settled := c.settled ++ [code] } := by
  obtain ⟨store, -, rfl⟩ := Option.map_eq_some_iff.mp hset
  exact ⟨store, rfl⟩

/-- A completion that sets the promise. -/
theorem Proceeds.of_set {rsp : Option GrpcResp} {code : CmdResultCode} {mid : Call}
    (hpositive : 0 < c.outstanding) (hcode : c.EndsWith rsp err target code) {dest : Int32}
    (hset : Call.set { c with outstanding := c.outstanding - 1, curDest := dest } code = some mid) :
    Proceeds nuraft text c mid.release (.complete rsp err target) := by
  obtain ⟨store, rfl⟩ := set_eq hset
  rw [release_eq]
  exact .ends rsp err target code hcode (Nat.sub_add_cancel hpositive) rfl rfl rfl rfl

/-- Every step of a call goes on in one of these ways. -/
theorem proceeds_of_step (hstep : step nuraft text c l = some c') :
    Proceeds nuraft text c c' l := by
  cases l with
  | future =>
    obtain ⟨rfl, -⟩ := step_future hstep
    rw [release_eq]
    exact .future rfl rfl rfl rfl rfl rfl
  | complete rsp err target =>
    simp only [step] at hstep
    split at hstep
    · cases hstep
    rename_i hout
    have hpositive := Nat.pos_of_ne_zero hout
    obtain ⟨mid, hmid, rfl⟩ := Option.map_eq_some_iff.mp hstep
    cases rsp with
    | none => exact .of_set hpositive rfl hmid
    | some rsp =>
      by_cases hredirects : err = false ∧ c.Redirects rsp
      · obtain ⟨rfl, hredirects⟩ := hredirects
        rw [respHandler_of_redirects (by exact hredirects)] at hmid
        cases target with
        | null => cases hmid
        | errorClient =>
          have hcode : c.EndsWith (some rsp) false .errorClient .serverNotFound := by
            simp [EndsWith, hredirects]
          exact .of_set hpositive hcode hmid
        | remote =>
          cases hmid
          rw [release_eq]
          exact .forwards rsp hredirects (Nat.sub_add_cancel hpositive) hpositive rfl rfl rfl rfl
            rfl
      · rw [respHandler_of_not_redirects (by exact hredirects)] at hmid
        have hcode : c.EndsWith (some rsp) err target rsp.resultCode := by
          simp only [EndsWith, if_neg hredirects]
        exact .of_set hpositive hcode hmid

/-! ## The promise -/

/-- The caller of a call whose promise is open waits for this promise. -/
def Linked (c : Call) : Prop :=
  c.settled = [] → c.Balanced ∧ ∀ r, c.future = some r → r = c.promise

/-- A step keeps the caller at the promise of the call for as long as it is open. -/
theorem Linked.step (hlinked : c.Linked) (hstep : step nuraft text c l = some c') : c'.Linked := by
  intro hopen
  cases proceeds_of_step hstep with
  | future houtstanding hsettled =>
    have hempty := hsettled.symm.trans hopen
    obtain ⟨hbalanced, hfuture⟩ := (hlinked hempty).1.future_of_open hempty hstep
    refine ⟨hbalanced, fun r hr => ?_⟩
    exact Option.some.inj (hr.symm.trans hfuture)
  | ends rsp err target code hcode houtstanding hsettled =>
    rw [hopen] at hsettled
    simp at hsettled
  | forwards rsp hredirects houtstanding hpositive hsettled =>
    obtain ⟨hbalanced, hwaits⟩ := hlinked (hsettled.symm.trans hopen)
    obtain ⟨hbalanced', hfuture, hpromise⟩ := hbalanced.complete hstep
    rw [hfuture, hpromise]
    exact ⟨hbalanced', hwaits⟩

/-- A call that was started is linked. -/
theorem linked_of_started (hstarted : Started nuraft text c) : c.Linked := by
  obtain ⟨hbalanced, hnone⟩ := balanced_of_started hstarted
  refine fun _ => ⟨hbalanced, fun r hr => ?_⟩
  rw [hnone] at hr
  cases hr

/-- It stays linked along every run. -/
theorem linked_of_run {c₀ : Call} {labels : List Label} (hstarted : Started nuraft text c₀)
    (hrun : run (step nuraft text) c₀ labels = some c) : c.Linked :=
  run_invariant (fun _ _ _ h hstep => h.step hstep) (linked_of_started hstarted) hrun

/-! ## The messages -/

/-- A message takes the same form on the wire wherever the caller's buffer stands and
whatever lies behind it in memory. -/
theorem requestMessage_rewind (beyond beyond' : ℕ → UInt8) (payload : Payload) (addr : PeerId) :
    requestMessage beyond (createMessage nuraft text payload.rewind addr) =
      requestMessage beyond' (createMessage nuraft text payload addr) := by
  have hentry (b : ℕ → UInt8) (buf : Buffer) :
      copyBytes (buf.rewind.data b) buf.rewind.size = buf.bytes :=
    Buffer.copy_data_of_pos_eq_zero b rfl
  have htwice (buf : Buffer) : buf.rewind.rewind = buf.rewind := rfl
  cases payload <;>
    simp [Payload.rewind, createMessage, requestMessage, fromRCRequest, fromLogEntry, hentry,
      htwice, fromBaseRequest]

/-! ## The history of a call -/

/-- A message of a call. -/
structure Hop where
  /-- `_cur_dest` when the message was sent. -/
  dest : Int32
  /-- The response that made the call send it; none for the first message. -/
  cause : Option GrpcResp

/-- The response that a completion brings, unless it is an error. -/
def Label.response : Label → Option GrpcResp
  | .complete rsp false _ => rsp
  | _ => none

/-- Record the messages of a call. -/
def observe (c : Call) (l : Label) (c' : Call) (hops : List Hop) : List Hop :=
  if c'.sent.length = c.sent.length then hops else hops ++ [⟨c'.curDest, l.response⟩]

/-- A call together with its messages. -/
def trackedStep (nuraft : Serializer) (text : UuidText) :
    Call × List Hop → Label → Option (Call × List Hop) :=
  track (step nuraft text) observe

/-- The messages of a call that has just been started. -/
def firstHops (c : Call) : List Hop := c.sent.map fun _ => ⟨c.curDest, none⟩

/-- The later message was caused by a refusal that names another leader than the
destination of the earlier one. -/
def Follows (earlier later : Hop) : Prop :=
  ∃ rsp, later.cause = some rsp ∧ rsp.accepted = false ∧ 0 ≤ rsp.dst ∧ rsp.dst ≠ earlier.dest ∧
    later.dest = rsp.dst

/-- The invariant of a call and its messages. -/
structure Forwarded (nuraft : Serializer) (text : UuidText) (s : Call × List Hop) : Prop where
  one : s.1.outstanding + s.1.settled.length = 1
  linked : s.1.Linked
  messages : ∀ m ∈ s.1.sent, ∀ beyond beyond', requestMessage beyond m.2 =
    requestMessage beyond' (createMessage nuraft text s.1.payload s.1.newSrvAddr)
  length : s.2.length = s.1.sent.length
  chain : s.2.IsChain Follows
  last : 0 < s.1.outstanding → ∀ hop ∈ s.2.getLast?, hop.dest = s.1.curDest

/-- A call that was started has made its first hop. -/
theorem forwarded_of_started (hstarted : Started nuraft text c) :
    Forwarded nuraft text (c, firstHops c) := by
  obtain ⟨hbalanced, -⟩ := balanced_of_started hstarted
  have hlinked := linked_of_started hstarted
  obtain ⟨payload, newSrvAddr, destCfg, target, hstart⟩ := hstarted.exists_start
  cases target with
  | null => cases hstart
  | errorClient =>
    have hset : (context payload destCfg.id newSrvAddr).set .serverNotFound = some c := hstart
    obtain ⟨store, rfl⟩ := set_eq hset
    refine ⟨hbalanced.one, hlinked, fun m hm => ?_, rfl, List.IsChain.nil,
      fun hpositive => ?_⟩
    · cases hm
    · cases hpositive
  | remote =>
    cases hstart
    refine ⟨hbalanced.one, hlinked, fun m hm beyond beyond' => ?_, rfl, .singleton _,
      fun _ hop hhop => ?_⟩
    · obtain rfl := List.mem_singleton.mp hm
      exact (requestMessage_rewind beyond' beyond payload newSrvAddr).symm
    · cases hhop
      rfl

/-- One step of a call. -/
theorem Forwarded.step {s s' : Call × List Hop} (hs : Forwarded nuraft text s)
    (hstep : trackedStep nuraft text s l = some s') : Forwarded nuraft text s' := by
  obtain ⟨hmove, hhops⟩ := track_eq_some.mp hstep
  have hlinked := hs.linked.step hmove
  have hone := step_one hs.one hmove
  cases proceeds_of_step hmove with
  | future houtstanding hsettled hsent hdest hpayload haddr =>
    have hkept : s'.2 = s.2 := by rw [hhops, observe, if_pos (by rw [hsent])]
    refine ⟨hone, hlinked, ?_, by rw [hkept, hsent, hs.length], by rw [hkept]; exact hs.chain, ?_⟩
    · rw [hsent, hpayload, haddr]
      exact hs.messages
    · rw [hkept, houtstanding, hdest]
      exact hs.last
  | ends rsp err target code hcode houtstanding hsettled hsent hpayload haddr =>
    have hkept : s'.2 = s.2 := by rw [hhops, observe, if_pos (by rw [hsent])]
    refine ⟨hone, hlinked, ?_, by rw [hkept, hsent, hs.length], by rw [hkept]; exact hs.chain, ?_⟩
    · rw [hsent, hpayload, haddr]
      exact hs.messages
    · intro hpositive
      have hbefore := hs.one
      omega
  | forwards rsp hredirects houtstanding hpositive hsettled hsent hdest hpayload haddr =>
    have hgrown : s'.2 = s.2 ++ [⟨rsp.dst, some rsp⟩] := by
      rw [hhops, observe, if_neg (by simp [hsent]), hdest]
      rfl
    refine ⟨hone, hlinked, fun m hm beyond beyond' => ?_, ?_, ?_, fun _ hop hhop => ?_⟩
    · rw [hpayload, haddr, requestMessage_rewind beyond' beyond]
      rw [hsent] at hm
      rcases List.mem_append.mp hm with hold | hnew
      · exact hs.messages m hold beyond beyond
      · obtain rfl := List.mem_singleton.mp hnew
        rfl
    · rw [hgrown, hsent, List.length_append, List.length_append, hs.length]
      rfl
    · rw [hgrown]
      refine hs.chain.append (.singleton _) fun earlier hearlier later hlater => ?_
      cases hlater
      refine ⟨rsp, rfl, hredirects.1, hredirects.2.1, ?_, rfl⟩
      rw [hs.last hpositive earlier hearlier]
      exact hredirects.2.2
    · rw [hgrown, List.getLast?_concat] at hhop
      cases hhop
      exact hdest.symm

/-! ## Whole calls -/

/-- A promise that is pending can be set. -/
theorem isSome_set (hpending : c.store.get c.promise = .pending) (code : CmdResultCode) :
    (c.set code).isSome := by
  simp [set, Promise.Store.setValue, hpending]

/-- An outstanding message can complete in any way, unless the handler would call `send`
on a null pointer. -/
theorem isSome_complete (hout : 0 < c.outstanding)
    (hpending : c.store.get c.promise = .pending) (rsp : Option GrpcResp) (err : Bool)
    (htarget : ∀ r, rsp = some r → err = false → c.Redirects r → target ≠ .null) :
    (step nuraft text c (.complete rsp err target)).isSome := by
  rw [step, if_neg hout.ne', Option.isSome_map]
  cases rsp with
  | none =>
    change (Call.set _ .serverNotFound).isSome
    exact isSome_set (by exact hpending) _
  | some rsp =>
    by_cases hredirects : err = false ∧ c.Redirects rsp
    · obtain ⟨rfl, hredirects⟩ := hredirects
      rw [respHandler_of_redirects (by exact hredirects)]
      cases target with
      | null => exact absurd rfl (htarget rsp rfl rfl hredirects)
      | errorClient =>
        change (Call.set _ .serverNotFound).isSome
        exact isSome_set (by exact hpending) _
      | remote => rfl
    · rw [respHandler_of_not_redirects (by exact hredirects)]
      exact isSome_set (by exact hpending) _

/-- A redirection without a client has no behaviour. -/
theorem step_null (hredirects : c.Redirects rsp) :
    step nuraft text c (.complete (some rsp) false .null) = none := by
  simp only [step]
  split
  · rfl
  · rw [respHandler_of_redirects (by exact hredirects)]
    rfl

/-- The promise of a call with an outstanding message is open, in every state. -/
theorem open_of_run {c₀ : Call} {labels : List Label} (hstarted : Started nuraft text c₀)
    (hrun : run (step nuraft text) c₀ labels = some c) (hout : 0 < c.outstanding) :
    c.settled = [] ∧ c.store.get c.promise = .pending := by
  have hone := one_of_run hstarted hrun
  have hempty : c.settled = [] := List.eq_nil_of_length_eq_zero (by omega)
  exact ⟨hempty, (linked_of_run hstarted hrun hempty).1.pending hempty⟩

/-- After the promise is set nothing more happens to a call but `ctx->future()`. -/
theorem quiet_of_settled (hone : c.outstanding + c.settled.length = 1) (hsettled : c.settled ≠ [])
    (hstep : step nuraft text c l = some c') : c'.sent = c.sent ∧ c'.settled = c.settled := by
  have hlength := List.length_pos_iff.mpr hsettled
  cases proceeds_of_step hstep with
  | future houtstanding hsettled hsent => exact ⟨hsent, hsettled⟩
  | ends rsp err target code hcode houtstanding => omega
  | forwards rsp hredirects houtstanding hpositive => omega

/-- In a chain of messages only the last one can have been accepted. -/
theorem accepted_last {hops : List Hop} {accepts : ℕ → Bool} (hchain : hops.IsChain Follows)
    (htruthful : ∀ i hop rsp, hops[i + 1]? = some hop → hop.cause = some rsp →
      rsp.accepted = accepts i)
    {i : ℕ} (hi : i < hops.length) (haccepts : accepts i = true) : i + 1 = hops.length := by
  by_contra hne
  have hnext : i + 1 < hops.length := by omega
  obtain ⟨rsp, hcause, hrefused, -⟩ := List.isChain_iff_getElem.mp hchain i hnext
  have hverdict := htruthful i _ rsp (List.getElem?_eq_getElem hnext) hcause
  rw [hrefused, haccepts] at hverdict
  cases hverdict

variable {labels : List Label} {hops : List Hop}

/-- The messages of a call come one after the other. At any time at most one of them is
outstanding, and all take the same form on the wire. A message is followed by another
one only after a response that was not accepted and that names, with a non-negative id,
another server than the one recorded for that message. The promise is set at most once,
the handler never finds it set already, and after it no message is sent. If responses
tell the truth, at most one message of the call was accepted. -/
theorem forwarded_one_at_a_time (hstarted : Started nuraft text c)
    (hrun : run (trackedStep nuraft text) (c, firstHops c) labels = some (c', hops)) :
    c'.outstanding ≤ 1 ∧
    (∀ m ∈ c'.sent, ∀ m' ∈ c'.sent, ∀ beyond beyond',
      requestMessage beyond m.2 = requestMessage beyond' m'.2) ∧
    (hops.length = c'.sent.length ∧ hops.IsChain Follows) ∧
    (c'.settled.length ≤ 1 ∧
      (0 < c'.outstanding → ∀ rsp err target, target ≠ .null →
        (step nuraft text c' (.complete rsp err target)).isSome) ∧
      (c'.settled ≠ [] → ∀ l c'', step nuraft text c' l = some c'' →
        c''.sent = c'.sent ∧ c''.settled = c'.settled)) ∧
    ∀ accepts : ℕ → Bool,
      (∀ i hop rsp, hops[i + 1]? = some hop → hop.cause = some rsp → rsp.accepted = accepts i) →
      ∀ i j, i < c'.sent.length → j < c'.sent.length → accepts i = true → accepts j = true →
        i = j := by
  have hforwarded := run_invariant (I := Forwarded nuraft text)
    (fun _ _ _ hs hstep => hs.step hstep)
    (forwarded_of_started hstarted) hrun
  have hone : c'.outstanding + c'.settled.length = 1 := hforwarded.one
  have hlength : hops.length = c'.sent.length := hforwarded.length
  refine ⟨by omega, fun m hm m' hm' beyond beyond' => ?_, ⟨hlength, hforwarded.chain⟩,
    ⟨by omega, fun hout rsp err target htarget => ?_, fun hsettled l c'' hstep =>
      quiet_of_settled hone hsettled hstep⟩, fun accepts htruthful i j hi hj hacci haccj => ?_⟩
  · exact (hforwarded.messages m hm beyond beyond).trans
      (hforwarded.messages m' hm' beyond' beyond).symm
  · have hempty : c'.settled = [] := List.eq_nil_of_length_eq_zero (by omega)
    exact isSome_complete hout ((hforwarded.linked hempty).1.pending hempty) rsp err
      fun _ _ _ _ => htarget
  · have hlasti := accepted_last hforwarded.chain htruthful (by rwa [hlength]) hacci
    have hlastj := accepted_last hforwarded.chain htruthful (by rwa [hlength]) haccj
    omega

/-- A refusal that names server 2 as the leader. -/
def redirectReply : GrpcResp :=
  { acceptedReply with accepted := false, dst := 2, resultCode := .notLeader
                       destAddr := canonicalText.toString 2 }

/-- A call that is redirected once: both messages look the same on the wire. -/
theorem forwarded_by_redirectReply :
    ∃ c c' hops, sampleCall .remote = some c ∧
      run (trackedStep bareSerializer canonicalText) (c, firstHops c)
        [.future, .complete (some redirectReply) false .remote] = some (c', hops) ∧
      c'.sent.length = 2 ∧
      ∀ m ∈ c'.sent, ∀ m' ∈ c'.sent, ∀ beyond beyond',
        requestMessage beyond m.2 = requestMessage beyond' m'.2 := by
  obtain ⟨c, hc⟩ : ∃ c, sampleCall .remote = some c := ⟨_, rfl⟩
  have hstarted : Started bareSerializer canonicalText c := .appendEntry hc
  obtain ⟨c', hops, hrun, hlength⟩ : ∃ c' hops,
      run (trackedStep bareSerializer canonicalText) (c, firstHops c)
        [.future, .complete (some redirectReply) false .remote] = some (c', hops) ∧
      c'.sent.length = 2 := by
    obtain rfl := Option.some.inj hc
    exact ⟨_, _, rfl, rfl⟩
  exact ⟨c, c', hops, hc, hrun, hlength, (forwarded_one_at_a_time hstarted hrun).2.1⟩

end NuraftMesg.Call

import NuraftMesg.Client.Forwarding
import NuraftMesg.Service.Step

/-!
# What a response makes of a call

A server that refuses a request may name the leader, and three places decide whether
the leader's endpoint gets to the caller: the server adds it if its configuration has
an entry, the decoder keeps it for `NOT_LEADER` only, and the handler needs it whenever
a refusal names another server. The handler also takes the outcome of the call from the
result code alone, whatever the response says about acceptance.
-/

namespace NuraftMesg.Call

open Transition

variable {nuraft : Serializer} {text : UuidText} {c c' : Call} {l : Label} {rsp : GrpcResp}
  {labels : List Label}

/-! ## Where a redirection goes -/

/-- What making a client for a peer comes to. -/
inductive Creation where
  /-- A `std::runtime_error`. -/
  | throws
  /-- The creation failed, and a `grpc_error_client` stands in. -/
  | errorClient
  | client
  deriving DecidableEq

/-- `create_or_reinit_client(std::string)`. -/
def createOrReinitClient (text : UuidText) (create : PeerId → Creation) (client : String) :
    Target :=
  match (text.stringGenerator client).map create with
  | none => .null
  | some .throws => .null
  | some .errorClient => .errorClient
  | some .client => .remote

/-- There is a client exactly if the endpoint is a UUID and the creation does not throw. -/
theorem createOrReinitClient_ne_null {create : PeerId → Creation} {client : String} :
    createOrReinitClient text create client ≠ .null ↔
      ∃ peer, text.stringGenerator client = some peer ∧ create peer ≠ .throws := by
  unfold createOrReinitClient
  cases text.stringGenerator client with
  | none => simp
  | some peer => cases h : create peer <;> simp [h]

/-- The response that reaches the handler, from a server with the given endpoints in its
configuration whose NuRaft answers `resp`. -/
def received (beyond : ℕ → UInt8) (config : Int32 → Option String) (resp : RespMsg) :
    Option GrpcResp :=
  toResponse (stepReply beyond resp (config resp.dst))

/-- What the way over the wire leaves of an answer. -/
theorem received_eq_some {beyond : ℕ → UInt8} {config : Int32 → Option String} {resp : RespMsg}
    (hrsp : received beyond config resp = some rsp) :
    rsp.accepted = resp.accepted ∧ rsp.dst = resp.dst ∧ rsp.resultCode = resp.resultCode ∧
      (resp.accepted = false → rsp.destAddr =
        if resp.resultCode = .notLeader then (config resp.dst).getD "" else "") := by
  have hcode : ({ val := 0 - (0 - resp.resultCode.val) } : CmdResultCode) = resp.resultCode := by
    simp
  unfold received stepReply at hrsp
  cases haccepted : resp.accepted with
  | true =>
    rw [if_pos haccepted] at hrsp
    cases hrsp
    exact ⟨haccepted, rfl, hcode, fun h => by cases h⟩
  | false =>
    rw [if_neg (by simp [haccepted])] at hrsp
    cases hconfig : config resp.dst with
    | none =>
      rw [hconfig] at hrsp
      cases hrsp
      refine ⟨haccepted, rfl, hcode, fun _ => ?_⟩
      simp only [fromRCResponse, hcode]
      rfl
    | some endpoint =>
      rw [hconfig] at hrsp
      cases hrsp
      refine ⟨haccepted, rfl, hcode, fun _ => ?_⟩
      simp only [fromRCResponse, hcode]
      rfl

/-- The endpoint in a refusal can be used exactly if the server says `NOT_LEADER` and has
a usable endpoint for the server it names. -/
theorem redirected_iff {beyond : ℕ → UInt8} {config : Int32 → Option String} {resp : RespMsg}
    {create : PeerId → Creation} (hempty : text.stringGenerator "" = none)
    (hrsp : received beyond config resp = some rsp) (hrefused : rsp.accepted = false) :
    createOrReinitClient text create rsp.destAddr ≠ .null ↔
      resp.resultCode = .notLeader ∧ ∃ endpoint peer, config resp.dst = some endpoint ∧
        text.stringGenerator endpoint = some peer ∧ create peer ≠ .throws := by
  obtain ⟨haccepted, -, -, hdest⟩ := received_eq_some hrsp
  rw [createOrReinitClient_ne_null, hdest (haccepted.symm.trans hrefused)]
  by_cases hcode : resp.resultCode = .notLeader
  · cases hconfig : config resp.dst with
    | none => simp [hcode, hempty]
    | some endpoint => simp [hcode]
  · simp [hcode, hempty]

/-- For every response that a server can send to an outstanding message of a call: the
handler sets the promise or forwards the request to a client for the endpoint that the
server has for `dst`, instead of calling `send` on a null pointer, exactly if the
response does not redirect or carries `NOT_LEADER` and the server has an endpoint for
`dst` for which a client can be made. -/
theorem redirect_safe_iff {c₀ : Call} {beyond : ℕ → UInt8} {config : Int32 → Option String}
    {resp : RespMsg} {create : PeerId → Creation} (hempty : text.stringGenerator "" = none)
    (hstarted : Started nuraft text c₀) (hrun : run (step nuraft text) c₀ labels = some c)
    (hout : 0 < c.outstanding) (hrsp : received beyond config resp = some rsp) :
    (∃ c', step nuraft text c
        (.complete (some rsp) false (createOrReinitClient text create rsp.destAddr)) = some c' ∧
      ((∃ code, c'.settled = [code]) ∨
        ∃ endpoint, config resp.dst = some endpoint ∧ c'.sent =
          c.sent ++ [(endpoint, createMessage nuraft text c.payload c.newSrvAddr)])) ↔
    (c.Redirects rsp → resp.resultCode = .notLeader ∧ ∃ endpoint peer,
      config resp.dst = some endpoint ∧ text.stringGenerator endpoint = some peer ∧
        create peer ≠ .throws) := by
  obtain ⟨hopen, hpending⟩ := open_of_run hstarted hrun hout
  constructor
  · rintro ⟨c', hstep, -⟩ hredirects
    refine (redirected_iff hempty hrsp hredirects.1).mp fun hnull => ?_
    rw [hnull, step_null hredirects] at hstep
    cases hstep
  · intro hsafe
    have htarget : ∀ r, some rsp = some r → false = false → c.Redirects r →
        createOrReinitClient text create rsp.destAddr ≠ .null := by
      intro r hr _ hredirects
      obtain rfl := Option.some.inj hr
      exact (redirected_iff hempty hrsp hredirects.1).mpr (hsafe hredirects)
    obtain ⟨c', hstep⟩ := Option.isSome_iff_exists.mp
      (isSome_complete hout hpending (some rsp) false htarget)
    refine ⟨c', hstep, ?_⟩
    generalize createOrReinitClient text create rsp.destAddr = target at hstep
    cases proceeds_of_step hstep with
    | ends _ _ _ code hcode houtstanding hsettled =>
      exact Or.inl ⟨code, by rw [hsettled, hopen]; rfl⟩
    | forwards _ hredirects houtstanding hpositive hsettled hsent =>
      obtain ⟨hcode, endpoint, peer, hconfig, -⟩ := hsafe hredirects
      obtain ⟨haccepted, -, -, hdest⟩ := received_eq_some hrsp
      refine Or.inr ⟨endpoint, hconfig, ?_⟩
      rw [hsent, hdest (haccepted.symm.trans hredirects.1), if_pos hcode, hconfig]
      rfl

/-- A refusal that names server 2. -/
def refusal (code : CmdResultCode) : RespMsg :=
  { acceptedReply with accepted := false, dst := 2, resultCode := code }

/-- A redirection to a server that the refusing one knows. -/
theorem redirected_to_known_leader :
    ∃ c rsp c', sampleCall .remote = some c ∧
      received (fun _ => 0) (fun _ => some (canonicalText.toString 2)) (refusal .notLeader) =
        some rsp ∧
      step bareSerializer canonicalText c (.complete (some rsp) false
        (createOrReinitClient canonicalText (fun _ => .client) rsp.destAddr)) = some c' := by
  obtain ⟨c, hc⟩ : ∃ c, sampleCall .remote = some c := ⟨_, rfl⟩
  have hstarted : Started bareSerializer canonicalText c := .appendEntry hc
  have hout : 0 < c.outstanding := by
    obtain rfl := Option.some.inj hc
    decide
  obtain ⟨rsp, hrsp⟩ : ∃ rsp, received (fun _ => 0) (fun _ => some (canonicalText.toString 2))
      (refusal .notLeader) = some rsp := ⟨_, rfl⟩
  have hempty : canonicalText.stringGenerator "" = none := by decide
  have hsafe : c.Redirects rsp → (refusal .notLeader).resultCode = .notLeader ∧
      ∃ endpoint peer, some (canonicalText.toString 2) = some endpoint ∧
        canonicalText.stringGenerator endpoint = some peer ∧ Creation.client ≠ .throws :=
    fun _ => ⟨rfl, _, 2, rfl, canonicalText.read_print 2, by decide⟩
  obtain ⟨c', hstep, -⟩ := (redirect_safe_iff hempty hstarted (run_nil c) hout hrsp).mpr hsafe
  exact ⟨c, rsp, c', hc, hrsp, hstep⟩

/-- A server without an entry for the leader it names, and one that refuses with another
code: both make the handler call `send` on a null pointer. -/
theorem redirected_to_null :
    ∃ c missing other, sampleCall .remote = some c ∧ 0 < c.outstanding ∧
      received (fun _ => 0) (fun _ => none) (refusal .notLeader) = some missing ∧
      received (fun _ => 0) (fun _ => some (canonicalText.toString 2)) (refusal .cancelled) =
        some other ∧
      ∀ rsp ∈ [missing, other], c.Redirects rsp ∧
        createOrReinitClient canonicalText (fun _ => .client) rsp.destAddr = .null ∧
        step bareSerializer canonicalText c (.complete (some rsp) false .null) = none := by
  refine ⟨_, _, _, rfl, by decide, rfl, rfl, fun rsp hrsp => ?_⟩
  rcases List.mem_cons.mp hrsp with rfl | hrsp
  · exact ⟨by decide, by decide, rfl⟩
  · obtain rfl := List.mem_singleton.mp hrsp
    exact ⟨by decide, by decide, rfl⟩

/-! ## Success without acceptance -/

/-- A response with the code `OK` ends the call only if it was accepted. -/
def TruthfulCode (c : Call) : Label → Prop
  | .complete (some rsp) err _ =>
    rsp.resultCode = .ok → err = false ∧ (rsp.accepted = true ∨ c.Redirects rsp)
  | _ => True

/-- The promise is set to `OK` by an accepted response only. -/
theorem accepted_of_ends {rsp : Option GrpcResp} {err : Bool} {target : Target}
    (htruthful : c.TruthfulCode (.complete rsp err target))
    (hends : c.EndsWith rsp err target .ok) :
    ∃ r, rsp = some r ∧ err = false ∧ r.accepted = true := by
  cases rsp with
  | none => cases hends
  | some r =>
    simp only [EndsWith] at hends
    split at hends
    · cases hends.2
    · next hnot =>
      obtain ⟨herr, haccepted | hredirects⟩ := htruthful hends.symm
      · exact ⟨r, rfl, herr, haccepted⟩
      · exact absurd ⟨herr, hredirects⟩ hnot

/-- A started call has not been set to `OK`. -/
theorem ok_not_mem_of_started (hstarted : Started nuraft text c) : .ok ∉ c.settled := by
  obtain ⟨payload, newSrvAddr, destCfg, target, hstart⟩ := hstarted.exists_start
  cases target with
  | null => cases hstart
  | errorClient =>
    have hset : (context payload destCfg.id newSrvAddr).set .serverNotFound = some c := hstart
    obtain ⟨store, rfl⟩ := set_eq hset
    change .ok ∉ [CmdResultCode.serverNotFound]
    decide
  | remote =>
    cases hstart
    exact List.not_mem_nil

/-- A value in the caller's future is the one that the promise was set to. -/
theorem settled_of_value {c₀ : Call} {r : ℕ} {value : NullResult}
    (hstarted : Started nuraft text c₀) (hrun : run (step nuraft text) c₀ labels = some c)
    (hfuture : c.future = some r) (hvalue : c.store.get r = .value value) :
    ∃ code, c.settled = [code] ∧ value = nullResult code := by
  obtain ⟨hbalanced, hnone⟩ := balanced_of_started hstarted
  have hlinked : c.Linked := linked_of_run hstarted hrun
  have hone := one_of_run hstarted hrun
  cases hsettled : c.settled with
  | nil =>
    obtain ⟨hopen, hwaits⟩ := hlinked hsettled
    have hpending := hopen.pending hsettled
    rw [← hwaits r hfuture, hvalue] at hpending
    cases hpending
  | cons code rest =>
    obtain rfl : rest = [] := List.eq_nil_of_length_eq_zero (by
      rw [hsettled, List.length_cons] at hone
      omega)
    refine ⟨code, rfl, ?_⟩
    rcases run_settles_or_breaks hbalanced hnone hrun hfuture hsettled with
      ⟨-, hset⟩ | ⟨-, hbroken⟩
    · rw [hvalue] at hset
      injection hset
    · rw [hvalue] at hbroken
      cases hbroken

/-- If every response with the code `OK` that ends the call was accepted, then the call
succeeds only if a response that was handled for it had been accepted. -/
theorem success_only_if_accepted {r : ℕ} (hstarted : Started nuraft text c)
    (hrun : run (step nuraft text) c labels = some c')
    (htruthful : Meets (step nuraft text) TruthfulCode c labels)
    (hfuture : c'.future = some r) (hvalue : c'.store.get r = .value (.ok ())) :
    ∃ rsp target, .complete (some rsp) false target ∈ labels ∧ rsp.accepted = true := by
  obtain ⟨code, hsettled, hcode⟩ := settled_of_value hstarted hrun hfuture hvalue
  obtain rfl : code = .ok := by
    unfold nullResult at hcode
    split at hcode
    · assumption
    · cases hcode
  -- the step in which the promise is set to `OK`
  obtain ⟨front, l, back, mid, mid', rfl, hfront, hstep, hbefore, hafter⟩ :=
    exists_moment (Q := fun c => .ok ∈ c.settled) (ok_not_mem_of_started hstarted)
      (by rw [hsettled]; exact List.mem_singleton_self _) hrun
  have hl := (htruthful.of_append hfront).2.1
  cases proceeds_of_step hstep with
  | future houtstanding hsame =>
    rw [hsame] at hafter
    exact absurd hafter hbefore
  | forwards rsp hredirects houtstanding hpositive hsame =>
    rw [hsame] at hafter
    exact absurd hafter hbefore
  | ends rsp err target code hends houtstanding hset =>
    rw [hset] at hafter
    obtain rfl : CmdResultCode.ok = code :=
      List.mem_singleton.mp ((List.mem_append.mp hafter).resolve_left hbefore)
    obtain ⟨rsp, rfl, rfl, haccepted⟩ := accepted_of_ends hl hends
    exact ⟨rsp, target, by simp, haccepted⟩

/-- An accepted answer makes the call succeed. -/
theorem success_by_acceptedReply :
    ∃ c c' r, sampleCall .remote = some c ∧
      run (step bareSerializer canonicalText) c
        [.future, .complete (some acceptedReply) false .null] = some c' ∧
      c'.future = some r ∧ c'.store.get r = .value (.ok ()) ∧
      ∃ rsp target, .complete (some rsp) false target ∈
        [Label.future, .complete (some acceptedReply) false .null] ∧ rsp.accepted = true := by
  obtain ⟨c, hc⟩ : ∃ c, sampleCall .remote = some c := ⟨_, rfl⟩
  have hstarted : Started bareSerializer canonicalText c := .appendEntry hc
  obtain ⟨c', r, hrun, hfuture, hvalue⟩ : ∃ c' r,
      run (step bareSerializer canonicalText) c
        [.future, .complete (some acceptedReply) false .null] = some c' ∧
      c'.future = some r ∧ c'.store.get r = .value (.ok ()) := by
    obtain rfl := Option.some.inj hc
    exact ⟨_, _, rfl, rfl, rfl⟩
  have htruthful : Meets (step bareSerializer canonicalText) TruthfulCode c
      [.future, .complete (some acceptedReply) false .null] :=
    ⟨trivial, fun _ _ => ⟨fun _ => ⟨rfl, Or.inl rfl⟩, fun _ _ => trivial⟩⟩
  exact ⟨c, c', r, hc, hrun, hfuture, hvalue,
    success_only_if_accepted hstarted hrun htruthful hfuture hvalue⟩

/-- A refusal by the server that was asked, with the default code. -/
def ignoredReply : GrpcResp := { acceptedReply with accepted := false }

/-- The request was ignored, and the call succeeds. -/
theorem success_by_ignoredReply :
    ∃ c c' r, sampleCall .remote = some c ∧
      run (step bareSerializer canonicalText) c
        [.future, .complete (some ignoredReply) false .null] = some c' ∧
      c'.future = some r ∧ c'.store.get r = .value (.ok ()) ∧ ignoredReply.accepted = false :=
  ⟨_, _, _, rfl, rfl, rfl, rfl, rfl⟩

end NuraftMesg.Call

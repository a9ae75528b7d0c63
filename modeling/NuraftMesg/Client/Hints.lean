import NuraftMesg.Client.Forwarding
import Mathlib.Logic.Function.Iterate

/-!
# Following the hints of servers

Every server that does not accept a request names the server which it takes for the
leader. A call follows these hints; the only thing that stops it is a hint to the server
it has just asked. So a call ends if and only if the hints lead from its first
destination to a server that names itself, and two servers that name each other keep it
going for ever.
-/

namespace NuraftMesg.Call

open Transition

variable {nuraft : Serializer} {text : UuidText} {S : Type*}

/-- Servers with their hints. -/
structure Cluster (S : Type*) where
  /-- The server id. -/
  id : S → Int32
  endpoint : S → String
  /-- The server that a server takes for the leader. -/
  hint : S → S
  id_nonneg : ∀ s, 0 ≤ id s

namespace Cluster

variable {cluster : Cluster S} {s : S}

/-- Keep track of the server that the call has last asked: a message that is sent again
goes to the hint of the server that refused it. -/
def observe (cluster : Cluster S) (c : Call) (_ : Label) (c' : Call) (s : S) : S :=
  if c'.sent.length = c.sent.length then s else cluster.hint s

/-- A call together with the server that it has last asked. -/
def hintStep (nuraft : Serializer) (text : UuidText) (cluster : Cluster S) :
    Call × S → Label → Option (Call × S) :=
  track (step nuraft text) cluster.observe

/-- What the servers may do: a server that does not accept a request answers with its
hint, for which there is a client. Acceptance and errors are possible at any time. -/
def Answers (cluster : Cluster S) (x : Call × S) : Label → Prop
  | .future => True
  | .complete rsp err target => target ≠ .null ∧
    ∀ r, rsp = some r → err = false → r.accepted = false →
      r.dst = cluster.id (cluster.hint x.2) ∧ r.destAddr = cluster.endpoint (cluster.hint x.2)

/-- The hint of a server, in a refusal. -/
def refusal (cluster : Cluster S) (s : S) : GrpcResp :=
  { acceptedReply with
    accepted := false
    resultCode := .notLeader
    dst := cluster.id (cluster.hint s)
    destAddr := cluster.endpoint (cluster.hint s) }

/-! ## Calls that end -/

/-- Where a call stands after it has followed hints from `s`: at the last of its
destinations, which is recorded in the context as long as an answer is awaited. -/
structure At (cluster : Cluster S) (s : S) (x : Call × S) : Prop where
  one : x.1.outstanding + x.1.settled.length = 1
  server : ∃ n, x.1.sent.length = n + 1 ∧ x.2 = cluster.hint^[n] s
  recorded : 0 < x.1.outstanding → x.1.curDest = cluster.id x.2

theorem At.step {l : Label} {x x' : Call × S} (hx : cluster.At s x) (hanswers : cluster.Answers x l)
    (hstep : hintStep nuraft text cluster x l = some x') : cluster.At s x' := by
  obtain ⟨hmove, hserver⟩ := track_eq_some.mp hstep
  have hone := step_one hx.one hmove
  cases proceeds_of_step hmove with
  | future houtstanding hsettled hsent hdest =>
    have hkept : x'.2 = x.2 := by rw [hserver, observe, if_pos (by rw [hsent])]
    refine ⟨hone, by rw [hkept, hsent]; exact hx.server, ?_⟩
    rw [houtstanding, hdest, hkept]
    exact hx.recorded
  | ends rsp err target code hcode houtstanding hsettled hsent =>
    have hkept : x'.2 = x.2 := by rw [hserver, observe, if_pos (by rw [hsent])]
    refine ⟨hone, by rw [hkept, hsent]; exact hx.server, fun hpositive => ?_⟩
    have hbefore := hx.one
    omega
  | forwards rsp hredirects houtstanding hpositive hsettled hsent hdest =>
    have hmoved : x'.2 = cluster.hint x.2 := by
      rw [hserver, observe, if_neg (by simp [hsent])]
    obtain ⟨n, hlength, hn⟩ := hx.server
    refine ⟨hone, ⟨n + 1, by simp [hsent, hlength], ?_⟩, fun _ => ?_⟩
    · rw [hmoved, hn, Function.iterate_succ_apply']
    · rw [hdest, hmoved]
      exact (hanswers.2 rsp rfl rfl hredirects.1).1

/-- A call does not get past a server that names itself. -/
theorem sent_le_of_selfHint {k : ℕ} {l : Label} {x x' : Call × S} (hx : cluster.At s x)
    (hk : cluster.id (cluster.hint^[k + 1] s) = cluster.id (cluster.hint^[k] s))
    (hle : x.1.sent.length ≤ k + 1) (hanswers : cluster.Answers x l)
    (hstep : hintStep nuraft text cluster x l = some x') : x'.1.sent.length ≤ k + 1 := by
  obtain ⟨hmove, -⟩ := track_eq_some.mp hstep
  cases proceeds_of_step hmove with
  | future houtstanding hsettled hsent => rwa [hsent]
  | ends rsp err target code hcode houtstanding hsettled hsent => rwa [hsent]
  | forwards rsp hredirects houtstanding hpositive hsettled hsent =>
    obtain ⟨n, hlength, hn⟩ := hx.server
    have hne : n ≠ k := by
      rintro rfl
      refine hredirects.2.2 ?_
      rw [hx.recorded hpositive, (hanswers.2 rsp rfl rfl hredirects.1).1, hn,
        ← Function.iterate_succ_apply' cluster.hint]
      exact hk
    rw [hsent, List.length_append, List.length_singleton]
    omega

/-! ## Calls that do not end -/

/-- A refusal sends the call on to the hint, if this has another id. -/
theorem hintStep_refusal {c : Call} (hout : 0 < c.outstanding)
    (hdest : c.curDest = cluster.id s)
    (hother : cluster.id (cluster.hint s) ≠ cluster.id s) :
    ∃ c', hintStep nuraft text cluster (c, s) (.complete (some (cluster.refusal s)) false .remote) =
        some (c', cluster.hint s) ∧
      c'.outstanding = c.outstanding ∧ c'.curDest = cluster.id (cluster.hint s) ∧
      c'.sent.length = c.sent.length + 1 ∧ c'.settled = c.settled := by
  have hredirects : c.Redirects (cluster.refusal s) :=
    ⟨rfl, cluster.id_nonneg _, fun heq => hother (heq.trans hdest)⟩
  obtain ⟨c', hstep⟩ : ∃ c', step nuraft text c
      (.complete (some (cluster.refusal s)) false .remote) = some c' := by
    rw [step, if_neg hout.ne', respHandler_of_redirects (by exact hredirects)]
    exact ⟨_, rfl⟩
  cases proceeds_of_step hstep with
  | ends _ _ _ code hcode =>
    simp [EndsWith, hredirects] at hcode
  | forwards _ _ houtstanding hpositive hsettled hsent hcurDest =>
    refine ⟨c', track_eq_some.mpr ⟨hstep, ?_⟩, houtstanding, hcurDest, by simp [hsent], hsettled⟩
    rw [observe, if_neg (by simp [hsent])]

/-- As long as no server on the way names itself, the hints can be followed. -/
theorem exists_run_of_hints (n : ℕ) {c : Call} (hout : 0 < c.outstanding)
    (hdest : c.curDest = cluster.id s)
    (hother : ∀ i < n, cluster.id (cluster.hint^[i + 1] s) ≠ cluster.id (cluster.hint^[i] s)) :
    ∃ labels c' s', Meets (hintStep nuraft text cluster) cluster.Answers (c, s) labels ∧
      run (hintStep nuraft text cluster) (c, s) labels = some (c', s') ∧
      c'.sent.length = c.sent.length + n ∧ c'.settled = c.settled := by
  induction n generalizing c s with
  | zero => exact ⟨[], c, s, trivial, rfl, rfl, rfl⟩
  | succ n ih =>
    obtain ⟨mid, hstep, hmidOut, hmidDest, hmidSent, hmidSettled⟩ :=
      hintStep_refusal hout hdest (hother 0 (Nat.succ_pos n))
    obtain ⟨labels, c', s', hmeets, hrun, hlength, hsettled⟩ :=
      ih (hmidOut ▸ hout) hmidDest fun i hi => hother (i + 1) (Nat.succ_lt_succ hi)
    refine ⟨.complete (some (cluster.refusal s)) false .remote :: labels, c', s',
      .cons hstep ?_ hmeets, ?_, by omega, hsettled.trans hmidSettled⟩
    · refine ⟨by decide, fun r hr _ _ => ?_⟩
      obtain rfl := Option.some.inj hr
      exact ⟨rfl, rfl⟩
    · rw [run_cons, hstep]
      exact hrun

/-! ## When a call ends -/

/-- A call that has sent its first message awaits an answer. -/
theorem outstanding_of_started {c : Call} (hstarted : Started nuraft text c)
    (hsent : c.sent.length = 1) : c.outstanding = 1 := by
  obtain ⟨payload, newSrvAddr, destCfg, target, hstart⟩ := hstarted.exists_start
  cases target with
  | null => cases hstart
  | errorClient =>
    have hset : (context payload destCfg.id newSrvAddr).set .serverNotFound = some c := hstart
    obtain ⟨store, rfl⟩ := set_eq hset
    cases hsent
  | remote =>
    cases hstart
    rfl

/-- A call whose first message went to `s` ends after finitely many messages, with its
promise set when nothing more can happen, exactly if the hints lead from `s` to a server
that names itself. -/
theorem hints_end_iff {c : Call} (hstarted : Started nuraft text c)
    (hfirst : c.sent.map Prod.fst = [cluster.endpoint s]) (hdest : c.curDest = cluster.id s) :
    (∃ bound, ∀ labels c' s',
      Meets (hintStep nuraft text cluster) cluster.Answers (c, s) labels →
      run (hintStep nuraft text cluster) (c, s) labels = some (c', s') →
      c'.sent.length ≤ bound ∧
        ((∀ rsp err target, target ≠ .null →
          step nuraft text c' (.complete rsp err target) = none) → c'.settled ≠ [])) ↔
    ∃ k, cluster.id (cluster.hint^[k + 1] s) = cluster.id (cluster.hint^[k] s) := by
  have hsent : c.sent.length = 1 := by simpa using congrArg List.length hfirst
  have hout := outstanding_of_started hstarted hsent
  constructor
  · rintro ⟨bound, hbound⟩
    by_contra hnone
    have hother : ∀ i < bound, cluster.id (cluster.hint^[i + 1] s) ≠
        cluster.id (cluster.hint^[i] s) := fun i _ heq => hnone ⟨i, heq⟩
    obtain ⟨labels, c', s', hmeets, hrun, hlength, -⟩ :=
      exists_run_of_hints bound (by omega) hdest hother
    have hle := (hbound labels c' s' hmeets hrun).1
    omega
  · rintro ⟨k, hk⟩
    refine ⟨k + 1, fun labels c' s' hmeets hrun => ?_⟩
    have hat : cluster.At s (c, s) :=
      ⟨(balanced_of_started hstarted).1.one, ⟨0, hsent, rfl⟩, fun _ => hdest⟩
    obtain ⟨hend, hle⟩ := run_invariant_of_meets
      (I := fun x => cluster.At s x ∧ x.1.sent.length ≤ k + 1)
      (fun _ _ _ hx hanswers hstep =>
        ⟨hx.1.step hanswers hstep, sent_le_of_selfHint hx.1 hk hx.2 hanswers hstep⟩)
      ⟨hat, by rw [hsent]; omega⟩ hmeets hrun
    refine ⟨hle, fun hstuck hopen => ?_⟩
    have hone : c'.outstanding + c'.settled.length = 1 := hend.one
    have hpositive : 0 < c'.outstanding := by
      rw [hopen, List.length_nil] at hone
      omega
    obtain ⟨-, hpending⟩ := open_of_run hstarted (run_of_track hrun) hpositive
    have hgoes : (step nuraft text c' (.complete none true .remote)).isSome :=
      isSome_complete hpositive hpending none true fun _ hr => by cases hr
    rw [hstuck none true .remote (by decide)] at hgoes
    cases hgoes

/-- Two servers with the given hints. -/
def twoServers (hint : Bool → Bool) : Cluster Bool where
  id s := if s then 2 else 1
  endpoint s := canonicalText.toString (if s then 2 else 1)
  hint := hint
  id_nonneg s := by cases s <;> decide

/-- Both servers name the second one, so a call to the first one ends. -/
theorem ended_at_common_leader :
    ∃ c, sampleCall .remote = some c ∧ ∃ bound, ∀ labels c' s',
      Meets (hintStep bareSerializer canonicalText (twoServers fun _ => true))
        (twoServers fun _ => true).Answers (c, false) labels →
      run (hintStep bareSerializer canonicalText (twoServers fun _ => true)) (c, false) labels =
        some (c', s') → c'.sent.length ≤ bound := by
  obtain ⟨c, hc⟩ : ∃ c, sampleCall .remote = some c := ⟨_, rfl⟩
  have hstarted : Started bareSerializer canonicalText c := .appendEntry hc
  obtain ⟨hfirst, hdest⟩ :
      c.sent.map Prod.fst = [(twoServers fun _ => true).endpoint false] ∧
        c.curDest = (twoServers fun _ => true).id false := by
    obtain rfl := Option.some.inj hc
    exact ⟨rfl, rfl⟩
  obtain ⟨bound, hbound⟩ := (hints_end_iff hstarted hfirst hdest).mpr ⟨1, rfl⟩
  exact ⟨c, hc, bound, fun labels c' s' hmeets hrun => (hbound labels c' s' hmeets hrun).1⟩

/-- Two servers that name each other: for every number there is a run with more messages
whose promise is still open. -/
theorem endless_between_two_servers :
    ∃ c, sampleCall .remote = some c ∧ ∀ bound, ∃ labels c' s',
      Meets (hintStep bareSerializer canonicalText (twoServers not)) (twoServers not).Answers
        (c, false) labels ∧
      run (hintStep bareSerializer canonicalText (twoServers not)) (c, false) labels =
        some (c', s') ∧
      bound < c'.sent.length ∧ c'.settled = [] := by
  obtain ⟨c, hc⟩ : ∃ c, sampleCall .remote = some c := ⟨_, rfl⟩
  obtain ⟨hsent, hout, hdest, hopen⟩ : c.sent.length = 1 ∧ 0 < c.outstanding ∧
      c.curDest = (twoServers not).id false ∧ c.settled = [] := by
    obtain rfl := Option.some.inj hc
    exact ⟨rfl, by decide, rfl, rfl⟩
  have hother : ∀ i, (twoServers not).id ((twoServers not).hint^[i + 1] false) ≠
      (twoServers not).id ((twoServers not).hint^[i] false) := by
    intro i
    rw [Function.iterate_succ_apply']
    cases (twoServers not).hint^[i] false <;> decide
  refine ⟨c, hc, fun bound => ?_⟩
  obtain ⟨labels, c', s', hmeets, hrun, hlength, hsettled⟩ :=
    exists_run_of_hints bound hout hdest fun i _ => hother i
  exact ⟨labels, c', s', hmeets, hrun, by omega, hsettled.trans hopen⟩

end Cluster

end NuraftMesg.Call

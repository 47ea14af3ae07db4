/-
Every reply is sent.

The loop closes a connection for a reason of its own when it cannot encode a
reply, cannot take statistics or finds its clock broken. With a clock that
neither fails nor runs backwards none of this happens: all that is queued fits
a frame (`Handles.orderly`, `StoreOp.Acts.assigned`), so no connection is ever
closed for such a reason (`Coordinator.Reachable.orderly`).
-/
import Faultline.Proofs.ReplyChecks

namespace Faultline

open Lib Coordinator

variable {s s' : Coordinator} {i j : Fin maxClients} {c : Client}
  {settings : LoopSettings} {nowMs timeoutMs : Int64} {message : Message}
  {reaction : Reaction} {reason : CloseReason} {store store' : CoordinatorStore}

-- ====================================================== the clock

/-- A clock that neither fails nor runs backwards. -/
structure Steady (clock : Nat → Int64) : Prop where
  nonneg : ∀ k, 0 ≤ clock k
  mono : ∀ j k, j ≤ k → clock j ≤ clock k

theorem Steady.read_le (h : Steady s.clock) {k : Nat} (hk : s.ticks ≤ k)
    {t : Int64} (ht : s.HasRead t) : t ≤ s.clock k := by
  obtain ⟨n, hn, rfl⟩ := ht
  exact h.mono n k (Nat.le_trans (Nat.le_of_lt hn) hk)

theorem Coordinator.Acted.clock (h : s.Acted s') : s'.clock = s.clock := by
  induction h with
  | refl => rfl
  | tail _ act ih => exact act.ticks.1.trans ih

/-- Every reachable state can be viewed at a time that is not before what the
clock has read. -/
theorem Coordinator.Reachable.viewed (h : s.Reachable settings)
    (healthy : s.store.failure = .none)
    (hnow : ∀ t, s.HasRead t → t ≤ nowMs) :
    s.store.Viewed settings.session nowMs := by
  have hview := h.viewable
  exact ⟨h.live.opened, healthy, h.live.rep healthy,
    ⟨hview.ready.1, hnow _ hview.ready.2⟩, hview.totals,
    fun slot hkept => ⟨(hview.dated slot hkept).1,
      hnow _ (hview.dated slot hkept).2⟩⟩

-- ======================================================== replies

/-- A message that holds no more than one id. -/
theorem Message.fits_plain {type : MessageType}
    (htype : message.type = some type)
    (hfields : message.validateFields = .ok ())
    (hidentity : message.identity = none) (hdata : message.dataSize = 0) :
    message.Fits := by
  refine Message.fits_of_valid htype hfields ?_ (hdata ▸ Nat.zero_le _)
  rw [hidentity]
  rfl

/-- What an assignment hands out fits a frame. -/
theorem StoreOp.Acts.assigned {worker : UInt32}
    {assignment : JobAssignPayload}
    (h : (StoreOp.assign worker nowMs).Acts store
      (.ok, .assignment assignment) store') :
    (Message.jobAssign assignment).Fits := by
  cases h with
  | @job event job _ b' wal rep step time emits =>
      obtain ⟨rfl, -, -, houtput⟩ := emits
      cases houtput
      obtain ⟨hvalid, hstate⟩ := step.valid rep.inv
      exact jobAssign_fits hvalid hstate

/-- A submission is acknowledged with an id. -/
theorem StoreOp.Acts.submitted {payload : JobSubmitPayload} {id : UInt64}
    (h : (StoreOp.submit payload nowMs).Acts store (.ok, .jobId id) store') :
    id ≠ 0 := by
  cases h with
  | @job event job _ b' wal rep step time emits =>
      obtain ⟨-, houtput⟩ := emits
      cases houtput
      exact ((step.inv rep.inv).valid job step.mem_self).id_ne

/-- The reasons that are the coordinator's own fault. -/
def CloseReason.internal : CloseReason → Bool
  | .encodeError | .clockError | .statsSnapshotError => true
  | _ => false

/-- A reaction that can be carried out, or closes for the peer's fault. -/
def Reaction.Orderly : Reaction → Prop
  | .close reason => reason.internal = false
  | .reply message => message.Fits
  | _ => True

theorem statusReply_fits {jobs : Scheduler} (hrep : jobs.Rep) {id : UInt64}
    (hid : id ≠ 0) : (statusReply jobs id).Fits := by
  unfold statusReply
  split
  · exact @Message.fits_plain (.jobStatusNotFound id) _ rfl
      (by simp [Message.validateFields, hid]) rfl rfl
  · rename_i job hfind
    exact jobStatusResponse_fits
      (hrep.inv.valid job (schedulerFind_some hfind).1)

/-- A message is handled in an orderly way. -/
theorem Handles.orderly (h : Handles settings i nowMs s message reaction s')
    (live : s.ctx.Live) (viewed : s.store.Viewed settings.session s.now)
    (began : settings.session.Began) (sound : s.store.workers.Sound)
    (htimeout : 1 ≤ settings.timeoutMs ∧ settings.timeoutMs ≤ 2147483647)
    (hclock : 0 ≤ s.now) (hvalid : message.validateFields = .ok ()) :
    reaction.Orderly := by
  cases h with
  | ping => exact @Message.fits_plain (.pong 0) _ rfl rfl rfl rfl
  | @status id =>
      refine statusReply_fits viewed.rep fun hzero => ?_
      rw [hzero] at hvalid
      cases hvalid
  | jobs => exact jobsResponse_fits viewed.rep
  | workers clock listed =>
      rw [viewed.workersListing_eq] at listed
      cases listed
      exact workersResponse_fits viewed.rep sound htimeout
  | workersFailed clock listed =>
      rw [viewed.workersListing_eq] at listed
      cases listed
  | listingClock clock asks => exact absurd hclock (Int64.not_le.mpr clock)
  | stats taken =>
      rw [viewed.statsSnapshot_eq htimeout.1] at taken
      cases taken
      exact statsResponse_fits viewed began sound htimeout
  | statsFailed taken =>
      rw [viewed.statsSnapshot_eq htimeout.1] at taken
      cases taken
  | @registered w id ctx role run =>
      obtain ⟨hok, -⟩ := (live.acts run).2.registered
      obtain ⟨-, hid, -⟩ := workerRegister_ok hok
      exact @Message.fits_plain (.workerRegisterAck id) _ rfl
        (by simp [Message.validateFields, hid]) rfl rfl
  | @submitted payload id ctx role run =>
      have hid := (live.acts run).2.submitted
      exact @Message.fits_plain (.jobSubmitAck id) _ rfl
        (by simp [Message.validateFields, hid]) rfl rfl
  | refused asks run why =>
      cases message <;> cases asks <;> rfl
  | reported => exact True.intro
  | fatal => exact True.intro
  | heartbeat => exact True.intro
  | _ => rfl

-- ======================================================== closing

/-- The connection is open, or was closed for the peer's fault. -/
def Client.Orderly (client : Client) : Prop :=
  ∀ reason, client.history.closing = some reason → reason.internal = false

theorem Client.Orderly.same {c' : Client} (h : c.Orderly)
    (hsame : c'.history.closing = c.history.closing) : c'.Orderly := by
  intro reason hclosing
  exact h reason (hsame ▸ hclosing)

theorem Closes.orderly (h : Closes i reason s s')
    (hreason : reason.internal = false) : (s'.client i).Orderly := by
  have hclosing : (s'.client i).history.closing = some reason := by
    cases h with
    | client role => rw [client_put_self]; rfl
    | worker role detach => rw [client_put_self]; rfl
  intro other hother
  rw [hclosing] at hother
  cases hother
  exact hreason

theorem Queues.orderly (h : Queues i message s s') (hfits : message.Fits)
    (hclock : 0 ≤ s.now) (before : (s.client i).Orderly) :
    (s'.client i).Orderly := by
  cases h with
  | unencodable encode close =>
      obtain ⟨bytes, hbytes⟩ := hfits.output
      rw [hbytes] at encode
      cases encode
  | clockFailed encode clock close =>
      exact absurd hclock (Int64.not_le.mpr clock)
  | queued encode clock =>
      rw [client_put_self]
      exact before.same rfl

theorem Reacts.orderly (h : Reacts i s reaction s')
    (hreaction : reaction.Orderly) (hclock : 0 ≤ s.now)
    (before : (s.client i).Orderly) : (s'.client i).Orderly := by
  cases h with
  | none => exact before
  | close closes => exact closes.orderly hreaction
  | reply queues => exact queues.orderly hreaction hclock before
  | resetInput =>
      rw [client_put_self]
      exact before.same rfl

theorem Handles.closing (h : Handles settings i nowMs s message reaction s') :
    (s'.client i).history.closing = (s.client i).history.closing := by
  cases h <;> first | rfl | exact congrArg (·.history.closing) client_put_self

-- ========================================================= turns

/-- What is delivered was decoded, and so passed the check. -/
theorem inspectInput_deliver {role : Role} {input : List UInt8}
    (h : inspectInput role input = .deliver message) :
    message.validateFields = .ok () := by
  have hdecode : decodeInput input = .deliver message := by
    unfold inspectInput at h
    split at h
    · split at h
      · cases h
      · split at h
        · cases h
        · exact h
    · exact h
  unfold decodeInput at hdecode
  split at hdecode
  · split at hdecode
    · cases hdecode
    · split at hdecode <;> cases hdecode
  · cases hdecode
  · rename_i hok
    cases hdecode
    obtain ⟨size, hvalid, -⟩ := messageDecode_canonical hok
    obtain ⟨-, -, hfields, -⟩ := validateMessage_ok_iff.mp hvalid
    exact hfields

/-- What the turns of a run share. -/
structure Coordinator.Serving (settings : LoopSettings) (s : Coordinator) :
    Prop where
  live : s.ctx.Live
  viewed : s.store.Viewed settings.session s.now
  sound : s.store.workers.Sound
  clock : 0 ≤ s.now
  began : settings.session.Began
  timeout : 1 ≤ settings.timeoutMs ∧ settings.timeoutMs ≤ 2147483647

theorem Coordinator.Serving.put (h : s.Serving settings) (c : Client) :
    (s.put i c).Serving settings :=
  ⟨h.live, h.viewed, h.sound, h.clock, h.began, h.timeout⟩

theorem Inspects.orderly (h : Inspects settings i nowMs s reaction s')
    (serving : s.Serving settings) :
    reaction.Orderly
      ∧ (s'.client i).history.closing = (s.client i).history.closing := by
  cases h with
  | need inspect => exact ⟨True.intro, by rw [client_put_self]⟩
  | @reject reason inspect =>
      refine ⟨?_, rfl⟩
      have hframing := inspectInput_reject inspect
      cases reason <;> first | rfl | cases hframing
  | @deliver message _ _ inspect handles =>
      have hserving : (s.put i ((s.client i).deliver message)).Serving
          settings := serving.put _
      refine ⟨handles.orderly hserving.live hserving.viewed hserving.began
        hserving.sound hserving.timeout hserving.clock
        (inspectInput_deliver inspect), handles.closing.trans ?_⟩
      rw [client_put_self]
      rfl

theorem Reads.orderly {reply : RecvReply}
    (h : Reads settings i nowMs s reply reaction s')
    (serving : s.Serving settings) :
    reaction.Orderly
      ∧ (s'.client i).history.closing = (s.client i).history.closing := by
  cases h with
  | eof =>
      refine ⟨?_, rfl⟩
      show CloseReason.internal _ = false
      split <;> rfl
  | again => exact ⟨True.intro, rfl⟩
  | failed => exact ⟨rfl, rfl⟩
  | short short =>
      refine ⟨True.intro, ?_⟩
      rw [client_put_self]
      rfl
  | complete full inspects =>
      obtain ⟨hreaction, hclosing⟩ := inspects.orderly (serving.put _)
      refine ⟨hreaction, hclosing.trans ?_⟩
      rw [client_put_self]
      unfold Client.gather
      split <;> rfl

theorem Transfers.orderly {ready : Readiness}
    (h : Transfers settings i ready nowMs s reaction s')
    (serving : s.Serving settings) :
    reaction.Orderly
      ∧ (s'.client i).history.closing = (s.client i).history.closing := by
  cases h with
  | idle => exact ⟨True.intro, rfl⟩
  | reads phase reads => exact reads.orderly serving
  | sendFailed phase why =>
      refine ⟨?_, rfl⟩
      rcases why with rfl | rfl <;> rfl
  | sends phase send =>
      refine ⟨True.intro, ?_⟩
      rw [client_put_self]
      unfold Client.advance
      dsimp only
      split <;> rfl

theorem Serves.orderly {ready : Readiness}
    (h : Serves settings i ready nowMs s s') (serving : s.Serving settings)
    (hsteady : Steady s.clock) (read : s.HasRead nowMs)
    (before : ∀ j, (s.client j).Orderly) (j : Fin maxClients) :
    (s'.client j).Orderly := by
  by_cases hj : j = i
  swap
  · rw [h.other hj]
    exact before j
  subst hj
  cases h with
  | vacant fd => exact before j
  | cut fd why closes =>
      refine closes.orderly ?_
      rcases why with rfl | rfl <;> rfl
  | @served _ s₁ s₂ _ fd transfers reacts stalls =>
      obtain ⟨hreaction, hclosing⟩ := transfers.orderly serving
      have hclock : 0 ≤ s₁.now := by
        have hsame := (transfers.acted read).clock
        exact (hsame ▸ hsteady).nonneg s₁.ticks
      have hreacted := reacts.orderly hreaction hclock
        ((before j).same hclosing)
      cases stalls with
      | moving progress => exact hreacted
      | stalled stalled closes => exact closes.orderly rfl

theorem Offers.orderly {timeoutMs : Int64} (h : Offers timeoutMs i s s')
    (live : s.ctx.Live) (hsteady : Steady s.clock)
    (before : ∀ j, (s.client j).Orderly) (j : Fin maxClients) :
    (s'.client j).Orderly := by
  by_cases hj : j = i
  swap
  · rw [h.other hj]
    exact before j
  subst hj
  cases h with
  | assigned healthy clock idle run queues =>
      exact queues.orderly (live.acts run).2.assigned (hsteady.nonneg _)
        (before j)
  | _ => exact before j

/-- With a steady clock no connection is closed for a fault of the
coordinator's own. -/
theorem Coordinator.Reachable.orderly (h : s.Reachable settings)
    (htimeout : 1 ≤ settings.timeoutMs ∧ settings.timeoutMs ≤ 2147483647)
    (hsteady : Steady s.clock) (j : Fin maxClients) :
    (s.client j).Orderly := by
  induction h generalizing j with
  | start opened session =>
      rw [client_start]
      nofun
  | @step s s' before step ih =>
      have hclock := step.turn.acted.clock
      rw [hclock] at hsteady
      have hbefore := ih hsteady
      cases step.turn with
      | same => exact hbefore j
      | tick => exact hbefore j
      | environment disk => exact hbefore j
      | @serve i ready _ healthy clock possible serves =>
          refine serves.orderly ?_ hsteady hasRead_now hbefore j
          exact ⟨before.live, before.viewed healthy fun t ht =>
              hsteady.read_le (Nat.le_succ _) ht,
            (before.linked healthy).registry, hsteady.nonneg _, before.began,
            htimeout⟩
      | @accept i fd nowMs fresh vacant =>
          by_cases hj : j = i
          · rw [hj, client_put_self]
            nofun
          · rw [client_put_of_ne hj]
            exact hbefore j
      | offer offers =>
          exact offers.orderly before.live hsteady hbefore j

-- ==================================================== all states

/-- In every state the loop can reach while the store works, with a steady
clock: what an assignment hands out, the status of every job and both listings
fit a frame; at every later reading there are a listing of the workers and
statistics, and they fit one. No connection was closed because a reply could
not be encoded, statistics could not be taken or the clock was wrong. -/
theorem replies_encodable (settings : LoopSettings) (s : Coordinator)
    (h : s.Reachable settings) (healthy : s.store.failure = .none)
    (htimeout : 1 ≤ settings.timeoutMs ∧ settings.timeoutMs ≤ 2147483647)
    (hsteady : Steady s.clock) :
    (∀ worker nowMs assignment ctx,
      storeAssign worker nowMs s.ctx = .done (.ok, some assignment) ctx →
        (Message.jobAssign assignment).Fits)
    ∧ (∀ job ∈ s.store.jobs.jobs,
      (Message.jobStatusResponse (jobStatusReply job)).Fits)
    ∧ (Message.jobsResponse (jobsListing s.store.jobs)).Fits
    ∧ (∀ k, s.ticks ≤ k → ∃ listing,
      workersListing s.store (s.clock k) settings.timeoutMs = some listing
        ∧ (Message.workersResponse listing).Fits)
    ∧ (∀ k, s.ticks ≤ k → ∃ stats,
      statsSnapshot settings.session s.store (s.clock k) settings.timeoutMs
          = some stats
        ∧ (Message.statsResponse stats).Fits)
    ∧ ∀ i, (s.client i).history.closing ≠ some .encodeError
      ∧ (s.client i).history.closing ≠ some .clockError
      ∧ (s.client i).history.closing ≠ some .statsSnapshotError := by
  have hrep : s.store.jobs.Rep := h.live.rep healthy
  have hsound := (h.linked healthy).registry
  have hviewed (k : Nat) (hk : s.ticks ≤ k) :
      s.store.Viewed settings.session (s.clock k) :=
    h.viewed healthy fun t ht => hsteady.read_le hk ht
  refine ⟨fun worker nowMs assignment ctx hassign => ?_, fun job hjob => ?_,
    jobsResponse_fits hrep, fun k hk => ?_, fun k hk => ?_, fun i => ?_⟩
  · have hrun : (StoreOp.assign worker nowMs).run s.ctx
        = .done (.ok, .assignment assignment) ctx :=
      tagged_done .assignment hassign
    exact (h.live.acts hrun).2.assigned
  · exact jobStatusResponse_fits (hrep.inv.valid job hjob)
  · exact ⟨_, (hviewed k hk).workersListing_eq,
      workersResponse_fits hrep hsound htimeout⟩
  · exact ⟨_, (hviewed k hk).statsSnapshot_eq htimeout.1,
      statsResponse_fits (hviewed k hk) h.began hsound htimeout⟩
  · have horderly := h.orderly htimeout hsteady i
    refine ⟨fun hclosed => ?_, fun hclosed => ?_, fun hclosed => ?_⟩ <;>
      cases horderly _ hclosed

theorem replies_encodable_registered : ∃ listing,
    workersListing registered.store 5 1000 = some listing
      ∧ (Message.workersResponse listing).Fits
      ∧ listing.entries.map WorkerSummary.workerId = [1] := by
  have hclock : registered.clock = fun _ => 5 :=
    registered_step.turn.acted.clock
  have hsteady : Steady registered.clock := by
    rw [hclock]
    exact ⟨fun _ => by decide, fun _ _ _ => Int64.le_refl _⟩
  obtain ⟨-, -, -, hworkers, -⟩ := replies_encodable quietSettings registered
    registered_reachable (by decide +kernel) (by decide) hsteady
  obtain ⟨listing, hlisting, hfits⟩ := hworkers registered.ticks (Nat.le_refl _)
  have hids : (workersListing registered.store 5 1000).map
      (·.entries.map WorkerSummary.workerId) = some [1] := by
    decide +kernel
  rw [hclock] at hlisting
  refine ⟨listing, hlisting, hfits, ?_⟩
  rw [show workersListing registered.store 5 1000 = some listing
    from hlisting] at hids
  exact Option.some.inj hids

end Faultline

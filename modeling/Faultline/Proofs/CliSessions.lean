/-
Commands.

A command that gets as far as a connection sends one request, whole or in
part, and shows nothing but a reply it has received whole (`Cli.Talks`). Which
request that is follows from the arguments (`Cli.Asks`). Everything else ends
with a usage message, or with the help, and sends nothing.
-/
import Faultline.Proofs.CliReceiving
import Faultline.Proofs.PeerStreams

namespace Faultline

open Lib

variable {s s₁ s' : Socket} {α : Type} {message request reply : Message}
  {wire sent received : List UInt8} {env : Cli.Env} {exit : Cli.Exit}

-- ==================================================== encodings

/-- What is encoded into a smaller buffer is the same frame. -/
theorem Cli.encodeInto_ok_iff {size : Nat} :
    Cli.encodeInto size message = .ok wire
      ↔ ∃ payload, validateMessage message = .ok payload
        ∧ headerSize + payload ≤ size ∧ wire = message.frame payload := by
  unfold Cli.encodeInto
  cases hvalid : validateMessage message with
  | error e =>
      have hencode : messageEncode (List.replicate size 0) message
          = .error e := by
        rw [messageEncode, hvalid]
      simp [hencode]
  | ok payload =>
      by_cases hroom : headerSize + payload ≤ size
      · have hbuffer : headerSize + payload
            ≤ (List.replicate size (0 : UInt8)).length := by
          rwa [List.length_replicate]
        simp only [messageEncode_eq hvalid hbuffer,
          List.take_left' (Message.length_frame hvalid), Except.ok.injEq]
        constructor
        · rintro rfl
          exact ⟨payload, rfl, hroom, rfl⟩
        · rintro ⟨_, rfl, -, rfl⟩
          rfl
      · have hencode : messageEncode (List.replicate size 0) message
            = .error .bufferTooSmall := by
          rw [messageEncode, hvalid]
          dsimp only
          rw [if_pos (by rw [List.length_replicate]; omega)]
        simp only [hencode, reduceCtorEq, false_iff]
        rintro ⟨_, hpayload, hfits, -⟩
        cases hpayload
        exact hroom hfits

/-- A valid message has an encoding, its frame. -/
theorem Message.encodable_of_valid {size : Nat}
    (h : validateMessage message = .ok size) :
    message.Encodable ∧ message.encoding = message.frame size := by
  have houtput := encodeOutput_ok_iff.mpr ⟨size, h, rfl⟩
  have hencoding := Message.encoding_eq houtput
  exact ⟨houtput.trans (congrArg _ hencoding.symm), hencoding⟩

theorem Cli.encodeInto_encoding {size : Nat}
    (h : Cli.encodeInto size message = .ok wire) :
    message.Encodable ∧ wire = message.encoding := by
  obtain ⟨payload, hvalid, -, rfl⟩ := encodeInto_ok_iff.mp h
  obtain ⟨hencodable, hencoding⟩ := Message.encodable_of_valid hvalid
  exact ⟨hencodable, hencoding.symm⟩

-- =================================================== connecting

/-- A program that moves no bytes. -/
abbrev Idle (p : Prog Socket α) (s : Socket) : Prop :=
  Performs p s fun sent received _ => sent = [] ∧ received = []

theorem Idle.bind {β : Type} {p : Prog Socket α} {f : α → Prog Socket β}
    (h : Idle p s) (next : ∀ a s', Idle (f a) s') : Idle (p >>= f) s := by
  refine Performs.bind h (fun _ _ => id) ?_
  rintro a s' _ _ - ⟨rfl, rfl⟩
  exact next a s'

theorem Idle.pure (a : α) : Idle (Pure.pure a : Prog Socket α) s :=
  Performs.pure ⟨rfl, rfl⟩

theorem openSocket_idle (fd : Nat) : Idle (openSocket fd) s :=
  ⟨[], [], ⟨(List.append_nil _).symm, rfl⟩, rfl, rfl⟩

theorem closeSocket_idle (fd : Int) : Idle (closeSocket fd) s :=
  ⟨[], [], ⟨(List.append_nil _).symm, rfl⟩, rfl, rfl⟩

theorem closeFailedSocket_idle (fd : Nat) (e : NetError) :
    Idle (closeFailedSocket fd e) s :=
  (closeSocket_idle fd).bind fun _ _ => .pure _

theorem waitReady_idle (event : PollEvent) (deadline : Int64) :
    Idle (waitReady event deadline) s := by
  have hidle {s' : Socket} (h : s.Waited deadline s') : s.Moves s' [] [] :=
    ⟨by rw [h.outbound, List.append_nil], h.inbound.symm⟩
  rcases @waitReady_cases deadline event s with
    ⟨s', hrun, hwaited, -⟩ | ⟨e, s', hrun, hwaited, -⟩ | ⟨s', hrun, hwaited, -⟩
  all_goals
    unfold Idle Performs
    rw [hrun]
    exact ⟨[], [], hidle hwaited, rfl, rfl⟩

theorem finishConnect_idle (fd : Nat) (deadline : Int64)
    (replies : SocketReplies) : Idle (finishConnect fd deadline replies) s := by
  refine (waitReady_idle _ _).bind fun ready s' => ?_
  cases ready with
  | error e => exact closeFailedSocket_idle fd e
  | ok u =>
      dsimp only
      split
      · exact closeFailedSocket_idle fd _
      · exact .pure _
      · exact closeFailedSocket_idle fd _

theorem connectTo_idle (inetPton : List UInt8 → Bool) (address : Endpoint)
    (timeoutMs : Int32) (replies : SocketReplies) :
    Idle (connectTo inetPton address timeoutMs replies) s := by
  unfold connectTo
  split
  · exact .pure _
  split
  · exact .pure _
  refine Idle.bind monotonicMs_performs fun now s₁ => ?_
  split
  · exact .pure _
  split
  · exact .pure _
  refine (openSocket_idle _).bind fun _ s₂ => ?_
  split
  · exact closeFailedSocket_idle _ _
  · exact .pure _
  · exact closeFailedSocket_idle _ _
  · exact finishConnect_idle _ _ _

-- ======================================================== talk

/-- What a command shows when it has its reply. -/
def Cli.Shows (env : Env) : Message → Message → Exit → Prop
  | .ping _, .pong _, exit => exit = success (ascii "PONG\n")
  | .jobSubmit _, .jobSubmitAck jobId, exit => exit = success
      (ascii "job_id=" ++ printfUnsigned jobId.toNat ++ ascii "\n")
  | .jobStatusRequest jobId, .jobStatusResponse snapshot, exit =>
      snapshot.jobId = jobId ∧ exit = success (printStatus snapshot)
  | .jobStatusRequest jobId, .jobStatusNotFound echoed, exit =>
      echoed = jobId ∧ exit.status = 2 ∧ exit.stdout = []
  | .jobsRequest _, .jobsResponse entries, exit =>
      exit = success (printJobs entries)
  | .workersRequest _, .workersResponse list, exit =>
      exit = success (printWorkers list)
  | .statsRequest _, .statsResponse stats, exit =>
      exit = success (printStats env.rate stats)
  | _, _, _ => False

/-- A command sends its request, or the beginning of it; unless it fails, it
has sent all of it, and shows the one reply it has received. -/
structure Cli.Talks (env : Env) (request : Message)
    (sent received : List UInt8) (exit : Option Exit) : Prop where
  begins : sent <+: request.encoding
  shows : ∀ e, exit = some e → e.status ≠ 1 →
    sent = request.encoding
      ∧ ∃ reply, messageDecode received = .ok (reply, received.length)
        ∧ Shows env request reply e

/-- A command that fails before it has sent everything. -/
theorem Cli.Talks.failed {complaints : List Complaint}
    (begins : sent <+: request.encoding) :
    Talks env request sent received (some (failure complaints)) :=
  ⟨begins, fun e he hne => by
    cases he
    exact absurd rfl hne⟩

theorem Cli.Talks.stopped (begins : sent <+: request.encoding) :
    Talks env request sent received none :=
  ⟨begins, nofun⟩

/-- Sending comes first. -/
theorem Cli.Talks.after_send {fd : Int} {timeoutMs : Int32}
    {next : Except NetError Unit → Prog Socket Exit}
    (fails : ∀ e s, ∃ complaints, next (.error e) s
      = .done (failure complaints) s)
    (replies : ∀ s, Performs (next (.ok ())) s fun sent received exit =>
      sent = [] ∧ ∀ e, exit = some e → e.status ≠ 1 →
        ∃ reply, messageDecode received = .ok (reply, received.length)
          ∧ Shows env request reply e) :
    Performs (sendAll fd request.encoding timeoutMs >>= next) s
      (Talks env request) := by
  refine (sendAll_performs fd request.encoding timeoutMs).bind
    (fun _ _ h => .stopped h.2.1) ?_
  rintro result s' sent _ - ⟨rfl, hbegins, hall⟩
  cases result with
  | error e =>
      obtain ⟨complaints, hfails⟩ := fails e s'
      unfold Performs
      rw [hfails]
      refine ⟨[], [], .refl, ?_⟩
      dsimp only
      rw [List.append_nil]
      exact .failed hbegins
  | ok u =>
      obtain rfl := hall rfl
      refine (replies s').mono ?_
      rintro _ received exit ⟨rfl, hreplies⟩
      rw [List.append_nil]
      exact ⟨List.prefix_rfl, fun e he hne => ⟨rfl, hreplies e he hne⟩⟩

/-- A session talks as its body does. -/
theorem Cli.session_talks {endpoint : Endpoint} {body : Nat → Prog Socket Exit}
    (h : ∀ fd s, Performs (body fd) s (Talks env request)) :
    Performs (session env endpoint body) s (Talks env request) := by
  have hnothing (complaints : List Complaint) :
      Talks env request [] [] (some (failure complaints)) :=
    .failed List.nil_prefix
  unfold session
  split
  · exact .pure (hnothing _)
  refine Performs.bind (connectTo_idle _ _ _ _) (fun _ _ h => ?_) ?_
  · rw [h.1]
    exact .stopped List.nil_prefix
  rintro connected s₁ _ _ - ⟨rfl, rfl⟩
  cases connected with
  | error e => exact .pure (hnothing _)
  | ok fd =>
      refine (h fd s₁).bind (fun _ _ => id) ?_
      rintro exit s₂ sent received - htalks
      refine Performs.bind (closeSocket_idle fd) (fun _ _ hidle => ?_) ?_
      · obtain ⟨rfl, rfl⟩ := hidle
        simp only [List.nil_append, List.append_nil]
        exact .stopped htalks.begins
      rintro _ s₃ _ _ - ⟨rfl, rfl⟩
      refine .pure ?_
      simpa using htalks

-- ======================================================== ping

theorem validateMessage_ping : validateMessage (.ping 0) = .ok 0 := by
  decide

theorem headerEncode_ping :
    headerEncode (List.replicate headerSize 0) Cli.pingHeader
      = .ok (Message.ping 0).encoding := by
  rw [(Message.encodable_of_valid validateMessage_ping).2]
  decide

/-- A header that is accepted is a whole PONG. -/
theorem Cli.acceptPong_shows (hlength : wire.length = headerSize)
    (hne : (acceptPong wire).status ≠ 1) :
    messageDecode wire = .ok (.pong 0, wire.length)
      ∧ acceptPong wire = success (ascii "PONG\n") := by
  unfold acceptPong at hne ⊢
  cases hheader : headerDecode wire with
  | error e =>
      rw [hheader] at hne
      exact absurd rfl hne
  | ok header =>
      rw [hheader] at hne
      dsimp only at hne ⊢
      split at hne
      · exact absurd rfl hne
      rename_i haccepted
      rw [if_neg haccepted]
      simp only [Bool.or_eq_true, bne_iff_ne, ne_eq, not_or,
        Decidable.not_not] at haccepted
      obtain ⟨htype, hpayload⟩ := haccepted
      refine ⟨?_, rfl⟩
      have hrest : wire.drop headerSize = [] :=
        List.drop_of_length_le (Nat.le_of_eq hlength)
      unfold messageDecode
      rw [hheader, hlength]
      dsimp only
      rw [htype, hpayload, hrest]
      rfl

theorem Cli.pingBody_talks (fd : Nat) :
    Performs (pingBody fd) s (Talks env (.ping 0)) := by
  unfold pingBody
  rw [headerEncode_ping]
  refine Talks.after_send (fun e s => ⟨_, rfl⟩) fun s => ?_
  refine (recvExact_performs fd headerSize ioTimeout).bind
    (fun _ _ h => ⟨h.1, nofun⟩) ?_
  rintro ⟨result, wire⟩ s₁ _ part - ⟨rfl, hreceives⟩
  cases result with
  | ok =>
      obtain ⟨rfl, hlength⟩ := hreceives
      refine .pure ⟨rfl, fun e he hne => ?_⟩
      cases he
      obtain ⟨hdecode, hshows⟩ := acceptPong_shows hlength hne
      rw [List.append_nil]
      exact ⟨_, hdecode, hshows⟩
  | _ =>
      refine .pure ⟨rfl, fun e he hne => ?_⟩
      cases he
      exact absurd rfl hne

-- ====================================================== submit

theorem Cli.acceptSubmitAck_ok {jobId : UInt64}
    (hlength : wire.length
      = headerSize + MessageType.jobSubmitAck.minimum)
    (h : acceptSubmitAck wire = .ok jobId) :
    messageDecode wire = .ok (.jobSubmitAck jobId, wire.length) := by
  unfold acceptSubmitAck at h
  split at h
  · rename_i consumed hdecode
    cases h
    obtain ⟨size, hvalid, hconsumed, -⟩ := messageDecode_canonical hdecode
    obtain ⟨type, htype, -, -, -, rfl⟩ := validateMessage_ok_iff.mp hvalid
    cases htype
    rw [hdecode, hconsumed, hlength]
    rfl
  · cases h

theorem Cli.receiveSubmitAck_performs (fd : Nat) :
    Performs (receiveSubmitAck fd) s fun sent received r =>
      sent = [] ∧ ∀ jobId, r = some (.ok jobId) →
        messageDecode received
          = .ok (.jobSubmitAck jobId, received.length) := by
  unfold receiveSubmitAck
  refine monotonicMs_performs.bind (fun _ _ h => ⟨h.1, nofun⟩) ?_
  rintro start s₁ _ _ - ⟨rfl, rfl⟩
  split
  · exact .pure ⟨rfl, nofun⟩
  refine (recvExact_performs fd headerSize ioTimeout).bind
    (fun _ _ h => ⟨h.1, nofun⟩) ?_
  rintro ⟨result, wire⟩ s₂ _ part - ⟨rfl, hreceives⟩
  cases result with
  | ok =>
      obtain ⟨rfl, hheader⟩ := hreceives
      dsimp only
      split
      · refine monotonicMs_performs.bind (fun _ _ h => ⟨h.1, nofun⟩) ?_
        rintro now s₃ _ _ - ⟨rfl, rfl⟩
        split
        · exact .pure ⟨rfl, nofun⟩
        refine (recvExact_performs fd _ _).bind
          (fun _ _ h => ⟨h.1, nofun⟩) ?_
        rintro ⟨result, payload⟩ s₄ _ rest - ⟨rfl, hrest⟩
        cases result with
        | ok =>
            obtain ⟨rfl, hpayload⟩ := hrest
            refine .pure ⟨rfl, fun jobId h => ?_⟩
            simp only [List.nil_append, List.append_nil]
            refine acceptSubmitAck_ok ?_ (Option.some.inj h)
            rw [List.length_append, hheader, hpayload]
        | _ => exact .pure ⟨rfl, nofun⟩
      · exact .pure ⟨rfl, nofun⟩
  | _ => exact .pure ⟨rfl, nofun⟩

theorem Cli.submitBody_talks {payload : JobSubmitPayload} (fd : Nat) :
    Performs (submitBody (Message.jobSubmit payload).encoding fd) s
      (Talks env (.jobSubmit payload)) := by
  refine Talks.after_send (fun e s => ⟨_, rfl⟩) fun s => ?_
  refine (receiveSubmitAck_performs fd).bind (fun _ _ h => ⟨h.1, nofun⟩) ?_
  rintro result s₁ _ part - ⟨rfl, hack⟩
  cases result with
  | error complaints =>
      refine .pure ⟨rfl, fun e he hne => ?_⟩
      cases he
      exact absurd rfl hne
  | ok jobId =>
      refine .pure ⟨rfl, fun e he hne => ?_⟩
      cases he
      rw [List.append_nil]
      exact ⟨_, hack jobId rfl, rfl⟩

-- ===================================================== queries

theorem Cli.flushed_shows {stdout what : List UInt8}
    (hne : (flushed env stdout what).status ≠ 1) :
    flushed env stdout what = success stdout := by
  unfold flushed at hne ⊢
  split at hne
  · exact absurd rfl hne
  · rename_i hflush
    exact if_neg hflush

theorem Cli.acceptStatus_shows {jobId : UInt64}
    (hne : (acceptStatus env jobId reply).status ≠ 1) :
    Shows env (.jobStatusRequest jobId) reply
      (acceptStatus env jobId reply) := by
  unfold acceptStatus at hne ⊢
  cases reply with
  | jobStatusNotFound echoed =>
      dsimp only at hne ⊢
      split at hne
      · exact absurd rfl hne
      · rename_i hsame
        rw [if_neg hsame]
        exact ⟨by simpa using hsame, rfl, rfl⟩
  | jobStatusResponse snapshot =>
      dsimp only at hne ⊢
      split at hne
      · exact absurd rfl hne
      · rename_i hsame
        rw [if_neg hsame]
        exact ⟨by simpa using hsame, flushed_shows hne⟩
  | _ => exact absurd rfl hne

theorem Cli.printInspection_shows {inspection : Inspection}
    (expected : queryExpects inspection.response.code reply.messageType = true)
    (hne : (printInspection env reply).status ≠ 1) :
    Shows env inspection.request reply (printInspection env reply) := by
  cases inspection <;> cases reply <;>
    first
    | exact flushed_shows hne
    | exact absurd rfl hne
    | exact absurd expected Bool.false_ne_true

/-- A query is shown if its reply is. -/
theorem Cli.query_talks {fd : Nat} {expectedType : UInt16}
    {unsent : List Complaint} {name : List UInt8} {accept : Message → Exit}
    (shows : ∀ reply,
      queryExpects expectedType reply.messageType = true →
      (accept reply).status ≠ 1 → Shows env request reply (accept reply)) :
    Performs (do
      match ← sendAll fd request.encoding ioTimeout with
      | .error _ => return failure unsent
      | .ok () => do
          match ← Cli.receiveQuery fd expectedType with
          | .error e => return failure [e.complaint name]
          | .ok reply => return accept reply) s (Talks env request) := by
  refine Talks.after_send (fun e s => ⟨_, rfl⟩) fun s => ?_
  refine (receiveQuery_performs fd expectedType).bind
    (fun _ _ h => ⟨h.1, nofun⟩) ?_
  rintro result s₁ _ part - ⟨rfl, hresult⟩
  cases result with
  | error e =>
      refine .pure ⟨rfl, fun e he hne => ?_⟩
      cases he
      exact absurd rfl hne
  | ok reply =>
      refine .pure ⟨rfl, fun e he hne => ?_⟩
      cases he
      obtain ⟨hdecode, hexpects⟩ := (hresult _ rfl).2 reply rfl
      rw [List.append_nil]
      exact ⟨reply, hdecode, shows reply hexpects hne⟩

theorem Cli.statusBody_talks {jobId : UInt64} (fd : Nat) :
    Performs (statusBody env jobId
        (Message.jobStatusRequest jobId).encoding fd) s
      (Talks env (.jobStatusRequest jobId)) :=
  query_talks fun _ _ => acceptStatus_shows

theorem Cli.inspectionBody_talks {inspection : Inspection} (fd : Nat) :
    Performs (inspectionBody env inspection inspection.request.encoding fd) s
      (Talks env inspection.request) :=
  query_talks fun _ => printInspection_shows

-- ======================================================== main

/-- The request that arguments ask for. -/
inductive Cli.Asks (env : Env) : List (List UInt8) → Message → Prop where
  | ping {name : List UInt8} {options : List (List UInt8)}
      {endpoint : Endpoint}
      (coordinator : coordinatorOption env options = .ok (some endpoint)) :
      Asks env (name :: ascii "ping" :: options) (.ping 0)
  | submit {name task : List UInt8} {rest : List (List UInt8)}
      {options : SubmitOptions} (known : taskType task ≠ 0)
      (parsed : submitOptions env {} rest = .ok (some options)) :
      Asks env (name :: ascii "submit" :: task :: rest)
        (submitRequest task options)
  | status {name id : List UInt8} {jobId : Nat}
      {options : List (List UInt8)} {endpoint : Endpoint}
      (parsed : parseJobId id 0 = .ok (true, jobId))
      (coordinator : coordinatorOption env options = .ok (some endpoint)) :
      Asks env (name :: ascii "status" :: id :: options)
        (.jobStatusRequest (.ofNat jobId))
  | inspect {name : List UInt8} {inspection : Inspection}
      {options : List (List UInt8)} {endpoint : Endpoint}
      (coordinator : coordinatorOption env options = .ok (some endpoint)) :
      Asks env (name :: inspection.name :: options) inspection.request

/-- Where a command gets to: it ends before any connection, or it talks. -/
inductive Cli.Goes (env : Env) (argv : List (List UInt8)) :
    Prog Socket Exit → Prop where
  | fails (complaints : List Complaint) :
      Goes env argv (Pure.pure (failure complaints))
  | helps {name : List UInt8} (alone : argv = [name, ascii "--help"]) :
      Goes env argv (Pure.pure (success usageText))
  | talks {program : Prog Socket Exit} {request : Message}
      (asks : Asks env argv request) (encodable : request.Encodable)
      (talks : ∀ s, Performs program s (Talks env request)) :
      Goes env argv program

variable {argv : List (List UInt8)} {program : Prog Socket Cli.Exit}

theorem Cli.runPing_goes (h : runPing env argv = .ok program) :
    Goes env argv program := by
  unfold runPing at h
  split at h
  · rename_i name command options
    split at h
    · rename_i hhelp
      cases h
      simp only [Bool.and_eq_true, List.isEmpty_iff, beq_iff_eq] at hhelp
      obtain ⟨rfl, rfl⟩ := hhelp
      exact .helps rfl
    split at h
    · cases h
      exact .fails _
    rename_i hcommand
    obtain rfl : command = ascii "ping" := by simpa using hcommand
    split at h
    · cases h
    · cases h
      exact .fails _
    · rename_i endpoint hoptions
      cases h
      exact .talks (.ping hoptions)
        (Message.encodable_of_valid validateMessage_ping).1
        fun s => session_talks fun fd s => pingBody_talks fd
  · cases h
    exact .fails _

theorem Cli.runSubmit_goes {name : List UInt8} {rest : List (List UInt8)}
    (h : runSubmit env (name :: ascii "submit" :: rest) = .ok program) :
    Goes env (name :: ascii "submit" :: rest) program := by
  unfold runSubmit at h
  split at h
  · rename_i hargv
    cases hargv
    split at h
    · cases h
      exact .fails _
    rename_i hknown
    split at h
    · cases h
    · cases h
      exact .fails _
    rename_i options hoptions
    split at h
    · cases h
      exact .fails _
    rename_i wire hencode
    cases h
    obtain ⟨hencodable, rfl⟩ := encodeInto_encoding hencode
    exact .talks (.submit (by simpa using hknown) hoptions) hencodable
      fun s => session_talks fun fd s => submitBody_talks fd
  · cases h
    exact .fails _

theorem Cli.runStatus_goes {name : List UInt8} {rest : List (List UInt8)}
    (h : runStatus env (name :: ascii "status" :: rest) = .ok program) :
    Goes env (name :: ascii "status" :: rest) program := by
  unfold runStatus at h
  split at h
  · rename_i hargv
    cases hargv
    split at h
    · cases h
    · cases h
      exact .fails _
    rename_i jobId hid
    split at h
    · cases h
    · cases h
      exact .fails _
    rename_i endpoint hoptions
    dsimp only at h
    split at h
    · cases h
      exact .fails _
    rename_i wire hencode
    cases h
    obtain ⟨hencodable, rfl⟩ := encodeInto_encoding hencode
    exact .talks (.status hid hoptions) hencodable
      fun s => session_talks fun fd s => statusBody_talks fd
  · cases h
    exact .fails _

theorem Cli.runInspection_goes {name : List UInt8} {inspection : Inspection}
    {options : List (List UInt8)}
    (h : runInspection env inspection options = .ok program) :
    Goes env (name :: inspection.name :: options) program := by
  unfold runInspection at h
  split at h
  · cases h
  · cases h
    exact .fails _
  rename_i endpoint hoptions
  split at h
  · cases h
    exact .fails _
  rename_i wire hencode
  cases h
  obtain ⟨hencodable, rfl⟩ := encodeInto_encoding hencode
  exact .talks (.inspect hoptions) hencodable
    fun s => session_talks fun fd s => inspectionBody_talks fd

/-- Every command fails before any connection, or helps, or talks. -/
theorem Cli.main_goes (h : main env argv = .ok program) :
    Goes env argv program := by
  unfold main at h
  split at h
  · split at h
    · rename_i hcommand
      cases eq_of_beq hcommand
      exact runSubmit_goes h
    split at h
    · rename_i hcommand
      cases eq_of_beq hcommand
      exact runStatus_goes h
    split at h
    · rename_i inspection hfound
      have hname := List.find?_some hfound
      cases eq_of_beq hname
      exact runInspection_goes h
    · exact runPing_goes h
  · exact runPing_goes h

end Faultline

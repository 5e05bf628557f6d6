import DiceTable.Client.State
import DiceTable.Proofs.Session.Transition

/-!
# What a client does with one input

`Handled` lists every way in which an input can go: what must hold for it, the client that it leads
to, and the effects.  `handled_step` says that the list is complete.  A statement about a step is
proved by cases on `Handled`; the handlers and the session machine are not opened again.
-/

namespace DiceTable.Client

/-! ## The clients that an input leads to -/

/-- The client with its next attempt in flight. -/
def dialing (c : Client) (m : Moment) (ticket : Ticket) (credentials : Credentials) : Client :=
  { c with
    machine := c.machine.begin m.clock credentials
    pending := some ⟨c.machine.attempt + 1, ticket⟩
    dialer := some (c.machine.attempt + 1) }

/-- The client with its attempt connected to a table. -/
def linked (c : Client) (link : LinkId) (table : TableId) : Client :=
  { c with
    machine := c.machine.settle (.connected table)
    dialer := none
    listener := some c.machine.attempt
    link := some link }

/-- The client with its attempt failed. -/
def failed (c : Client) (reason : String) : Client :=
  { c with machine := c.machine.settle (.failed reason), dialer := none }

/-- The client after the loss of its connection. -/
def unlinked (c : Client) : Client :=
  { c with machine := c.machine.lose, link := none, listener := none }

/-- The client with its session ended on request. -/
def released (c : Client) : Client :=
  { c with
    machine := c.machine.settle .disconnected
    dialer := none
    listener := none
    link := none }

/-- The client that has taken in a frame, whose event asks for this of the feed. -/
def delivered (c : Client) (m : Moment) (frame : Frame) (action : FeedAction) : Client :=
  { c with
    lastMessage := .hold frame m.now
    feed := ((action.withoutKnown c.feed).apply c.feed).1 }

/-! ## The command that waits -/

section Resolve

variable {c : Client} {attempt : Attempt} {ticket : Ticket} {reply : Reply}

theorem resolve_of_pending (h : c.pending = some ⟨attempt, ticket⟩) :
    c.resolve attempt reply = ({ c with pending := none }, [.reply ticket reply]) := by
  simp [resolve, h]

theorem resolve_of_none (h : c.pending = none) : c.resolve attempt reply = (c, []) := by
  simp [resolve, h]

/-- When the command that waits is one for the attempt, none waits afterwards. -/
theorem resolve_of_current (h : ∀ p, c.pending = some p → p.attempt = attempt) :
    (c.resolve attempt reply).1 = { c with pending := none } := by
  cases hpending : c.pending with
  | none =>
      rw [resolve_of_none hpending, ← hpending]
  | some p =>
      obtain rfl := h p hpending
      rw [resolve_of_pending hpending]

/-- To answer the command that waits changes nothing but that it waits. -/
theorem resolve_fst (c : Client) (attempt : Attempt) (reply : Reply) :
    (c.resolve attempt reply).1 = { c with pending := (c.resolve attempt reply).1.pending } := by
  unfold resolve
  split
  · split <;> rfl
  · rfl

@[simp] theorem resolve_machine : (c.resolve attempt reply).1.machine = c.machine := by
  rw [resolve_fst]

@[simp] theorem resolve_feed : (c.resolve attempt reply).1.feed = c.feed := by
  rw [resolve_fst]

@[simp] theorem resolve_running : (c.resolve attempt reply).1.running = c.running := by
  rw [resolve_fst]

@[simp] theorem resolve_link : (c.resolve attempt reply).1.link = c.link := by
  rw [resolve_fst]

end Resolve

/-! ## All inputs -/

/-- Rolls as a client does for a submission. -/
def authored (config : Config) (m : Moment) (table : TableId) (request : RollRequest) :
    Except ClientError NewRoll := do
  let request ← request.normalized
  request.author table config.rollSource m.now m.words

/-- The effects of a frame with an event that is routed like this. -/
def deliveryEffects (c : Client) (frame : Frame) (routed : Routed) : List Effect :=
  .emit (.messageReceived frame) ::
    (if 0 < ((routed.action.withoutKnown c.feed).apply c.feed).2 then
      [feedStatus { c with feed := ((routed.action.withoutKnown c.feed).apply c.feed).1 }]
    else []) ++ (routed.notice.map notify).toList

/-- What a client does with an input: every way in which it can go. -/
inductive Handled (config : Config) (m : Moment) (c : Client) :
    Input → Client → List Effect → Prop where
  | refused {input : Input} (hstopped : c.running = false) :
      Handled config m c input c (refuse input)
  | connectRejected {ticket : Ticket} {credentials : Credentials} {error : SessionError}
      (hrunning : c.running = true)
      (herror : (c.machine.connect m.clock credentials).2 = .error error) :
      Handled config m c (.command ticket (.connect credentials)) c
        [.reply ticket (.error (.session error))]
  | connectStarted {ticket : Ticket} {credentials : Credentials} (hrunning : c.running = true)
      (hvalid : credentials.validate = .ok ()) (hinactive : c.machine.state.isActive = false) :
      Handled config m c (.command ticket (.connect credentials))
        (c.dialing m ticket credentials)
        [(c.dialing m ticket credentials).status,
          .dial (c.machine.attempt + 1) (config.wireFormat.endpoint config.socketUrl)
            credentials.apiKey]
  | disconnectIdle {ticket : Ticket} (hrunning : c.running = true)
      (hinactive : c.machine.state.isActive = false) :
      Handled config m c (.command ticket .disconnect) c [.reply ticket (.ok (.disconnected false))]
  | disconnected {ticket : Ticket} (hrunning : c.running = true)
      (hactive : c.machine.state.isActive = true) :
      Handled config m c (.command ticket .disconnect)
        (c.released.resolve c.machine.attempt (.error .cancelled)).1
        (c.releaseTransport.2 ++ [c.released.status] ++
          (c.released.resolve c.machine.attempt (.error .cancelled)).2 ++
          [.reply ticket (.ok (.disconnected true))])
  | submitted {ticket : Ticket} {request : RollRequest} {table : TableId}
      {credentials : Credentials} {roll : NewRoll} (hrunning : c.running = true)
      (hstate : c.machine.state = .connected table)
      (hcredentials : c.machine.credentials = some credentials)
      (hroll : authored config m table request = .ok roll) :
      Handled config m c (.command ticket (.submit request)) c
        [.ingest c.machine.attempt ticket credentials.apiKey roll]
  | submissionInvalid {ticket : Ticket} {request : RollRequest} {table : TableId}
      {credentials : Credentials} {error : ClientError} (hrunning : c.running = true)
      (hstate : c.machine.state = .connected table)
      (hcredentials : c.machine.credentials = some credentials)
      (herror : authored config m table request = .error error) :
      Handled config m c (.command ticket (.submit request)) c
        [notify (.error error.message), .reply ticket (.error error)]
  | submissionUnconnected {ticket : Ticket} {request : RollRequest} (hrunning : c.running = true)
      (hunconnected : c.machine.state.isConnected = false ∨ c.machine.credentials = none) :
      Handled config m c (.command ticket (.submit request)) c
        [notify (.error ClientError.notConnected.message), .reply ticket (.error .notConnected)]
  | cleared {ticket : Ticket} (hrunning : c.running = true) :
      Handled config m c (.command ticket .clear) { c with feed := c.feed.clear, lastMessage := {} }
        [feedStatus { c with feed := c.feed.clear }, .reply ticket (.ok .done)]
  | copied {ticket : Ticket} (hrunning : c.running = true) :
      Handled config m c (.command ticket .snapshot) c
        [.reply ticket (.ok (.snapshot c.takeSnapshot))]
  | shutdown {ticket : Ticket} (hrunning : c.running = true) :
      Handled config m c (.command ticket .shutdown) c.teardown.1
        (.reply ticket (.ok .done) :: c.teardown.2)
  | abandoned (hrunning : c.running = true) :
      Handled config m c .abandoned c.teardown.1 c.teardown.2
  | linkLate {attempt : Attempt} {link : LinkId} (hrunning : c.running = true)
      (hlate : c.machine.isInFlight attempt = false ∨ c.machine.credentials = none) :
      Handled config m c (.report (.connected attempt link)) c [.close link]
  | linked {link : LinkId} {credentials : Credentials} (hrunning : c.running = true)
      (hstate : c.machine.state = .connecting)
      (hcredentials : c.machine.credentials = some credentials) :
      Handled config m c (.report (.connected c.machine.attempt link))
        ((c.linked link credentials.table).resolve c.machine.attempt
          (.ok (.table credentials.table))).1
        ([.listen c.machine.attempt link,
            .send link (config.wireFormat.event (.subscribe credentials.table)),
            (c.linked link credentials.table).status, notify connectedNotice] ++
          ((c.linked link credentials.table).resolve c.machine.attempt
            (.ok (.table credentials.table))).2)
  | failureLate {attempt : Attempt} {error : ClientError} (hrunning : c.running = true)
      (hlate : c.machine.isInFlight attempt = false) :
      Handled config m c (.report (.connectFailed attempt error)) c []
  | failed {error : ClientError} (hrunning : c.running = true)
      (hstate : c.machine.state = .connecting) :
      Handled config m c (.report (.connectFailed c.machine.attempt error))
        ((c.failed error.message).resolve c.machine.attempt (.error error)).1
        ([(c.failed error.message).status,
            notify (.error ("Connection failed: " ++ error.message))] ++
          ((c.failed error.message).resolve c.machine.attempt (.error error)).2)
  | deadlineLate {attempt : Attempt} (hrunning : c.running = true)
      (hlate : c.machine.isInFlight attempt = false) :
      Handled config m c (.deadline attempt) c []
  | timedOut (hrunning : c.running = true) (hstate : c.machine.state = .connecting) :
      Handled config m c (.deadline c.machine.attempt)
        ((c.failed SessionState.timeoutReason).resolve c.machine.attempt
          (.error (.connectionTimeout config.connectTimeout))).1
        ((c.dialer.map Effect.cancelDial).toList ++
          [(c.failed SessionState.timeoutReason).status, notify timeoutNotice] ++
          ((c.failed SessionState.timeoutReason).resolve c.machine.attempt
            (.error (.connectionTimeout config.connectTimeout))).2)
  | frameLate {attempt : Attempt} {frame : Frame} (hrunning : c.running = true)
      (hlate : attempt ≠ c.machine.attempt) :
      Handled config m c (.report (.frame attempt frame)) c []
  | frameUnreadable {frame : Frame} {error : ProtocolError} (hrunning : c.running = true)
      (herror : InboundEvent.ofFrame m.now frame = .error error) :
      Handled config m c (.report (.frame c.machine.attempt frame))
        { c with lastMessage := .hold frame m.now } [.emit (.messageReceived frame)]
  | delivered {frame : Frame} {event : InboundEvent} (hrunning : c.running = true)
      (hevent : InboundEvent.ofFrame m.now frame = .ok event) :
      Handled config m c (.report (.frame c.machine.attempt frame))
        (c.delivered m frame (route m.toOccasion c.machine.state event).action)
        (c.deliveryEffects frame (route m.toOccasion c.machine.state event))
  | lossLate {attempt : Attempt} {reason : String} (hrunning : c.running = true)
      (hlate : c.machine.isLive attempt = false) :
      Handled config m c (.report (.closed attempt reason)) c []
  | lost {reason : String} {table : TableId} (hrunning : c.running = true)
      (hstate : c.machine.state = .connected table) :
      Handled config m c (.report (.closed c.machine.attempt reason)) c.unlinked [c.unlinked.status]
  | ingestFailed {attempt : Attempt} {ticket : Ticket} {roll : NewRoll} {error : IngestError}
      (hrunning : c.running = true) :
      Handled config m c (.report (.ingested attempt ticket roll (.error error))) c
        [notify (.error ("Failed to send roll: " ++ error.message)),
          .reply ticket (.error (.ingest error))]
  | ingestLate {attempt : Attempt} {ticket : Ticket} {roll : NewRoll} {receipt : IngestReceipt}
      (hrunning : c.running = true) (hlate : c.machine.isLive attempt = false) :
      Handled config m c (.report (.ingested attempt ticket roll (.ok receipt))) c
        [.reply ticket (.ok (.record (roll.toRecord receipt.rollId)))]
  | ingestKnown {attempt : Attempt} {ticket : Ticket} {roll : NewRoll} {receipt : IngestReceipt}
      (hrunning : c.running = true) (hlive : c.machine.isLive attempt = true)
      (hknown : c.feed.contains receipt.rollId = true) :
      Handled config m c (.report (.ingested attempt ticket roll (.ok receipt))) c
        [notify (.info ("Roll sent! Roll ID: " ++ receipt.rollId)),
          .reply ticket (.ok (.record (roll.toRecord receipt.rollId)))]
  | ingested {attempt : Attempt} {ticket : Ticket} {roll : NewRoll} {receipt : IngestReceipt}
      (hrunning : c.running = true) (hlive : c.machine.isLive attempt = true)
      (hnew : c.feed.contains receipt.rollId = false) :
      Handled config m c (.report (.ingested attempt ticket roll (.ok receipt)))
        { c with feed := c.feed.prepend (roll.toRecord receipt.rollId) }
        [feedStatus { c with feed := c.feed.prepend (roll.toRecord receipt.rollId) },
          notify (.info ("Roll sent! Roll ID: " ++ receipt.rollId)),
          .reply ticket (.ok (.record (roll.toRecord receipt.rollId)))]

/-! ## Effects of one kind -/

section Kinds

variable {α : Type} {f : Effect → Option α}

theorem filterMap_refuse (hreply : ∀ ticket reply, f (.reply ticket reply) = none)
    (input : Input) : (refuse input).filterMap f = [] := by
  unfold refuse
  split <;> simp [hreply]

theorem filterMap_resolve (hreply : ∀ ticket reply, f (.reply ticket reply) = none) (c : Client)
    (attempt : Attempt) (reply : Reply) : (c.resolve attempt reply).2.filterMap f = [] := by
  unfold resolve
  split
  · split <;> simp [hreply]
  · rfl

theorem filterMap_deliveryEffects (hemit : ∀ event, f (.emit event) = none) (c : Client)
    (frame : Frame) (routed : Routed) : (c.deliveryEffects frame routed).filterMap f = [] := by
  unfold deliveryEffects
  split <;> cases routed.notice <;> simp [feedStatus, notify, hemit]

/-- Of what is let go, only the connection is closed. -/
theorem filterMap_releaseTransport (hcancel : ∀ attempt, f (.cancelDial attempt) = none)
    (hstop : ∀ attempt, f (.stopListening attempt) = none) (c : Client) :
    c.releaseTransport.2.filterMap f = (c.link.bind fun link => f (.close link)).toList := by
  have hclose (link : LinkId) :
      [Effect.close link].filterMap f = (f (.close link)).toList := by
    cases hlink : f (.close link) <;> simp [hlink]
  unfold releaseTransport
  cases c.dialer <;> cases c.listener <;> cases c.link <;> simp [hcancel, hstop, hclose]

theorem filterMap_teardown (hreply : ∀ ticket reply, f (.reply ticket reply) = none)
    (hcancel : ∀ attempt, f (.cancelDial attempt) = none)
    (hstop : ∀ attempt, f (.stopListening attempt) = none) (c : Client) :
    c.teardown.2.filterMap f = (c.link.bind fun link => f (.close link)).toList := by
  have hreleased := filterMap_releaseTransport hcancel hstop
    { c with machine := c.machine.disconnect.1 }
  have hcancelled :
      (c.pending.map fun p => Effect.reply p.ticket (.error .cancelled)).toList.filterMap f =
        [] := by
    cases c.pending <;> simp [hreply]
  simp only [teardown, List.filterMap_append, hreleased]
  simp only [releaseTransport, hcancelled, List.append_nil]

end Kinds

/-! ## The list is complete -/

section Handlers

variable (config : Config) (m : Moment) {c : Client} (hrunning : c.running = true)
include hrunning

private theorem handled_connect (ticket : Ticket) (credentials : Credentials) :
    Handled config m c (.command ticket (.connect credentials))
      (c.startConnect config m ticket credentials).1
      (c.startConnect config m ticket credentials).2 := by
  unfold startConnect
  rcases c.machine.connect_cases m.clock credentials with ⟨error, h⟩ | ⟨hvalid, hinactive, h⟩
  · rw [h]
    exact .connectRejected hrunning (congrArg Prod.snd h)
  · rw [h]
    exact .connectStarted hrunning hvalid hinactive

private theorem handled_disconnect (ticket : Ticket) :
    Handled config m c (.command ticket .disconnect) (c.disconnect ticket).1
      (c.disconnect ticket).2 := by
  unfold disconnect
  cases hactive : c.machine.state.isActive with
  | false =>
      rw [Machine.disconnect_of_inactive hactive]
      exact .disconnectIdle hrunning hactive
  | true =>
      rw [Machine.disconnect_of_active hactive]
      exact .disconnected hrunning hactive

private theorem handled_submit (ticket : Ticket) (request : RollRequest) :
    Handled config m c (.command ticket (.submit request))
      (c.startSubmission config m ticket request).1
      (c.startSubmission config m ticket request).2 := by
  unfold startSubmission
  cases hstate : c.machine.state with
  | connected table =>
      cases hcredentials : c.machine.credentials with
      | none => exact .submissionUnconnected hrunning (.inr hcredentials)
      | some credentials =>
          have hauthored : (do
              let request ← request.normalized
              request.author table config.rollSource m.now m.words) =
                authored config m table request := rfl
          simp only [SessionState.table?, hauthored]
          cases hroll : authored config m table request with
          | error error => exact .submissionInvalid hrunning hstate hcredentials hroll
          | ok roll => exact .submitted hrunning hstate hcredentials hroll
  | _ => exact .submissionUnconnected hrunning (.inl (by rw [hstate]; rfl))

private theorem handled_connected (attempt : Attempt) (link : LinkId) :
    Handled config m c (.report (.connected attempt link)) (c.onConnected config attempt link).1
      (c.onConnected config attempt link).2 := by
  unfold onConnected
  rcases c.machine.transportConnected_cases attempt with
    ⟨hlate, error, h⟩ | ⟨credentials, rfl, hstate, hcredentials⟩
  · rw [h]
    exact .linkLate hrunning hlate
  · rw [Machine.transportConnected_of_connecting hstate hcredentials]
    exact .linked hrunning hstate hcredentials

private theorem handled_connectFailed (attempt : Attempt) (error : ClientError) :
    Handled config m c (.report (.connectFailed attempt error)) (c.onConnectFailed attempt error).1
      (c.onConnectFailed attempt error).2 := by
  unfold onConnectFailed
  rcases c.machine.transportFailed_cases attempt error.message with ⟨hlate, h⟩ | ⟨rfl, hstate⟩
  · rw [h]
    exact .failureLate hrunning hlate
  · rw [Machine.transportFailed_of_connecting hstate]
    exact .failed hrunning hstate

private theorem handled_deadline (attempt : Attempt) :
    Handled config m c (.deadline attempt) (c.onDeadline config attempt).1
      (c.onDeadline config attempt).2 := by
  unfold onDeadline Machine.timedOut
  rcases c.machine.transportFailed_cases attempt SessionState.timeoutReason with
    ⟨hlate, h⟩ | ⟨rfl, hstate⟩
  · rw [h]
    exact .deadlineLate hrunning hlate
  · rw [Machine.transportFailed_of_connecting hstate]
    exact .timedOut hrunning hstate

private theorem handled_frame (attempt : Attempt) (frame : Frame) :
    Handled config m c (.report (.frame attempt frame)) (c.onFrame m attempt frame).1
      (c.onFrame m attempt frame).2 := by
  unfold onFrame
  by_cases hattempt : attempt = c.machine.attempt
  · subst hattempt
    rw [if_pos rfl]
    cases hevent : InboundEvent.ofFrame m.now frame with
    | error error => exact .frameUnreadable hrunning hevent
    | ok event => exact .delivered hrunning hevent
  · rw [if_neg hattempt]
    exact .frameLate hrunning hattempt

private theorem handled_closed (attempt : Attempt) (reason : String) :
    Handled config m c (.report (.closed attempt reason)) (c.onClosed attempt).1
      (c.onClosed attempt).2 := by
  unfold onClosed
  rcases c.machine.transportDisconnected_cases attempt with ⟨hlate, error, h⟩ | ⟨table, rfl, hstate⟩
  · rw [h]
    exact .lossLate hrunning hlate
  · rw [Machine.transportDisconnected_of_connected hstate]
    exact .lost hrunning hstate

private theorem handled_ingested (attempt : Attempt) (ticket : Ticket) (roll : NewRoll)
    (result : Except IngestError IngestReceipt) :
    Handled config m c (.report (.ingested attempt ticket roll result))
      (c.onIngested attempt ticket roll result).1 (c.onIngested attempt ticket roll result).2 := by
  unfold onIngested
  cases result with
  | error error => exact .ingestFailed hrunning
  | ok receipt =>
      have hid : (roll.toRecord receipt.rollId).id = receipt.rollId := rfl
      simp only [hid]
      cases hlive : c.machine.isLive attempt with
      | false => exact .ingestLate hrunning hlive
      | true =>
          cases hknown : c.feed.contains receipt.rollId with
          | true => exact .ingestKnown hrunning hlive hknown
          | false => exact .ingested hrunning hlive hknown

end Handlers

/-- Every input is handled in one of the ways listed. -/
theorem handled_step (config : Config) (m : Moment) (c : Client) (input : Input) :
    Handled config m c input (c.step config m input).1 (c.step config m input).2 := by
  unfold step
  cases hrunning : c.running with
  | false => exact .refused hrunning
  | true =>
      cases input with
      | command ticket command =>
          cases command with
          | connect credentials => exact handled_connect config m hrunning ticket credentials
          | disconnect => exact handled_disconnect config m hrunning ticket
          | submit request => exact handled_submit config m hrunning ticket request
          | clear => exact .cleared hrunning
          | snapshot => exact .copied hrunning
          | shutdown => exact .shutdown hrunning
      | report report =>
          cases report with
          | connected attempt link => exact handled_connected config m hrunning attempt link
          | connectFailed attempt error =>
              exact handled_connectFailed config m hrunning attempt error
          | frame attempt frame => exact handled_frame config m hrunning attempt frame
          | closed attempt reason => exact handled_closed config m hrunning attempt reason
          | ingested attempt ticket roll result =>
              exact handled_ingested config m hrunning attempt ticket roll result
      | deadline attempt => exact handled_deadline config m hrunning attempt
      | abandoned => exact .abandoned hrunning

/-! ## The session -/

theorem machine_teardown (c : Client) :
    c.teardown.1.machine = c.machine ∨
      ∃ call, Machine.Move c.machine call c.teardown.1.machine := by
  have hmachine : c.teardown.1.machine = c.machine.disconnect.1 := rfl
  rw [hmachine]
  cases hactive : c.machine.state.isActive with
  | true =>
      rw [Machine.disconnect_of_active hactive]
      exact .inr ⟨_, .disconnect hactive⟩
  | false =>
      rw [Machine.disconnect_of_inactive hactive]
      exact .inl rfl

/-- The session of a client moves as a session machine does, or stays. -/
theorem Handled.machine {config : Config} {m : Moment} {c c' : Client} {input : Input}
    {effects : List Effect} (h : Handled config m c input c' effects) :
    c'.machine = c.machine ∨ ∃ call, Machine.Move c.machine call c'.machine := by
  cases h with
  | connectStarted _ hvalid hinactive => exact .inr ⟨_, .connect hvalid hinactive⟩
  | disconnected _ hactive =>
      rw [resolve_machine]
      exact .inr ⟨_, .disconnect hactive⟩
  | shutdown => exact c.machine_teardown
  | abandoned => exact c.machine_teardown
  | linked _ hstate hcredentials =>
      rw [resolve_machine]
      exact .inr ⟨_, .transportConnected hstate hcredentials⟩
  | failed _ hstate =>
      rw [resolve_machine]
      exact .inr ⟨_, .transportFailed hstate⟩
  | timedOut _ hstate =>
      rw [resolve_machine]
      exact .inr ⟨_, .timedOut hstate⟩
  | lost _ hstate => exact .inr ⟨_, .transportDisconnected hstate⟩
  | _ => exact .inl rfl

end DiceTable.Client

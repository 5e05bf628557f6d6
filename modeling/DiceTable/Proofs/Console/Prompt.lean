import DiceTable.Console.Prompt
import DiceTable.Proofs.Client.Rejection
import DiceTable.Proofs.Console.Command

/-!
# What is typed is complete

A client objects to a command that leaves something blank: to credentials without a key or a
table, and to a request without a formula or a character (`ClientError.isOmission`).  It does so
in the turn of the command and at no other time, and no command that was typed leaves anything
blank.

## Strategy

`Input.AtPrompt` lists what a client is given that is driven from a prompt: commands that were
typed, the end of the input, and what the client has started reports.  Of the failures that are
reported, those of dialling are failures of the transport, and those of the handshake are read off
the handshake (`Handshake.isOmission_eq_false_of_start`).  A step lemma goes through all ways in
which an input can be handled, and the run follows by induction over its turns.
-/

namespace DiceTable

/-- Whether the error says that something was left blank that has to be stated. -/
def ClientError.isOmission : ClientError → Bool
  | .missingField _ => true
  | .session (.missingCredentials _) => true
  | _ => false

/-! ## Connections that are not established -/

namespace Handshake

variable {format : WireFormat} {apiKey : String} {fault : Option TransportError}
  {arrivals : List Arrival} {error : ClientError}

theorem isOmission_eq_false_of_react {octets : List UInt8}
    (h : react format apiKey octets = .finish (.error error)) : error.isOmission = false := by
  unfold react at h
  cases hdecode : format.decode octets with
  | error e =>
      rw [hdecode] at h
      cases h
      rfl
  | ok incoming =>
      rw [hdecode] at h
      cases incoming with
      | refused reason => cases h; rfl
      | closed => cases h; rfl
      | ping => cases hpong : format.pong <;> simp [hpong] at h
      | _ => cases h

theorem isOmission_eq_false_of_await
    (h : (await format apiKey fault arrivals).result = some (.error error)) :
    error.isOmission = false := by
  induction arrivals with
  | nil => cases h
  | cons a rest ih =>
      cases a with
      | ended => cases h; rfl
      | failed reason => cases h; rfl
      | message octets =>
          rw [await] at h
          cases hreact : react format apiKey octets with
          | finish result =>
              rw [hreact] at h
              obtain rfl := Option.some.inj h
              exact isOmission_eq_false_of_react hreact
          | wait =>
              rw [hreact] at h
              exact ih h
          | answer text =>
              rw [hreact] at h
              cases fault with
              | some e => cases h; rfl
              | none => exact ih h

theorem isOmission_eq_false_of_start
    (h : (start format apiKey fault arrivals).result = some (.error error)) :
    error.isOmission = false := by
  unfold start at h
  split at h
  · exact isOmission_eq_false_of_await h
  · cases fault with
    | some e => cases h; rfl
    | none => cases h

end Handshake

/-! ## What a client is given -/

/-- The client is driven from a prompt: its commands are typed, or are the last one when the input
has ended, and an attempt is reported to have failed for what went wrong in dialling or in the
handshake. -/
inductive Input.AtPrompt : Input → Prop where
  | typed {line : String} {command : Console.Command} {asked : ClientCommand} (ticket : Ticket)
      (hparse : Console.Command.parse line = .ok command) (hasks : command.asks? = some asked) :
      AtPrompt (.command ticket asked)
  | ended (ticket : Ticket) : AtPrompt (.command ticket .shutdown)
  | notDialled (attempt : Attempt) (error : TransportError) :
      AtPrompt (.report (.connectFailed attempt (.transport error)))
  | notEstablished {format : WireFormat} {apiKey : String} {fault : Option TransportError}
      {arrivals : List Arrival} {error : ClientError} (attempt : Attempt)
      (hresult : (Handshake.start format apiKey fault arrivals).result = some (.error error)) :
      AtPrompt (.report (.connectFailed attempt error))
  | connected (attempt : Attempt) (link : LinkId) : AtPrompt (.report (.connected attempt link))
  | frame (attempt : Attempt) (frame : Frame) : AtPrompt (.report (.frame attempt frame))
  | closed (attempt : Attempt) (reason : String) : AtPrompt (.report (.closed attempt reason))
  | ingested (attempt : Attempt) (ticket : Ticket) (roll : NewRoll)
      (result : Except IngestError IngestReceipt) :
      AtPrompt (.report (.ingested attempt ticket roll result))
  | deadline (attempt : Attempt) : AtPrompt (.deadline attempt)
  | abandoned : AtPrompt .abandoned

namespace Input.AtPrompt

variable {ticket : Ticket} {attempt : Attempt} {error : ClientError}

theorem isTypeable {request : RollRequest} (h : AtPrompt (.command ticket (.submit request))) :
    request.IsTypeable := by
  cases h with
  | @typed line command asked _ hparse hasks =>
      cases command with
      | roll r =>
          obtain rfl := ClientCommand.submit.inj (Option.some.inj hasks)
          exact Console.exists_parse_roll_iff.mp ⟨line, hparse⟩
      | _ => cases hasks

theorem validate_eq_ok {credentials : Credentials}
    (h : AtPrompt (.command ticket (.connect credentials))) : credentials.validate = .ok () := by
  cases h with
  | @typed line command asked _ hparse hasks =>
      cases command with
      | connect apiKey table =>
          obtain rfl := ClientCommand.connect.inj (Option.some.inj hasks)
          obtain ⟨hkey, htable⟩ := Console.exists_parse_connect_iff.mp ⟨line, hparse⟩
          exact (Credentials.ofTexts_of_isWord hkey htable).2
      | _ => cases hasks

theorem isOmission_eq_false_of_connectFailed
    (h : AtPrompt (.report (.connectFailed attempt error))) : error.isOmission = false := by
  cases h with
  | notDialled => rfl
  | notEstablished _ hresult => exact Handshake.isOmission_eq_false_of_start hresult

end Input.AtPrompt

namespace Client

variable {config : Config} {m : Moment} {c c' : Client} {input : Input} {effects : List Effect}
  {ticket : Ticket} {error : ClientError}

/-- The command that waits is answered with what it is resolved with. -/
theorem eq_of_mem_resolve {c : Client} {attempt : Attempt} {given reply : Reply}
    (h : reply ∈ repliesTo ticket (c.resolve attempt given).2) : reply = given := by
  rw [repliesTo_resolve] at h
  split at h
  · exact List.mem_singleton.mp h
  · cases h

/-- Valid credentials are rejected only because the session is active. -/
theorem isOmission_eq_false_of_connect {credentials : Credentials} {fault : SessionError}
    (hvalid : credentials.validate = .ok ())
    (h : (c.machine.connect m.clock credentials).2 = .error fault) :
    (ClientError.session fault).isOmission = false := by
  unfold Machine.connect at h
  simp only [hvalid] at h
  split at h
  · cases h
    rfl
  · cases h

/-- A request that can be typed is rejected only for its formula. -/
theorem isOmission_eq_false_of_authored {table : TableId} {request : RollRequest}
    (h : request.IsTypeable) (herror : authored config m table request = .error error) :
    error.isOmission = false := by
  unfold authored at herror
  rw [h.normalized] at herror
  replace herror : request.author table config.rollSource m.now m.words = .error error := herror
  unfold RollRequest.author at herror
  split at herror
  · cases herror
    rfl
  · cases herror

/-- A client that stops answers the command that waits with its cancellation. -/
theorem isOmission_eq_false_of_teardown {c : Client}
    (h : .error error ∈ repliesTo ticket c.teardown.2) :
    error.isOmission = false := by
  rw [repliesTo_teardown] at h
  split at h
  · obtain rfl := Except.error.inj (List.mem_singleton.mp h)
    rfl
  · cases h

/-- A client that is driven from a prompt answers no command with an omission. -/
theorem Handled.isOmission_eq_false (hhandled : Handled config m c input c' effects)
    (h : input.AtPrompt) (hreply : .error error ∈ repliesTo ticket effects) :
    error.isOmission = false := by
  -- In the first three cases the error depends on the input, in the next ones it is of one kind,
  -- and in the others there is none.
  cases hhandled with
  | connectRejected _ herror =>
      obtain ⟨-, rfl⟩ : _ ∧ _ = error := by simpa using hreply
      exact isOmission_eq_false_of_connect h.validate_eq_ok herror
  | submissionInvalid _ _ _ herror =>
      obtain ⟨-, rfl⟩ : _ ∧ _ = error := by simpa [notify] using hreply
      exact isOmission_eq_false_of_authored h.isTypeable herror
  | @failed given =>
      have hresolved : .error error ∈ repliesTo ticket
          ((c.failed given.message).resolve c.machine.attempt (.error given)).2 := by
        simpa [status, notify] using hreply
      obtain rfl := Except.error.inj (eq_of_mem_resolve hresolved)
      exact h.isOmission_eq_false_of_connectFailed
  | refused =>
      rw [repliesTo_refuse] at hreply
      split at hreply
      · obtain rfl := Except.error.inj (List.mem_singleton.mp hreply)
        rfl
      · cases hreply
  | submissionUnconnected =>
      obtain ⟨-, rfl⟩ : _ ∧ _ = error := by simpa [notify] using hreply
      rfl
  | ingestFailed =>
      obtain ⟨-, rfl⟩ : _ ∧ _ = error := by simpa [notify] using hreply
      rfl
  | disconnected =>
      have hresolved : .error error ∈ repliesTo ticket
          (c.released.resolve c.machine.attempt (.error .cancelled)).2 := by
        simpa [status] using hreply
      obtain rfl := Except.error.inj (eq_of_mem_resolve hresolved)
      rfl
  | timedOut =>
      have hnobody : repliesTo ticket (c.dialer.map Effect.cancelDial).toList = [] := by
        cases c.dialer <;> rfl
      have hresolved : .error error ∈ repliesTo ticket
          ((c.failed SessionState.timeoutReason).resolve c.machine.attempt
            (.error (.connectionTimeout config.connectTimeout))).2 := by
        simpa [hnobody, status, notify] using hreply
      obtain rfl := Except.error.inj (eq_of_mem_resolve hresolved)
      rfl
  | shutdown => exact isOmission_eq_false_of_teardown (by simpa using hreply)
  | abandoned => exact isOmission_eq_false_of_teardown hreply
  | @linked link credentials =>
      have hresolved : .error error ∈ repliesTo ticket
          ((c.linked link credentials.table).resolve c.machine.attempt
            (.ok (.table credentials.table))).2 := by
        simpa [status, notify] using hreply
      cases eq_of_mem_resolve hresolved
  | _ => simp [status, feedStatus, notify] at hreply

/-- So does a run from there. -/
theorem isOmission_eq_false_of_mem_effects {turns : List Turn} (h : ∀ t ∈ turns, t.input.AtPrompt)
    (hreply : .error error ∈ repliesTo ticket (c.effects config turns)) :
    error.isOmission = false := by
  induction turns generalizing c with
  | nil => cases hreply
  | cons t turns ih =>
      rw [List.forall_mem_cons] at h
      rw [effects_cons, repliesTo_append, List.mem_append] at hreply
      rcases hreply with hnow | hlater
      · exact (handled_next config c t).isOmission_eq_false h.1 hnow
      · exact ih h.2 hlater

end Client

namespace Console

/-- **What is typed is clean.**  A request that was typed is normal already: to normalize it
succeeds and changes nothing.  Of a connection that was typed both words are kept, and they are
valid credentials.  So in no run of a client that is driven from a prompt is any command answered
with an omission. -/
theorem typed_input_is_clean :
    (∀ line request, Command.parse line = .ok (.roll request) → request.normalized = .ok request) ∧
      (∀ line apiKey table, Command.parse line = .ok (.connect apiKey table) →
        Credentials.ofTexts apiKey table = ⟨apiKey, table⟩ ∧
          (Credentials.ofTexts apiKey table).validate = .ok ()) ∧
      ∀ (config : Config) (turns : List Turn), (∀ t ∈ turns, t.input.AtPrompt) →
        ∀ ticket error, .error error ∈ repliesTo ticket ((Client.new config).effects config turns) →
          error.isOmission = false := by
  refine ⟨fun line request h => ?_, fun line apiKey table h => ?_, fun _ _ hturns _ _ hreply => ?_⟩
  · exact (exists_parse_roll_iff.mp ⟨line, h⟩).normalized
  · obtain ⟨hkey, htable⟩ := exists_parse_connect_iff.mp ⟨line, h⟩
    exact Credentials.ofTexts_of_isWord hkey htable
  · exact Client.isOmission_eq_false_of_mem_effects hturns hreply

/-- Blanks of several kinds between the words, words that are not needed, and a weapon of two
words.  The formula cannot be rolled, and that is what the client objects to. -/
theorem typed_input_is_clean_spaced :
    let m : Moment := ⟨⟨.epoch, 0⟩, 0, fun _ => 0⟩
    let connecting := "\tconnect key-1  table-9 at once"
    let rolling := " roll fireball\u2003Vex attack  Flame\tTongue "
    let request : RollRequest := ⟨"fireball", "Vex", "attack", some "Flame Tongue"⟩
    let turns : List Turn :=
      [⟨m, .command 0 (.connect (.ofTexts "key-1" "table-9"))⟩, ⟨m, .report (.connected 1 0)⟩,
        ⟨m, .command 1 (.submit request)⟩]
    Command.parse rolling = .ok (.roll request) ∧ request.normalized = .ok request ∧
      Command.parse connecting = .ok (.connect "key-1" "table-9") ∧
      (Credentials.ofTexts "key-1" "table-9").validate = .ok () ∧
      (∀ t ∈ turns, t.input.AtPrompt) ∧
      .error (.dice ⟨"fireball", .unusable⟩) ∈ repliesTo 1 ((Client.new {}).effects {} turns) ∧
      (ClientError.dice ⟨"fireball", .unusable⟩).isOmission = false := by
  intro m connecting rolling request turns
  have hroll : Command.parse rolling = .ok (.roll request) := by decide +kernel
  have hconnect : Command.parse connecting = .ok (.connect "key-1" "table-9") := by decide +kernel
  have hturns : ∀ t ∈ turns, t.input.AtPrompt := by
    simp only [turns, List.forall_mem_cons]
    exact ⟨.typed 0 hconnect rfl, .connected 1 0, .typed 1 hroll rfl, fun t ht => nomatch ht⟩
  have hreply : .error (.dice ⟨"fireball", .unusable⟩) ∈
      repliesTo 1 ((Client.new {}).effects {} turns) := by decide +kernel
  obtain ⟨hrequests, hcredentials, hanswers⟩ := typed_input_is_clean
  exact ⟨hroll, hrequests rolling request hroll, hconnect,
    (hcredentials connecting "key-1" "table-9" hconnect).2, hturns, hreply,
    hanswers {} turns hturns 1 _ hreply⟩

end Console

end DiceTable

import DiceTable.Proofs.Client.Submission

/-!
# Submissions that fail

A submission fails in one of two turns.  In its own turn the client may object to it; the first of
these objections that applies is the answer, and the server is not called.  Otherwise the server
is called, and it may fail after any number of other turns.

```text
not connected      in the turn of the submission
blank formula      in the turn of the submission
blank character    in the turn of the submission
no outcome         in the turn of the submission
failed server      in the turn of the server's answer
```

`RollRequest.Objection` is the list of objections, and `Handled.of_submit` says that the server is
called exactly if none of them applies.  No failure changes the client.  The submitter is answered
in the turn of the failure and in no other, since nobody waits under its ticket (`Unawaited`).
-/

namespace DiceTable

namespace RollRequest

/-- What is wrong with a request that is made in a session in this state: the first of these that
applies. -/
inductive Objection (request : RollRequest) (state : SessionState)
    (words : Dice.WordStream) : ClientError → Prop where
  | notConnected (hstate : state.isConnected = false) : Objection request state words .notConnected
  | blankFormula (hstate : state.isConnected = true) (hformula : Text.trim request.formula = "") :
      Objection request state words (.missingField .formula)
  | blankCharacter (hstate : state.isConnected = true) (hformula : Text.trim request.formula ≠ "")
      (hcharacter : Text.trim request.character = "") :
      Objection request state words (.missingField .character)
  | unrollable {error : DiceError} (hstate : state.isConnected = true)
      (hformula : Text.trim request.formula ≠ "") (hcharacter : Text.trim request.character ≠ "")
      (hroll : Dice.roll words (Text.trim request.formula) = .error error) :
      Objection request state words (.dice error)

/-- No two objections apply. -/
theorem Objection.unique {request : RollRequest} {state : SessionState} {words : Dice.WordStream}
    {error e : ClientError} (h : request.Objection state words error)
    (he : request.Objection state words e) : e = error := by
  cases h <;> cases he <;> simp_all

end RollRequest

/-- The text of an effect that shows the user an error. -/
@[simp] def Effect.errorNotice? : Effect → Option String
  | .emit (.notice (.error text)) => some text
  | _ => none

/-- The errors that the user is shown, in order. -/
def errorNotices (effects : List Effect) : List String := effects.filterMap Effect.errorNotice?

namespace Client

variable {config : Config} {m : Moment} {c c' : Client} {effects : List Effect}
  {attempt : Attempt} {ticket : Ticket} {key : String} {roll : NewRoll} {request : RollRequest}
  {error e : ClientError}

/-! ## Objections -/

/-- A connected session rolls no request to which there is an objection. -/
theorem authored_of_objection (config : Config) {table : TableId}
    (h : request.Objection (.connected table) m.words error) :
    authored config m table request = .error error := by
  unfold authored RollRequest.normalized RollRequest.author
  simp only [String.isEmpty_iff, bind, Except.bind]
  cases h with
  | notConnected hstate => cases hstate
  | blankFormula _ hformula => rw [if_pos hformula]
  | blankCharacter _ hformula hcharacter => rw [if_neg hformula, if_pos hcharacter]
  | unrollable _ hformula hcharacter hroll => simp only [if_neg hformula, if_neg hcharacter, hroll]

/-- It rolls all others. -/
theorem objection_or_authored (config : Config) (m : Moment) (table : TableId)
    (request : RollRequest) :
    (∃ error, request.Objection (.connected table) m.words error) ∨
      ∃ roll, authored config m table request = .ok roll := by
  have hstate : (SessionState.connected table).isConnected = true := rfl
  by_cases hformula : Text.trim request.formula = ""
  · exact .inl ⟨_, .blankFormula hstate hformula⟩
  by_cases hcharacter : Text.trim request.character = ""
  · exact .inl ⟨_, .blankCharacter hstate hformula hcharacter⟩
  cases hroll : Dice.roll m.words (Text.trim request.formula) with
  | error fault => exact .inl ⟨_, .unrollable hstate hformula hcharacter hroll⟩
  | ok outcome =>
      refine .inr ?_
      unfold authored RollRequest.normalized RollRequest.author
      simp only [String.isEmpty_iff, bind, Except.bind, if_neg hformula, if_neg hcharacter, hroll]
      exact ⟨_, rfl⟩

theorem objection_of_authored {table : TableId}
    (h : authored config m table request = .error error) :
    request.Objection (.connected table) m.words error := by
  rcases objection_or_authored config m table request with ⟨e, he⟩ | ⟨roll, hroll⟩
  · obtain rfl : e = error := Except.error.inj ((authored_of_objection config he).symm.trans h)
    exact he
  · rw [hroll] at h
    cases h

/-- What a client makes of a request: it refuses it, objects to it or calls the server.  None of the
three changes the client. -/
theorem Handled.of_submit (hc : Reachable config c)
    (hhandled : Handled config m c (.command ticket (.submit request)) c' effects) :
    c' = c ∧
      (c.running = false ∧ effects = [.reply ticket (.error .clientClosed)] ∨
        c.running = true ∧
          ((∃ error, request.Objection c.machine.state m.words error ∧
              effects = [notify (.error error.message), .reply ticket (.error error)]) ∨
            (∀ error, ¬ request.Objection c.machine.state m.words error) ∧
              ∃ key roll, effects = [.ingest c.machine.attempt ticket key roll])) := by
  cases hhandled with
  | refused hstopped => exact ⟨rfl, .inl ⟨hstopped, rfl⟩⟩
  | submissionUnconnected hrunning hunconnected =>
      have hstate : c.machine.state.isConnected = false := by
        rcases hunconnected with hstate | hnone
        · exact hstate
        · exact hc.vouched.unconnected_of_none hnone
      exact ⟨rfl, .inr ⟨hrunning, .inl ⟨_, .notConnected hstate, rfl⟩⟩⟩
  | submissionInvalid hrunning hstate _ herror =>
      have hobjection := objection_of_authored herror
      rw [← hstate] at hobjection
      exact ⟨rfl, .inr ⟨hrunning, .inl ⟨_, hobjection, rfl⟩⟩⟩
  | submitted hrunning hstate _ hroll =>
      refine ⟨rfl, .inr ⟨hrunning, .inr ⟨fun error hobjection => ?_, _, _, rfl⟩⟩⟩
      rw [hstate] at hobjection
      have herror := authored_of_objection config hobjection
      rw [hroll] at herror
      cases herror

/-- The errors that a submission is answered with in its own turn. -/
theorem Handled.mem_reply_iff (hc : Reachable config c)
    (hhandled : Handled config m c (.command ticket (.submit request)) c' effects) :
    .reply ticket (.error error) ∈ effects ↔
      c.running = false ∧ error = .clientClosed ∨
        c.running = true ∧ request.Objection c.machine.state m.words error := by
  obtain ⟨-, ⟨hstopped, rfl⟩ | ⟨hrunning, ⟨e, he, rfl⟩ | ⟨hnone, key, roll, rfl⟩⟩⟩ :=
    hhandled.of_submit hc
  · simp [hstopped]
  · have hunique : error = e ↔ request.Objection c.machine.state m.words error :=
      ⟨fun h => h ▸ he, he.unique⟩
    simp [hrunning, notify, hunique]
  · simp [hrunning, hnone]

/-- An objection that applies is shown and is the reply. -/
theorem Handled.of_objection (hc : Reachable config c)
    (hhandled : Handled config m c (.command ticket (.submit request)) c' effects)
    (hrunning : c.running = true) (h : request.Objection c.machine.state m.words error) :
    effects = [notify (.error error.message), .reply ticket (.error error)] := by
  obtain ⟨-, ⟨hstopped, -⟩ | ⟨-, ⟨e, he, heffects⟩ | ⟨hnone, -⟩⟩⟩ := hhandled.of_submit hc
  · rw [hrunning] at hstopped
    cases hstopped
  · obtain rfl := h.unique he
    exact heffects
  · exact absurd h (hnone error)

/-- A failure of the server changes nothing, and is shown unless the client has stopped. -/
theorem Handled.of_failure {failure : IngestError}
    (hhandled : Handled config m c (.report (.ingested attempt ticket roll (.error failure))) c'
      effects) :
    c' = c ∧ (c.running = true →
      errorNotices effects = ["Failed to send roll: " ++ failure.message]) := by
  cases hhandled with
  | refused hstopped =>
      refine ⟨rfl, fun hrunning => ?_⟩
      rw [hstopped] at hrunning
      cases hrunning
  | ingestFailed => exact ⟨rfl, fun _ => rfl⟩

/-! ## The run around a failure -/

/-- The server is called for a ticket by inputs that carry it only. -/
theorem not_mem_effects {turns : List Turn} (hturns : ∀ t ∈ turns, t.input.ticket? ≠ some ticket) :
    Effect.ingest attempt ticket key roll ∉ c.effects config turns := by
  induction turns generalizing c with
  | nil => exact List.not_mem_nil
  | cons t turns ih =>
      rw [List.forall_mem_cons] at hturns
      rw [effects_cons, List.mem_append]
      rintro (hcall | hcall)
      · obtain ⟨request, _, _, hinput, _⟩ := (handled_next config c t).of_ingest hcall
        rw [hinput] at hturns
        exact hturns.1 rfl
      · exact ih hturns.2 hcall

/-- If only the submission carries the ticket, the objection is the one reply, and the server is not
called. -/
theorem run_of_objection {past later : List Turn} {t : Turn}
    (hothers : ∀ v ∈ past ++ later, v.input.ticket? ≠ some ticket)
    (hsame : ((new config).after config past).next config t = (new config).after config past)
    (heffects : ((new config).after config past).effectsOf config t =
      [notify (.error error.message), .reply ticket (.error error)]) :
    repliesTo ticket ((new config).effects config (past ++ t :: later)) = [.error error] ∧
      ∀ attempt key roll,
        .ingest attempt ticket key roll ∉ (new config).effects config (past ++ t :: later) := by
  rw [List.forall_mem_append] at hothers
  obtain ⟨hpast, hlater⟩ := hothers
  obtain ⟨hbefore, hunawaited⟩ := Unawaited.run_new config hpast
  have hrest : repliesTo ticket (((new config).after config past).effects config later) = [] :=
    (hunawaited.run hlater).1
  simp only [effects_append, effects_cons, hsame, heffects]
  constructor
  · simp [hbefore, hrest, notify]
  · intro attempt key roll
    simp [not_mem_effects hpast, not_mem_effects hlater, notify]

/-- **Failed submissions are atomic.**  The client objects to a request in the order of
`RollRequest.Objection`, and it answers a submission with no other error in its turn, unless it
has stopped.  The turn changes nothing about the client.  An objection is shown to the user once,
it is the one reply to the submitter, and the server is never called.  If the server is called and
fails, after any turns in between, the turn of its answer changes nothing about the client either,
and unless the client has stopped, the failure is shown to the user once and is the one reply to
the submitter. -/
theorem failed_submissions_are_atomic (config : Config) (past : List Turn) (t : Turn)
    (hsubmit : t.input = .command ticket (.submit request)) :
    let c := (new config).after config past
    c.next config t = c ∧
      (∀ error, .reply ticket (.error error) ∈ c.effectsOf config t ↔
        c.running = false ∧ error = .clientClosed ∨
          c.running = true ∧ request.Objection c.machine.state t.moment.words error) ∧
      (c.running = true → ∀ error, request.Objection c.machine.state t.moment.words error →
        errorNotices (c.effectsOf config t) = [error.message] ∧
          ∀ later, (∀ v ∈ past ++ later, v.input.ticket? ≠ some ticket) →
            let effects := (new config).effects config (past ++ t :: later)
            repliesTo ticket effects = [.error error] ∧
              ∀ attempt key roll, .ingest attempt ticket key roll ∉ effects) ∧
      ∀ attempt key roll, .ingest attempt ticket key roll ∈ c.effectsOf config t →
        ∀ between u error, u.input = .report (.ingested attempt ticket roll (.error error)) →
          let d := (c.next config t).after config between
          d.next config u = d ∧
            (d.running = true →
              errorNotices (c.effectsOf config t ++ d.effectsOf config u) =
                  ["Failed to send roll: " ++ error.message] ∧
                ∀ later, (∀ v ∈ past ++ between ++ later, v.input.ticket? ≠ some ticket) →
                  repliesTo ticket
                      ((new config).effects config (past ++ t :: (between ++ u :: later))) =
                    [.error (.ingest error)]) := by
  intro c
  have hc : Reachable config c := reachable_after config past
  have hhandled := handled_next config c t
  rw [hsubmit] at hhandled
  have hsame : c.next config t = c := (hhandled.of_submit hc).1
  refine ⟨hsame, fun error => hhandled.mem_reply_iff hc, fun hrunning error hobjection => ?_, ?_⟩
  · have heffects := hhandled.of_objection hc hrunning hobjection
    refine ⟨?_, fun later hothers => run_of_objection hothers hsame heffects⟩
    rw [heffects]
    rfl
  · intro attempt key roll hcall between u error hanswer d
    obtain ⟨_, _, _, _, _, _, _, _, _, _, heffects⟩ := (handled_next config c t).of_ingest hcall
    have hanswered := handled_next config d u
    rw [hanswer] at hanswered
    obtain ⟨hkept, hshown⟩ := hanswered.of_failure
    refine ⟨hkept, fun hrunning => ⟨?_, fun later hothers => ?_⟩⟩
    · rw [heffects]
      exact hshown hrunning
    · rw [repliesTo_submission hothers hcall hanswer, if_pos hrunning]
      rfl

/-- A request without formula and character is objected to for the formula.  A roll that the
server rejects when the user has left the table is answered with the rejection. -/
theorem failed_submissions_are_atomic_left :
    let m : Moment := ⟨⟨.epoch, 0⟩, 0, fun _ => 0⟩
    let past : List Turn :=
      [⟨m, .command 0 (.connect ⟨"key", "one"⟩)⟩, ⟨m, .report (.connected 1 0)⟩]
    let blank : Turn := ⟨m, .command 1 (.submit ⟨" ", "", "attack", none⟩)⟩
    let submission : Turn := ⟨m, .command 1 (.submit ⟨" 2d6+3", "Vex", "attack", none⟩)⟩
    let roll : NewRoll := ⟨"one", "2d6+3", [.standard 6 1, .standard 6 1], [.ofSigned 3], 5,
      { rollType := some "attack", character := some "Vex" }, ({} : Config).rollSource, m.now⟩
    let between : List Turn := [⟨m, .command 2 .disconnect⟩]
    let rejection : IngestError := .rejected 500 "no"
    let answer : Turn := ⟨m, .report (.ingested 1 1 roll (.error rejection))⟩
    let c := (new {}).after {} past
    errorNotices (c.effectsOf {} blank) = ["notation is required"] ∧
      repliesTo 1 ((new {}).effects {} (past ++ [blank])) = [.error (.missingField .formula)] ∧
      .ingest 1 1 "key" roll ∈ c.effectsOf {} submission ∧
      (c.after {} between).machine.state = .disconnected ∧
      repliesTo 1 ((new {}).effects {} (past ++ submission :: (between ++ [answer]))) =
        [.error (.ingest rejection)] := by
  intro m past blank submission roll between rejection answer c
  have hroll : authored {} m "one" ⟨" 2d6+3", "Vex", "attack", none⟩ = .ok roll := by
    decide +kernel
  have hstep : c.step {} m submission.input = (c, [.ingest 1 1 "key" roll]) := by
    have hcredentials : c.machine.credentials = some ⟨"key", "one"⟩ := rfl
    exact step_submit rfl rfl hcredentials hroll
  have hcall : .ingest 1 1 "key" roll ∈ c.effectsOf {} submission := by
    show _ ∈ (c.step {} m submission.input).2
    rw [hstep]
    exact List.mem_singleton_self _
  have hobjection : RollRequest.Objection ⟨" ", "", "attack", none⟩ c.machine.state m.words
      (.missingField .formula) := .blankFormula rfl (by decide)
  obtain ⟨_, _, hobjected, _⟩ := failed_submissions_are_atomic {} past blank rfl
  obtain ⟨hshown, hrejected⟩ := hobjected rfl _ hobjection
  obtain ⟨hsame, _, _, hfailed⟩ := failed_submissions_are_atomic {} past submission rfl
  obtain ⟨_, hanswered⟩ := hfailed 1 "key" roll hcall between answer rejection rfl
  have hrunning : ((c.next {} submission).after {} between).running = true := by
    rw [hsame]
    rfl
  refine ⟨hshown, (hrejected [] (by decide)).1, hcall, rfl, ?_⟩
  exact (hanswered hrunning).2 [] (by decide)

end Client

end DiceTable

import DiceTable.Proofs.Client.Frame
import DiceTable.Proofs.Client.Reply
import DiceTable.Proofs.Client.Slots
import DiceTable.Proofs.Session.Attempt
import DiceTable.Proofs.Session.Credentials

/-!
# Submissions and their sessions

A submission outlives the turn in which it is made.  Its answer comes back after any number of other
turns, in which the user may have left the session and joined another table.

* **Out.**  The table of a submission is read from the state of the session and the key from the
  stored credentials.  `Machine.Vouched` joins the two, and `started_of_credentials` joins the
  credentials to the command that started the attempt.
* **Back.**  The feed takes the record only if the attempt is live (`Reachable.feed_of_answer`).
  An attempt that has stopped being live is `Machine.Over` and never live again, so an attempt that
  is live at the answer was live all the time since (`isLive_between`): it is the same session, and
  not merely one with the same number.
* **Reply.**  Between submission and answer nobody waits under the ticket of the submission, so
  `Unawaited.run` gives silence before and after the answer.
-/

namespace DiceTable.Client

variable {config : Config} {m : Moment} {input : Input} {c c' : Client} {effects : List Effect}
  {attempt : Attempt} {ticket : Ticket} {key : String} {roll : NewRoll} {receipt : IngestReceipt}

/-! ## The credentials of an attempt -/

theorem Reachable.vouched (h : Reachable config c) : c.machine.Vouched := by
  obtain ⟨turns, rfl⟩ := h
  exact machine_after (fun _ _ _ h hmove => h.move hmove) (.new config.connectTimeout) turns

/-- In these turns of a new client, a command with these credentials started the attempt. -/
def Started (config : Config) (turns : List Turn) (attempt : Attempt) (credentials : Credentials) :
    Prop :=
  ∃ past t future ticket, turns = past ++ t :: future ∧
    t.input = .command ticket (.connect credentials) ∧
    let c := (new config).after config past
    c.running = true ∧ (c.machine.connect t.moment.clock credentials).2 = .ok attempt

theorem Started.append {turns : List Turn} {credentials : Credentials}
    (h : Started config turns attempt credentials) (later : List Turn) :
    Started config (turns ++ later) attempt credentials := by
  obtain ⟨past, t, future, ticket, rfl, hstart⟩ := h
  exact ⟨past, t, future ++ later, ticket, by simp, hstart⟩

/-- Only a command that starts an attempt stores credentials or changes the number. -/
theorem Handled.credentials (hhandled : Handled config m c input c' effects) :
    c'.machine.attempt = c.machine.attempt ∧ c'.machine.credentials = c.machine.credentials ∨
      ∃ ticket credentials, input = .command ticket (.connect credentials) ∧ c.running = true ∧
        (c.machine.connect m.clock credentials).2 = .ok c'.machine.attempt ∧
        c'.machine.credentials = some credentials := by
  have hteardown : c.teardown.1.machine.attempt = c.machine.attempt ∧
      c.teardown.1.machine.credentials = c.machine.credentials := by
    show c.machine.disconnect.1.attempt = _ ∧ c.machine.disconnect.1.credentials = _
    unfold Machine.disconnect
    split <;> exact ⟨rfl, rfl⟩
  cases hhandled with
  | @connectStarted ticket credentials hrunning hvalid hinactive =>
      refine .inr ⟨ticket, credentials, rfl, hrunning, ?_, rfl⟩
      simp [Machine.connect, hvalid, hinactive, dialing]
  | shutdown => exact .inl hteardown
  | abandoned => exact .inl hteardown
  | disconnected =>
      rw [resolve_machine]
      exact .inl ⟨rfl, rfl⟩
  | linked =>
      rw [resolve_machine]
      exact .inl ⟨rfl, rfl⟩
  | failed =>
      rw [resolve_machine]
      exact .inl ⟨rfl, rfl⟩
  | timedOut =>
      rw [resolve_machine]
      exact .inl ⟨rfl, rfl⟩
  | _ => exact .inl ⟨rfl, rfl⟩

/-- The credentials that are stored are those that the current attempt was started with. -/
theorem started_of_credentials (turns : List Turn) {credentials : Credentials}
    (h : ((new config).after config turns).machine.credentials = some credentials) :
    Started config turns ((new config).after config turns).machine.attempt credentials := by
  induction turns using List.reverseRecOn with
  | nil => simp [after, new, Machine.new] at h
  | append_singleton turns t ih =>
      rw [after_append] at h ⊢
      rcases (handled_next config ((new config).after config turns) t).credentials with
        ⟨hattempt, hsame⟩ | ⟨ticket, given, hinput, hrunning, hanswer, hgiven⟩
      · have hearlier := ih (hsame.symm.trans h)
        rw [← hattempt] at hearlier
        exact hearlier.append [t]
      · obtain rfl : given = credentials := Option.some.inj (hgiven.symm.trans h)
        exact ⟨turns, t, [], ticket, rfl, hinput, hrunning, hanswer⟩

/-! ## The way out -/

theorem table_of_authored {table : TableId} {request : RollRequest}
    (h : authored config m table request = .ok roll) : roll.table = table := by
  unfold authored at h
  cases hnormal : request.normalized with
  | error error =>
      rw [hnormal] at h
      cases h
  | ok normal =>
      rw [hnormal] at h
      replace h : normal.author table config.rollSource m.now m.words = .ok roll := h
      unfold RollRequest.author at h
      split at h
      · cases h
      · cases h
        rfl

theorem not_mem_releaseTransport (c : Client) :
    Effect.ingest attempt ticket key roll ∉ c.releaseTransport.2 := by
  simp [releaseTransport]

theorem not_mem_resolve (c : Client) (k : Attempt) (reply : Reply) :
    Effect.ingest attempt ticket key roll ∉ (c.resolve k reply).2 := by
  unfold resolve
  split
  · split <;> simp
  · simp

/-- Only a submission in a connected session calls the server. -/
theorem Handled.of_ingest (hhandled : Handled config m c input c' effects)
    (hcall : .ingest attempt ticket key roll ∈ effects) :
    ∃ request table credentials, input = .command ticket (.submit request) ∧
      c.machine.attempt = attempt ∧ c.machine.state = .connected table ∧
      c.machine.credentials = some credentials ∧ key = credentials.apiKey ∧
      authored config m table request = .ok roll ∧ c' = c ∧
      effects = [.ingest attempt ticket key roll] := by
  have hteardown : Effect.ingest attempt ticket key roll ∉ c.teardown.2 := by
    simp [teardown, not_mem_releaseTransport]
  cases hhandled with
  | @submitted _ request table credentials _ _ hstate hcredentials hroll =>
      rw [List.mem_singleton] at hcall
      cases hcall
      exact ⟨request, table, credentials, rfl, rfl, hstate, hcredentials, rfl, hroll, rfl, rfl⟩
  | refused =>
      unfold refuse at hcall
      split at hcall <;> simp at hcall
  | shutdown => simp [hteardown] at hcall
  | abandoned => exact absurd hcall hteardown
  | delivered =>
      unfold deliveryEffects at hcall
      split at hcall <;> simp [feedStatus, notify] at hcall
  | _ => simp [not_mem_releaseTransport, not_mem_resolve, status, feedStatus, notify] at hcall

/-- A connected session submits whatever can be rolled. -/
theorem step_submit {request : RollRequest} {table : TableId} {credentials : Credentials}
    (hrunning : c.running = true) (hstate : c.machine.state = .connected table)
    (hcredentials : c.machine.credentials = some credentials)
    (hroll : authored config m table request = .ok roll) :
    c.step config m (.command ticket (.submit request)) =
      (c, [.ingest c.machine.attempt ticket credentials.apiKey roll]) := by
  unfold authored at hroll
  simp [step, hrunning, onCommand, startSubmission, hstate, hcredentials, SessionState.table?,
    hroll]

/-! ## The way back -/

/-- The record of an answer enters the feed if the attempt is live and the feed does not show it
yet, and in no other case. -/
theorem Reachable.feed_of_answer (h : Reachable config c)
    (hhandled : Handled config m c (.report (.ingested attempt ticket roll (.ok receipt))) c'
      effects) :
    c'.feed.records =
      if c.machine.isLive attempt = true ∧ receipt.rollId ∉ c.feed.ids then
        (roll.toRecord receipt.rollId :: c.feed.records).take (max config.feedCapacity 1)
      else c.feed.records := by
  cases hhandled with
  | refused hstopped =>
      rw [if_neg]
      rintro ⟨hlive, -⟩
      simp [h.running_of_isLive hlive] at hstopped
  | ingestLate _ hlate => simp [hlate]
  | ingestKnown _ _ hknown =>
      rw [if_neg]
      rintro ⟨-, hnew⟩
      exact hnew (Feed.contains_iff.mp hknown)
  | ingested _ hlive hnew =>
      have hfresh : receipt.rollId ∉ c.feed.ids := by
        intro hmem
        rw [Feed.contains_iff.mpr hmem] at hnew
        exact Bool.noConfusion hnew
      rw [if_pos ⟨hlive, hfresh⟩, ← h.capacity_feed]
      rfl

/-- What the submitter of a roll is told when the server has answered. -/
def answered (roll : NewRoll) : Except IngestError IngestReceipt → Reply
  | .ok receipt => .ok (.record (roll.toRecord receipt.rollId))
  | .error error => .error (.ingest error)

/-- The submitter is told of the answer, whatever has become of the session, and nobody waits under
the ticket because of it. -/
theorem Unawaited.answer {result : Except IngestError IngestReceipt} (h : c.Unawaited ticket)
    (hhandled : Handled config m c (.report (.ingested attempt ticket roll result)) c' effects) :
    repliesTo ticket effects =
        [if c.running = true then answered roll result else .error .clientClosed] ∧
      c'.Unawaited ticket := by
  cases hhandled with
  | refused hstopped => exact ⟨by simp [repliesTo_refuse, hstopped], h⟩
  | ingestFailed hrunning => exact ⟨by simp [hrunning, notify, answered], h⟩
  | ingestLate hrunning => exact ⟨by simp [hrunning, answered], h⟩
  | ingestKnown hrunning => exact ⟨by simp [hrunning, notify, answered], h⟩
  | ingested hrunning => exact ⟨by simp [hrunning, notify, feedStatus, answered], h⟩

/-! ## Between the two -/

/-- An attempt that is live at the end of some turns was live all the time. -/
theorem isLive_between (h : c.machine.isLive attempt = true) {turns mid : List Turn}
    (hlive : (c.after config turns).machine.isLive attempt = true) (hmid : mid <+: turns) :
    (c.after config mid).machine.isLive attempt = true := by
  obtain ⟨rest, rfl⟩ := hmid
  have hresolved : (c.after config mid).machine.Resolved attempt :=
    machine_after (fun _ _ _ h hmove => h.move hmove) (.of_isLive h) mid
  cases hmiddle : (c.after config mid).machine.isLive attempt with
  | true => rfl
  | false =>
      -- Once it is over it stays over, but it is live at the end.
      have hover : ((c.after config mid).after config rest).machine.Over attempt :=
        machine_after (fun _ _ _ h hmove => h.move hmove) (hresolved.over hmiddle) rest
      rw [after_append, hover.isLive_eq_false] at hlive
      exact absurd hlive Bool.false_ne_true

/-- If only the submission and the answer carry the ticket, there is one reply, at the answer. -/
theorem repliesTo_submission {past between later : List Turn} {t u : Turn}
    {result : Except IngestError IngestReceipt}
    (hothers : ∀ v ∈ past ++ between ++ later, v.input.ticket? ≠ some ticket)
    (hcall : .ingest attempt ticket key roll ∈ ((new config).after config past).effectsOf config t)
    (hanswer : u.input = .report (.ingested attempt ticket roll result)) :
    repliesTo ticket ((new config).effects config (past ++ t :: (between ++ u :: later))) =
      [if ((((new config).after config past).next config t).after config between).running = true
        then answered roll result else .error .clientClosed] := by
  rw [List.forall_mem_append, List.forall_mem_append] at hothers
  obtain ⟨⟨hpast, hbetween⟩, hlater⟩ := hothers
  obtain ⟨hbefore, hsubmitting⟩ := Unawaited.run_new config hpast
  obtain ⟨_, _, _, _, _, _, _, _, _, hsame, heffects⟩ := (handled_next config _ t).of_ingest hcall
  have hcalled : repliesTo ticket (((new config).after config past).effectsOf config t) = [] := by
    rw [heffects]
    rfl
  rw [← hsame] at hsubmitting
  obtain ⟨hsilent, hwaiting⟩ :
      repliesTo ticket ((((new config).after config past).next config t).effects config between) =
          [] ∧
        ((((new config).after config past).next config t).after config between).Unawaited ticket :=
    hsubmitting.run hbetween
  have hhandled := handled_next config
    ((((new config).after config past).next config t).after config between) u
  rw [hanswer] at hhandled
  obtain ⟨hreply, hanswered⟩ := hwaiting.answer hhandled
  have hrest : repliesTo ticket (Client.effects config _ later) = [] := (hanswered.run hlater).1
  simp only [effects_append, effects_cons, repliesTo_append, hbefore, hcalled, hsilent, hreply,
    hrest, List.nil_append, List.append_nil]

/-- **Submissions stay in their session.**  Whenever the server is called for a submission, the
session is connected, on the attempt that is named in the call, the key and the table of the call
are those of the credentials which that attempt was started with, and its roll is what was authored
from the request.  When the server has confirmed the roll, after any turns in between, its record,
which is the roll under the identifier of the receipt, enters the feed, in front of all others, if
the session is still connected on that attempt and the feed does not show it yet; otherwise the feed
stays as it is.  A session that is connected on the attempt then has been so ever since.  The
submitter is answered once, at that time, with the record, unless the client has stopped. -/
theorem submission_stays_in_session (config : Config) (past : List Turn) (t : Turn)
    (hcall :
      .ingest attempt ticket key roll ∈ ((new config).after config past).effectsOf config t) :
    let c := (new config).after config past
    (∃ credentials, Started config past attempt credentials ∧ c.machine.attempt = attempt ∧
        c.machine.state = .connected credentials.table ∧ key = credentials.apiKey ∧
        roll.table = credentials.table ∧
        (∃ request, t.input = .command ticket (.submit request) ∧
          authored config t.moment credentials.table request = .ok roll) ∧
        c.effectsOf config t = [.ingest attempt ticket key roll]) ∧
      ∀ between u receipt, u.input = .report (.ingested attempt ticket roll (.ok receipt)) →
        let d := (c.next config t).after config between
        let record : RollRecord :=
          { id := receipt.rollId, formula := roll.formula, dice := roll.dice,
            modifiers := roll.modifiers, total := roll.total, context := roll.context,
            source := roll.source, timestamp := roll.timestamp }
        (d.next config u).feed.records =
            (if d.machine.isLive attempt = true ∧ record.id ∉ d.feed.ids then
              (record :: d.feed.records).take (max config.feedCapacity 1)
            else d.feed.records) ∧
          (d.machine.isLive attempt = true → ∀ mid, mid <+: between →
            ((c.next config t).after config mid).machine.isLive attempt = true) ∧
          ∀ later, (∀ v ∈ past ++ between ++ later, v.input.ticket? ≠ some ticket) →
            repliesTo ticket ((new config).effects config (past ++ t :: (between ++ u :: later))) =
              [if d.running = true then .ok (.record record) else .error .clientClosed] := by
  intro c
  have hc : Reachable config c := reachable_after config past
  obtain ⟨request, table, credentials, hinput, hattempt, hstate, hcredentials, hkey, hroll, hsame,
    heffects⟩ := (handled_next config c t).of_ingest hcall
  have hlive : c.machine.isLive attempt = true := by
    simp [Machine.isLive, hattempt, hstate, SessionState.isConnected]
  constructor
  · have hstarted := started_of_credentials past hcredentials
    obtain rfl : table = credentials.table := hc.vouched.table_eq hcredentials hstate
    rw [hattempt] at hstarted
    exact ⟨credentials, hstarted, hattempt, hstate, hkey, table_of_authored hroll,
      ⟨request, hinput, hroll⟩, heffects⟩
  · intro between u receipt hanswer d record
    have hd : Reachable config d := by
      rw [show d = c.after config (t :: between) from rfl]
      exact hc.after (t :: between)
    have hhandled := handled_next config d u
    rw [hanswer] at hhandled
    refine ⟨hd.feed_of_answer hhandled, fun hstill mid hmid => ?_, fun later hothers => ?_⟩
    · rw [← hsame] at hlive
      exact isLive_between hlive hstill hmid
    · exact repliesTo_submission hothers hcall hanswer

/-- The roll is shown if it is confirmed at once, but not if the user has gone to another table. -/
theorem submission_stays_in_session_moved :
    let m : Moment := ⟨⟨⟨⟨2024, 1, 1⟩, 0, 0, 0, 0⟩, 0⟩, 0, fun _ => 0⟩
    let past : List Turn :=
      [⟨m, .command 0 (.connect ⟨"key", "one"⟩)⟩, ⟨m, .report (.connected 1 0)⟩]
    let submission : Turn := ⟨m, .command 1 (.submit ⟨" 2d6+3", "Vex", "attack", none⟩)⟩
    let roll : NewRoll := ⟨"one", "2d6+3", [.standard 6 1, .standard 6 1], [.ofSigned 3], 5,
      { rollType := some "attack", character := some "Vex" }, ({} : Config).rollSource, m.now⟩
    let record : RollRecord := ⟨"r", "2d6+3", [.standard 6 1, .standard 6 1], [.ofSigned 3], 5,
      { rollType := some "attack", character := some "Vex" }, ({} : Config).rollSource, m.now⟩
    let between : List Turn := [⟨m, .command 2 .disconnect⟩,
      ⟨m, .command 3 (.connect ⟨"other key", "two"⟩)⟩, ⟨m, .report (.connected 2 1)⟩]
    let answer : Turn := ⟨m, .report (.ingested 1 1 roll (.ok ⟨"r"⟩))⟩
    let c := (new {}).after {} past
    let d := (c.next {} submission).after {} between
    .ingest 1 1 "key" roll ∈ c.effectsOf {} submission ∧
      ((c.next {} submission).next {} answer).feed.records = [record] ∧
      d.machine.state = .connected "two" ∧ (d.next {} answer).feed.records = [] ∧
      repliesTo 1 ((new {}).effects {} (past ++ submission :: (between ++ [answer]))) =
        [.ok (.record record)] := by
  intro m past submission roll record between answer c d
  have hroll : authored {} m "one" ⟨" 2d6+3", "Vex", "attack", none⟩ = .ok roll := by
    decide +kernel
  have hstep : c.step {} m submission.input = (c, [.ingest 1 1 "key" roll]) := by
    have hcredentials : c.machine.credentials = some ⟨"key", "one"⟩ := rfl
    exact step_submit rfl rfl hcredentials hroll
  have hsame : c.next {} submission = c := by
    show (c.step {} m submission.input).1 = c
    rw [hstep]
  have hcall : .ingest 1 1 "key" roll ∈ c.effectsOf {} submission := by
    show _ ∈ (c.step {} m submission.input).2
    rw [hstep]
    exact List.mem_singleton_self _
  have hd : d = c.after {} between := by rw [← hsame]
  have hdead : (c.after {} between).machine.isLive 1 = false := by decide
  obtain ⟨_, hanswer⟩ := submission_stays_in_session {} past submission hcall
  rw [hsame] at hanswer
  obtain ⟨hshown, _⟩ := hanswer [] answer ⟨"r"⟩ rfl
  obtain ⟨hkept, _, hreply⟩ := hanswer between answer ⟨"r"⟩ rfl
  rw [hsame, hd]
  refine ⟨hcall, ?_, rfl, ?_, ?_⟩
  · rw [show c.next {} answer = (c.after {} []).next {} answer from rfl, hshown]
    exact if_pos ⟨by decide, List.not_mem_nil⟩
  · rw [hkept, if_neg fun h => Bool.false_ne_true (hdead.symm.trans h.1)]
    rfl
  · rw [hreply [] (by decide)]
    exact congrArg (fun reply => [reply]) (if_pos rfl)

end DiceTable.Client

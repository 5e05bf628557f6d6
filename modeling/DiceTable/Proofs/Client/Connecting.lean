import DiceTable.Proofs.Client.Reply
import DiceTable.Proofs.Client.Slots
import DiceTable.Proofs.Session.Attempt

/-!
# The race for the reply to a command to connect

While an attempt is in flight, five things may settle it: it connects, it fails, it takes too long,
the user disconnects, or the client stops.  They come in any order, and most of them come more than
once or too late.  `Input.verdict?` says what each of them would make of the attempt.

## Strategy

A command that waits is `Awaited`: the slot for it, the state and the number of the attempt agree.
A turn without a verdict keeps this and says nothing (`Awaited.quiet`), and a turn with a verdict
gives the reply and empties the slot (`Awaited.decided`).  From then on nobody waits under the
ticket, and `Unawaited.run` takes over.  The attempt itself is `Machine.Resolved`, so that whatever
comes for it later finds a client that has nothing left to settle.
-/

namespace DiceTable

/-- What an input makes of the attempt, if the attempt is in flight: the reply to the command that
waits, and the next state. -/
def Input.verdict? (config : Config) (credentials : Credentials) (attempt : Attempt) :
    Input → Option (Reply × SessionState)
  | .report (.connected k _) =>
      if k = attempt then
        some (.ok (.table credentials.table), .connected credentials.table)
      else none
  | .report (.connectFailed k error) =>
      if k = attempt then some (.error error, .failed error.message) else none
  | .deadline k =>
      if k = attempt then
        some (.error (.connectionTimeout config.connectTimeout),
          .failed SessionState.timeoutReason)
      else none
  | .command _ .disconnect => some (.error .cancelled, .disconnected)
  | .command _ .shutdown => some (.error .cancelled, .disconnected)
  | .abandoned => some (.error .cancelled, .disconnected)
  | _ => none

/-- The attempt that an input names. -/
def Input.attempt? : Input → Option Attempt
  | .report (.connected k _) => some k
  | .report (.connectFailed k _) => some k
  | .report (.frame k _) => some k
  | .report (.closed k _) => some k
  | .report (.ingested k _ _ _) => some k
  | .deadline k => some k
  | _ => none

theorem Input.ne_connecting_of_verdict {config : Config} {credentials : Credentials}
    {attempt : Attempt} {input : Input} {reply : Reply} {state : SessionState}
    (h : input.verdict? config credentials attempt = some (reply, state)) :
    state ≠ .connecting := by
  rintro rfl
  unfold verdict? at h
  split at h <;> (try split at h) <;> simp at h

namespace Client

variable {config : Config} {m : Moment} {input : Input} {c c' : Client} {effects : List Effect}
  {ticket : Ticket} {credentials : Credentials} {attempt : Attempt} {reply : Reply}
  {state : SessionState}

/-! ## While the command waits -/

/-- The command with this ticket waits for the attempt, which is in flight. -/
structure Awaited (ticket : Ticket) (credentials : Credentials) (attempt : Attempt) (c : Client) :
    Prop where
  running : c.running = true
  connecting : c.machine.state = .connecting
  current : c.machine.attempt = attempt
  credentials : c.machine.credentials = some credentials
  pending : c.pending = some ⟨attempt, ticket⟩

namespace Awaited

/-- A turn that does not settle the attempt leaves the command waiting. -/
theorem quiet (h : c.Awaited ticket credentials attempt) (hother : input.ticket? ≠ some ticket)
    (hquiet : input.verdict? config credentials attempt = none)
    (hhandled : Handled config m c input c' effects) :
    repliesTo ticket effects = [] ∧ c'.Awaited ticket credentials attempt := by
  obtain ⟨hrunning, hconnecting, hcurrent, hcredentials, hpending⟩ := h
  cases hhandled with
  | refused hstopped => simp [hrunning] at hstopped
  | connectStarted _ _ hinactive => simp [hconnecting, SessionState.isActive] at hinactive
  | disconnected => simp [Input.verdict?] at hquiet
  | shutdown => simp [Input.verdict?] at hquiet
  | abandoned => simp [Input.verdict?] at hquiet
  | linked => simp [Input.verdict?, hcurrent] at hquiet
  | failed => simp [Input.verdict?, hcurrent] at hquiet
  | timedOut => simp [Input.verdict?, hcurrent] at hquiet
  | lost _ hstate => simp [hconnecting] at hstate
  | _ =>
      refine ⟨?_, hrunning, hconnecting, hcurrent, hcredentials, hpending⟩
      simp_all [feedStatus, notify]

/-- A turn that settles the attempt gives the reply, and the command waits no more. -/
theorem decided (h : c.Awaited ticket credentials attempt) (hother : input.ticket? ≠ some ticket)
    (hverdict : input.verdict? config credentials attempt = some (reply, state))
    (hhandled : Handled config m c input c' effects) :
    repliesTo ticket effects = [reply] ∧ c'.machine = c.machine.settle state ∧
      c'.pending = none := by
  obtain ⟨hrunning, hconnecting, rfl, hcredentials, hpending⟩ := h
  have hactive : c.machine.state.isActive = true := by rw [hconnecting]; rfl
  have hteardown : c.teardown.1.machine = c.machine.settle .disconnected :=
    congrArg Prod.fst (Machine.disconnect_of_active hactive)
  have hcancelled : repliesTo ticket c.teardown.2 = [.error .cancelled] := by
    rw [repliesTo_teardown, if_pos (by rw [hpending]; rfl)]
  -- A report that comes too late names another attempt, of which nothing is made here.
  have hlate {k : Attempt} (hk : c.machine.isInFlight k = false) : k ≠ c.machine.attempt := by
    intro hcurrent
    rw [Machine.isInFlight_iff.mpr ⟨hcurrent, hconnecting⟩] at hk
    exact Bool.noConfusion hk
  cases hhandled with
  | refused hstopped => simp [hrunning] at hstopped
  | disconnectIdle _ hinactive => simp [hactive] at hinactive
  | disconnected =>
      cases hverdict
      rw [resolve_of_pending (c := c.released) hpending]
      refine ⟨?_, rfl, rfl⟩
      simpa [status] using hother
  | shutdown =>
      cases hverdict
      refine ⟨?_, hteardown, rfl⟩
      rw [repliesTo_cons, hcancelled]
      simpa using hother
  | abandoned =>
      cases hverdict
      exact ⟨hcancelled, hteardown, rfl⟩
  | linkLate _ hnone =>
      have hk := hlate (hnone.resolve_right (by simp [hcredentials]))
      simp [Input.verdict?, hk] at hverdict
  | @linked link given _ _ hgiven =>
      obtain rfl : credentials = given := Option.some.inj (hcredentials.symm.trans hgiven)
      rw [Input.verdict?, if_pos rfl] at hverdict
      cases hverdict
      rw [resolve_of_pending (c := c.linked link credentials.table) hpending]
      exact ⟨by simp [status, notify], rfl, rfl⟩
  | failureLate _ hk => simp [Input.verdict?, hlate hk] at hverdict
  | @failed error =>
      rw [Input.verdict?, if_pos rfl] at hverdict
      cases hverdict
      rw [resolve_of_pending (c := c.failed error.message) hpending]
      exact ⟨by simp [status, notify], rfl, rfl⟩
  | deadlineLate _ hk => simp [Input.verdict?, hlate hk] at hverdict
  | timedOut =>
      rw [Input.verdict?, if_pos rfl] at hverdict
      cases hverdict
      rw [resolve_of_pending (c := c.failed SessionState.timeoutReason) hpending]
      refine ⟨?_, rfl, rfl⟩
      cases c.dialer <;> simp [status, notify]
  | _ => simp [Input.verdict?] at hverdict

theorem run {turns : List Turn} (h : c.Awaited ticket credentials attempt)
    (hturns : ∀ t ∈ turns, t.input.ticket? ≠ some ticket)
    (hquiet : ∀ t ∈ turns, t.input.verdict? config credentials attempt = none) :
    repliesTo ticket (c.effects config turns) = [] ∧
      (c.after config turns).Awaited ticket credentials attempt := by
  induction turns generalizing c with
  | nil => exact ⟨rfl, h⟩
  | cons t turns ih =>
      rw [List.forall_mem_cons] at hturns hquiet
      obtain ⟨hreplies, hnext⟩ := h.quiet hturns.1 hquiet.1 (handled_next config c t)
      obtain ⟨hrest, hafter⟩ := ih hnext hturns.2 hquiet.2
      exact ⟨by simp [hreplies, hrest], hafter⟩

end Awaited

/-! ## When the attempt is settled -/

/-- Whatever may settle an attempt leaves the feed alone. -/
theorem feed_of_verdict {verdict : Reply × SessionState}
    (hverdict : input.verdict? config credentials attempt = some verdict)
    (hhandled : Handled config m c input c' effects) : c'.feed = c.feed := by
  cases hhandled with
  | disconnected => exact resolve_feed
  | linked => exact resolve_feed
  | failed => exact resolve_feed
  | timedOut => exact resolve_feed
  | cleared => simp [Input.verdict?] at hverdict
  | delivered => simp [Input.verdict?] at hverdict
  | ingested => simp [Input.verdict?] at hverdict
  | _ => rfl

/-- What comes for an attempt that is settled answers nobody but whoever gave the input. -/
theorem repliesTo_late (hcoherent : c.Coherent) (hresolved : c.machine.Resolved attempt)
    {verdict : Reply × SessionState}
    (hverdict : input.verdict? config credentials attempt = some verdict)
    (hattempt : input.attempt?.getD c.machine.attempt = attempt)
    (hother : input.ticket? ≠ some ticket) (hhandled : Handled config m c input c' effects) :
    repliesTo ticket effects = [] := by
  by_cases hstate : c.machine.state = .connecting
  · -- The command that waits is one for a later attempt, which the input does not name.
    have hlater : attempt < c.machine.attempt := by
      rcases hresolved with hlater | ⟨_, hne⟩
      · exact hlater
      · exact absurd hstate hne
    have hk : c.machine.attempt ≠ attempt := Nat.ne_of_gt hlater
    cases hhandled with
    | refused => rw [repliesTo_refuse, if_neg hother]
    | linkLate => rfl
    | failureLate => rfl
    | deadlineLate => rfl
    | disconnectIdle => exact absurd hattempt hk
    | disconnected => exact absurd hattempt hk
    | shutdown => exact absurd hattempt hk
    | abandoned => exact absurd hattempt hk
    | _ => simp [Input.verdict?, hk] at hverdict
  · have hunawaited : c.Unawaited ticket := .of_none (hcoherent.pending_eq_none hstate)
    exact (hunawaited.step hother hhandled).1

/-- Of these turns, the first that settles the attempt gives the reply and the next state, and no
other has a say. -/
structure SettledOnce (config : Config) (ticket : Ticket) (credentials : Credentials)
    (attempt : Attempt) (c : Client) (turns : List Turn) : Prop where
  /-- As long as there is no reply, the attempt is in flight. -/
  waiting : ∀ past, past <+: turns → repliesTo ticket (c.effects config past) = [] →
    (c.after config past).machine.state = .connecting ∧
      (c.after config past).machine.attempt = attempt
  /-- The first turn that settles the attempt gives the reply and the next state. -/
  decided : ∀ past t future reply state, turns = past ++ t :: future →
    (∀ u ∈ past, u.input.verdict? config credentials attempt = none) →
      t.input.verdict? config credentials attempt = some (reply, state) →
        repliesTo ticket ((c.after config past).effectsOf config t) = [reply] ∧
          ((c.after config past).next config t).machine.state = state ∧
          repliesTo ticket (c.effects config turns) = [reply]
  /-- A later one for the same attempt leaves the feed alone, and answers nobody but whoever gave
  it. -/
  late : ∀ past t future verdict, turns = past ++ t :: future →
    (∃ u ∈ past, (u.input.verdict? config credentials attempt).isSome) →
      t.input.verdict? config credentials attempt = some verdict →
        t.input.attempt?.getD (c.after config past).machine.attempt = attempt →
          ((c.after config past).next config t).feed = (c.after config past).feed ∧
            ∀ other, t.input.ticket? ≠ some other →
              repliesTo other ((c.after config past).effectsOf config t) = []

namespace Awaited

variable {turns : List Turn}

theorem decided_run (h : c.Awaited ticket credentials attempt) {past future : List Turn} {t : Turn}
    (hturns : ∀ u ∈ past ++ t :: future, u.input.ticket? ≠ some ticket)
    (hquiet : ∀ u ∈ past, u.input.verdict? config credentials attempt = none)
    (hverdict : t.input.verdict? config credentials attempt = some (reply, state)) :
    repliesTo ticket ((c.after config past).effectsOf config t) = [reply] ∧
      ((c.after config past).next config t).machine.state = state ∧
      ((c.after config past).next config t).machine.Resolved attempt ∧
      repliesTo ticket (c.effects config (past ++ t :: future)) = [reply] := by
  rw [List.forall_mem_append, List.forall_mem_cons] at hturns
  obtain ⟨hpast, ht, hfuture⟩ := hturns
  obtain ⟨hbefore, hafter⟩ := h.run hpast hquiet
  obtain ⟨hreply, hmachine, hpending⟩ := hafter.decided ht hverdict (handled_next config _ t)
  have hunawaited : ((c.after config past).next config t).Unawaited ticket := .of_none hpending
  have hrest :
      repliesTo ticket (((c.after config past).next config t).effects config future) = [] :=
    (hunawaited.run hfuture).1
  refine ⟨hreply, by rw [hmachine, Machine.settle_state], ?_, ?_⟩
  · rw [hmachine]
    exact .inr ⟨hafter.current.symm, Input.ne_connecting_of_verdict hverdict⟩
  · simp [hbefore, hreply, hrest]

theorem exists_first (h : ∃ u ∈ turns, (u.input.verdict? config credentials attempt).isSome) :
    ∃ past t future reply state, turns = past ++ t :: future ∧
      (∀ u ∈ past, u.input.verdict? config credentials attempt = none) ∧
      t.input.verdict? config credentials attempt = some (reply, state) := by
  cases hfirst : turns.findSome? fun u => u.input.verdict? config credentials attempt with
  | none =>
      obtain ⟨u, hu, hverdict⟩ := h
      rw [List.findSome?_eq_none_iff] at hfirst
      simp [hfirst u hu] at hverdict
  | some verdict =>
      obtain ⟨past, t, future, hturns, hverdict, hpast⟩ := List.findSome?_eq_some_iff.mp hfirst
      exact ⟨past, t, future, verdict.1, verdict.2, hturns, hpast, hverdict⟩

theorem resolved_after (h : c.Awaited ticket credentials attempt)
    (hturns : ∀ t ∈ turns, t.input.ticket? ≠ some ticket)
    (hsettled : ∃ u ∈ turns, (u.input.verdict? config credentials attempt).isSome) :
    (c.after config turns).machine.Resolved attempt := by
  obtain ⟨past, t, future, reply, state, rfl, hquiet, hverdict⟩ := exists_first hsettled
  obtain ⟨_, _, hresolved, _⟩ := h.decided_run hturns hquiet hverdict
  rw [after_append, after_cons]
  exact machine_after (fun _ _ _ h hmove => h.move hmove) hresolved future

/-- A client that stops has answered the command by then. -/
theorem exists_reply (h : c.Awaited ticket credentials attempt)
    (hturns : ∀ t ∈ turns, t.input.ticket? ≠ some ticket)
    (hstopped : (c.after config turns).running = false) :
    ∃ reply, repliesTo ticket (c.effects config turns) = [reply] := by
  -- Without a turn that settles the attempt, the command would wait and the client would run.
  by_cases hsettled : ∃ u ∈ turns, (u.input.verdict? config credentials attempt).isSome
  · obtain ⟨past, t, future, reply, state, rfl, hquiet, hverdict⟩ := exists_first hsettled
    obtain ⟨_, _, _, hreply⟩ := h.decided_run hturns hquiet hverdict
    exact ⟨reply, hreply⟩
  · have hquiet : ∀ u ∈ turns, u.input.verdict? config credentials attempt = none := by
      simpa using hsettled
    have hrunning := (h.run hturns hquiet).2.running
    simp [hrunning] at hstopped

/-- A command that waits is answered once, by whatever settles its attempt first. -/
theorem settledOnce (h : c.Awaited ticket credentials attempt) (hc : Reachable config c)
    (hturns : ∀ t ∈ turns, t.input.ticket? ≠ some ticket) :
    SettledOnce config ticket credentials attempt c turns where
  waiting := by
    intro past hpast hsilent
    have hothers : ∀ t ∈ past, t.input.ticket? ≠ some ticket := fun t ht =>
      hturns t (hpast.subset ht)
    by_cases hsettled : ∃ u ∈ past, (u.input.verdict? config credentials attempt).isSome
    · obtain ⟨first, t, future, reply, state, rfl, hquiet, hverdict⟩ := exists_first hsettled
      obtain ⟨_, _, _, hreply⟩ := h.decided_run hothers hquiet hverdict
      exact absurd (hreply.symm.trans hsilent) (List.cons_ne_nil _ _)
    · have hquiet : ∀ u ∈ past, u.input.verdict? config credentials attempt = none := by
        simpa using hsettled
      have hafter := (h.run hothers hquiet).2
      exact ⟨hafter.connecting, hafter.current⟩
  decided := by
    rintro past t future reply state rfl hquiet hverdict
    obtain ⟨hreply, hstate, _, hall⟩ := h.decided_run hturns hquiet hverdict
    exact ⟨hreply, hstate, hall⟩
  late := by
    rintro past t future verdict rfl hsettled hverdict hattempt
    have hothers : ∀ u ∈ past, u.input.ticket? ≠ some ticket := fun u hu =>
      hturns u (List.mem_append_left _ hu)
    have hhandled := handled_next config (c.after config past) t
    refine ⟨feed_of_verdict hverdict hhandled, fun other hother => ?_⟩
    exact repliesTo_late (hc.after past).coherent (h.resolved_after hothers hsettled) hverdict
      hattempt hother hhandled

end Awaited

/-! ## The command -/

section Command

variable (config ticket) (hrunning : c.running = true)
include hrunning

theorem step_connect_of_rejected {error : SessionError}
    (hrejected : (c.machine.connect m.clock credentials).2 = .error error) :
    c.step config m (.command ticket (.connect credentials)) =
      (c, [.reply ticket (.error (.session error))]) := by
  rcases c.machine.connect_cases m.clock credentials with ⟨given, h⟩ | ⟨_, _, h⟩
  · rw [h] at hrejected
    cases hrejected
    simp [step, hrunning, onCommand, startConnect, h]
  · rw [h] at hrejected
    cases hrejected

theorem step_connect_of_accepted
    (haccepted : (c.machine.connect m.clock credentials).2 = .ok attempt) :
    c.machine.state.isActive = false ∧
      (c.step config m (.command ticket (.connect credentials))).1.Awaited ticket credentials
        attempt ∧
      ∀ other,
        repliesTo other (c.step config m (.command ticket (.connect credentials))).2 = [] := by
  rcases c.machine.connect_cases m.clock credentials with ⟨error, h⟩ | ⟨_, hinactive, h⟩
  · rw [h] at haccepted
    cases haccepted
  · rw [h] at haccepted
    cases haccepted
    have hstep : c.step config m (.command ticket (.connect credentials)) =
        (c.dialing m ticket credentials, [(c.dialing m ticket credentials).status,
          .dial (c.machine.attempt + 1) (config.wireFormat.endpoint config.socketUrl)
            credentials.apiKey]) := by
      simp [step, hrunning, onCommand, startConnect, h, dialing]
    rw [hstep]
    exact ⟨hinactive, ⟨hrunning, rfl, rfl, rfl, rfl⟩, fun other => by simp [status]⟩

end Command

/-- A client that stops has answered every command to connect by then. -/
theorem exists_reply_to_connect (h : c.Unawaited ticket) {turns : List Turn}
    (hturns : ∀ t ∈ turns, t.input.ticket? ≠ some ticket)
    (hstopped : (c.after config (⟨m, .command ticket (.connect credentials)⟩ :: turns)).running =
      false) :
    ∃ reply, repliesTo ticket
      (c.effects config (⟨m, .command ticket (.connect credentials)⟩ :: turns)) = [reply] := by
  have hatonce (reply : Reply) (hstep : c.step config m (.command ticket (.connect credentials)) =
      (c, [.reply ticket reply])) :
      repliesTo ticket (c.effects config (⟨m, .command ticket (.connect credentials)⟩ :: turns)) =
        [reply] := by
    have hrest : repliesTo ticket (c.effects config turns) = [] := (h.run hturns).1
    simp [effectsOf, next, hstep, hrest]
  cases hrunning : c.running with
  | false => exact ⟨_, hatonce (.error .clientClosed) (by simp [step, hrunning, refuse])⟩
  | true =>
      cases hanswer : (c.machine.connect m.clock credentials).2 with
      | error error =>
          exact ⟨_, hatonce _ (step_connect_of_rejected config ticket hrunning hanswer)⟩
      | ok attempt =>
          obtain ⟨_, hawaited, hsilent⟩ := step_connect_of_accepted config ticket hrunning hanswer
          obtain ⟨reply, hreply⟩ := hawaited.exists_reply hturns hstopped
          refine ⟨reply, ?_⟩
          rw [effects_cons, repliesTo_append, effectsOf, hsilent, next, hreply, List.nil_append]

/-- **A command to connect is answered once.**  Take any run with a command to connect in it whose
ticket no other turn carries.  When the client has stopped at the end of the run, the command has
been given exactly one reply.  If the session rejects the command, it is answered at once, and
nothing changes.  If it is accepted for an attempt, then no other command was waiting, nobody is
answered yet, and the attempt is settled once by what comes after. -/
theorem connect_answered_once (config : Config) (before after : List Turn) (m : Moment)
    (ticket : Ticket) (credentials : Credentials)
    (hticket : ∀ t ∈ before ++ after, t.input.ticket? ≠ some ticket) :
    let c := (new config).after config before
    let t : Turn := ⟨m, .command ticket (.connect credentials)⟩
    let run := before ++ t :: after
    (((new config).after config run).running = false →
        ∃ reply, repliesTo ticket ((new config).effects config run) = [reply]) ∧
      (c.running = true →
        (∀ error, (c.machine.connect m.clock credentials).2 = .error error →
          c.next config t = c ∧
            c.effectsOf config t = [.reply ticket (.error (.session error))]) ∧
        ∀ attempt, (c.machine.connect m.clock credentials).2 = .ok attempt →
          c.pending = none ∧ (∀ other, repliesTo other (c.effectsOf config t) = []) ∧
            SettledOnce config ticket credentials attempt (c.next config t) after) := by
  intro c t run
  rw [List.forall_mem_append] at hticket
  obtain ⟨hbefore, hafter⟩ := hticket
  have hc : Reachable config c := reachable_after config before
  have hnew : (new config).Unawaited ticket := .of_none rfl
  have hsilent : repliesTo ticket ((new config).effects config before) = [] :=
    (hnew.run hbefore).1
  refine ⟨fun hstopped => ?_, fun hrunning => ⟨?_, ?_⟩⟩
  · rw [after_append] at hstopped
    rw [effects_append, repliesTo_append, hsilent, List.nil_append]
    exact exists_reply_to_connect (hnew.run hbefore).2 hafter hstopped
  · intro error hrejected
    have hstep := step_connect_of_rejected config ticket hrunning hrejected
    exact ⟨congrArg Prod.fst hstep, congrArg Prod.snd hstep⟩
  · intro attempt haccepted
    obtain ⟨hinactive, hawaited, hquiet⟩ :=
      step_connect_of_accepted config ticket hrunning haccepted
    have hconnecting : c.machine.state ≠ .connecting := by
      intro hstate
      simp [hstate, SessionState.isActive] at hinactive
    exact ⟨hc.coherent.pending_eq_none hconnecting, hquiet,
      hawaited.settledOnce (hc.after [t]) hafter⟩

/-- The attempt connects after the failure of another one, and before its own deadline. -/
theorem connect_answered_once_in_time :
    let m : Moment := ⟨⟨⟨⟨2024, 1, 1⟩, 0, 0, 0, 0⟩, 0⟩, 0, fun _ => 0⟩
    let credentials : Credentials := ⟨"key", "table"⟩
    let connect : Turn := ⟨m, .command 0 (.connect credentials)⟩
    let other : Turn := ⟨m, .report (.connectFailed 7 .cancelled)⟩
    let connected : Turn := ⟨m, .report (.connected 1 0)⟩
    let deadline : Turn := ⟨m, .deadline 1⟩
    let shutdown : Turn := ⟨m, .command 1 .shutdown⟩
    let run := [other, connect, other, connected, deadline, shutdown]
    let c := (new {}).after {} [other, connect, other, connected]
    ((new {}).after {} run).running = false ∧
      (∃ reply, repliesTo 0 ((new {}).effects {} run) = [reply]) ∧
      repliesTo 0 (((new {}).after {} [other, connect]).effects {}
        [other, connected, deadline, shutdown]) = [.ok (.table "table")] ∧
      (c.next {} deadline).feed = c.feed := by
  intro m credentials connect other connected deadline shutdown run c
  have hstopped : ((new {}).after {} run).running = false := by decide
  have hturns : ∀ t ∈ [other] ++ [other, connected, deadline, shutdown],
      t.input.ticket? ≠ some 0 := by
    simp [other, connected, deadline, shutdown]
  obtain ⟨hreply, hrunning⟩ := connect_answered_once {} [other]
    [other, connected, deadline, shutdown] m 0 credentials hturns
  obtain ⟨_, haccepted⟩ := hrunning (by decide)
  obtain ⟨_, _, hsettled⟩ := haccepted 1 (by decide)
  have hquiet : ∀ u ∈ [other], u.input.verdict? {} credentials 1 = none := by
    simp [other, Input.verdict?]
  refine ⟨hstopped, hreply hstopped, ?_, ?_⟩
  · exact (hsettled.decided [other] connected [deadline, shutdown] _ _ rfl hquiet rfl).2.2
  · exact (hsettled.late [other, connected] deadline [shutdown] _ rfl
      ⟨connected, by simp, rfl⟩ rfl rfl).1

end Client

end DiceTable

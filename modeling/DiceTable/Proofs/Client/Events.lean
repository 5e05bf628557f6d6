import DiceTable.Proofs.Client.Frame
import Mathlib.Data.List.Destutter

/-!
# The events tell the truth

A client tells its user of a new state, of a change to the feed, and of every frame of the current
attempt.  Each handler does so by itself, next to the change that it makes, so that whether the
events agree with the changes has to be checked handler by handler.

## Strategy

The events of one turn are determined by what the turn finds and where it leads (`Handled.told`):
the frame that is heard, then the new state if there is one, then the length of the feed if the feed
was cleared or rolls were put in, and then what is said in words.  That the rolls in question are
all that ever gets into the feed is said apart (`Handled.records`).

A run adds the turns up.  The states that are told are those before and after each turn without
repetitions (`destutter_states`).  This ends with the client: when it stops it ends its session, and
tells nobody.
-/

namespace DiceTable

/-- The event of an effect. -/
@[simp] def Effect.event? : Effect → Option ClientEvent
  | .emit event => some event
  | _ => none

/-- The events among these effects, in order. -/
def events (effects : List Effect) : List ClientEvent := effects.filterMap Effect.event?

/-- The state that an event tells of. -/
@[simp] def ClientEvent.state? : ClientEvent → Option SessionState
  | .statusChanged state => some state
  | _ => none

/-- Whether the input is a command to clear the feed. -/
def Input.clears : Input → Bool
  | .command _ .clear => true
  | _ => false

section Events

variable (effects later : List Effect)

@[simp] theorem events_nil : events [] = [] := rfl

@[simp] theorem events_append : events (effects ++ later) = events effects ++ events later :=
  List.filterMap_append

@[simp] theorem events_cons (effect : Effect) :
    events (effect :: effects) = effect.event?.toList ++ events effects := by
  rw [events, List.filterMap_cons]
  cases effect.event? <;> rfl

end Events

namespace FeedAction

/-- What an event asks of the feed is to put in the rolls of its frame. -/
theorem arranged_route_of_event (occasion : Occasion) {state : SessionState} {frame : Frame}
    {event : InboundEvent} (hevent : InboundEvent.ofFrame occasion.now frame = .ok event) :
    (route occasion state event).action.arranged = frame.carried occasion state := by
  rw [arranged_route, Frame.carried, Frame.rolls_eq, hevent]

end FeedAction

theorem Frame.carried_of_error (occasion : Occasion) (state : SessionState) {frame : Frame}
    {error : ProtocolError} (herror : InboundEvent.ofFrame occasion.now frame = .error error) :
    frame.carried occasion state = [] := by
  rw [Frame.carried, Frame.rolls_eq, herror, ite_self]

namespace Client

variable {config : Config} {m : Moment} {input : Input} {c c' : Client} {effects : List Effect}

/-! ## What there is to tell -/

/-- The frame that is heard: one of the current attempt. -/
def heard (c : Client) : Input → List Frame
  | .report (.frame attempt frame) => if attempt = c.machine.attempt then [frame] else []
  | _ => []

/-- The rolls that an input puts into the feed, first to last: those of a frame that is heard in a
connected session, or a roll that the server confirms while its attempt is live, without those that
the feed shows. -/
def inserted (c : Client) (m : Moment) : Input → List RollRecord
  | .report (.frame attempt frame) =>
      if attempt = c.machine.attempt then
        (frame.carried m.toOccasion c.machine.state).filter fun record => record.id ∉ c.feed.ids
      else []
  | .report (.ingested attempt _ roll (.ok receipt)) =>
      if c.machine.isLive attempt = true ∧ receipt.rollId ∉ c.feed.ids then
        [roll.toRecord receipt.rollId]
      else []
  | _ => []

/-- The events of a turn that leads from one client to another. -/
def told (c c' : Client) (m : Moment) (input : Input) (notices : List Notice) : List ClientEvent :=
  (c.heard input).map .messageReceived ++
    (if c'.machine.state = c.machine.state then [] else [.statusChanged c'.machine.state]) ++
    (if input.clears ∨ c.inserted m input ≠ [] then [.feedUpdated c'.feed.length] else []) ++
    notices.map .notice

/-! ## Effects without events -/

section Silent

variable (c)

@[simp] theorem events_releaseTransport : events c.releaseTransport.2 = [] := by
  rw [events, filterMap_releaseTransport (fun _ => rfl) fun _ => rfl]
  cases c.link <;> rfl

@[simp] theorem events_resolve (attempt : Attempt) (reply : Reply) :
    events (c.resolve attempt reply).2 = [] :=
  filterMap_resolve (fun _ _ => rfl) c attempt reply

end Silent

/-! ## One turn -/

/-- The new rolls of a delivery. -/
theorem arranged_delivered {frame : Frame} {event : InboundEvent}
    (hevent : InboundEvent.ofFrame m.now frame = .ok event) :
    ((route m.toOccasion c.machine.state event).action.withoutKnown c.feed).arranged =
      c.inserted m (.report (.frame c.machine.attempt frame)) := by
  have hknown (record : RollRecord) :
      (!c.feed.contains record.id) = decide (record.id ∉ c.feed.ids) := by
    rw [Bool.eq_iff_iff, Bool.not_eq_true', Feed.contains_eq_false_iff, decide_eq_true_iff]
  rw [FeedAction.arranged_withoutKnown,
    FeedAction.arranged_route_of_event m.toOccasion hevent, inserted, if_pos rfl]
  simp only [hknown]

theorem events_deliveryEffects {frame : Frame} {event : InboundEvent}
    (hevent : InboundEvent.ofFrame m.now frame = .ok event) :
    let routed := route m.toOccasion c.machine.state event
    events (c.deliveryEffects frame routed) =
      c.told (c.delivered m frame routed.action) m (.report (.frame c.machine.attempt frame))
        routed.notice.toList := by
  intro routed
  have hnew : 0 < ((routed.action.withoutKnown c.feed).apply c.feed).2 ↔
      c.inserted m (.report (.frame c.machine.attempt frame)) ≠ [] := by
    rw [FeedAction.inserted_apply, arranged_delivered hevent, List.length_pos_iff]
  have hnotice : events (routed.notice.map notify).toList = routed.notice.toList.map .notice := by
    cases routed.notice <;> rfl
  have hlength : events (if 0 < ((routed.action.withoutKnown c.feed).apply c.feed).2 then
        [feedStatus { c with feed := ((routed.action.withoutKnown c.feed).apply c.feed).1 }]
      else []) =
      if c.inserted m (.report (.frame c.machine.attempt frame)) ≠ [] then
        [.feedUpdated (c.delivered m frame routed.action).feed.length] else [] := by
    by_cases hfresh : c.inserted m (.report (.frame c.machine.attempt frame)) = []
    · rw [if_neg (mt hnew.mp (not_not_intro hfresh)), if_neg (not_not_intro hfresh), events_nil]
    · rw [if_pos (hnew.mpr hfresh), if_pos hfresh]
      rfl
  simp [deliveryEffects, told, heard, Input.clears, hnotice, hlength, delivered]

/-- The events of a turn, in order. -/
theorem Handled.told (hhandled : Handled config m c input c' effects) (hrunning : c.running = true)
    (hgoing : c'.running = true) : ∃ notices, events effects = c.told c' m input notices := by
  cases hhandled with
  | refused hstopped => simp [hrunning] at hstopped
  | shutdown => exact Bool.noConfusion hgoing
  | abandoned => exact Bool.noConfusion hgoing
  -- The state is new: an attempt starts between two sessions, and ends or connects in one.
  | connectStarted _ _ hinactive =>
      have hnew : SessionState.connecting ≠ c.machine.state := by
        intro hstate
        simp [← hstate, SessionState.isActive] at hinactive
      exact ⟨[], by simp [Client.told, status, dialing, heard, inserted, Input.clears, hnew]⟩
  | disconnected _ hactive =>
      have hnew : SessionState.disconnected ≠ c.machine.state := by
        intro hstate
        simp [← hstate, SessionState.isActive] at hactive
      exact ⟨[], by simp [Client.told, status, released, heard, inserted, Input.clears, hnew]⟩
  | linked _ hstate =>
      exact ⟨[connectedNotice], by
        simp [Client.told, status, notify, Client.linked, heard, inserted, Input.clears, hstate]⟩
  | @failed error _ hstate =>
      exact ⟨[.error ("Connection failed: " ++ error.message)], by
        simp [Client.told, status, notify, Client.failed, heard, inserted, Input.clears, hstate]⟩
  | timedOut _ hstate =>
      refine ⟨[timeoutNotice], ?_⟩
      cases c.dialer <;>
        simp [Client.told, status, notify, Client.failed, heard, inserted, Input.clears, hstate]
  | lost _ hstate =>
      exact ⟨[], by simp [Client.told, status, unlinked, heard, inserted, Input.clears, hstate]⟩
  -- The feed may be new.
  | cleared => exact ⟨[], by simp [Client.told, feedStatus, heard, Input.clears]⟩
  | delivered _ hevent => exact ⟨_, events_deliveryEffects hevent⟩
  | @ingested _ _ _ receipt _ hlive hnew =>
      have hfresh := Feed.contains_eq_false_iff.mp hnew
      exact ⟨[.info ("Roll sent! Roll ID: " ++ receipt.rollId)], by
        simp [Client.told, notify, feedStatus, heard, inserted, Input.clears, hlive, hfresh]⟩
  -- Neither is new.
  | frameLate _ hlate => exact ⟨[], by simp [Client.told, heard, inserted, Input.clears, hlate]⟩
  | frameUnreadable _ herror =>
      have hnone := Frame.carried_of_error m.toOccasion c.machine.state herror
      exact ⟨[], by simp [Client.told, heard, inserted, Input.clears, hnone]⟩
  | @ingestFailed _ _ _ error =>
      exact ⟨[.error ("Failed to send roll: " ++ error.message)], by
        simp [Client.told, notify, heard, inserted, Input.clears]⟩
  | ingestLate _ hlate => exact ⟨[], by simp [Client.told, heard, inserted, Input.clears, hlate]⟩
  | @ingestKnown _ _ _ receipt _ _ hknown =>
      have hshown : receipt.rollId ∈ c.feed.ids := Feed.contains_iff.mp hknown
      exact ⟨[.info ("Roll sent! Roll ID: " ++ receipt.rollId)], by
        simp [Client.told, notify, heard, inserted, Input.clears, hshown]⟩
  | @submissionInvalid _ _ _ _ error =>
      exact ⟨[.error error.message], by simp [Client.told, notify, heard, inserted, Input.clears]⟩
  | submissionUnconnected =>
      exact ⟨[.error ClientError.notConnected.message], by
        simp [Client.told, notify, heard, inserted, Input.clears]⟩
  | _ => exact ⟨[], by simp [Client.told, heard, inserted, Input.clears]⟩

/-- The rolls that are put in stand in front of the feed, and are cut off with it. -/
theorem Handled.records (hhandled : Handled config m c input c' effects)
    (hrunning : c.running = true) (hlength : c.feed.records.length ≤ c.feed.capacity) :
    c'.feed.records = if input.clears then [] else
      ((c.inserted m input).reverse ++ c.feed.records).take c.feed.capacity := by
  have hsame (hfeed : c'.feed = c.feed) (hclears : input.clears = false)
      (hnone : c.inserted m input = []) :
      c'.feed.records = if input.clears then [] else
        ((c.inserted m input).reverse ++ c.feed.records).take c.feed.capacity := by
    simp [hfeed, hclears, hnone, List.take_of_length_le hlength]
  cases hhandled with
  | refused hstopped => simp [hrunning] at hstopped
  | cleared => rfl
  | @delivered frame event _ hevent =>
      have hrecords := FeedAction.records_apply
        ((route m.toOccasion c.machine.state event).action.withoutKnown c.feed) hlength
      rwa [arranged_delivered hevent] at hrecords
  | @ingested attempt ticket roll receipt _ hlive hnew =>
      have hfresh := Feed.contains_eq_false_iff.mp hnew
      have hinserted : c.inserted m (.report (.ingested attempt ticket roll (.ok receipt))) =
          [roll.toRecord receipt.rollId] := if_pos ⟨hlive, hfresh⟩
      rw [hinserted]
      rfl
  | frameLate _ hlate => exact hsame rfl rfl (if_neg hlate)
  | frameUnreadable _ herror =>
      refine hsame rfl rfl ?_
      rw [inserted, if_pos rfl, Frame.carried_of_error m.toOccasion c.machine.state herror,
        List.filter_nil]
  | ingestLate _ hlate => exact hsame rfl rfl (by simp [inserted, hlate])
  | @ingestKnown _ _ _ receipt _ _ hknown =>
      have hshown : receipt.rollId ∈ c.feed.ids := Feed.contains_iff.mp hknown
      exact hsame rfl rfl (by simp [inserted, hshown])
  | disconnected => exact hsame resolve_feed rfl rfl
  | linked => exact hsame resolve_feed rfl rfl
  | failed => exact hsame resolve_feed rfl rfl
  | timedOut => exact hsame resolve_feed rfl rfl
  | _ => exact hsame rfl rfl rfl

/-! ## Runs -/

theorem running_of_next {t : Turn} (h : (c.next config t).running = true) : c.running = true := by
  cases hrunning : c.running with
  | true => rfl
  | false => simp [next, step, hrunning] at h

theorem running_of_after (turns : List Turn) (h : (c.after config turns).running = true) :
    c.running = true := by
  induction turns generalizing c with
  | nil => exact h
  | cons t turns ih => exact running_of_next (ih h)

/-- The states that are told of, in order. -/
def announced (effects : List Effect) : List SessionState :=
  (events effects).filterMap ClientEvent.state?

/-- The states of the session: before these turns, and after each of them. -/
def states (config : Config) (c : Client) (turns : List Turn) : List SessionState :=
  turns.inits.map fun past => (c.after config past).machine.state

theorem states_cons (t : Turn) (turns : List Turn) :
    states config c (t :: turns) = c.machine.state :: states config (c.next config t) turns := by
  simp [states, after]

theorem announced_append (effects later : List Effect) :
    announced (effects ++ later) = announced effects ++ announced later := by
  simp [announced]

/-- A turn tells of the state to which it leads, if that is a new one. -/
theorem announced_effectsOf {t : Turn} (hgoing : (c.next config t).running = true) :
    announced (c.effectsOf config t) =
      if (c.next config t).machine.state = c.machine.state then []
      else [(c.next config t).machine.state] := by
  obtain ⟨notices, hevents⟩ := (handled_next config c t).told (running_of_next hgoing) hgoing
  have hframes (frames : List Frame) :
      (frames.map ClientEvent.messageReceived).filterMap ClientEvent.state? = [] := by
    simp [List.filterMap_map, Function.comp_def]
  have hnotices : (notices.map ClientEvent.notice).filterMap ClientEvent.state? = [] := by
    simp [List.filterMap_map, Function.comp_def]
  rw [announced, hevents, told]
  simp only [List.filterMap_append, hframes, hnotices]
  split <;> split <;> rfl

/-- The states that are told of in a run are those that the session goes through, without the
repetitions while it stays in one. -/
theorem destutter_states {turns : List Turn} (hgoing : (c.after config turns).running = true) :
    (states config c turns).destutter (· ≠ ·) =
      c.machine.state :: announced (c.effects config turns) := by
  induction turns generalizing c with
  | nil => rfl
  | cons t turns ih =>
      obtain ⟨rest, hstates⟩ : ∃ rest, states config (c.next config t) turns =
          (c.next config t).machine.state :: rest := by
        cases turns with
        | nil => exact ⟨[], rfl⟩
        | cons u turns => exact ⟨_, states_cons u turns⟩
      have hrest := ih (c := c.next config t) hgoing
      rw [hstates, List.destutter_cons'] at hrest
      rw [states_cons, hstates, effects_cons, announced_append,
        announced_effectsOf (running_of_after turns hgoing), List.destutter_cons_cons]
      by_cases hsame : (c.next config t).machine.state = c.machine.state
      · rw [if_neg (not_not_intro hsame.symm), if_pos hsame, List.nil_append, ← hsame, hrest]
      · rw [if_pos (Ne.symm hsame), if_neg hsame, hrest, List.singleton_append]

theorem getLast?_announced {turns : List Turn} (hgoing : (c.after config turns).running = true) :
    (c.machine.state :: announced (c.effects config turns)).getLast? =
      some (c.after config turns).machine.state := by
  induction turns generalizing c with
  | nil => rfl
  | cons t turns ih =>
      have hrest := ih (c := c.next config t) hgoing
      rw [effects_cons, announced_append, announced_effectsOf (running_of_after turns hgoing),
        after_cons, ← hrest]
      by_cases hsame : (c.next config t).machine.state = c.machine.state
      · rw [if_pos hsame, hsame, List.nil_append]
      · rw [if_neg hsame, List.singleton_append, List.getLast?_cons_cons]

/-- A turn that neither clears the feed nor puts anything in leaves it as it is. -/
theorem Reachable.feed_next (h : Reachable config c) {t : Turn} (hrunning : c.running = true)
    (hclears : t.input.clears = false) (hnone : c.inserted t.moment t.input = []) :
    (c.next config t).feed = c.feed := by
  have hrecords := (handled_next config c t).records hrunning h.length_feed_le
  have hcapacity : (c.next config t).feed.capacity = c.feed.capacity := by
    have hnext : Reachable config (c.next config t) := h.after [t]
    rw [hnext.capacity_feed, h.capacity_feed]
  simp only [hclears, hnone, List.reverse_nil, List.nil_append,
    List.take_of_length_le h.length_feed_le] at hrecords
  exact congrArg₂ Feed.mk hrecords hcapacity

/-! ## The main statement -/

/-- **The events tell the truth.**  Take any run of a client that has not stopped yet.  The states
that it has told of are those that its session went through since it was idle, one for each
change, so that the last of them is the current one.  In any turn that comes next and does not
stop it, it tells, in this order: of the frame, if there is one and it belongs to the current
attempt; of the new state, if there is one; of the length that the feed has after the turn, if the
turn clears the feed or puts in at least one roll; and then perhaps something in words.  The feed
is what the turn clears and puts in, so that it never changes unless the user is told. -/
theorem events_tell_the_truth (config : Config) (turns : List Turn)
    (hgoing : ((new config).after config turns).running = true) :
    let c := (new config).after config turns
    let told := announced ((new config).effects config turns)
    ((states config (new config) turns).destutter (· ≠ ·) = .idle :: told ∧
        (.idle :: told).getLast? = some c.machine.state) ∧
      ∀ t, let c' := c.next config t
        c'.running = true →
          (∃ notices : List Notice, events (c.effectsOf config t) =
            (c.heard t.input).map .messageReceived ++
              (if c'.machine.state = c.machine.state then [] else
                [.statusChanged c'.machine.state]) ++
              (if t.input.clears ∨ c.inserted t.moment t.input ≠ [] then
                [.feedUpdated c'.feed.length] else []) ++
              notices.map .notice) ∧
          c'.feed.records = (if t.input.clears then [] else
            ((c.inserted t.moment t.input).reverse ++ c.feed.records).take
              (max config.feedCapacity 1)) ∧
          (c'.feed ≠ c.feed → .feedUpdated c'.feed.length ∈ events (c.effectsOf config t)) := by
  intro c told
  have hc : Reachable config c := reachable_after config turns
  refine ⟨⟨destutter_states hgoing, getLast?_announced hgoing⟩, ?_⟩
  intro t c' hnext
  have hhandled := handled_next config c t
  obtain ⟨notices, hevents⟩ := hhandled.told hgoing hnext
  refine ⟨⟨notices, hevents⟩, ?_, fun hchanged => ?_⟩
  · have hrecords := hhandled.records hgoing hc.length_feed_le
    rwa [hc.capacity_feed] at hrecords
  · have htold : t.input.clears ∨ c.inserted t.moment t.input ≠ [] := by
      by_contra hquiet
      rw [not_or, Bool.not_eq_true, ne_eq, not_not] at hquiet
      exact hchanged (hc.feed_next hgoing hquiet.1 hquiet.2)
    rw [hevents, Client.told, if_pos htold]
    simp [c']

/-- The roll of a history comes once more by itself, and then another one. -/
theorem events_tell_the_truth_echoed :
    let m : Moment := ⟨⟨⟨⟨2024, 1, 1⟩, 0, 0, 0, 0⟩, 0⟩, 0, fun _ => 0⟩
    let roll (id : String) : Json.Value := .object [("rollId", .string id),
      ("notation", .string "1d20"), ("total", .number (.whole 7))]
    let single (id : String) : Frame := ⟨"roll:new", roll id⟩
    let turns : List Turn := [⟨m, .command 0 (.connect ⟨"key", "table"⟩)⟩,
      ⟨m, .report (.connected 1 0)⟩,
      ⟨m, .report (.frame 1 ⟨"table:history", .object [("rolls", .array [roll "r"])]⟩)⟩]
    let c := (new {}).after {} turns
    c.running = true ∧
      announced ((new {}).effects {} turns) = [.connecting, .connected "table"] ∧
      (∃ notices : List Notice, events (c.effectsOf {} ⟨m, .report (.frame 1 (single "r"))⟩) =
        [.messageReceived (single "r")] ++ notices.map .notice) ∧
      ∃ notices : List Notice, events (c.effectsOf {} ⟨m, .report (.frame 1 (single "s"))⟩) =
        [.messageReceived (single "s"), .feedUpdated 2] ++ notices.map .notice := by
  intro m roll single turns c
  have hgoing : c.running = true := by decide
  obtain ⟨⟨hstates, _⟩, hturn⟩ := events_tell_the_truth {} turns hgoing
  have hvisited : (states {} (new {}) turns).destutter (· ≠ ·) =
      [.idle, .connecting, .connected "table"] := by decide
  obtain ⟨⟨known, hknown⟩, _⟩ := hturn ⟨m, .report (.frame 1 (single "r"))⟩ (by decide)
  obtain ⟨⟨fresh, hfresh⟩, _⟩ := hturn ⟨m, .report (.frame 1 (single "s"))⟩ (by decide)
  refine ⟨hgoing, (List.cons.inj (hstates.symm.trans hvisited)).2, ⟨known, ?_⟩, ⟨fresh, ?_⟩⟩
  · rw [hknown]
    exact congrArg (· ++ known.map ClientEvent.notice) (by decide)
  · rw [hfresh]
    exact congrArg (· ++ fresh.map ClientEvent.notice) (by decide)

end Client

end DiceTable

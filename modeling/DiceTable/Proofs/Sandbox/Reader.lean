import DiceTable.Proofs.Sandbox.Stage

/-!
# A reader has no influence

Events wait for the user in a queue of bounded length.  The user may be slow to read them, may never
read them, or may go away, and nothing but the events themselves depends on that.

## Strategy

The reader's beats are taken out of a run.  What is left leads to an *alike* stage, the same but for
the queue and its length: each beat keeps stages alike, since what happens around the client is
outside, an event changes nothing but the queue, and the client does not look at the length of the
queue (`step_withBuffer`); and a beat of the reader leads to an alike stage.

What becomes of the events is a matter of one list: those that were received, followed by those that
wait (`kept`).  An event that is brought about is added to it at the end, or is lost; and it is not
lost if there is room in the queue and the reader stays (`kept_beat`).
-/

namespace DiceTable

namespace Client

variable (config : Config) (buffer : Nat)

/-- The client does not look at the length of the queue. -/
theorem step_withBuffer (m : Moment) (c : Client) (input : Input) :
    c.step (config.withBuffer buffer) m input = c.step config m input := by
  cases input with
  | command ticket command => cases command <;> rfl
  | report report => cases report <;> rfl
  | _ => rfl

theorem next_withBuffer (c : Client) (t : Turn) :
    c.next (config.withBuffer buffer) t = c.next config t :=
  congrArg Prod.fst (step_withBuffer config buffer t.moment c t.input)

theorem effectsOf_withBuffer (c : Client) (t : Turn) :
    c.effectsOf (config.withBuffer buffer) t = c.effectsOf config t :=
  congrArg Prod.snd (step_withBuffer config buffer t.moment c t.input)

theorem after_withBuffer (c : Client) (turns : List Turn) :
    c.after (config.withBuffer buffer) turns = c.after config turns := by
  induction turns generalizing c with
  | nil => rfl
  | cons t turns ih => rw [after_cons, after_cons, next_withBuffer, ih]

theorem effects_withBuffer (c : Client) (turns : List Turn) :
    c.effects (config.withBuffer buffer) turns = c.effects config turns := by
  induction turns generalizing c with
  | nil => rfl
  | cons t turns ih => rw [effects_cons, effects_cons, effectsOf_withBuffer, next_withBuffer, ih]

end Client

namespace Sandbox

/-! ## Runs without their reader -/

/-- The worlds are the same but for the queue of events and its length. -/
def World.Alike (w w' : World) : Prop :=
  ∃ queue buffer, w' = { w with events := queue, config := w.config.withBuffer buffer }

namespace World.Alike

variable {w w' : World}

/-- What goes on outside keeps worlds alike. -/
theorem outside (h : w.Alike w') {f : World → World} (hf : Outside f) : (f w).Alike (f w') := by
  obtain ⟨queue, buffer, rfl⟩ := h
  refine ⟨queue, buffer, ?_⟩
  have hsame := hf w { w with events := queue, config := w.config.withBuffer buffer } rfl
  exact hsame.trans (by rw [World.within, hf.client, hf.config])

theorem perform (h : w.Alike w') (effect : Effect) :
    (w.perform effect).Alike (w'.perform effect) := by
  cases effect with
  | emit event =>
      obtain ⟨queue, buffer, rfl⟩ := h
      exact ⟨queue.push event, buffer, rfl⟩
  | _ => exact h.outside (outside_perform rfl)

end World.Alike

/-- Whether a beat is the reader's. -/
def Beat.isReaders : Beat → Bool
  | .take | .leave => true
  | _ => false

/-- A run without its reader. -/
def unread (beats : List Beat) : List Beat := beats.filter (!·.isReaders)

namespace Stage

/-- The stages are the same but for the queue of events, its length, and what was received. -/
structure Alike (s s' : Stage) : Prop where
  world : s.world.Alike s'.world
  outbox : s'.outbox = s.outbox
  performed : s'.performed = s.performed

namespace Alike

variable {s s' s'' : Stage}

theorem refl (s : Stage) : s.Alike s where
  world := ⟨s.world.events, s.world.config.eventBuffer, rfl⟩
  outbox := rfl
  performed := rfl

theorem symm (h : s.Alike s') : s'.Alike s where
  world := by
    obtain ⟨queue, buffer, hworld⟩ := h.world
    rw [hworld]
    exact ⟨s.world.events, s.world.config.eventBuffer, rfl⟩
  outbox := h.outbox.symm
  performed := h.performed.symm

theorem trans (h : s.Alike s') (h' : s'.Alike s'') : s.Alike s'' where
  world := by
    obtain ⟨queue, buffer, hworld⟩ := h.world
    obtain ⟨queue', buffer', hworld'⟩ := h'.world
    rw [hworld] at hworld'
    exact ⟨queue', buffer', hworld'⟩
  outbox := h'.outbox.trans h.outbox
  performed := h'.performed.trans h.performed

/-- What the reader does is seen in the queue only. -/
theorem of_isReaders (s : Stage) {b : Beat} (hb : b.isReaders = true) : s.Alike (s.beat b) := by
  cases b with
  | take =>
      unfold beat
      cases s.world.events.waiting with
      | nil => exact .refl s
      | cons event rest => exact ⟨⟨_, s.world.config.eventBuffer, rfl⟩, rfl, rfl⟩
  | leave => exact ⟨⟨_, s.world.config.eventBuffer, rfl⟩, rfl, rfl⟩
  | _ => simp [Beat.isReaders] at hb

theorem beat (h : s.Alike s') (b : Beat) : (s.beat b).Alike (s'.beat b) := by
  cases b with
  | turn t =>
      obtain ⟨⟨queue, buffer, hworld⟩, houtbox, hperformed⟩ := h
      refine ⟨⟨queue, buffer, ?_⟩, ?_, hperformed⟩
      · simp only [Stage.beat, hworld, Client.next_withBuffer]
      · simp only [Stage.beat, hworld, houtbox, Client.effectsOf_withBuffer]
  | perform =>
      unfold Stage.beat
      rw [h.outbox]
      cases s.outbox with
      | nil => exact h
      | cons effect rest => exact ⟨h.world.perform effect, rfl, congrArg (· ++ _) h.performed⟩
  | around happening =>
      exact ⟨h.world.outside (World.outside_happen happening), h.outbox, h.performed⟩
  | _ => exact (of_isReaders s rfl).symm.trans (h.trans (of_isReaders s' rfl))

theorem after (h : s.Alike s') (beats : List Beat) : (s.after beats).Alike (s'.after beats) := by
  induction beats generalizing s s' with
  | nil => exact h
  | cons b beats ih => exact ih (h.beat b)

/-- A run leads where it leads without its reader. -/
theorem after_unread (s : Stage) (beats : List Beat) :
    (s.after (unread beats)).Alike (s.after beats) := by
  induction beats generalizing s with
  | nil => exact .refl s
  | cons b beats ih =>
      cases hb : b.isReaders with
      | false =>
          rw [unread, List.filter_cons_of_pos (by simp [hb])]
          exact ih (s.beat b)
      | true =>
          rw [unread, List.filter_cons_of_neg (by simp [hb])]
          exact (ih s).trans ((of_isReaders s hb).after beats)

end Alike

/-! ## What becomes of the events -/

variable (s : Stage)

/-- The events that were received, and those that wait. -/
def kept (s : Stage) : List ClientEvent := s.received ++ s.world.events.waiting

/-- There is room for an event, and somebody who reads it. -/
def HasRoom (s : Stage) : Prop :=
  s.world.events.hasReader = true ∧ s.world.events.waiting.length < s.world.events.capacity

/-- An event is added at the end, or lost; it is not lost if there is room. -/
theorem kept_push (event : ClientEvent) :
    (s.received ++ (s.world.events.push event).waiting).Sublist (s.kept ++ [event]) ∧
      (s.HasRoom → s.received ++ (s.world.events.push event).waiting = s.kept ++ [event]) := by
  constructor
  · rcases s.world.events.push_eq event with heq | heq
    · rw [heq]
      exact List.sublist_append_left _ _
    · rw [heq, kept, List.append_assoc]
  · intro hroom
    rw [EventQueue.push, if_pos (by simp [hroom.1, hroom.2]), kept, List.append_assoc]

/-- A beat loses an event only if the queue is full or the reader leaves. -/
theorem kept_beat (b : Beat) : ∃ new, events (s.beat b).performed = events s.performed ++ new ∧
    (s.beat b).kept.Sublist (s.kept ++ new) ∧
      (b ≠ .leave → (b = .perform → s.HasRoom) → (s.beat b).kept = s.kept ++ new) := by
  have hsame (hperformed : (s.beat b).performed = s.performed) (hkept : (s.beat b).kept = s.kept) :
      ∃ new, events (s.beat b).performed = events s.performed ++ new ∧
        (s.beat b).kept.Sublist (s.kept ++ new) ∧
          (b ≠ .leave → (b = .perform → s.HasRoom) → (s.beat b).kept = s.kept ++ new) :=
    ⟨[], by simp [hperformed], by simp [hkept], by simp [hkept]⟩
  cases b with
  | turn t => exact hsame rfl rfl
  | perform =>
      cases houtbox : s.outbox with
      | nil => exact hsame (by rw [beat, houtbox]) (by rw [beat, houtbox])
      | cons effect rest =>
          have hbeat : s.beat .perform = { s with
              world := s.world.perform effect
              outbox := rest
              performed := s.performed ++ [effect] } := by
            rw [beat, houtbox]
          have hnew : events (s.beat .perform).performed =
              events s.performed ++ effect.event?.toList := by
            rw [hbeat, events_append, events_cons, events_nil, List.append_nil]
          refine ⟨effect.event?.toList, hnew, ?_⟩
          rw [hbeat]
          cases heffect : effect.event? with
          | none =>
              have hqueue := (World.outside_perform heffect).events s.world
              simp [kept, hqueue]
          | some event =>
              obtain rfl : effect = .emit event := by cases effect <;> simp_all
              exact ⟨(s.kept_push event).1, fun _ hroom => (s.kept_push event).2 (hroom rfl)⟩
  | around happening =>
      have hqueue := (World.outside_happen happening).events s.world
      exact hsame rfl (by simp [kept, beat, hqueue])
  | take =>
      cases hwaiting : s.world.events.waiting <;>
        exact hsame (by simp [beat, hwaiting]) (by simp [kept, beat, hwaiting])
  | leave => exact ⟨[], by simp [beat], by simp [kept, beat, EventQueue.abandon], by simp⟩

theorem kept_after (beats : List Beat) (h : s.kept.Sublist (events s.performed)) :
    (s.after beats).kept.Sublist (events (s.after beats).performed) := by
  induction beats generalizing s with
  | nil => exact h
  | cons b beats ih =>
      obtain ⟨new, hnew, hkept, -⟩ := s.kept_beat b
      exact ih (s.beat b) (hnew ▸ hkept.trans (h.append_right new))

theorem kept_after_eq {beats : List Beat} (hstays : .leave ∉ beats)
    (hroom : ∀ past, past ++ [.perform] <+: beats → (s.after past).HasRoom)
    (h : s.kept = events s.performed) :
    (s.after beats).kept = events (s.after beats).performed := by
  induction beats generalizing s with
  | nil => exact h
  | cons b beats ih =>
      rw [List.mem_cons, not_or] at hstays
      obtain ⟨new, hnew, -, hkept⟩ := s.kept_beat b
      refine ih (s.beat b) hstays.2
        (fun past hpast => hroom (b :: past) (List.cons_prefix_cons.mpr ⟨rfl, hpast⟩)) ?_
      rw [hnew, ← h]
      exact hkept (Ne.symm hstays.1) fun hb => hroom [] (by rw [hb]; exact ⟨beats, rfl⟩)

/-- The queue keeps its length, and its reader unless the reader leaves. -/
theorem queue_beat (b : Beat) :
    (s.beat b).world.events.capacity = s.world.events.capacity ∧
      (b ≠ .leave → (s.beat b).world.events.hasReader = s.world.events.hasReader) := by
  cases b with
  | turn t => exact ⟨rfl, fun _ => rfl⟩
  | perform =>
      unfold beat
      rcases s.outbox with _ | ⟨effect, rest⟩
      · exact ⟨rfl, fun _ => rfl⟩
      · cases effect with
        | emit event =>
            rcases s.world.events.push_eq event with heq | heq <;> simp [World.perform, heq]
        | _ => exact ⟨rfl, fun _ => rfl⟩
  | around happening => simp [beat, (World.outside_happen happening).events s.world]
  | take =>
      unfold beat
      cases s.world.events.waiting <;> exact ⟨rfl, fun _ => rfl⟩
  | leave => exact ⟨rfl, fun hb => absurd rfl hb⟩

theorem queue_after (beats : List Beat) :
    (s.after beats).world.events.capacity = s.world.events.capacity ∧
      (.leave ∉ beats → (s.after beats).world.events.hasReader = s.world.events.hasReader) := by
  induction beats generalizing s with
  | nil => exact ⟨rfl, fun _ => rfl⟩
  | cons b beats ih =>
      refine ⟨(ih (s.beat b)).1.trans (s.queue_beat b).1, fun hstays => ?_⟩
      rw [List.mem_cons, not_or] at hstays
      exact ((ih (s.beat b)).2 hstays.2).trans ((s.queue_beat b).2 (Ne.symm hstays.1))

/-! ## The main statement -/

/-- The start of a run in this world, with a new queue of this length. -/
def start (w : World) (buffer : Nat) : Stage where
  world := { w with events := { capacity := buffer }, config := w.config.withBuffer buffer }

/-- **A reader has no influence.**  Begin in any world, with a queue of any length, and let a reader
take events at any moments, or never, or go away.

The client and its effects are those of its turns: its snapshots, replies, messages and submissions.
In two runs that differ in nothing but the length of the queue and what the reader does, the world
is the same but for the queue: every reply, everything that was sent on a connection and every roll
that was submitted.

The events that the reader receives are among those that were emitted, in the same order.  If the
reader stays, and the queue has room whenever an effect is brought about, none is missing. -/
theorem reader_has_no_influence (w : World) :
    (∀ buffer beats,
        let s := (start w buffer).after beats
        s.world.client = w.client.after w.config (turnsOf beats) ∧
          s.performed ++ s.outbox = w.client.effects w.config (turnsOf beats)) ∧
      (∀ buffer buffer' beats beats', unread beats = unread beats' →
        ((start w buffer).after beats).Alike ((start w buffer').after beats')) ∧
      ∀ buffer beats,
        let s := (start w buffer).after beats
        s.received.Sublist (events s.performed) ∧
          (.leave ∉ beats →
            (∀ past, past ++ [.perform] <+: beats →
              ((start w buffer).after past).world.events.waiting.length < buffer) →
            s.received ++ s.world.events.waiting = events s.performed) := by
  refine ⟨fun buffer beats => ⟨?_, ?_⟩, fun buffer buffer' beats beats' hsame => ?_,
    fun buffer beats => ⟨?_, fun hstays hroom => ?_⟩⟩
  · exact ((start w buffer).client_after beats).trans (Client.after_withBuffer w.config buffer _ _)
  · exact ((start w buffer).effects_after beats).trans
      (Client.effects_withBuffer w.config buffer w.client _)
  · have hstart : (start w buffer).Alike (start w buffer') := ⟨⟨_, buffer', rfl⟩, rfl, rfl⟩
    have hunread := hstart.after (unread beats)
    have hleft := (Alike.after_unread (start w buffer) beats).symm
    have hright := Alike.after_unread (start w buffer') beats'
    rw [← hsame] at hright
    exact hleft.trans (hunread.trans hright)
  · have hkept := (start w buffer).kept_after beats (List.Sublist.refl [])
    exact (List.sublist_append_left _ _).trans hkept
  · refine (start w buffer).kept_after_eq hstays (fun past hpast => ?_) rfl
    have hqueue := (start w buffer).queue_after past
    have hpaststays : .leave ∉ past := fun hleave =>
      hstays (hpast.subset (List.mem_append_left _ hleave))
    exact ⟨hqueue.2 hpaststays, (hroom past hpast).trans_eq hqueue.1.symm⟩

/-- A feed is cleared three times, and nobody reads: a queue of length two keeps the first two
events, and all commands are answered. -/
example :
    let m : Moment := ⟨⟨⟨⟨2024, 1, 1⟩, 0, 0, 0, 0⟩, 0⟩, 0, fun _ => 0⟩
    let clear (ticket : Ticket) : List Beat :=
      [.turn ⟨m, .command ticket .clear⟩, .perform, .perform]
    let s := (start (.new {} m.now m.words) 2).after (clear 1 ++ clear 2 ++ clear 3)
    s.world.events.waiting = [.feedUpdated 0, .feedUpdated 0] ∧
      s.world.replies = [(1, .ok .done), (2, .ok .done), (3, .ok .done)] := by
  decide

end Stage

end Sandbox

end DiceTable

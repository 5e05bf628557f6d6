import DiceTable.Proofs.Client.Slots
import DiceTable.Proofs.Feed.Delivery

/-!
# Every roll is shown once

A roll gets into the feed of a client in one of three ways: alone in a frame, in a batch, or as a
submission that the server has confirmed.  Each of them compares with what the feed shows, and with
nothing else.  So the feed stays tidy in every run in which no batch repeats a roll within itself,
whatever the order of frames, confirmations, clears and reconnects.
-/

namespace DiceTable

/-- If the turn brings a history or the recent rolls of a subscription, no roll is in it twice. -/
def Turn.RollsDistinct (t : Turn) : Prop :=
  ∀ attempt frame event, t.input = .report (.frame attempt frame) →
    InboundEvent.ofFrame t.moment.now frame = .ok event → (event.batch.map (·.id)).Nodup

namespace Client

variable {config : Config} {m : Moment} {input : Input} {c c' : Client} {effects : List Effect}

theorem tidy_step (hc : c.feed.Tidy) (hdistinct : (Turn.mk m input).RollsDistinct)
    (hhandled : Handled config m c input c' effects) : c'.feed.Tidy := by
  -- Rolls are put in by a delivery or a confirmation; all other inputs at most clear the feed.
  cases hhandled with
  | cleared => exact hc.clear
  | @delivered frame event _ hevent =>
      refine hc.deliver _ ?_
      rw [arranged_route]
      split
      · have hbatch : (event.batch.map (·.id)).Nodup := hdistinct _ frame event rfl hevent
        exact InboundEvent.nodup_rolls hbatch m.toOccasion
      · exact List.nodup_nil
  | ingested _ _ hnew => exact hc.prepend hnew
  | disconnected => rwa [resolve_feed]
  | linked => rwa [resolve_feed]
  | failed => rwa [resolve_feed]
  | timedOut => rwa [resolve_feed]
  | _ => exact hc

theorem tidy_after {turns : List Turn} (hturns : ∀ t ∈ turns, t.RollsDistinct) :
    ((new config).after config turns).feed.Tidy :=
  after_induction (P := fun c => c.feed.Tidy) Turn.RollsDistinct
    (fun c t hc ht => tidy_step hc ht (handled_next config c t))
    (Feed.tidy_new config.feedCapacity) hturns

/-- A roll that the server confirms while its attempt is live is shown. -/
theorem mem_ids_of_ingested {attempt : Attempt} {ticket : Ticket} {roll : NewRoll}
    {receipt : IngestReceipt} (hc : c.feed.Tidy) (hrunning : c.running = true)
    (hlive : c.machine.isLive attempt = true)
    (hhandled : Handled config m c (.report (.ingested attempt ticket roll (.ok receipt))) c'
      effects) :
    receipt.rollId ∈ c'.feed.ids := by
  cases hhandled with
  | refused hstopped => simp [hrunning] at hstopped
  | ingestLate _ hlate => simp [hlive] at hlate
  | ingestKnown _ _ hknown => exact Feed.contains_iff.mp hknown
  | ingested => exact hc.mem_ids_prepend (roll.toRecord receipt.rollId)

theorem feed_of_known {attempt : Attempt} {frame : Frame} {event : InboundEvent}
    (hevent : InboundEvent.ofFrame m.now frame = .ok event)
    (hknown : ∀ record ∈ event.rolls m.toOccasion, record.id ∈ c.feed.ids)
    (hhandled : Handled config m c (.report (.frame attempt frame)) c' effects) :
    c'.feed = c.feed := by
  cases hhandled with
  | refused => rfl
  | frameLate => rfl
  | frameUnreadable => rfl
  | @delivered _ taken _ htaken =>
      obtain rfl : taken = event := Except.ok.inj (htaken.symm.trans hevent)
      have hnone : ∀ record ∈ (route m.toOccasion c.machine.state taken).action.arranged,
          c.feed.contains record.id = true := by
        intro record hrecord
        rw [arranged_route] at hrecord
        split at hrecord
        · exact Feed.contains_iff.mpr (hknown record hrecord)
        · simp at hrecord
      rw [Client.delivered, FeedAction.withoutKnown_eq_none hnone]
      rfl

/-- **Every roll is shown once.**  In every run in which no batch carries a roll twice, the feed
shows no roll twice at any time.  Right after the server has confirmed a roll of an attempt that is
live, the feed shows that roll exactly once, whatever came before; and as long as it is shown, an
echo of it changes nothing. -/
theorem each_roll_is_shown_once (config : Config) (turns : List Turn)
    (hturns : ∀ t ∈ turns, t.RollsDistinct) :
    (∀ past, past <+: turns → ((new config).after config past).feed.ids.Nodup) ∧
      ∀ past t future, turns = past ++ t :: future →
        let c := (new config).after config past
        (∀ attempt ticket roll receipt,
          t.input = .report (.ingested attempt ticket roll (.ok receipt)) →
            c.machine.isLive attempt = true →
              (c.next config t).feed.ids.count receipt.rollId = 1) ∧
        ∀ attempt frame event, t.input = .report (.frame attempt frame) →
          InboundEvent.ofFrame t.moment.now frame = .ok event →
            (∀ record ∈ event.rolls t.moment.toOccasion, record.id ∈ c.feed.ids) →
              (c.next config t).feed = c.feed := by
  have htidy : ∀ past, past <+: turns → ((new config).after config past).feed.Tidy := by
    intro past hpast
    exact tidy_after fun t ht => hturns t (hpast.subset ht)
  refine ⟨fun past hpast => (htidy past hpast).nodup, ?_⟩
  intro past t future hsplit c
  have hc : c.feed.Tidy := htidy past ⟨t :: future, hsplit.symm⟩
  have hhandled := handled_next config c t
  constructor
  · intro attempt ticket roll receipt ht hlive
    have hrunning : c.running = true := (reachable_after config past).running_of_isLive hlive
    have hnext : (c.next config t).feed.Tidy :=
      tidy_step hc (hturns t (by simp [hsplit])) hhandled
    rw [ht] at hhandled
    exact List.count_eq_one_of_mem hnext.nodup (mem_ids_of_ingested hc hrunning hlive hhandled)
  · intro attempt frame event ht hevent hknown
    rw [ht] at hhandled
    exact feed_of_known hevent hknown hhandled

/-- The echo of a roll arrives before its confirmation and once more after it. -/
theorem each_roll_is_shown_once_echoed :
    let m : Moment := ⟨⟨⟨⟨2024, 1, 1⟩, 0, 0, 0, 0⟩, 0⟩, 0, fun _ => 0⟩
    let echo : Turn := ⟨m, .report (.frame 1 ⟨"roll:new", .object [("rollId", .string "r"),
      ("notation", .string "1d20"), ("total", .number (.whole 7))]⟩)⟩
    let roll : NewRoll := ⟨"table", "1d20", [], [], 7, {}, {}, m.now⟩
    let past : List Turn :=
      [⟨m, .command 0 (.connect ⟨"key", "table"⟩)⟩, ⟨m, .report (.connected 1 0)⟩, echo]
    let confirmation : Turn := ⟨m, .report (.ingested 1 1 roll (.ok ⟨"r"⟩))⟩
    let c := (new {}).after {} past
    c.feed.ids = ["r"] ∧ (c.next {} confirmation).feed.ids.count "r" = 1 ∧
      (c.after {} [confirmation, echo]).feed.ids.Nodup := by
  intro m echo roll past confirmation c
  have hecho : echo.RollsDistinct := by
    intro attempt frame event hinput hevent
    cases hinput
    cases hevent
    exact List.nodup_nil
  have hturns : ∀ t ∈ past ++ [confirmation, echo], t.RollsDistinct := by
    simp only [past, List.cons_append, List.nil_append, List.forall_mem_cons]
    refine ⟨?_, ?_, hecho, ?_, hecho, by simp⟩ <;> exact fun _ _ _ hinput => nomatch hinput
  obtain ⟨hnodup, hturn⟩ := each_roll_is_shown_once {} (past ++ [confirmation, echo]) hturns
  refine ⟨by decide, ?_, ?_⟩
  · exact (hturn past confirmation [echo] rfl).1 1 1 roll ⟨"r"⟩ rfl (by decide)
  · have hall := hnodup (past ++ [confirmation, echo]) List.prefix_rfl
    rwa [after_append] at hall

end Client

end DiceTable

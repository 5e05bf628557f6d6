import DiceTable.Proofs.Client.Run

/-!
# Who is answered

A reply goes to the ticket of the input that is handled, or to the command that waits; there is
nobody else that a client could answer.  So a ticket that no input carries any more and that does
not wait is never heard of again.
-/

namespace DiceTable

/-- The ticket that an input carries. -/
@[simp] def Input.ticket? : Input → Option Ticket
  | .command ticket _ => some ticket
  | .report (.ingested _ ticket _ _) => some ticket
  | _ => none

/-- The reply that an effect gives to a ticket. -/
@[simp] def Effect.replyTo? (ticket : Ticket) : Effect → Option Reply
  | .reply answered given => if answered = ticket then some given else none
  | _ => none

/-- The replies to a ticket, in order. -/
def repliesTo (ticket : Ticket) (effects : List Effect) : List Reply :=
  effects.filterMap (Effect.replyTo? ticket)

section Replies

variable (ticket : Ticket) (effects later : List Effect)

@[simp] theorem repliesTo_nil : repliesTo ticket [] = [] := rfl

@[simp] theorem repliesTo_append :
    repliesTo ticket (effects ++ later) = repliesTo ticket effects ++ repliesTo ticket later :=
  List.filterMap_append

@[simp] theorem repliesTo_cons (effect : Effect) :
    repliesTo ticket (effect :: effects) =
      (effect.replyTo? ticket).toList ++ repliesTo ticket effects := by
  rw [repliesTo, List.filterMap_cons]
  cases effect.replyTo? ticket <;> rfl

end Replies

namespace Client

variable {config : Config} {m : Moment} {input : Input} {c c' : Client} {effects : List Effect}
  {ticket : Ticket}

/-! ## Effects that answer nobody -/

section Effects

variable (c : Client) (ticket : Ticket)

@[simp] theorem repliesTo_releaseTransport : repliesTo ticket c.releaseTransport.2 = [] := by
  rw [repliesTo, filterMap_releaseTransport (fun _ => rfl) fun _ => rfl]
  cases c.link <;> rfl

@[simp] theorem repliesTo_deliveryEffects (frame : Frame) (routed : Routed) :
    repliesTo ticket (c.deliveryEffects frame routed) = [] :=
  filterMap_deliveryEffects (fun _ => rfl) c frame routed

end Effects

/-! ## Effects that answer somebody -/

/-- A client that has stopped answers whoever gives it an input. -/
theorem repliesTo_refuse (input : Input) (ticket : Ticket) :
    repliesTo ticket (refuse input) =
      if input.ticket? = some ticket then [.error .clientClosed] else [] := by
  unfold refuse
  split
  · rename_i given command
    by_cases hticket : given = ticket <;> simp [hticket]
  · rename_i given _ _
    by_cases hticket : given = ticket <;> simp [hticket]
  · rename_i hcommand hingested
    cases input with
    | command given command => exact absurd rfl (hcommand given command)
    | report report =>
        cases report with
        | ingested attempt given roll result =>
            exact absurd rfl (hingested attempt given roll result)
        | _ => rfl
    | _ => rfl

theorem repliesTo_resolve (c : Client) (attempt : Attempt) (reply : Reply) (ticket : Ticket) :
    repliesTo ticket (c.resolve attempt reply).2 =
      if c.pending = some ⟨attempt, ticket⟩ then [reply] else [] := by
  cases hpending : c.pending with
  | none => simp [resolve, hpending]
  | some p =>
      obtain ⟨waiting, answered⟩ := p
      by_cases hattempt : waiting = attempt
      · by_cases hticket : answered = ticket <;> simp [resolve, hpending, hattempt, hticket]
      · simp [resolve, hpending, hattempt]

theorem repliesTo_teardown (c : Client) (ticket : Ticket) :
    repliesTo ticket c.teardown.2 =
      if c.pending.map (·.ticket) = some ticket then [.error .cancelled] else [] := by
  have hreleased := repliesTo_releaseTransport { c with machine := c.machine.disconnect.1 } ticket
  simp only [teardown, repliesTo_append, hreleased, List.nil_append]
  cases hpending : c.pending with
  | none => simp [releaseTransport]
  | some p => by_cases hticket : p.ticket = ticket <;> simp [releaseTransport, hticket]

/-! ## Tickets that nobody waits under -/

/-- The ticket does not wait. -/
def Unawaited (ticket : Ticket) (c : Client) : Prop := c.pending.map (·.ticket) ≠ some ticket

namespace Unawaited

theorem of_none (h : c.pending = none) : c.Unawaited ticket := by simp [Unawaited, h]

theorem repliesTo_resolve (h : c.Unawaited ticket) (attempt : Attempt) (reply : Reply) :
    repliesTo ticket (c.resolve attempt reply).2 = [] := by
  have hpending : c.pending ≠ some ⟨attempt, ticket⟩ := by
    intro hpending
    simp [Unawaited, hpending] at h
  rw [Client.repliesTo_resolve, if_neg hpending]

theorem resolve (h : c.Unawaited ticket) (attempt : Attempt) (reply : Reply) :
    (c.resolve attempt reply).1.Unawaited ticket := by
  unfold Client.resolve
  split
  · split
    · exact of_none rfl
    · exact h
  · exact h

/-- A turn answers its own ticket and the command that waits, and nobody else. -/
theorem step (h : c.Unawaited ticket) (hother : input.ticket? ≠ some ticket)
    (hhandled : Handled config m c input c' effects) :
    repliesTo ticket effects = [] ∧ c'.Unawaited ticket := by
  -- Only a command to connect fills the slot, and it fills it with its own ticket.
  cases hhandled with
  | refused => exact ⟨by rw [repliesTo_refuse, if_neg hother], h⟩
  | connectStarted =>
      refine ⟨by simp [status], ?_⟩
      simpa [Unawaited, dialing] using hother
  | disconnected =>
      have hreply := h.repliesTo_resolve (c := c.released) c.machine.attempt (.error .cancelled)
      refine ⟨?_, h.resolve (c := c.released) _ _⟩
      simpa [hreply, status] using hother
  | shutdown =>
      refine ⟨?_, of_none rfl⟩
      rw [repliesTo_cons, repliesTo_teardown, if_neg h]
      simpa using hother
  | abandoned => exact ⟨by rw [repliesTo_teardown, if_neg h], of_none rfl⟩
  | @linked link credentials =>
      have hreply := h.repliesTo_resolve (c := c.linked link credentials.table) c.machine.attempt
        (.ok (.table credentials.table))
      exact ⟨by simp [hreply, status, notify], h.resolve (c := c.linked link credentials.table) _ _⟩
  | @failed error =>
      have hreply := h.repliesTo_resolve (c := c.failed error.message) c.machine.attempt
        (.error error)
      exact ⟨by simp [hreply, status, notify], h.resolve (c := c.failed error.message) _ _⟩
  | timedOut =>
      have hreply := h.repliesTo_resolve (c := c.failed SessionState.timeoutReason)
        c.machine.attempt (.error (.connectionTimeout config.connectTimeout))
      refine ⟨?_, h.resolve (c := c.failed SessionState.timeoutReason) _ _⟩
      cases c.dialer <;> simp [hreply, status, notify]
  | lost => exact ⟨by simp [status], h⟩
  | _ => exact ⟨by simp_all [feedStatus, notify], h⟩

theorem run {turns : List Turn} (h : c.Unawaited ticket)
    (hturns : ∀ t ∈ turns, t.input.ticket? ≠ some ticket) :
    repliesTo ticket (c.effects config turns) = [] ∧ (c.after config turns).Unawaited ticket := by
  induction turns generalizing c with
  | nil => exact ⟨rfl, h⟩
  | cons t turns ih =>
      rw [List.forall_mem_cons] at hturns
      obtain ⟨hreplies, hnext⟩ := h.step hturns.1 (handled_next config c t)
      obtain ⟨hrest, hafter⟩ := ih hnext hturns.2
      exact ⟨by simp [hreplies, hrest], hafter⟩

/-- Nobody waits under a ticket that no turn has carried. -/
theorem run_new (config : Config) {turns : List Turn}
    (hturns : ∀ t ∈ turns, t.input.ticket? ≠ some ticket) :
    repliesTo ticket ((new config).effects config turns) = [] ∧
      ((new config).after config turns).Unawaited ticket :=
  run (of_none rfl) hturns

end Unawaited

end Client

end DiceTable

import DiceTable.Proofs.Client.Events
import DiceTable.Sandbox.World

/-!
# Runs in a world, beat by beat

A run goes on in *beats*: the client takes a turn, one of the effects that it has decided on is
brought about, something happens around it, the reader of the events takes one or goes away.  The
beats come in any order, so that anything may come between any two effects, also of one turn.

What happens around a client goes on *outside*: it neither looks at the client, its queue of events
or the length of the queue, nor touches them or the settings.  This is said once for each of the
functions that make up the world (`Outside`).
-/

namespace DiceTable

/-- The settings with an event queue of another length. -/
def Config.withBuffer (config : Config) (buffer : Nat) : Config :=
  { config with eventBuffer := buffer }

namespace Sandbox

/-! ## What happens around a client -/

/-- Something that happens around a client. -/
inductive Happening where
  /-- The job that was begun first is done. -/
  | job
  /-- One of the slow connections opens. -/
  | opening (index : Nat)
  /-- Something arrives on a connection. -/
  | arrival (link : LinkId) (arrival : Arrival)
  /-- Nothing gets through any more on a connection. -/
  | breakage (link : LinkId)
  /-- The server answers the roll that has waited longest. -/
  | answer

namespace World

/-- What something that happens around the client leads to. -/
def happen (w : World) : Happening → World
  | .job =>
    match w.jobs with
    | [] => w
    | job :: rest => { w with jobs := rest }.run job
  | .opening index =>
    match w.delayed[index]? with
    | none => w
    | some d => { w with delayed := w.delayed.eraseIdx index }.openLink d.attempt d.apiKey d.plan
  | .arrival link arrival =>
    match w.link? link with
    | some l => w.readLink { l with inbox := l.inbox ++ [arrival] }
    | none => w
  | .breakage link => w.breakLink link
  | .answer =>
    match w.ingest.waiting with
    | [] => w
    | s :: rest => { w with ingest.waiting := rest }.answerRoll s

/-- This world with the client, the queue of events and the settings of another one. -/
def within (w v : World) : World :=
  { w with client := v.client, events := v.events, config := v.config }

end World

/-- What goes on outside has nothing to do with the client or its events.  It leaves the settings as
they are, and of these it looks at the framing only. -/
def Outside (f : World → World) : Prop :=
  ∀ w v, v.config.wireFormat = w.config.wireFormat → f (w.within v) = (f w).within v

namespace Outside

variable {f : World → World}

theorem same (h : Outside f) (w : World) : f w = (f w).within w := h w w rfl

theorem client (h : Outside f) (w : World) : (f w).client = w.client :=
  (congrArg World.client (h.same w) :)

theorem events (h : Outside f) (w : World) : (f w).events = w.events :=
  (congrArg World.events (h.same w) :)

theorem config (h : Outside f) (w : World) : (f w).config = w.config :=
  (congrArg World.config (h.same w) :)

end Outside

namespace World

/-- Effects concern what is outside, but for the events. -/
theorem outside_perform {effect : Effect} (h : effect.event? = none) :
    Outside (perform · effect) := by
  cases effect with
  | emit event => simp at h
  | _ => exact fun _ _ _ => rfl

theorem outside_settleHandshake (l : Link) (attempt : Attempt) (p : Handshake.Progress) :
    Outside (settleHandshake · l attempt p) := by
  intro w v _
  unfold settleHandshake
  rcases p.result with _ | _ | _ <;> rfl

theorem outside_openLink (attempt : Attempt) (apiKey : String) (plan : DialPlan) :
    Outside (openLink · attempt apiKey plan) := by
  intro w v hwire
  unfold openLink
  dsimp only [within]
  rw [hwire]
  exact outside_settleHandshake _ attempt _ { w with links := w.links ++ [_] } v hwire

theorem outside_readLink (l : Link) : Outside (readLink · l) := by
  intro w v hwire
  unfold readLink
  dsimp only [within]
  rw [hwire]
  cases l.role with
  | unread => rfl
  | handshake attempt apiKey => exact outside_settleHandshake _ _ _ w v hwire
  | listener attempt =>
      dsimp only
      cases (Listener.listen w.config.wireFormat (fun _ => l.fault) l.inbox).stopped <;> rfl

theorem outside_sendOn (l : Link) (text : String) : Outside (sendOn · l text) := by
  intro w v _
  unfold sendOn
  cases l.broken <;> rfl

theorem outside_answerRoll (s : Submission) : Outside (answerRoll · s) := by
  intro w v _
  unfold answerRoll
  dsimp only [within]
  cases w.ingest.answer <;> rfl

theorem outside_takeRoll (s : Submission) : Outside (takeRoll · s) := by
  intro w v hwire
  unfold takeRoll
  dsimp only [within, note]
  split
  · exact outside_answerRoll s { w with journal := w.journal ++ [_] } v hwire
  · split
    · exact outside_answerRoll s
        { w with journal := w.journal ++ [_], ingest.released := false } v hwire
    · rfl

/-- What is done with a connection goes on outside, also when there is none. -/
theorem outside_onLink (id : LinkId) {f : Link → World → World} (hf : ∀ l, Outside (f l)) :
    Outside fun w => match w.link? id with | some l => f l w | none => w := by
  intro w v hwire
  have hlink : (w.within v).link? id = w.link? id := rfl
  dsimp only
  rw [hlink]
  cases w.link? id with
  | none => rfl
  | some l => exact hf l w v hwire

/-- Saying goodbye and closing a connection goes on outside. -/
theorem outside_closeLink (link : LinkId) (l : Link) : Outside fun w =>
    ((match w.config.wireFormat.goodbye with
      | some goodbye => w.sendOn l goodbye
      | none => w).putLink { l with role := .unread }).note [.closed link] := by
  intro w v hwire
  have hformat : (w.within v).config.wireFormat = w.config.wireFormat := hwire
  dsimp only
  rw [hformat]
  cases w.config.wireFormat.goodbye with
  | none => rfl
  | some goodbye =>
      have hsent : (w.within v).sendOn l goodbye = (w.sendOn l goodbye).within v :=
        outside_sendOn l goodbye w v hwire
      dsimp only
      rw [hsent]
      rfl

theorem outside_run (job : Job) : Outside (run · job) := by
  intro w v hwire
  cases job with
  | dial attempt url apiKey =>
      unfold run
      dsimp only [within, note]
      cases (w.plan url).opening with
      | atOnce =>
          exact outside_openLink attempt apiKey _ { w with journal := w.journal ++ [_] } v hwire
      | _ => rfl
  | listen attempt link =>
      exact outside_onLink link (fun l => outside_readLink { l with role := _ }) w v hwire
  | send link text => exact outside_onLink link (fun l => outside_sendOn l text) w v hwire
  | close link => exact outside_onLink link (outside_closeLink link) w v hwire
  | ingest submission => exact outside_takeRoll submission w v hwire

theorem outside_happen (h : Happening) : Outside (happen · h) := by
  intro w v hwire
  cases h with
  | job =>
      cases hjobs : w.jobs with
      | nil => simp only [happen, within, hjobs]
      | cons job rest =>
          simp only [happen, hjobs, show (w.within v).jobs = w.jobs from rfl]
          exact outside_run job { w with jobs := rest } v hwire
  | opening index =>
      unfold happen
      dsimp only [within]
      cases w.delayed[index]? with
      | none => rfl
      | some d =>
          exact outside_openLink d.attempt d.apiKey d.plan
            { w with delayed := w.delayed.eraseIdx index } v hwire
  | arrival link arrival =>
      exact outside_onLink link
        (fun l => outside_readLink { l with inbox := l.inbox ++ [arrival] }) w v hwire
  | breakage link =>
      have hbreak (l : Link) : Outside (putLink · { l with broken := true }) := fun _ _ _ => rfl
      exact outside_onLink link hbreak w v hwire
  | answer =>
      cases hwaiting : w.ingest.waiting with
      | nil => simp only [happen, within, hwaiting]
      | cons s rest =>
          simp only [happen, hwaiting, show (w.within v).ingest = w.ingest from rfl]
          exact outside_answerRoll s { w with ingest.waiting := rest } v hwire

end World

/-! ## Beats -/

/-- Something that happens in a run. -/
inductive Beat where
  /-- The client takes a turn, and decides what to do. -/
  | turn (t : Turn)
  /-- Of the effects that were decided on and are not brought about yet, the first one is. -/
  | perform
  | around (happening : Happening)
  /-- The reader takes the event that has waited longest, if any waits. -/
  | take
  /-- The reader goes away. -/
  | leave

/-- The turn of a beat. -/
def Beat.turn? : Beat → Option Turn
  | .turn t => some t
  | _ => none

/-- The turns of a run, in order. -/
def turnsOf (beats : List Beat) : List Turn := beats.filterMap Beat.turn?

theorem turnsOf_cons (b : Beat) (beats : List Beat) :
    turnsOf (b :: beats) = b.turn?.toList ++ turnsOf beats := by
  cases b <;> rfl

/-- How far a run has come. -/
structure Stage where
  world : World
  /-- The effects that the client has decided on and that are not brought about yet. -/
  outbox : List Effect := []
  /-- The effects that were brought about. -/
  performed : List Effect := []
  /-- The events that the reader has received. -/
  received : List ClientEvent := []

namespace Stage

/-- What a beat leads to. -/
def beat (s : Stage) : Beat → Stage
  | .turn t =>
    { s with
      world := { s.world with client := s.world.client.next s.world.config t }
      outbox := s.outbox ++ s.world.client.effectsOf s.world.config t }
  | .perform =>
    match s.outbox with
    | [] => s
    | effect :: rest =>
      { s with
        world := s.world.perform effect
        outbox := rest
        performed := s.performed ++ [effect] }
  | .around happening => { s with world := s.world.happen happening }
  | .take =>
    match s.world.events.waiting with
    | [] => s
    | event :: rest =>
      { s with
        world := { s.world with events.waiting := rest }
        received := s.received ++ [event] }
  | .leave => { s with world := { s.world with events := s.world.events.abandon } }

/-- What these beats lead to. -/
def after (s : Stage) (beats : List Beat) : Stage := beats.foldl beat s

variable (s : Stage)

/-- No beat changes the settings. -/
@[simp] theorem config_beat (b : Beat) : (s.beat b).world.config = s.world.config := by
  cases b with
  | turn t => rfl
  | perform =>
      unfold beat
      cases s.outbox with
      | nil => rfl
      | cons effect rest => cases effect <;> rfl
  | around happening => exact (World.outside_happen happening).config s.world
  | take =>
      unfold beat
      cases s.world.events.waiting <;> rfl
  | leave => rfl

theorem config_after (beats : List Beat) : (s.after beats).world.config = s.world.config := by
  induction beats generalizing s with
  | nil => rfl
  | cons b beats ih => exact (ih (s.beat b)).trans (s.config_beat b)

/-- A beat changes the client only if it is a turn. -/
theorem client_beat (b : Beat) : (s.beat b).world.client =
    s.world.client.after s.world.config b.turn?.toList := by
  cases b with
  | turn t => rfl
  | perform =>
      unfold beat
      cases s.outbox with
      | nil => rfl
      | cons effect rest => cases effect <;> rfl
  | around happening => exact (World.outside_happen happening).client s.world
  | take =>
      unfold beat
      cases s.world.events.waiting <;> rfl
  | leave => rfl

/-- The effects are those of the turns, whatever else happens. -/
theorem effects_beat (b : Beat) : (s.beat b).performed ++ (s.beat b).outbox =
    s.performed ++ s.outbox ++ s.world.client.effects s.world.config b.turn?.toList := by
  cases b with
  | turn t => simp [beat, Beat.turn?, Client.effects]
  | perform => cases houtbox : s.outbox <;> simp [beat, houtbox, Beat.turn?, Client.effects]
  | take =>
      cases hwaiting : s.world.events.waiting <;>
        simp [beat, hwaiting, Beat.turn?, Client.effects]
  | _ => simp [beat, Beat.turn?, Client.effects]

theorem client_after (beats : List Beat) : (s.after beats).world.client =
    s.world.client.after s.world.config (turnsOf beats) := by
  induction beats generalizing s with
  | nil => rfl
  | cons b beats ih =>
      have hrest := ih (s.beat b)
      rwa [config_beat, client_beat, ← Client.after_append, ← turnsOf_cons] at hrest

theorem effects_after (beats : List Beat) : (s.after beats).performed ++ (s.after beats).outbox =
    s.performed ++ s.outbox ++ s.world.client.effects s.world.config (turnsOf beats) := by
  induction beats generalizing s with
  | nil => exact (List.append_nil _).symm
  | cons b beats ih =>
      have hrest := ih (s.beat b)
      rwa [config_beat, client_beat, effects_beat, List.append_assoc, ← Client.effects_append,
        ← turnsOf_cons] at hrest

end Stage

end Sandbox

end DiceTable

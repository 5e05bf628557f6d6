import DiceTable.Proofs.Client.Secrecy
import DiceTable.Proofs.Sandbox.Stage

/-!
# The key does not leak

Two runs that differ only in the keys that the client is given to connect with, and in which the
world around the client does the same, show the user the same, and tell the server the same but for
the key.

## Strategy

A key is in the session of the client, in the dialling and the submissions that it has decided on,
and around it in the jobs, the slow connections, the connections on which a handshake is under way,
and the rolls that wait for the server.  Two worlds are the same but for keys if they agree in
everything else (`World.SameButKey`).  Every function that makes up the world keeps them so; what a
handshake sends and the journal are the two places where a key comes out.
-/

namespace DiceTable

/-- The texts are the same, or both are messages that carry a key. -/
inductive WireFormat.SameButKey (format : WireFormat) : String → String → Prop where
  | same (text : String) : SameButKey format text text
  | auth (key key' : String) : SameButKey format (format.auth key) (format.auth key')

/-! ## The handshake -/

namespace Handshake

/-- Two handshakes have come equally far, and have sent the same but for the key. -/
structure Progress.SameButKey (format : WireFormat) (p p' : Progress) : Prop where
  sent : List.Forall₂ format.SameButKey p.sent p'.sent
  rest : p'.rest = p.rest
  result : p'.result = p.result

variable {format : WireFormat} (key key' : String) (fault : Option TransportError)

/-- What is done about a message depends on the key only if the message asks for it. -/
theorem react_key (octets : List UInt8) :
    (react format key octets = .answer (format.auth key) ∧
        react format key' octets = .answer (format.auth key')) ∨
      react format key' octets = react format key octets := by
  unfold react
  cases format.decode octets with
  | error error => exact .inr rfl
  | ok incoming =>
      cases incoming with
      | opened => exact .inl ⟨rfl, rfl⟩
      | _ => exact .inr rfl

theorem await_sameButKey (arrivals : List Arrival) :
    (await format key fault arrivals).SameButKey format (await format key' fault arrivals) := by
  induction arrivals with
  | nil => exact ⟨.nil, rfl, rfl⟩
  | cons arrival arrivals ih =>
      cases arrival with
      | ended => exact ⟨.nil, rfl, rfl⟩
      | failed reason => exact ⟨.nil, rfl, rfl⟩
      | message octets =>
          rcases react_key key key' octets with ⟨hkey, hkey'⟩ | hsame
          · rw [await, await, hkey, hkey']
            cases fault with
            | some error => exact ⟨.nil, rfl, rfl⟩
            | none => exact ⟨.cons (.auth key key') ih.sent, ih.rest, ih.result⟩
          · rw [await, await, hsame]
            cases react format key octets with
            | finish result => exact ⟨.nil, rfl, rfl⟩
            | wait => exact ih
            | answer text =>
                cases fault with
                | some error => exact ⟨.nil, rfl, rfl⟩
                | none => exact ⟨.cons (.same text) ih.sent, ih.rest, ih.result⟩

theorem start_sameButKey (arrivals : List Arrival) :
    (start format key fault arrivals).SameButKey format (start format key' fault arrivals) := by
  unfold start
  split
  · exact await_sameButKey key key' fault arrivals
  · cases fault with
    | some error => exact ⟨.nil, rfl, rfl⟩
    | none => exact ⟨.cons (.auth key key') .nil, rfl, rfl⟩

end Handshake

namespace Sandbox

/-! ## Worlds that are the same but for keys -/

/-- The role with another key. -/
def LinkRole.withKey (key : String) : LinkRole → LinkRole
  | .handshake attempt _ => .handshake attempt key
  | role => role

/-- The connections are the same but for the key of a handshake. -/
def Link.SameButKey (l l' : Link) : Prop := ∃ key, l' = { l with role := l.role.withKey key }

namespace Link.SameButKey

variable {l l' : Link}

theorem refl (l : Link) : l.SameButKey l := by
  obtain ⟨id, role, broken, inbox⟩ := l
  cases role with
  | handshake attempt apiKey => exact ⟨apiKey, rfl⟩
  | _ => exact ⟨"", rfl⟩

theorem id_eq (h : l.SameButKey l') : l'.id = l.id := by
  obtain ⟨key, rfl⟩ := h
  rfl

theorem withInbox (h : l.SameButKey l') (inbox : List Arrival) :
    { l with inbox := inbox }.SameButKey { l' with inbox := inbox } := by
  obtain ⟨key, rfl⟩ := h
  exact ⟨key, rfl⟩

/-- A role without a key may be given to both. -/
theorem withRole (h : l.SameButKey l') (role : LinkRole) (hrole : role.withKey "" = role) :
    { l with role := role }.SameButKey { l' with role := role } := by
  obtain ⟨key, rfl⟩ := h
  exact ⟨"", by rw [hrole]⟩

end Link.SameButKey

/-- The job with another key, if there is one in it. -/
def Job.withKey (key : String) : Job → Job
  | .dial attempt url _ => .dial attempt url key
  | .ingest submission => .ingest { submission with apiKey := key }
  | job => job

/-- The jobs are the same but for the key. -/
def Job.SameButKey (job job' : Job) : Prop := ∃ key, job' = job.withKey key

theorem Job.SameButKey.refl (job : Job) : job.SameButKey job := by
  cases job with
  | dial attempt url apiKey => exact ⟨apiKey, rfl⟩
  | ingest submission => exact ⟨submission.apiKey, rfl⟩
  | _ => exact ⟨"", rfl⟩

/-- The connections that are going to open are the same but for the key. -/
def DelayedLink.SameButKey (d d' : DelayedLink) : Prop := ∃ key, d' = { d with apiKey := key }

/-- The submissions are the same but for the key. -/
def Submission.SameButKey (s s' : Submission) : Prop := ∃ key, s' = { s with apiKey := key }

/-- The entries are the same but for the key that was sent or that a roll was submitted with. -/
inductive JournalEntry.SameButKey (format : WireFormat) : JournalEntry → JournalEntry → Prop where
  | same (entry : JournalEntry) : SameButKey format entry entry
  | auth (link : LinkId) (key key' : String) :
      SameButKey format (.sent link (format.auth key)) (.sent link (format.auth key'))
  | submitted (roll : NewRoll) (key key' : String) :
      SameButKey format (.submitted roll key) (.submitted roll key')

/-- The worlds are the same but for keys. -/
inductive World.SameButKey : World → World → Prop where
  | intro {w : World} {client : Client} {links : List Link} {delayed : List DelayedLink}
      {waiting : List Submission} {jobs : List Job} {journal : List JournalEntry}
      (hclient : w.client.SameButKey client)
      (hlinks : List.Forall₂ Link.SameButKey w.links links)
      (hdelayed : List.Forall₂ DelayedLink.SameButKey w.delayed delayed)
      (hwaiting : List.Forall₂ Submission.SameButKey w.ingest.waiting waiting)
      (hjobs : List.Forall₂ Job.SameButKey w.jobs jobs)
      (hjournal : List.Forall₂ (JournalEntry.SameButKey w.config.wireFormat) w.journal journal) :
      SameButKey w { w with
        client := client
        links := links
        delayed := delayed
        ingest := { w.ingest with waiting := waiting }
        jobs := jobs
        journal := journal }

namespace World.SameButKey

variable {w w' : World}

theorem refl (w : World) : w.SameButKey w :=
  .intro (.refl w.client) (List.forall₂_same.mpr fun l _ => .refl l)
    (List.forall₂_same.mpr fun d _ => ⟨d.apiKey, rfl⟩)
    (List.forall₂_same.mpr fun s _ => ⟨s.apiKey, rfl⟩)
    (List.forall₂_same.mpr fun job _ => .refl job)
    (List.forall₂_same.mpr fun entry _ => .same entry)

theorem config_eq (h : w.SameButKey w') : w'.config = w.config := by
  cases h
  rfl

theorem plan_eq (h : w.SameButKey w') : w'.plan = w.plan := by
  cases h
  rfl

theorem events_eq (h : w.SameButKey w') : w'.events = w.events := by
  cases h
  rfl

theorem replies_eq (h : w.SameButKey w') : w'.replies = w.replies := by
  cases h
  rfl

theorem mailbox_eq (h : w.SameButKey w') : w'.mailbox = w.mailbox := by
  cases h
  rfl

theorem client (h : w.SameButKey w') : w.client.SameButKey w'.client := by
  cases h
  assumption

theorem links (h : w.SameButKey w') : List.Forall₂ Link.SameButKey w.links w'.links := by
  cases h
  assumption

theorem delayed (h : w.SameButKey w') :
    List.Forall₂ DelayedLink.SameButKey w.delayed w'.delayed := by
  cases h
  assumption

theorem waiting (h : w.SameButKey w') :
    List.Forall₂ Submission.SameButKey w.ingest.waiting w'.ingest.waiting := by
  cases h
  assumption

theorem jobs (h : w.SameButKey w') : List.Forall₂ Job.SameButKey w.jobs w'.jobs := by
  cases h
  assumption

theorem journal (h : w.SameButKey w') :
    List.Forall₂ (JournalEntry.SameButKey w.config.wireFormat) w.journal w'.journal := by
  cases h
  assumption

theorem withLinks (h : w.SameButKey w') {links links' : List Link}
    (hlinks : List.Forall₂ Link.SameButKey links links') :
    ({ w with links := links } : World).SameButKey { w' with links := links' } := by
  cases h with
  | intro hclient _ hdelayed hwaiting hjobs hjournal =>
      exact .intro hclient hlinks hdelayed hwaiting hjobs hjournal

theorem withDelayed (h : w.SameButKey w') {delayed delayed' : List DelayedLink}
    (hdelayed : List.Forall₂ DelayedLink.SameButKey delayed delayed') :
    ({ w with delayed := delayed } : World).SameButKey { w' with delayed := delayed' } := by
  cases h with
  | intro hclient hlinks _ hwaiting hjobs hjournal =>
      exact .intro hclient hlinks hdelayed hwaiting hjobs hjournal

theorem withWaiting (h : w.SameButKey w') {waiting waiting' : List Submission}
    (hwaiting : List.Forall₂ Submission.SameButKey waiting waiting') :
    ({ w with ingest.waiting := waiting } : World).SameButKey
      { w' with ingest.waiting := waiting' } := by
  cases h with
  | intro hclient hlinks hdelayed _ hjobs hjournal =>
      exact .intro hclient hlinks hdelayed hwaiting hjobs hjournal

theorem withJobs (h : w.SameButKey w') {jobs jobs' : List Job}
    (hjobs : List.Forall₂ Job.SameButKey jobs jobs') :
    ({ w with jobs := jobs } : World).SameButKey { w' with jobs := jobs' } := by
  cases h with
  | intro hclient hlinks hdelayed hwaiting _ hjournal =>
      exact .intro hclient hlinks hdelayed hwaiting hjobs hjournal

/-- The same may be done to both queues of events. -/
theorem withEvents (h : w.SameButKey w') (change : EventQueue → EventQueue) :
    ({ w with events := change w.events } : World).SameButKey
      { w' with events := change w'.events } := by
  cases h with
  | intro hclient hlinks hdelayed hwaiting hjobs hjournal =>
      exact .intro hclient hlinks hdelayed hwaiting hjobs hjournal

theorem note (h : w.SameButKey w') {entries entries' : List JournalEntry}
    (hentries : List.Forall₂ (JournalEntry.SameButKey w.config.wireFormat) entries entries') :
    (w.note entries).SameButKey (w'.note entries') := by
  cases h with
  | intro hclient hlinks hdelayed hwaiting hjobs hjournal =>
      exact .intro hclient hlinks hdelayed hwaiting hjobs (List.rel_append hjournal hentries)

theorem post (h : w.SameButKey w') (reports : List Report) :
    (w.post reports).SameButKey (w'.post reports) := by
  cases h with
  | intro hclient hlinks hdelayed hwaiting hjobs hjournal =>
      exact .intro hclient hlinks hdelayed hwaiting hjobs hjournal

theorem link? (h : w.SameButKey w') (id : LinkId) :
    Option.Rel Link.SameButKey (w.link? id) (w'.link? id) := by
  have hlinks := h.links
  unfold World.link?
  generalize w.links = links at hlinks ⊢
  generalize w'.links = links' at hlinks ⊢
  induction hlinks with
  | nil => exact .none
  | cons hlink hlinks ih =>
      simp only [List.find?_cons, hlink.id_eq]
      split
      · exact .some hlink
      · exact ih

theorem putLink (h : w.SameButKey w') {l l' : Link} (hl : l.SameButKey l') :
    (w.putLink l).SameButKey (w'.putLink l') := by
  refine h.withLinks (List.rel_map (fun k k' hk => ?_) h.links)
  rw [hk.id_eq, hl.id_eq]
  split
  · exact hl
  · exact hk

/-- Texts that are sent are noted as they are, but for the key. -/
theorem noteSent (h : w.SameButKey w') (link : LinkId) {texts texts' : List String}
    (htexts : List.Forall₂ w.config.wireFormat.SameButKey texts texts') :
    (w.note (texts.map (.sent link))).SameButKey (w'.note (texts'.map (.sent link))) := by
  refine h.note (List.rel_map (fun text text' htext => ?_) htexts)
  cases htext with
  | same => exact .same _
  | auth key key' => exact .auth link key key'

theorem settleHandshake (h : w.SameButKey w') {l l' : Link} (hl : l.SameButKey l')
    (attempt : Attempt) {p p' : Handshake.Progress} (hp : p.SameButKey w.config.wireFormat p') :
    (w.settleHandshake l attempt p).SameButKey (w'.settleHandshake l' attempt p') := by
  have hread := hl.withInbox p.rest
  have hdone := hread.withRole .unread rfl
  have hid := hl.id_eq
  unfold World.settleHandshake
  rw [hp.rest, hp.result]
  obtain ⟨id, role, broken, inbox⟩ := l'
  obtain rfl : id = l.id := hid
  have hnoted := h.noteSent l.id hp.sent
  rcases p.result with _ | error | _
  · exact hnoted.putLink hread
  · exact (hnoted.putLink hdone).post _
  · exact (hnoted.putLink hdone).post _

theorem openLink (h : w.SameButKey w') (attempt : Attempt) (key key' : String) (plan : DialPlan) :
    (w.openLink attempt key plan).SameButKey (w'.openLink attempt key' plan) := by
  have hnew : Link.SameButKey
      ⟨w.links.length + 1, .handshake attempt key, plan.broken, plan.arrivals⟩
      ⟨w.links.length + 1, .handshake attempt key', plan.broken, plan.arrivals⟩ := ⟨key', rfl⟩
  have hopened := h.withLinks (List.rel_append h.links (.cons hnew .nil))
  have hwire : w'.config.wireFormat = w.config.wireFormat := by rw [h.config_eq]
  unfold World.openLink
  dsimp only
  rw [← h.links.length_eq, hwire]
  exact hopened.settleHandshake hnew attempt (Handshake.start_sameButKey key key' _ _)

theorem readLink (h : w.SameButKey w') {l l' : Link} (hl : l.SameButKey l') :
    (w.readLink l).SameButKey (w'.readLink l') := by
  obtain ⟨key, rfl⟩ := hl
  obtain ⟨id, role, broken, inbox⟩ := l
  unfold World.readLink
  rw [h.config_eq]
  cases role with
  | unread => exact h
  | handshake attempt own =>
      exact h.settleHandshake ⟨key, rfl⟩ attempt (Handshake.await_sameButKey own key _ inbox)
  | listener attempt =>
      have hlink : Link.SameButKey ⟨id, .listener attempt, broken, inbox⟩
          ⟨id, .listener attempt, broken, inbox⟩ := ⟨key, rfl⟩
      dsimp only [Link.fault]
      generalize Listener.listen w.config.wireFormat _ inbox = p
      have hsame : List.Forall₂ w.config.wireFormat.SameButKey p.sent p.sent :=
        List.forall₂_same.mpr fun text _ => .same text
      have hheard := (h.noteSent id hsame).post (p.reports attempt)
      cases p.stopped with
      | none => exact hheard.putLink (hlink.withInbox p.rest)
      | some reason => exact hheard.putLink ((hlink.withInbox p.rest).withRole .unread rfl)

theorem sendOn (h : w.SameButKey w') {l l' : Link} (hl : l.SameButKey l') (text : String) :
    (w.sendOn l text).SameButKey (w'.sendOn l' text) := by
  obtain ⟨key, rfl⟩ := hl
  unfold World.sendOn
  dsimp only
  split
  · exact h
  · exact h.note (.cons (.same _) .nil)

theorem answerRoll (h : w.SameButKey w') {s s' : Submission} (hs : s.SameButKey s') :
    (w.answerRoll s).SameButKey (w'.answerRoll s') := by
  obtain ⟨key, rfl⟩ := hs
  cases h with
  | intro hclient hlinks hdelayed hwaiting hjobs hjournal =>
      unfold World.answerRoll
      dsimp only
      generalize w.ingest = ingest at hwaiting ⊢
      obtain ⟨holding, released, waiting, answer, accepted⟩ := ingest
      cases answer <;> exact .intro hclient hlinks hdelayed hwaiting hjobs hjournal

theorem takeRoll (h : w.SameButKey w') {s s' : Submission} (hs : s.SameButKey s') :
    (w.takeRoll s).SameButKey (w'.takeRoll s') := by
  obtain ⟨key, rfl⟩ := hs
  have hnoted := h.note (.cons (.submitted s.roll s.apiKey key) .nil)
  unfold World.takeRoll
  dsimp only
  generalize w.note [.submitted s.roll s.apiKey] = noted at hnoted ⊢
  generalize w'.note [.submitted s.roll key] = noted' at hnoted ⊢
  cases hnoted with
  | intro hclient hlinks hdelayed hwaiting hjobs hjournal =>
      dsimp only
      split
      · exact answerRoll (.intro hclient hlinks hdelayed hwaiting hjobs hjournal) ⟨key, rfl⟩
      · split
        · refine answerRoll (w := { noted with ingest.released := false }) ?_ ⟨key, rfl⟩
          exact .intro hclient hlinks hdelayed hwaiting hjobs hjournal
        · have hlast : Submission.SameButKey s { s with apiKey := key } := ⟨key, rfl⟩
          exact .intro hclient hlinks hdelayed (List.rel_append hwaiting (.cons hlast .nil)) hjobs
            hjournal

/-- What is done with a connection is done with one that is the same but for the key. -/
theorem onLink (h : w.SameButKey w') (id : LinkId) {f f' : Link → World}
    (hf : ∀ {l l'}, l.SameButKey l' → (f l).SameButKey (f' l')) :
    (match w.link? id with | some l => f l | none => w).SameButKey
      (match w'.link? id with | some l => f' l | none => w') := by
  have hlink := h.link? id
  generalize w.link? id = l at hlink ⊢
  generalize w'.link? id = l' at hlink ⊢
  cases hlink with
  | none => exact h
  | some hl => exact hf hl

theorem begin (h : w.SameButKey w') {job job' : Job} (hjob : job.SameButKey job') :
    (w.begin job).SameButKey (w'.begin job') :=
  h.withJobs (List.rel_append h.jobs (.cons hjob .nil))

theorem run (h : w.SameButKey w') {job job' : Job} (hjob : job.SameButKey job') :
    (w.run job).SameButKey (w'.run job') := by
  obtain ⟨key, rfl⟩ := hjob
  cases job with
  | dial attempt url own =>
      have hnoted := h.note (.cons (.same (.dialled url)) .nil)
      simp only [Job.withKey, World.run, h.plan_eq]
      cases (w.plan url).opening with
      | atOnce => exact hnoted.openLink attempt own key _
      | after delay =>
          have hclock : w'.clock = w.clock := by cases h; rfl
          have hnew : DelayedLink.SameButKey ⟨w.clock + delay, attempt, own, w.plan url⟩
              ⟨w'.clock + delay, attempt, key, w.plan url⟩ := ⟨key, by rw [hclock]⟩
          exact hnoted.withDelayed (List.rel_append h.delayed (.cons hnew .nil))
      | never => exact hnoted
      | refused reason => exact hnoted.post _
  | listen attempt link =>
      exact h.onLink link fun hl => h.readLink (hl.withRole (.listener attempt) rfl)
  | send link text => exact h.onLink link fun hl => h.sendOn hl text
  | close link =>
      refine h.onLink link fun {l l'} hl => ?_
      have hclosed {v v' : World} (hv : v.SameButKey v') :=
        (hv.putLink (hl.withRole .unread rfl)).note (.cons (.same (.closed link)) .nil)
      rw [h.config_eq]
      cases w.config.wireFormat.goodbye with
      | none => exact hclosed h
      | some goodbye => exact hclosed (h.sendOn hl goodbye)
  | ingest submission => exact h.takeRoll ⟨key, rfl⟩

theorem dismiss (h : w.SameButKey w') {dismissed : LinkRole → Bool}
    (hdismissed : ∀ role key, dismissed (role.withKey key) = dismissed role) :
    (w.dismiss dismissed).SameButKey (w'.dismiss dismissed) := by
  refine h.withLinks (List.rel_map (fun l l' hl => ?_) h.links)
  have hdone := hl.withRole .unread rfl
  obtain ⟨key, rfl⟩ := hl
  dsimp only
  rw [hdismissed]
  split
  · exact hdone
  · exact ⟨key, rfl⟩

theorem perform (h : w.SameButKey w') {effect effect' : Effect}
    (heffect : effect.SameButKey effect') :
    (w.perform effect).SameButKey (w'.perform effect') := by
  obtain ⟨key, rfl⟩ := heffect
  cases effect with
  | emit event =>
      cases h with
      | intro hclient hlinks hdelayed hwaiting hjobs hjournal =>
          exact .intro hclient hlinks hdelayed hwaiting hjobs hjournal
  | reply ticket reply =>
      cases h with
      | intro hclient hlinks hdelayed hwaiting hjobs hjournal =>
          exact .intro hclient hlinks hdelayed hwaiting hjobs hjournal
  | cancelDial attempt =>
      have hsame (d d' : DelayedLink) (hd : d.SameButKey d') :
          d.attempt != attempt ↔ d'.attempt != attempt := by
        obtain ⟨key, rfl⟩ := hd
        exact Iff.rfl
      have hkept := h.withDelayed (List.rel_filter hsame h.delayed)
      exact hkept.dismiss fun role key => by cases role <;> rfl
  | stopListening attempt => exact h.dismiss fun role key => by cases role <;> rfl
  | _ => exact h.begin ⟨key, rfl⟩

theorem happen (h : w.SameButKey w') (happening : Happening) :
    (w.happen happening).SameButKey (w'.happen happening) := by
  cases happening with
  | job =>
      have hjobs := h.jobs
      unfold World.happen
      generalize w.jobs = jobs at hjobs ⊢
      generalize w'.jobs = jobs' at hjobs ⊢
      cases hjobs with
      | nil => exact h
      | cons hjob hrest => exact (h.withJobs hrest).run hjob
  | opening index =>
      -- The opening connection is the first one of those that are left when `index` are dropped.
      have herased := List.rel_append (List.forall₂_take index h.delayed)
        (List.forall₂_drop (index + 1) h.delayed)
      have hopened := List.forall₂_drop index h.delayed
      simp only [World.happen, List.eraseIdx_eq_take_drop_succ, ← List.head?_drop]
      generalize w.delayed.drop index = opened at hopened ⊢
      generalize w'.delayed.drop index = opened' at hopened ⊢
      cases hopened with
      | nil => exact h
      | cons hd _ =>
          obtain ⟨key, rfl⟩ := hd
          exact (h.withDelayed herased).openLink _ _ key _
  | arrival link arrival =>
      have hread {l l' : Link} (hl : l.SameButKey l') :
          (w.readLink { l with inbox := l.inbox ++ [arrival] }).SameButKey
            (w'.readLink { l' with inbox := l'.inbox ++ [arrival] }) := by
        obtain ⟨key, rfl⟩ := hl
        exact h.readLink ⟨key, rfl⟩
      exact h.onLink link hread
  | breakage link =>
      refine h.onLink link fun hl => h.putLink ?_
      obtain ⟨key, rfl⟩ := hl
      exact ⟨key, rfl⟩
  | answer =>
      have hwaiting := h.waiting
      unfold World.happen
      generalize w.ingest.waiting = waiting at hwaiting ⊢
      generalize w'.ingest.waiting = waiting' at hwaiting ⊢
      cases hwaiting with
      | nil => exact h
      | cons hs hrest => exact (h.withWaiting hrest).answerRoll hs

end World.SameButKey

/-! ## Runs -/

/-- The beats are the same but for the key that the client is given to connect with. -/
inductive Beat.SameButKey : Beat → Beat → Prop where
  | turn {t t' : Turn} (ht : t.SameButKey t') : SameButKey (.turn t) (.turn t')
  | same (b : Beat) : SameButKey b b

namespace Stage

/-- The runs have come equally far, and are the same but for keys. -/
structure SameButKey (s s' : Stage) : Prop where
  world : s.world.SameButKey s'.world
  outbox : List.Forall₂ Effect.SameButKey s.outbox s'.outbox
  performed : List.Forall₂ Effect.SameButKey s.performed s'.performed
  received : s'.received = s.received

namespace SameButKey

variable {s s' : Stage}

theorem turn (h : s.SameButKey s') {t t' : Turn} (ht : t.SameButKey t') :
    (s.beat (.turn t)).SameButKey (s'.beat (.turn t')) := by
  obtain ⟨w, outbox, performed, received⟩ := s
  obtain ⟨w', outbox', performed', received'⟩ := s'
  obtain ⟨hworld, houtbox, hperformed, hreceived⟩ := h
  cases hworld with
  | intro hclient hlinks hdelayed hwaiting hjobs hjournal =>
      obtain ⟨hnext, heffects⟩ := hclient.turn w.config ht
      exact ⟨.intro hnext hlinks hdelayed hwaiting hjobs hjournal,
        List.rel_append houtbox heffects, hperformed, hreceived⟩

theorem beat (h : s.SameButKey s') {b b' : Beat} (hb : b.SameButKey b') :
    (s.beat b).SameButKey (s'.beat b') := by
  cases hb with
  | turn ht => exact h.turn ht
  | same b =>
      cases b with
      | turn t => exact h.turn (.same t)
      | perform =>
          obtain ⟨w, outbox, performed, received⟩ := s
          obtain ⟨w', outbox', performed', received'⟩ := s'
          obtain ⟨hworld, houtbox, hperformed, hreceived⟩ := h
          cases houtbox with
          | nil => exact ⟨hworld, .nil, hperformed, hreceived⟩
          | cons heffect hrest =>
              exact ⟨hworld.perform heffect, hrest,
                List.rel_append hperformed (.cons heffect .nil), hreceived⟩
      | around happening => exact { h with world := h.world.happen happening }
      | take =>
          unfold Stage.beat
          rw [h.world.events_eq]
          cases s.world.events.waiting with
          | nil => exact h
          | cons event rest =>
              exact { h with
                world := h.world.withEvents fun queue => { queue with waiting := rest }
                received := congrArg (· ++ [event]) h.received }
      | leave =>
          exact { h with world := h.world.withEvents EventQueue.abandon }

theorem after (h : s.SameButKey s') {beats beats' : List Beat}
    (hbeats : List.Forall₂ Beat.SameButKey beats beats') :
    (s.after beats).SameButKey (s'.after beats') := by
  induction hbeats generalizing s s' with
  | nil => exact h
  | cons hb hbeats ih => exact ih (h.beat hb)

end SameButKey

/-! ## The main statement -/

/-- **The key does not leak.**  Begin in any world, and let two runs differ only in the keys that
the client is given to connect with, none of which is empty: the client takes the same turns at the
same moments, and the same happens around it.

The user is shown the same: the events that were received and those that wait, the replies to all
commands, what a snapshot would be, and the text of the credentials.  The same is reported to the
client.  It does the same but for the key of its dialling and of its submissions; and what reaches
the outside is the same but for the messages that carry the key, and the key that rolls are
submitted with. -/
theorem key_does_not_leak (w : World) {beats beats' : List Beat}
    (h : List.Forall₂ Beat.SameButKey beats beats') :
    let s := Stage.after { world := w } beats
    let s' := Stage.after { world := w } beats'
    (s'.received = s.received ∧ s'.world.events = s.world.events ∧
        s'.world.replies = s.world.replies ∧ s'.world.mailbox = s.world.mailbox ∧
        shown s'.performed = shown s.performed ∧
        s'.world.client.takeSnapshot = s.world.client.takeSnapshot ∧
        s'.world.client.machine.credentials.map Credentials.debugText =
          s.world.client.machine.credentials.map Credentials.debugText) ∧
      List.Forall₂ Effect.SameButKey s.performed s'.performed ∧
      List.Forall₂ (JournalEntry.SameButKey w.config.wireFormat) s.world.journal
        s'.world.journal := by
  have hstart : SameButKey { world := w } { world := w } := ⟨.refl w, .nil, .nil, rfl⟩
  obtain ⟨hworld, -, hperformed, hreceived⟩ := hstart.after h
  obtain ⟨key, hclient⟩ := hworld.client
  have hjournal := hworld.journal
  rw [config_after] at hjournal
  refine ⟨⟨hreceived, hworld.events_eq, hworld.replies_eq, hworld.mailbox_eq,
    shown_eq_of_sameButKey hperformed, ?_, ?_⟩, hperformed, hjournal⟩
  · rw [hclient]
    rfl
  · rw [hclient, Client.machine_withKey, Machine.withKey, Option.map_map]
    exact congrArg (Option.map · _) (funext fun c => c.debugText_withKey key)

/-- A client connects with one key or another, and the server sees which. -/
theorem key_does_not_leak_of_two :
    let m : Moment := ⟨⟨⟨⟨2024, 1, 1⟩, 0, 0, 0, 0⟩, 0⟩, 0, fun _ => 0⟩
    let w : World := .new { wireFormat := .jsonFrames } m.now m.words
    let beats (key : String) : List Beat :=
      [.turn ⟨m, .command 1 (.connect (.ofTexts key "table"))⟩, .perform, .perform, .around .job]
    let s (key : String) : Stage := Stage.after { world := w } (beats key)
    List.Forall₂ Beat.SameButKey (beats "one") (beats " two ") ∧
      (s " two ").world.events = (s "one").world.events ∧
      (s " two ").world.client.takeSnapshot = (s "one").world.client.takeSnapshot ∧
      (s "one").world.journal =
        [.dialled w.config.socketUrl, .sent 1 (WireFormat.jsonFrames.auth "one")] ∧
      (s " two ").world.journal =
        [.dialled w.config.socketUrl, .sent 1 (WireFormat.jsonFrames.auth "two")] := by
  intro m w beats s
  have hbeats : List.Forall₂ Beat.SameButKey (beats "one") (beats " two ") :=
    .cons (.turn (Turn.sameButKey_ofTexts m 1 "table" (by decide) (by decide)))
      (.cons (.same _) (.cons (.same _) (.cons (.same _) .nil)))
  obtain ⟨⟨_, hevents, _, _, _, hsnapshot, _⟩, _⟩ := key_does_not_leak w hbeats
  exact ⟨hbeats, hevents, hsnapshot, by decide, by decide⟩

end Stage

end Sandbox

end DiceTable

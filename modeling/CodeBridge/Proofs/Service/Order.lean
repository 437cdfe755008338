import CodeBridge.Proofs.Connection.Table
import CodeBridge.Proofs.Service.Tools

/-!
# In what order two calls have written

However the moves of two rewriting calls about one file, of the writer and of the server are
interleaved, each call replaces the file at most once.  The edits of the second to do so are for the
text from before both or for what the first has left, and so is the text that they are applied to;
nobody looks again whether it is the one that the edits are for, or whether it is still there.  So
the calls need not seem to have run in any order, and the change of the first may be lost.

* `turn_write`, `turn_tell`    what the server does keeps all calls as they were;
* `Good`                       what is so of a whole state, `good_apply` being the step and
                               `good_run` the run;
* `run_two_rewritings`         what has become of the file at any moment;
* `not_serializable`, `newline_lost`   edits applied to a text that they are not for, and edits lost.
-/

namespace CodeBridge

namespace Meeting
variable {m : Meeting}

/-! ## the server's turns -/

/-- A move of the server, as every call sees it. -/
structure Turn (m : Meeting) (v v' : View) : Prop where
  sound : m.Sound v'
  kept : ∀ x, m.Kept x v v'

theorem turn_write {v : View} {message : Outgoing} {rest : List Outgoing} (h : m.Sound v)
    (ho : v.client.connection.outbox = message :: rest) :
    m.Turn v ⟨v.client.setConnection v.client.connection.writeNext, v.disk,
      { v.notes with server := v.notes.server.hear m.site.answering message }⟩ := by
  cases message with
  | stop => exact absurd (ho ▸ List.mem_cons_self) h.queued
  | message value =>
    have hc : v.client.connection.writeNext =
        { v.client.connection with
          outbox := rest
          outbound := v.client.connection.outbound ++ Frame.write value } := by
      unfold Connection.writeNext
      rw [ho]
      exact if_pos h.listening
    rw [hc]
    have hheard : m.heard v = (v.notes.server.hear m.site.answering (.message value)).after
        m.site.answering rest := by
      unfold heard
      rw [ho]
      rfl
    refine ⟨{ h with
      queued := fun hm => h.queued (ho ▸ List.mem_cons_of_mem _ hm)
      told := fun y hy hw => ?_
      replies := fun p hp => h.replies p (hheard ▸ hp) }, fun x => ?_⟩
    · obtain ⟨text, ht, hb⟩ := h.told y hy hw
      exact ⟨text, (congrArg (Server.text? m.site.uri) hheard.symm).trans ht, hb⟩
    · exact .of_same rfl rfl rfl rfl rfl rfl rfl (fun _ _ h => h) hheard.symm (fun _ _ h => h)
        fun _ _ _ _ => Iff.rfl

theorem complete_same (c : Connection) (id : UInt64) (answer : Answer) :
    (c.complete id answer).closed = c.closed ∧ (c.complete id answer).writing = c.writing ∧
      (c.complete id answer).listening = c.listening ∧
      (c.complete id answer).outbox = c.outbox := by
  unfold Connection.complete
  split
  · exact ⟨rfl, rfl, rfl, rfl⟩
  · exact ⟨rfl, rfl, rfl, rfl⟩

theorem waits_complete {v v' : View} {id other : UInt64} {r : Response}
    {response : Option Response} {settled : Bool} (hr : (id, r) ∈ (m.heard v).replies)
    (hc : v'.client.connection = v.client.connection.complete id r.answer)
    (hheard : ∀ p ∈ (m.heard v').replies, p ∈ (m.heard v).replies)
    (hw : m.Waits other response settled v) : m.Waits other response settled v' := by
  have hreplies : ∀ p ∈ (m.heard v').replies, p.1 = other → response = some p.2 := fun p hp =>
    hw.replies p (hheard p hp)
  by_cases hp : id ∈ v.client.connection.pending
  · unfold Connection.complete at hc
    rw [if_pos (List.contains_iff_mem.mpr hp)] at hc
    refine ⟨?_, fun a ha e => ?_, hreplies⟩
    · rw [hc]
      rcases hw.there with ⟨hsettled, hm⟩ | ⟨a, ha, e⟩
      · by_cases he : other = id
        · exact .inr ⟨(id, r.answer), List.mem_append_right _ List.mem_cons_self, he.symm⟩
        · exact .inl ⟨hsettled, List.mem_filter.mpr ⟨hm, decide_eq_true he⟩⟩
      · exact .inr ⟨a, List.mem_append_left _ ha, e⟩
    · rw [hc] at ha
      rcases List.mem_append.mp ha with ha | ha
      · exact hw.answers a ha e
      · obtain rfl := List.mem_singleton.mp ha
        exact ⟨r, hw.replies (id, r) hr e, rfl⟩
  · rw [Connection.complete_of_not_mem id r.answer _ hp] at hc
    exact ⟨hc ▸ hw.there, hc ▸ hw.answers, hreplies⟩

theorem turn_tell {v : View} {i : Nat} {id : UInt64} {r : Response} (h : m.Sound v)
    (hi : v.notes.server.replies[i]? = some (id, r)) :
    m.Turn v ⟨v.client.setConnection (v.client.connection.dispatch (r.toJson id)).1, v.disk,
      { v.notes with server :=
        { v.notes.server with replies := v.notes.server.replies.eraseIdx i } }⟩ := by
  rw [dispatch_toJson]
  obtain ⟨hclosed, hwriting, hlistening, houtbox⟩ :=
    complete_same v.client.connection id r.answer
  obtain ⟨hnext, hpending, hanswers⟩ := Connection.complete_sub id r.answer v.client.connection
  obtain ⟨htexts, hmem, hsub⟩ := v.notes.server.after_send m.site.answering
    v.client.connection.outbox i
  let v' : View := ⟨v.client.setConnection (v.client.connection.complete id r.answer), v.disk,
    { v.notes with server :=
      { v.notes.server with replies := v.notes.server.replies.eraseIdx i } }⟩
  have hheard : m.heard v' = ({ v.notes.server with
      replies := v.notes.server.replies.eraseIdx i } : Server).after m.site.answering
        v.client.connection.outbox := by
    show Server.after _ (v.client.connection.complete id r.answer).outbox _ = _
    rw [houtbox]
  have htold : m.told v' = m.told v := by
    show (m.heard v').text? _ = (m.heard v).text? _
    unfold Server.text?
    rw [hheard]
    exact congrArg (fun texts => Option.map _ (List.find? _ texts)) htexts
  have hreplies : ∀ p ∈ (m.heard v').replies, p ∈ (m.heard v).replies := by
    rw [hheard]
    exact hsub
  refine ⟨{ h with
    closed := hclosed.trans h.closed
    writing := hwriting.trans h.writing
    listening := hlistening.trans h.listening
    queued := fun hm => h.queued (houtbox ▸ hm)
    told := fun y hy hw => htold ▸ h.told y hy hw
    nextId := hnext.trans h.nextId
    pending := fun other hm => h.pending other (hpending other hm)
    answers := fun a ha => (hanswers a ha).elim (h.answers a) (h.pending a.1)
    replies := fun p hp => h.replies p (hreplies p hp) }, fun x => ?_⟩
  exact ⟨⟨[], (List.append_nil _).symm, nofun⟩, rfl, rfl, rfl, rfl, rfl,
    fun _ _ hl => ⟨hl, rfl, htold⟩, fun _ => htold,
    fun other response settled _ hw =>
      waits_complete (hmem _ (List.mem_of_getElem? hi)) rfl hreplies hw, .refl v.disk⟩

/-! ## at the end -/

/-- A call that has not replaced the file and has not failed had no edits for the text that it
has read: the one from before, or what the other has made of it. -/
theorem Ended.edits {v : View} {x : Side} (h : m.Ended x true v) (hs : m.Sound v)
    (hx : x ∉ v.notes.written) :
    (∀ text, m.textOn m.before = .ok text → m.edits x text = []) ∨
      v.notes.written = [x.other] ∧ ∀ text, m.textOn v.disk = .ok text → m.edits x text = [] := by
  obtain ⟨-, read, hknown, hnone⟩ := h.resolve_left hx
  rcases hknown with rfl | ⟨hw, hread⟩
  · exact .inl (hnone rfl)
  · have hreached := hs.files.reached
    rw [hw] at hreached
    exact .inr ⟨hw, hreached.unique hread ▸ hnone rfl⟩

/-! ## all of it -/

/-- The meeting of calls that begin on a host. -/
def ofHost (k : Nat) (h : Host) (answering : Answering) (path : Path) (jobs : Side → Option Job) :
    Meeting where
  site := h.site k answering path
  client := k
  root := h.root
  firstId := (h.link k).nextId
  before := h.disk
  jobs := jobs

structure Good (m : Meeting) (s : Serving) (g : Notes) : Prop where
  fine : m.Fine (s.host, g)
  server : g.server = s.server
  calls : ∀ x, (s.calls x).Keeps (m.terms x) Routine.dropAny
    (fun reply w => m.Fine w ∧
      (Assertion.finished reply.outcome.isOk : Assertion m x).Holds (m.view w)) (s.host, g)

theorem good_go {s : Serving} {g : Notes} (h : m.Good s g) (x : Side) :
    ∃ g', m.Good (s.go x) g' := by
  unfold Serving.go
  split
  · exact ⟨g, h⟩
  next he =>
    obtain ⟨g', hmove, hk⟩ := (h.calls x).poll 0 (Bool.eq_false_iff.mpr he)
    refine ⟨g', ?_⟩
    have hguar : m.Fine (((s.calls x).poll 0 s.host).1, g') ∧
        m.Kept x.other (m.view (s.host, g)) (m.view (((s.calls x).poll 0 s.host).1, g')) ∧
          g'.server = g.server := by
      rcases hmove with ⟨hs, rfl⟩ | hguar
      · rw [hs]
        exact ⟨h.fine, .refl _, rfl⟩
      · exact hguar h.fine
    obtain ⟨hfine, hkept, hserver⟩ := hguar
    refine ⟨hfine, hserver.trans h.server, fun y => ?_⟩
    rcases x.eq_or_eq_other y with rfl | rfl
    · show Routine.Keeps _ _ _ (Side.set s.calls y _ y) _
      rw [Side.set_self]
      exact hk
    · show Routine.Keeps _ _ _ (Side.set s.calls x _ x.other) _
      rw [Side.set_other]
      exact (h.calls x.other).rely fun _ => ⟨hfine, hkept⟩

theorem good_turn {s : Serving} {g g' : Notes} (h : m.Good s g) (c : Connection) (server : Server)
    (hg : g'.server = server)
    (ht : m.Turn (m.view (s.host, g)) ⟨(s.host.clientAt m.client).setConnection c, s.host.disk, g'⟩) :
    m.Good { s with host := s.host.setLink m.client c, server := server } g' := by
  have hview : m.view (s.host.setLink m.client c, g') = _ :=
    view_setClient h.fine.standing ((s.host.clientAt m.client).setConnection c) g'
  rw [← hview] at ht
  have hfine : m.Fine (s.host.setLink m.client c, g') := ⟨h.fine.standing.setClient _, ht.sound⟩
  exact ⟨hfine, hg, fun x => (h.calls x).rely fun _ => ⟨hfine, ht.kept x⟩⟩

theorem good_apply {s : Serving} {g : Notes} (h : m.Good s g) (e : Serving.Event) :
    ∃ g', m.Good (s.apply m.site.answering m.client e) g' := by
  cases e with
  | go x => exact good_go h x
  | write =>
    show ∃ g', m.Good (s.write m.site.answering m.client) g'
    unfold Serving.write
    dsimp only
    split
    · exact ⟨g, h⟩
    next message rest ho =>
      rw [← h.server]
      exact ⟨_, good_turn h _ _ rfl (turn_write h.fine.sound ho)⟩
  | tell i =>
    show ∃ g', m.Good (s.tell m.client i) g'
    unfold Serving.tell
    split
    · exact ⟨g, h⟩
    next id r hi =>
      rw [← h.server] at hi ⊢
      exact ⟨_, good_turn h _ _ rfl (turn_tell h.fine.sound hi)⟩

theorem good_run {s : Serving} {g : Notes} (h : m.Good s g) (events : List Serving.Event) :
    ∃ g', m.Good (s.run m.site.answering m.client events) g' := by
  induction events generalizing s g with
  | nil => exact ⟨g, h⟩
  | cons e events ih =>
    obtain ⟨g', h'⟩ := good_apply h e
    exact ih h'

section
variable {k : Nat} {h : Host} {answering : Answering} {path : Path} {texts : List (String × String)}
  {jobs : Side → Option Job}

theorem fine_start (hr : Ready k h) (hp : path = .ofNames (Path.resolve path.components)) :
    (ofHost k h answering path jobs).Fine (h, { server := { texts := texts } }) where
  standing := ⟨hr.slot, hr.client, rfl⟩
  sound := by
    have hline : ∀ n, n ∉ (h.clientAt k).lock.line := fun n hn => by
      rw [hr.unlocked] at hn
      cases hn
    have hpending : ∀ id, id ∉ (h.link k).pending := fun id hm => by
      rw [hr.pending] at hm
      cases hm
    have hanswers : ∀ a, a ∉ (h.link k).answers := fun a hm => by
      rw [hr.answers] at hm
      cases hm
    have hheard : ((ofHost k h answering path jobs).heard
        ⟨h.clientAt k, h.disk, { server := { texts := texts } }⟩).replies = [] := by
      show (Server.after _ (h.link k).outbox _).replies = []
      rw [hr.outbox]
      rfl
    have hqueued : Outgoing.stop ∉ (h.link k).outbox := fun hm => by
      rw [hr.outbox] at hm
      cases hm
    exact {
      lifecycle := hr.lifecycle
      formatting := rfl
      closed := hr.closed
      writing := hr.writing
      listening := hr.listening
      queued := hqueued
      files := ⟨hp, rfl, fun _ hn => hn, .nobody, nofun, fun _ => .nil⟩
      unwritten := nofun
      docs := hr.docs
      told := nofun
      lockIssued := fun n hn => absurd hn (hline n)
      ticket := nofun
      tickets := nofun
      requests := fun _ => Nat.zero_le _
      nextId := (UInt64.add_zero _).symm
      pending := fun id hm => absurd hm (hpending id)
      answers := fun a hm => absurd hm (hanswers a)
      replies := fun p hp => nomatch (congrArg (p ∈ ·) hheard).mp hp
      current := nofun
      currents := nofun }

variable (hf : ∀ x j, jobs x = some j → j.About h path)
  (hs : ∀ x text, Proper h.disk ((ofHost k h answering path jobs).batches x text))
include hf hs

theorem good_start (hr : Ready k h) (hp : path = .ofNames (Path.resolve path.components)) :
    (ofHost k h answering path jobs).Good (Serving.start h texts jobs)
      { server := { texts := texts } } := by
  refine ⟨fine_start hr hp, rfl, fun x => ?_⟩
  have hphase : (ofHost k h answering path jobs).Phase x (h.disk.readText path) 0 false
      ⟨h.clientAt k, h.disk, { server := { texts := texts } }⟩ :=
    ⟨nofun, rfl, fun _ => rfl, .inl rfl, rfl, rfl, nofun⟩
  have howes : Owes (.phase (h.disk.readText path) 0 false : Assertion
      (ofHost k h answering path jobs) x) (Job.call? (jobs x))
        fun reply => .finished reply.outcome.isOk := by
    cases hj : jobs x with
    | none =>
      have hnone : (ofHost k h answering path jobs).jobs x = none := hj
      refine owes_nothing (fun d => ?_) fun _ text _ => ?_
      · unfold leaves
        rw [hnone]
      · unfold edits batches
        rw [hnone]
        rfl
    | some j => exact owes_job (hs x) hj (mapError_eq_ok (hf x j hj))
  exact howes.keeps _ (fine_start hr hp) hphase

variable (texts) in
theorem finished_of_run (hr : Ready k h) (hp : path = .ofNames (Path.resolve path.components))
    (events : List Serving.Event) :
    let m := ofHost k h answering path jobs
    let final := (Serving.start h texts jobs).run answering k events
    ∃ v, v.disk = final.host.disk ∧ m.Sound v ∧ ∀ x reply, final.calls x = .done reply →
      (Assertion.finished reply.outcome.isOk : Assertion m x).Holds v := by
  obtain ⟨g, hgood⟩ : ∃ g, (ofHost k h answering path jobs).Good
      ((Serving.start h texts jobs).run answering k events) g :=
    good_run (good_start hf hs hr hp) events
  refine ⟨_, rfl, hgood.fine.sound, fun x reply hd => ?_⟩
  have hk := hgood.calls x
  rw [hd] at hk
  exact (hk _ ((Meeting.terms _ x).refl _)).2

end

end Meeting

/-- A file that a request can be about is named by the path itself. -/
theorem Job.About.settled {h : Host} {path : Path} {j : Job} (hj : j.About h path) :
    path = .ofNames (Path.resolve path.components) :=
  eq_ofNames_of_normalizePath (mapError_eq_ok hj)

namespace Serving

section
variable (answering : Answering) (k : Nat) (h : Host) (path : Path)
  (texts : List (String × String)) (events : List Event)

/-- A call that meets no other leaves what it leaves alone. -/
theorem run_alone (job : Job) (hready : Ready k h) (habout : job.About h path)
    (hproper : ∀ text, Proper h.disk (job.rewriting.batches (h.site k answering path) text))
    (hend : ((start h texts job.only).run answering k events).isFinished = true) :
    ((start h texts job.only).run answering k events).host.disk =
      job.rewriting.alone (h.site k answering path) h.disk := by
  have hf : ∀ x j, job.only x = some j → j.About h path := by
    intro x j hj
    cases x with
    | left => exact Option.some.inj hj ▸ habout
    | right => cases hj
  have hs : ∀ x text,
      Proper h.disk ((Meeting.ofHost k h answering path job.only).batches x text) := by
    intro x
    cases x with
    | left => exact hproper
    | right => exact fun _ => ⟨.nil, nofun⟩
  obtain ⟨v, hdisk, -, hfinished⟩ :=
    Meeting.finished_of_run texts hf hs hready habout.settled events
  obtain ⟨reply, hd⟩ := done_of_isFinished hend .left
  exact hdisk.symm.trans ((hfinished .left reply hd).2 rfl)

/-- **Of two rewriting calls about one file each replaces it at most once, and with edits for a
text that the file has had.**  The first turns the text from before both.  The second turns that text
once more, so that what the first has done is lost, or turns what the first has left, by the edits
for either text.  A call that is answered without a fault and has not replaced the file had no edits
for it. -/
theorem run_two_rewritings (job : Side → Job) (hready : Ready k h)
    (habout : ∀ x, (job x).About h path)
    (hproper : ∀ x text,
      Proper h.disk ((job x).rewriting.batches (h.site k answering path) text)) :
    let now := (start h texts (Job.both job)).run answering k events
    let site := h.site k answering path
    ∃ written : List Side,
      Replaced (fun x => (job x).rewriting.Turns site) (h.disk.readText path) written
        (now.host.disk.readText path) ∧
      ∀ x ∉ written, ∀ reply, now.calls x = .done reply → reply.outcome.isOk = true →
        (∀ text, h.disk.readText path = .ok text → (job x).rewriting.edits site text = []) ∨
          written = [x.other] ∧ ∀ text, now.host.disk.readText path = .ok text →
            (job x).rewriting.edits site text = [] := by
  have hf : ∀ x j, Job.both job x = some j → j.About h path := fun x j hj =>
    Option.some.inj hj ▸ habout x
  have hs : ∀ x text,
      Proper h.disk ((Meeting.ofHost k h answering path (Job.both job)).batches x text) := hproper
  obtain ⟨v, hdisk, hsound, hfinished⟩ :=
    Meeting.finished_of_run texts hf hs hready (habout .left).settled events
  dsimp only
  rw [← hdisk]
  refine ⟨v.notes.written, hsound.files.reached, fun x hx reply hd hok => ?_⟩
  have he := (hfinished x reply hd).1
  rw [hok] at he
  exact he.edits hsound hx

end

/-! ## two calls that end a file with a newline -/

/-- A formatter that ends a text with a newline unless it has one. -/
def endLine : Answering := fun _ _ text =>
  if text = some "a" then
    .result (.arr [.obj [("newText", .str "\n"), ("range", (Range.mk ⟨0, 1⟩ ⟨0, 1⟩).toJson)]])
  else .result (.arr [])

def lineHost : Host where
  disk := ⟨⟨[([Utf8.ofString "a"], .file (Utf8.ofString "a") 0o644)]⟩, none⟩
  root := .ofString "/"
  slot := .running 0
  clients := [{ lifecycle := .initialized }]

def lineJob : Side → Job
  | .left => ⟨.bool true, .format (.ofString "a")⟩
  | .right => ⟨.bool false, .format (.ofString "a")⟩

def linePath : Path := .ofString "/a"

def moves (side : Side) (count : Nat) : List Event := List.replicate count (.go side)

/-- The server hears what the calls have queued, and answers the first request. -/
def serves : List Event := [.write, .write, .write, .tell 0]

/-- Both calls ask about the text, and the left call is at its end when the other is answered. -/
def outpaced : List Event :=
  (List.replicate 40 [.go .left, .go .right]).flatten ++ serves ++ moves .left 40 ++ [.tell 0] ++
    moves .right 40

theorem ready_lineHost : Ready 0 lineHost where
  slot := rfl
  client := Nat.one_pos
  lifecycle := rfl
  unlocked := rfl
  docs := rfl
  closed := rfl
  writing := rfl
  listening := rfl
  outbox := rfl
  pending := rfl
  answers := rfl

theorem about_lineJob (x : Side) : (lineJob x).About lineHost linePath := by
  cases x with
  | left => rfl
  | right => rfl

theorem proper_lineJob (x : Side) (text : String) :
    Proper lineHost.disk ((lineJob x).rewriting.batches (lineHost.site 0 endLine linePath) text) := by
  have hspared : lineHost.disk.Spares (lineHost.site 0 endLine linePath).file := .inl (by decide)
  cases x with
  | left => exact Site.proper_format _ text hspared
  | right => exact Site.proper_format _ text hspared

/-- Both calls have the newline put in that one of them would have put in. -/
theorem newline_twice :
    let s := (start lineHost [] (Job.both lineJob)).run endLine 0 outpaced
    let site := lineHost.site 0 endLine linePath
    Ready 0 lineHost ∧ (∀ x, (lineJob x).About lineHost linePath) ∧
      (∀ x text, Proper lineHost.disk ((lineJob x).rewriting.batches site text)) ∧
      s.isFinished = true ∧ (s.host.disk.readText linePath).toOption = some "a\n\n" ∧
      ∃ written : List Side,
        Replaced (fun x => (lineJob x).rewriting.Turns site) (lineHost.disk.readText linePath)
          written (s.host.disk.readText linePath) ∧
        ∀ x ∉ written, ∀ reply, s.calls x = .done reply → reply.outcome.isOk = true →
          (∀ text, lineHost.disk.readText linePath = .ok text →
            (lineJob x).rewriting.edits site text = []) ∨
            written = [x.other] ∧ ∀ text, s.host.disk.readText linePath = .ok text →
              (lineJob x).rewriting.edits site text = [] := by
  refine ⟨ready_lineHost, about_lineJob, proper_lineJob, by decide +kernel, by decide +kernel, ?_⟩
  exact run_two_rewritings endLine 0 lineHost linePath [] outpaced lineJob ready_lineHost
    about_lineJob proper_lineJob

/-- Calls about one file need not seem to have run in any order. -/
theorem not_serializable : ¬ ∀ (answering : Answering) (k : Nat) (h : Host) (path : Path)
    (texts : List (String × String)) (job : Side → Job) (events : List Event),
    Ready k h → (∀ x, (job x).About h path) →
    ((start h texts (Job.both job)).run answering k events).isFinished = true →
    ∃ first : Side,
      ((start h texts (Job.both job)).run answering k events).host.disk.readText path =
        ((job first.other).rewriting.alone (h.site k answering path)
          ((job first).rewriting.alone (h.site k answering path) h.disk)).readText path := by
  intro hall
  obtain ⟨first, he⟩ := hall endLine 0 lineHost linePath [] lineJob outpaced ready_lineHost
    about_lineJob (by decide +kernel)
  replace he := congrArg Except.toOption he
  cases first with
  | left => exact absurd he (by decide +kernel)
  | right => exact absurd he (by decide +kernel)

/-! ## two calls that add a newline each -/

/-- A formatter that always adds a newline. -/
def addLine : Answering := fun _ _ _ =>
  .result (.arr [.obj [("newText", .str "\n"), ("range", (Range.mk ⟨0, 1⟩ ⟨0, 1⟩).toJson)]])

/-- The left call has staged its change when the other begins. -/
def overtaken : List Event :=
  moves .left 40 ++ serves ++ moves .left 17 ++ moves .right 40 ++ serves ++ moves .right 40 ++
    moves .left 40

/-- One of two newlines is lost, which both would be there if one call had run after the other. -/
theorem newline_lost :
    let s := (start lineHost [] (Job.both lineJob)).run addLine 0 overtaken
    let site := lineHost.site 0 addLine linePath
    s.isFinished = true ∧ (s.host.disk.readText linePath).toOption = some "a\n" ∧
      ∀ first : Side, (((lineJob first.other).rewriting.alone site
        ((lineJob first).rewriting.alone site lineHost.disk)).readText linePath).toOption =
          some "a\n\n" := by
  refine ⟨by decide +kernel, by decide +kernel, fun first => ?_⟩
  cases first with
  | left => decide +kernel
  | right => decide +kernel

end Serving

end CodeBridge

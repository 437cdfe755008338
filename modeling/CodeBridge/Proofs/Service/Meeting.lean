import CodeBridge.Proofs.Service.Serving

/-!
# Two calls that meet at one file

What is so at every moment while two rewriting calls about one file are served, and what each of
them may rely on while the other moves.

* `Notes`     what is noted beside the state: who has replaced the file, and of each call what it
              has staged, its requests, its ticket for the client's lock, and whether it holds the
              document;
* `Replaced`  what the file comes to: a call that replaces it goes by the text from before or by
              what the first has made of it;
* `Files`     what is so of the disk: the text of the file, and changes that wait;
* `Sound`     what is so of the client, the disk and the notes together;
* `Kept`      what a call keeps while others move: its notes, what the server was told while it
              holds the document or the lock, what is on its way to it, and the files there are.
-/

namespace CodeBridge

/-! ## notes -/

structure Notes where
  server : Server := {}
  /-- who has replaced the file, in that order -/
  written : List Side := []
  /-- what a call has staged and not committed yet, in that order -/
  staged : Side → List Change := fun _ => []
  /-- how many requests a call has made -/
  requests : Side → Nat := fun _ => 0
  /-- number of its last request -/
  current : Side → Option UInt64 := fun _ => none
  /-- its last ticket for the client's lock -/
  ticket : Side → Option Nat := fun _ => none
  /-- it holds the document -/
  holding : Side → Bool := fun _ => false

namespace Notes

def total (g : Notes) : Nat := g.requests .left + g.requests .right

def holders (g : Notes) : Nat := (g.holding .left).toNat + (g.holding .right).toNat

theorem total_eq (g : Notes) (x : Side) : g.total = g.requests x + g.requests x.other := by
  cases x with
  | left => rfl
  | right => exact Nat.add_comm _ _

theorem holders_eq (g : Notes) (x : Side) :
    g.holders = (g.holding x).toNat + (g.holding x.other).toNat := by
  cases x with
  | left => rfl
  | right => exact Nat.add_comm _ _

end Notes

/-! ## what becomes of the file -/

/-- What has become of the text of a file, and who has replaced it.  A call goes by the text `seen`,
which its edits are for, and by the text `base`, which they are applied to.  For the second call
each is from before the first or what the first has left, and `base` is never the older one. -/
inductive Replaced (turns : Side → String → String → String → Prop)
    (before : Except IoError String) : List Side → Except IoError String → Prop
  | nobody : Replaced turns before [] before
  | once {x : Side} {text new : String} :
      before = .ok text → turns x text text new → Replaced turns before [x] (.ok new)
  | twice {x : Side} {text between seen base new : String} :
      before = .ok text → turns x text text between →
      (seen, base) ∈ [(text, text), (text, between), (between, between)] →
      turns x.other seen base new → Replaced turns before [x, x.other] (.ok new)

/-! ## the meeting -/

/-- What does not change while two calls are served. -/
structure Meeting where
  site : Site
  client : Nat
  root : Path
  /-- number of the first request -/
  firstId : UInt64
  /-- the disk before both -/
  before : Disk
  jobs : Side → Option Job

/-- The client, the disk, and the notes. -/
structure View where
  client : Client
  disk : Disk
  notes : Notes

/-- A document and its holders, as a client lists it. -/
def docsOf (uri : String) : Nat → List (String × Nat)
  | 0 => []
  | n + 1 => [(uri, n + 1)]

namespace Meeting
variable (m : Meeting)

/-- The text of the file, if it can be read. -/
def textOn (d : Disk) : Except IoError String := d.readText m.site.path

/-- What a call leaves of a disk with the edits for what has been read. -/
def leaves (x : Side) (read : Except IoError String) (d : Disk) : Disk :=
  match m.jobs x with
  | some j => j.rewriting.leavesRead m.site read d
  | none => d

/-- What a call leaves of a disk when nobody else is about. -/
def alone (x : Side) (d : Disk) : Disk := m.leaves x (m.textOn d) d

/-- The files that the edits of a call for a text name, each with its edits. -/
def batches (x : Side) (text : String) : List (List Name × List TextEdit) :=
  match m.jobs x with
  | some j => j.rewriting.batches m.site text
  | none => []

/-- Its edits of the file itself. -/
def edits (x : Side) (text : String) : List TextEdit := editsAt m.site.file (m.batches x text)

def Turns (x : Side) (seen base new : String) : Prop :=
  m.edits x seen ≠ [] ∧ applyEditsToText base (m.edits x seen) = .ok new

def Reached (written : List Side) (now : Except IoError String) : Prop :=
  Replaced m.Turns (m.textOn m.before) written now

/-- What a call that has not written may have read. -/
def Known (x : Side) (written : List Side) (read : Except IoError String) : Prop :=
  read = m.textOn m.before ∨ written = [x.other] ∧ m.Reached [x.other] read

/-- What a call that has not written may go by: the text that its edits are for, and the one that
they are applied to. -/
def Sees (x : Side) (written : List Side) (seen base : String) : Prop :=
  m.textOn m.before = .ok seen ∧ m.textOn m.before = .ok base ∨
    written = [x.other] ∧ m.Reached [x.other] (.ok base) ∧
      (m.textOn m.before = .ok seen ∨ seen = base)

section
variable {m} {x : Side} {written : List Side} {now read : Except IoError String}
  {seen base new : String}

theorem Turns.unique {new' : String} (h : m.Turns x seen base new) (h' : m.Turns x seen base new') :
    new = new' := Except.ok.inj (h.2.symm.trans h'.2)

theorem Reached.unique (h : m.Reached [x] now) {now' : Except IoError String}
    (h' : m.Reached [x] now') : now = now' := by
  cases h with
  | once hb ht =>
    cases h' with
    | once hb' ht' =>
      obtain rfl := Except.ok.inj (hb.symm.trans hb')
      exact congrArg Except.ok (ht.unique ht')

/-- Who has not written is not among those who have, so at most the other is. -/
theorem Reached.of_not_mem (h : m.Reached written now) (hx : x ∉ written) :
    written = [] ∨ written = [x.other] := by
  cases h with
  | nobody => exact .inl rfl
  | @once y =>
    rcases x.eq_or_eq_other y with rfl | rfl
    · exact absurd List.mem_cons_self hx
    · exact .inr rfl
  | @twice y =>
    rcases x.eq_or_eq_other y with rfl | rfl
    · exact absurd List.mem_cons_self hx
    · rw [Side.other_other] at hx
      exact absurd (List.mem_cons_of_mem _ List.mem_cons_self) hx

theorem Reached.job (h : m.Reached [x] now) : m.jobs x ≠ none := by
  intro hnone
  cases h with
  | once _ ht =>
    refine ht.1 ?_
    unfold edits batches
    rw [hnone]
    rfl

theorem Known.alone_eq (h : m.Known x written read) (hj : m.jobs x.other = none) :
    m.alone x m.before = m.leaves x read m.before := by
  rcases h with rfl | ⟨-, hr⟩
  · rfl
  · exact absurd hj hr.job

/-- A call that has not written reads what it may have read. -/
theorem Reached.known (h : m.Reached written now) (hx : x ∉ written) : m.Known x written now := by
  rcases h.of_not_mem hx with rfl | rfl
  · cases h
    exact .inl rfl
  · exact .inr ⟨rfl, h⟩

theorem Reached.readable (h : m.Reached written now) (hk : m.Known x written (.ok seen)) :
    ∃ text, now = .ok text := by
  cases h with
  | nobody =>
    rcases hk with hk | ⟨hw, -⟩
    · exact ⟨seen, hk.symm⟩
    · cases hw
  | @once y text new => exact ⟨new, rfl⟩
  | @twice y text between seen base new => exact ⟨new, rfl⟩

theorem Reached.sees (h : m.Reached written (.ok base)) (hx : x ∉ written)
    (hk : m.Known x written (.ok seen)) : m.Sees x written seen base := by
  rcases h.of_not_mem hx with rfl | rfl
  · rcases hk with hk | ⟨hw, -⟩
    · have hbase : m.textOn m.before = .ok base := by
        generalize hnow : (Except.ok base : Except IoError String) = now at h
        cases h
        rfl
      exact .inl ⟨hk.symm, hbase⟩
    · cases hw
  · refine .inr ⟨rfl, h, hk.imp Eq.symm fun hr => ?_⟩
    exact Except.ok.inj (hr.2.unique h)

theorem Reached.replace (h : m.Reached written now) (hx : x ∉ written)
    (hs : m.Sees x written seen base) (ht : m.Turns x seen base new) :
    m.Reached (written ++ [x]) (.ok new) := by
  rcases hs with ⟨hseen, hbase⟩ | ⟨rfl, hr, hseen⟩
  · obtain rfl := Except.ok.inj (hseen.symm.trans hbase)
    rcases h.of_not_mem hx with rfl | rfl
    · exact .once hseen ht
    · cases h with
      | @once _ text between hb hfirst =>
        obtain rfl := Except.ok.inj (hb.symm.trans hseen)
        have h2 := Replaced.twice hb hfirst List.mem_cons_self (x.other_other.symm ▸ ht)
        rwa [Side.other_other] at h2
  · cases hr with
    | @once _ text _ hb hfirst =>
      have hpair : (seen, base) ∈ [(text, text), (text, base), (base, base)] := by
        rcases hseen with hseen | rfl
        · obtain rfl := Except.ok.inj (hb.symm.trans hseen)
          exact List.mem_cons_of_mem _ List.mem_cons_self
        · exact List.mem_cons_of_mem _ (List.mem_cons_of_mem _ List.mem_cons_self)
      have h2 := Replaced.twice hb hfirst hpair (x.other_other.symm ▸ ht)
      rwa [Side.other_other] at h2

end

/-! ## the files -/

structure Files (written : List Side) (staged : Side → List Change) (d : Disk) : Prop where
  settled : m.site.path = .ofNames m.site.names
  cwd : d.cwd = m.before.cwd
  /-- what was there is still there -/
  stays : ∀ names, m.before.get? names ≠ none → d.get? names ≠ none
  reached : m.Reached written (m.textOn d)
  waits : ∀ x, ∀ c ∈ staged x, c.Waits m.before d
  apart : ∀ x, ((staged x ++ staged x.other).map (·.temp)).Nodup

/-- What becomes of the files while others than a call move. -/
structure Steady (x : Side) (d d' : Disk) : Prop where
  dirs : d.KeepsDirs d'
  files : ∀ names, m.before.Spares names → d.HasFile names → d'.HasFile names
  /-- nobody else has anything to do with files -/
  solo : m.jobs x.other = none → d' = d

namespace Steady
variable {m} {x : Side} {d d' d'' : Disk}

theorem refl (d : Disk) : m.Steady x d d := ⟨.refl d, fun _ _ h => h, fun _ => rfl⟩

theorem trans (h : m.Steady x d d') (h' : m.Steady x d' d'') : m.Steady x d d'' :=
  ⟨h.dirs.trans h'.dirs, fun names hs hf => h'.files names hs (h.files names hs hf),
    fun hj => (h'.solo hj).trans (h.solo hj)⟩

end Steady

/-! ## what is so at every moment -/

/-- The server when it will have heard all that is queued. -/
def heard (v : View) : Server :=
  v.notes.server.after m.site.answering v.client.connection.outbox

/-- The text of the file that the server was given last. -/
def told (v : View) : Option String := (m.heard v).text? m.site.uri

/-- The number of a request that has been made. -/
def Issued (g : Notes) (id : UInt64) : Prop := ∃ i < g.total, id = m.firstId + .ofNat i

structure Sound (v : View) : Prop where
  lifecycle : v.client.lifecycle = .initialized
  formatting : v.client.settings.formatting = m.site.formatting
  closed : v.client.connection.closed = false
  writing : v.client.connection.writing = true
  listening : v.client.connection.listening = true
  queued : .stop ∉ v.client.connection.outbox
  files : m.Files v.notes.written v.notes.staged v.disk
  /-- who holds the document has not written -/
  unwritten : ∀ x, v.notes.holding x = true → x ∉ v.notes.written
  docs : v.client.openDocs = docsOf m.site.uri v.notes.holders
  /-- before the first writing a document is open with the text from before -/
  told : ∀ x, v.notes.holding x = true → v.notes.written = [] →
    ∃ text, m.told v = some text ∧ m.textOn m.before = .ok text
  lockIssued : ∀ n ∈ v.client.lock.line, n < v.client.lock.issued
  ticket : ∀ x n, v.notes.ticket x = some n → n < v.client.lock.issued
  tickets : ∀ x n, v.notes.ticket x = some n → v.notes.ticket x.other ≠ some n
  requests : ∀ x, v.notes.requests x ≤ 2
  nextId : v.client.connection.nextId = m.firstId + .ofNat v.notes.total
  pending : ∀ id ∈ v.client.connection.pending, m.Issued v.notes id
  answers : ∀ a ∈ v.client.connection.answers, m.Issued v.notes a.1
  replies : ∀ p ∈ (m.heard v).replies, m.Issued v.notes p.1
  current : ∀ x id, v.notes.current x = some id → m.Issued v.notes id
  currents : ∀ x id, v.notes.current x = some id → v.notes.current x.other ≠ some id

/-- What is on its way to a call that has made a request: the answer that the server has for it. -/
structure Waits (id : UInt64) (response : Option Response) (settled : Bool) (v : View) : Prop where
  there : settled = false ∧ id ∈ v.client.connection.pending ∨
    ∃ a ∈ v.client.connection.answers, a.1 = id
  answers : ∀ a ∈ v.client.connection.answers, a.1 = id →
    ∃ r, response = some r ∧ a.2 = r.answer
  replies : ∀ p ∈ (m.heard v).replies, p.1 = id → response = some p.2

/-! ## what a call keeps while others move -/

structure Kept (x : Side) (v v' : View) : Prop where
  written : ∃ more, v'.notes.written = v.notes.written ++ more ∧ ∀ y ∈ more, y = x.other
  staged : v'.notes.staged x = v.notes.staged x
  requests : v'.notes.requests x = v.notes.requests x
  current : v'.notes.current x = v.notes.current x
  ticket : v'.notes.ticket x = v.notes.ticket x
  holding : v'.notes.holding x = v.notes.holding x
  /-- with the lock held nobody opens or closes the document -/
  locked : ∀ n, v.notes.ticket x = some n → v.client.lock.holds n = true →
    v'.client.lock.holds n = true ∧
      v'.notes.holding x.other = v.notes.holding x.other ∧ m.told v' = m.told v
  told : v.notes.holding x = true → m.told v' = m.told v
  waits : ∀ id response settled, v.notes.current x = some id →
    m.Waits id response settled v → m.Waits id response settled v'
  files : m.Steady x v.disk v'.disk

namespace Kept
variable {m} {x : Side} {u v w : View}

theorem refl (v : View) : m.Kept x v v where
  written := ⟨[], (List.append_nil _).symm, nofun⟩
  staged := rfl
  requests := rfl
  current := rfl
  ticket := rfl
  holding := rfl
  locked _ _ h := ⟨h, rfl, rfl⟩
  told _ := rfl
  waits _ _ _ _ h := h
  files := .refl v.disk

theorem trans (h : m.Kept x u v) (h' : m.Kept x v w) : m.Kept x u w where
  written := by
    obtain ⟨more, e, hm⟩ := h.written
    obtain ⟨more', e', hm'⟩ := h'.written
    refine ⟨more ++ more', by rw [e', e, List.append_assoc], fun y hy => ?_⟩
    exact (List.mem_append.mp hy).elim (hm y) (hm' y)
  staged := h'.staged.trans h.staged
  requests := h'.requests.trans h.requests
  current := h'.current.trans h.current
  ticket := h'.ticket.trans h.ticket
  holding := h'.holding.trans h.holding
  locked n ht hl := by
    obtain ⟨hl', hh, htold⟩ := h.locked n ht hl
    obtain ⟨hl'', hh', htold'⟩ := h'.locked n (h.ticket.trans ht) hl'
    exact ⟨hl'', hh'.trans hh, htold'.trans htold⟩
  told hh := (h'.told (h.holding.trans hh)).trans (h.told hh)
  waits id response settled hc hw :=
    h'.waits id response settled (h.current.trans hc) (h.waits id response settled hc hw)
  files := h.files.trans h'.files

theorem not_mem (h : m.Kept x v w) (hx : x ∉ v.notes.written) : x ∉ w.notes.written := by
  obtain ⟨more, e, hm⟩ := h.written
  rw [e]
  refine fun hmem => (List.mem_append.mp hmem).elim hx fun hmem => ?_
  exact x.other_ne (hm x hmem).symm

theorem mem (h : m.Kept x v w) (hx : x ∈ v.notes.written) : x ∈ w.notes.written := by
  obtain ⟨more, e, -⟩ := h.written
  rw [e]
  exact List.mem_append_left more hx

/-- While a call has not written the other may have, and no more. -/
theorem written_of_not_mem (h : m.Kept x v w) (hs : m.Sound w) (hx : x ∉ v.notes.written)
    (hw : v.notes.written = [x.other]) : w.notes.written = [x.other] := by
  rcases hs.files.reached.of_not_mem (h.not_mem hx) with hw' | hw'
  · obtain ⟨more, e, -⟩ := h.written
    rw [hw', hw] at e
    cases e
  · exact hw'

theorem known {read : Except IoError String} (h : m.Kept x v w) (hs : m.Sound w)
    (hx : x ∉ v.notes.written) (hk : m.Known x v.notes.written read) :
    m.Known x w.notes.written read :=
  hk.imp id fun ⟨hw, hr⟩ => ⟨h.written_of_not_mem hs hx hw, hr⟩

theorem sees {seen base : String} (h : m.Kept x v w) (hs : m.Sound w)
    (hx : x ∉ v.notes.written) (hsee : m.Sees x v.notes.written seen base) :
    m.Sees x w.notes.written seen base :=
  hsee.imp id fun ⟨hw, hr⟩ => ⟨h.written_of_not_mem hs hx hw, hr⟩

end Kept

end Meeting

end CodeBridge
